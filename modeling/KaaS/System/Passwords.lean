import KaaS.App.Accounts
import KaaS.Library.Run

/-!
# Whose registry password it is

The store compares user names exactly, and the registry knows accounts by the lower-case name.
So `KAAS_ADMIN_USERNAME=Bob` and a tenant who registers as `bob` are two accounts of the portal
and one of the registry, which the sweep makes for whoever it sees first. A name may also be in
use in the registry already, for its own `admin` or for an account of the portal that is gone;
the sweep takes a conflict for success. Whoever has the name in the portal may then **set the
password** of that account.

If no account is
created under a name that is in use, up to case, in the portal, the registry, a sweep or a
rotation (`NamesUnused`), then names differ up to case and a tenant sets the password of its own
account only (`own_of_namesUnused`).
-/

namespace KaaS

open TransitionSystem

/-! ### The system -/

/-- An account of the registry: the account of the portal it was created for, if any, and the one
that last set its password. -/
structure RegistryAccount where
  username : String
  createdFor : Option String := none
  passwordOf : Option String := none
  deriving DecidableEq

/-- The accounts, those of the registry, those that a sweep has still to create there, and those
that are about to rotate their password. -/
structure Passwords where
  users : List Account := []
  registry : List RegistryAccount := []
  sweep : List Account := []
  rotations : List Account := []

inductive PasswordsInput
  | boot (id : String)
  | register (id username password : String)
  | login (id typed : String) (passwordOK : Bool) (identity : Option String)
  | deleteUser (actor userID : String)
  | startSweep
  | ensureNext (served : Bool)
  | endSweep
  | startRotation (userID : String)
  | rotate (i : Nat) (hits : List Nat)

namespace Passwords

variable (S : AccountSettings)

def initial (id : String) : Passwords where
  users := Accounts.ensureAdmin S [] id
  registry := S.registryBuiltin.map fun username => { username }

/-- `ensureLocalUser`: a name that exists is left as it is. -/
def ensureLocalUser (registry : List RegistryAccount) (u : Account) : List RegistryAccount :=
  let username := S.folding.toLower u.username
  if registry.any (·.username == username) then registry
  else registry ++ [{ username, createdFor := some u.id }]

/-- `findUser`: the first of the hits of a search that has the name up to case. The search is the
registry's and answers in any order. -/
def findUser (registry : List RegistryAccount) (hits : List Nat) (username : String) :
    Option Nat :=
  hits.find? fun j => registry[j]?.any fun r => S.folding.equalFold r.username username

/-- The account of the registry that a rotation of `actor` finds. -/
def rotated (s : Passwords) (actor : Account) (hits : List Nat) : Option Nat :=
  if S.canSetPasswords then findUser S s.registry hits (S.folding.toLower actor.username)
  else none

/-- The accounts after a call, which are as they were if it failed. -/
def withUsers (s : Passwords) : Except AccountError (List Account) → Passwords
  | .ok users => { s with users }
  | .error _ => s

def step (s : Passwords) : PasswordsInput → Passwords
  | .boot id => { s with users := Accounts.ensureAdmin S s.users id }
  | .register id username password =>
    s.withUsers (Accounts.register S s.users id username password)
  | .login id typed passwordOK identity =>
    s.withUsers (Accounts.login S s.users id typed passwordOK identity)
  | .deleteUser actor userID =>
    match Accounts.getUser s.users actor with
    | some actor => s.withUsers (Accounts.deleteUser s.users actor userID)
    | none => s
  | .startSweep =>
    if S.registryLocal && s.sweep.isEmpty then { s with sweep := s.users } else s
  | .ensureNext served =>
    match s.sweep with
    | [] => s
    | u :: sweep =>
      { s with
        sweep
        registry := if served then ensureLocalUser S s.registry u else s.registry }
  | .endSweep => { s with sweep := [] }
  | .startRotation userID =>
    match Accounts.getUser s.users userID with
    | some actor => { s with rotations := s.rotations ++ [actor] }
    | none => s
  | .rotate i hits =>
    match s.rotations[i]? with
    | none => s
    | some actor =>
      { s with
        rotations := s.rotations.eraseIdx i
        registry := match rotated S s actor hits with
          | some j => s.registry.modify j fun r => { r with passwordOf := some actor.id }
          | none => s.registry }

/-- The account whose rotation the step is, and the account of the registry whose password it
sets. -/
def sets (s : Passwords) : PasswordsInput → Option (Account × RegistryAccount)
  | .rotate i hits => do
    let actor ← s.rotations[i]?
    let j ← rotated S s actor hits
    let r ← s.registry[j]?
    pure (actor, r)
  | _ => none

/-- **The step sets own passwords**: an account that is not an administrator sets the password of
a registry account that was created for it. -/
def SetsOwn (s : Passwords) (i : PasswordsInput) : Prop :=
  ∀ actor r, sets S s i = some (actor, r) → actor.isAdmin = false → r.createdFor = some actor.id

/-! ### The condition -/

/-- The accounts of the portal that exist, or that a sweep or a rotation still works for. -/
def carried (s : Passwords) : List Account := s.users ++ s.sweep ++ s.rotations

/-- Two names that are one for the registry. -/
def clash (name name' : String) : Bool :=
  S.folding.equalFold (S.folding.toLower name) (S.folding.toLower name')

/-- Nobody has the name, up to case, in the portal or in the registry. -/
def Unused (s : Passwords) (name : String) : Prop :=
  (∀ u ∈ s.carried, clash S u.username name = false) ∧
    ∀ r ∈ s.registry, S.folding.equalFold r.username (S.folding.toLower name) = false

/-- The name is taken, so that no account is created, or not in use. -/
def Free (s : Passwords) : Except AccountError String → Prop
  | .ok name => (∃ u ∈ s.users, u.username = name) ∨ s.Unused S name
  | .error _ => True

/-- A tenant registers, or is provisioned, under a name that is not in use. -/
def NamesUnused (s : Passwords) : PasswordsInput → Prop
  | .register _ username _ => s.Free S (validateUsername username)
  | .login _ _ _ (some identity) => s.Free S (validateDirectoryUsername identity)
  | _ => True

instance Free.decidable (s : Passwords) (r : Except AccountError String) :
    Decidable (s.Free S r) := by
  cases r <;> unfold Free Unused <;> infer_instance

instance NamesUnused.decidable (s : Passwords) (i : PasswordsInput) :
    Decidable (NamesUnused S s i) := by
  rcases i with _ | _ | ⟨_, _, _, _ | _⟩ | _ | _ | _ | _ | _ | _ <;> unfold NamesUnused <;>
    infer_instance

/-! ### The invariant -/

/-- The administrator is one and has the seeded name; accounts that clash are one account; and
whatever the registry has under the name of a tenant was created for that tenant. -/
structure Sound (s : Passwords) : Prop where
  admin : ∃ a, s.users.filter (·.isAdmin) = [a] ∧ a.username = S.adminUsername
  nodup : (s.users.map (·.id)).Nodup
  same : ∀ u ∈ s.carried, ∀ v ∈ s.carried, clash S u.username v.username = true → u.id = v.id
  own : ∀ u ∈ s.carried, u.isAdmin = false → ∀ r ∈ s.registry,
    S.folding.equalFold r.username (S.folding.toLower u.username) = true →
    r.createdFor = some u.id

section Invariant

variable {S} {s : Passwords}

private theorem mem_carried {u : Account} :
    u ∈ s.carried ↔ u ∈ s.users ∨ u ∈ s.sweep ∨ u ∈ s.rotations := by
  rw [carried, List.mem_append, List.mem_append, or_assoc]

private theorem Sound.of_carried (h : s.Sound S) {t : Passwords} (husers : t.users = s.users)
    (hreg : t.registry = s.registry) (hcarried : ∀ u ∈ t.carried, u ∈ s.carried) :
    t.Sound S := by
  refine ⟨husers ▸ h.admin, husers ▸ h.nodup, fun u hu v hv => ?_, fun u hu hadmin r hr => ?_⟩
  · exact h.same u (hcarried u hu) v (hcarried v hv)
  · exact h.own u (hcarried u hu) hadmin r (hreg ▸ hr)

private theorem Free.of_eq {r : Except AccountError String} (h : s.Free S r) (name : String)
    (hr : r = .ok name) : (∃ u ∈ s.users, u.username = name) ∨ s.Unused S name := by
  rw [hr] at h
  exact h

/-- **A new tenant** under an unused name. -/
private theorem Sound.created (h : s.Sound S) {validate : String → Except AccountError String}
    {asked : String} {users : List Account}
    (hcreates : Accounts.Creates validate s.users asked users)
    (hfree : ∀ name, validate asked = .ok name →
      (∃ u ∈ s.users, u.username = name) ∨ s.Unused S name) : Sound S { s with users } := by
  obtain ⟨hname, hadmin, hnew⟩ := hcreates
  rename_i u
  have hunused : s.Unused S u.username := by
    rcases hfree u.username hname with ⟨v, hv, hvname⟩ | hunused
    · exact absurd hvname (hnew v hv).2
    · exact hunused
  have hcarried : ∀ v ∈ ({ s with users := s.users ++ [u] } : Passwords).carried,
      v ∈ s.carried ∨ v = u := by
    intro v hv
    simp only [mem_carried, List.mem_append, List.mem_singleton] at hv ⊢
    tauto
  refine ⟨?_, ?_, fun v hv w hw hclash => ?_, fun v hv hvadmin r hr hfold => ?_⟩
  · obtain ⟨a, ha, hausername⟩ := h.admin
    refine ⟨a, ?_, hausername⟩
    rw [List.filter_append, ha, List.filter_singleton, hadmin]
    rfl
  · rw [List.map_append, List.nodup_append]
    refine ⟨h.nodup, List.nodup_singleton _, ?_⟩
    intro id hid id' hid' heq
    obtain ⟨v, hv, rfl⟩ := List.mem_map.1 hid
    rw [List.map_singleton, List.mem_singleton] at hid'
    exact (hnew v hv).1 (heq.trans hid')
  · rcases hcarried v hv with hvold | rfl <;> rcases hcarried w hw with hwold | rfl
    · exact h.same v hvold w hwold hclash
    · exact absurd ((hunused.1 v hvold).symm.trans hclash) Bool.false_ne_true
    · have hclash' : clash S w.username v.username = true := S.folding.symm _ _ hclash
      exact absurd ((hunused.1 w hwold).symm.trans hclash') Bool.false_ne_true
    · rfl
  · rcases hcarried v hv with hvold | rfl
    · exact h.own v hvold hvadmin r hr hfold
    · exact absurd ((hunused.2 r hr).symm.trans hfold) Bool.false_ne_true

private theorem Sound.ensureAdmin (h : s.Sound S) (id : String) :
    Accounts.ensureAdmin S s.users id = s.users := by
  obtain ⟨a, ha, hname⟩ := h.admin
  have hmem : a ∈ s.users := List.mem_of_mem_filter (ha ▸ List.mem_singleton_self a)
  have hfound : (Accounts.getUserByUsername s.users S.adminUsername).isSome = true := by
    rw [Accounts.getUserByUsername, List.find?_isSome]
    exact ⟨a, hmem, by simpa using hname⟩
  obtain ⟨u, hu⟩ := Option.isSome_iff_exists.1 hfound
  rw [Accounts.ensureAdmin, hu]

private theorem Sound.deleted (h : s.Sound S) {actor : Account} {userID : String}
    {users : List Account} (hdel : Accounts.deleteUser s.users actor userID = .ok users) :
    Sound S { s with users } := by
  obtain ⟨rfl, target, htarget, hlast⟩ := Accounts.deleteUser_eq_ok hdel
  have hsub : (s.users.filter (·.id ≠ userID)).Sublist s.users := List.filter_sublist
  have hcarried : ∀ v ∈ ({ s with users := s.users.filter (·.id ≠ userID) } : Passwords).carried,
      v ∈ s.carried := by
    intro v hv
    rw [mem_carried] at hv ⊢
    exact hv.imp_left fun hv => hsub.subset hv
  refine ⟨?_, h.nodup.sublist (hsub.map _), fun u hu v hv => h.same u (hcarried u hu) v
    (hcarried v hv), fun u hu => h.own u (hcarried u hu)⟩
  obtain ⟨a, ha, hname⟩ := h.admin
  have hamem : a ∈ s.users.filter (·.isAdmin) := ha ▸ List.mem_singleton_self a
  obtain ⟨hauser, haadmin⟩ := List.mem_filter.1 hamem
  have hcount : Accounts.countAdmins s.users ≤ 1 := by
    have hlocal : (s.users.filter fun u => u.isAdmin && !u.fromDirectory).Sublist
        (s.users.filter (·.isAdmin)) := by
      rw [← List.filter_filter]
      exact List.filter_sublist.filter _
    rw [ha] at hlocal
    exact hlocal.length_le
  have hkeep : a.id ≠ userID := by
    intro hid
    have hmem : target ∈ s.users := List.mem_of_find?_eq_some htarget
    have htid : target.id = userID := by simpa using List.find?_some htarget
    have heq : target = a := List.inj_on_of_nodup_map h.nodup hmem hauser (htid.trans hid.symm)
    exact absurd (hlast (heq ▸ haadmin)) (by omega)
  refine ⟨a, ?_, hname⟩
  rw [List.filter_comm, ha, List.filter_singleton]
  simp [hkeep]

private theorem Sound.withUsers (h : s.Sound S) {r : Except AccountError (List Account)}
    (hok : ∀ users, r = .ok users → Sound S { s with users }) : (s.withUsers r).Sound S := by
  cases r with
  | error e => exact h
  | ok users => exact hok users rfl

private theorem Sound.ensured (h : s.Sound S) {u : Account} (hu : u ∈ s.carried) :
    Sound S { s with registry := ensureLocalUser S s.registry u } := by
  refine ⟨h.admin, h.nodup, h.same, fun v hv hadmin r hr hfold => ?_⟩
  simp only [ensureLocalUser] at hr
  split at hr
  · exact h.own v hv hadmin r hr hfold
  · rcases List.mem_append.1 hr with hr | hr
    · exact h.own v hv hadmin r hr hfold
    · obtain rfl := List.mem_singleton.1 hr
      rw [h.same u hu v hv hfold]

private theorem Sound.modified (h : s.Sound S) (j : Nat) (f : RegistryAccount → RegistryAccount)
    (hf : ∀ r, (f r).username = r.username ∧ (f r).createdFor = r.createdFor) :
    Sound S { s with registry := s.registry.modify j f } := by
  refine ⟨h.admin, h.nodup, h.same, fun v hv hadmin r hr hfold => ?_⟩
  obtain ⟨k, hk⟩ := List.mem_iff_getElem?.1 hr
  rw [List.getElem?_modify] at hk
  obtain ⟨r', hr', rfl⟩ := Option.map_eq_some_iff.1 hk
  have hmem : r' ∈ s.registry := List.mem_of_getElem? hr'
  split at hfold
  · rw [if_pos ‹_›, (hf r').2]
    exact h.own v hv hadmin r' hmem ((hf r').1 ▸ hfold)
  · rw [if_neg ‹_›]
    exact h.own v hv hadmin r' hmem hfold

private theorem Sound.ensureNext (h : s.Sound S) (served : Bool) :
    (s.step S (.ensureNext served)).Sound S := by
  simp only [Passwords.step]
  split
  · exact h
  · rename_i u sweep hsweep
    have hu : u ∈ s.carried := mem_carried.2 (.inr (.inl (hsweep ▸ List.mem_cons_self)))
    have hserved : Sound S { s with
        registry := if served then ensureLocalUser S s.registry u else s.registry } := by
      cases served with
      | false => exact h
      | true => exact h.ensured hu
    refine hserved.of_carried rfl rfl fun v hv => ?_
    rw [mem_carried] at hv ⊢
    rw [hsweep, List.mem_cons]
    tauto

private theorem Sound.startRotation (h : s.Sound S) (userID : String) :
    (s.step S (.startRotation userID)).Sound S := by
  simp only [Passwords.step]
  split
  · rename_i actor hactor
    refine h.of_carried rfl rfl fun u hu => ?_
    have hmem : actor ∈ s.users := List.mem_of_find?_eq_some hactor
    simp only [mem_carried, List.mem_append, List.mem_singleton] at hu ⊢
    rcases hu with hu | hu | hu | rfl
    · exact .inl hu
    · exact .inr (.inl hu)
    · exact .inr (.inr hu)
    · exact .inl hmem
  · exact h

private theorem Sound.rotate (h : s.Sound S) (i : Nat) (hits : List Nat) :
    (s.step S (.rotate i hits)).Sound S := by
  simp only [Passwords.step]
  split
  · exact h
  · rename_i actor hactor
    have hdone : Sound S { s with rotations := s.rotations.eraseIdx i } := by
      refine h.of_carried rfl rfl fun u hu => ?_
      rw [mem_carried] at hu ⊢
      exact hu.imp_right fun hu => hu.imp_right fun hu => List.eraseIdx_subset hu
    split
    · exact hdone.modified _ _ fun r => ⟨rfl, rfl⟩
    · exact hdone

private theorem Sound.step (h : s.Sound S) {i : PasswordsInput} (hcond : NamesUnused S s i) :
    (s.step S i).Sound S := by
  cases i with
  | boot id =>
    rw [Passwords.step, h.ensureAdmin]
    exact h
  | register id username password =>
    simp only [NamesUnused, Passwords.step] at hcond ⊢
    exact h.withUsers fun users hok => h.created (Accounts.creates_of_register hok) hcond.of_eq
  | login id typed passwordOK identity =>
    simp only [Passwords.step]
    refine h.withUsers fun users hok => ?_
    rcases Accounts.creates_of_login hok with rfl | ⟨name, rfl, hcreates⟩
    · exact h
    · simp only [NamesUnused] at hcond
      exact h.created hcreates hcond.of_eq
  | deleteUser actor userID =>
    simp only [Passwords.step]
    split
    · exact h.withUsers fun users hok => h.deleted hok
    · exact h
  | startSweep =>
    simp only [Passwords.step]
    split
    · refine h.of_carried rfl rfl fun u hu => ?_
      rw [mem_carried] at hu ⊢
      tauto
    · exact h
  | ensureNext served => exact h.ensureNext served
  | endSweep =>
    refine h.of_carried rfl rfl fun u hu => ?_
    rw [mem_carried] at hu ⊢
    exact hu.imp_right fun hu => .inr (hu.resolve_left List.not_mem_nil)
  | startRotation userID => exact h.startRotation userID
  | rotate i hits => exact h.rotate i hits

private theorem Sound.initial (id : String) : (initial S id).Sound S := by
  have husers : (Passwords.initial S id).users =
      [{ id, username := S.adminUsername, isAdmin := true }] := rfl
  have hcarried : ∀ u ∈ (Passwords.initial S id).carried,
      u = { id, username := S.adminUsername, isAdmin := true } := by
    intro u hu
    rw [mem_carried, husers] at hu
    simpa [Passwords.initial] using hu
  refine ⟨⟨_, by rw [husers]; rfl, rfl⟩, ?_, fun u hu v hv _ => ?_, fun u hu hadmin => ?_⟩
  · rw [husers]
    exact List.nodup_singleton _
  · rw [hcarried u hu, hcarried v hv]
  · rw [hcarried u hu] at hadmin
    cases hadmin

private theorem Sound.setsOwn (h : s.Sound S) (i : PasswordsInput) : SetsOwn S s i := by
  intro actor r hsets hadmin
  cases i with
  | rotate i hits =>
    simp only [sets, Option.bind_eq_bind, Option.bind_eq_some_iff, Option.pure_def,
      Option.some.injEq, Prod.mk.injEq] at hsets
    obtain ⟨actor', hactor, j, hj, r', hr, rfl, rfl⟩ := hsets
    have hmem : actor' ∈ s.carried := mem_carried.2 (.inr (.inr (List.mem_of_getElem? hactor)))
    refine h.own actor' hmem hadmin r' (List.mem_of_getElem? hr) ?_
    unfold rotated at hj
    split at hj
    · have hfold := List.find?_some hj
      simpa [hr] using hfold
    · cases hj
  | _ => cases hsets

private theorem Sound.distinct (h : s.Sound S) :
    s.users.Pairwise fun u v => S.folding.toLower u.username ≠ S.folding.toLower v.username := by
  have hids : s.users.Pairwise fun u v => u.id ≠ v.id := List.pairwise_map.1 h.nodup
  refine hids.imp_of_mem fun {u v} hu hv hne heq => hne ?_
  refine h.same u (mem_carried.2 (.inl hu)) v (mem_carried.2 (.inl hv)) ?_
  rw [clash, heq]
  exact S.folding.refl _

end Invariant

/-- **In every run in which names are unused when they are given out**, the names of accounts
differ after lower-casing and tenants set the passwords of their own registry accounts only. -/
theorem own_of_namesUnused (S : AccountSettings) (id : String) (is : List PasswordsInput)
    (h : Along (step S) (NamesUnused S) (initial S id) is) :
    (run (step S) (initial S id) is).users.Pairwise
      (fun u v => S.folding.toLower u.username ≠ S.folding.toLower v.username) ∧
    Along (step S) (SetsOwn S) (initial S id) is := by
  constructor
  · exact (run_invariant (fun _ _ hs hcond => hs.step hcond) (Sound.initial id) h).distinct
  · exact Along.of_invariant (fun _ i hs hcond => ⟨hs.step hcond, hs.setsOwn i⟩)
      (Sound.initial id) h

/-! ### Bob, and Bob -/

/-- The administrator is called `Bob`. -/
def adminBob : AccountSettings where
  adminUsernameEnv := "Bob"

/-- The sweep makes registry accounts for the administrator and for a tenant, who then asks for a
password. -/
def tenantRotates (name : String) : List PasswordsInput :=
  [.startSweep, .ensureNext true, .register "2" name "secret", .startSweep, .ensureNext true,
    .ensureNext true, .startRotation "2", .rotate 0 [0, 1, 2]]

theorem own_tenantRotates :
    Along (step adminBob) (NamesUnused adminBob) (initial adminBob "1") (tenantRotates "alice") ∧
    (run (step adminBob) (initial adminBob "1") (tenantRotates "alice")).users.Pairwise
      (fun u v => adminBob.folding.toLower u.username ≠ adminBob.folding.toLower v.username) ∧
    Along (step adminBob) (SetsOwn adminBob) (initial adminBob "1") (tenantRotates "alice") := by
  have hcond : Along (step adminBob) (NamesUnused adminBob) (initial adminBob "1")
      (tenantRotates "alice") := by
    decide +kernel
  exact ⟨hcond, own_of_namesUnused adminBob "1" (tenantRotates "alice") hcond⟩

/-- The tenant `bob` has the password of the administrator's registry account. -/
theorem takenOver_bob :
    let s := run (step adminBob) (initial adminBob "1") (tenantRotates "bob")
    s.users.map (fun u => (u.id, u.username, u.isAdmin)) =
      [("1", "Bob", true), ("2", "bob", false)] ∧
    s.registry = [⟨"admin", none, none⟩, ⟨"bob", some "1", some "2"⟩] := by
  decide +kernel

end Passwords

end KaaS
