import KaaS.System.Calls

/-!
# All clusters and accounts

The store holds the accounts and the rows of every tenant's clusters. Calls of the API and
ticks of the reconciler are **in flight** from the moment they have read what they decide on:
`CreateCluster` from the moment its actor was resolved, a mutation with the row it read,
`DeleteUser` with the clusters it still has to mark, a tick with its copy and, once its work is
done, with what it wants to store. `LockAdmission` keeps `CreateCluster`'s critical section,
`UpdateCluster`, the disk calls and `DeleteUser` apart from each other and from nothing else.

At most one tick of a cluster is in flight: jobs are unique by cluster id while they are active.

What a tick does outside the store is applied to a **world** when it works, a
parameter: the registry and the inventories of the provisioners are instances. A call that fails has
had part of its effect, and the input of the step says which part.
-/

namespace KaaS

open TransitionSystem

/-! ### The system -/

inductive FleetFlight
  /-- `CreateCluster`, its actor resolved -/
  | create (actor : String)
  /-- a mutation, with the row it read -/
  | call (k : Admission × Mutation) (copy : Cluster)
  /-- `DeleteUser`, with the clusters still to be marked -/
  | deleteUser (user : String) (left : List Cluster)
  /-- a tick, with the row it read -/
  | tick (copy : Cluster)
  /-- a tick that has made its calls, with the row it wants to store -/
  | worked (copy : Cluster) (result : Option Cluster)

/-- The calls that hold `LockAdmission` while they are in flight. -/
def FleetFlight.locks : FleetFlight → Bool
  | .call k _ => k.2.locksAdmission
  | .deleteUser _ _ => true
  | _ => false

def FleetFlight.tick? : FleetFlight → Option Cluster
  | .tick copy | .worked copy _ => some copy
  | _ => none

structure Fleet (ω : Type) where
  users : List String := []
  rows : List Cluster := []
  flights : List FleetFlight := []
  world : ω

/-- A platform, the DNS names it gives to clusters, and what calls of a tick do outside. The
number says how far a call that failed has come. -/
structure Deployment (ω : Type) where
  platform : Platform
  admitDNS : String → Except String String := fun _ => .ok ""
  effect : Nat → Cluster → List Event → ω → ω

inductive FleetInput
  | register (user : String)
  | startCreate (actor : String)
  | create (i : Nat) (adm : CreateAdmission) (req : CreateRequest)
  | startCall (k : Admission × Mutation) (id : String)
  | commitCall (i : Nat)
  | startDeleteUser (user : String)
  | deleteNext (i : Nat)
  | startTick (id : String)
  | work (i : Nat) (ρ : Env) (n : Nat)
  | commitTick (i : Nat)
  | abandon (i : Nat)

namespace Fleet

variable {ω : Type}

def row? (s : Fleet ω) (id : String) : Option Cluster := s.rows.find? (·.id == id)

/-- `UpdateCluster` of the store: the row with this id is replaced. -/
def store (s : Fleet ω) (c : Cluster) : Fleet ω :=
  { s with rows := s.rows.map fun row => if row.id = c.id then c else row }

def opened (s : Fleet ω) (f : FleetFlight) : Fleet ω := { s with flights := s.flights ++ [f] }

def closed (s : Fleet ω) (i : Nat) : Fleet ω := { s with flights := s.flights.eraseIdx i }

def locked (s : Fleet ω) : Bool := s.flights.any (·.locks)

def ticking (s : Fleet ω) (id : String) : Bool :=
  s.flights.any fun f => f.tick?.any (·.id == id)

/-- The owner has a cluster of that name that is not deleted. -/
def nameTaken (s : Fleet ω) (owner name : String) : Bool :=
  s.rows.any fun c => c.ownerID == owner && c.name == name && c.deletedAt.isNone

def cascade (s : Fleet ω) (user : String) : List Cluster :=
  s.rows.filter fun c => c.ownerID == user && !(c.phase == .deleting || c.phase.terminal)

def commitTick (s : Fleet ω) (copy : Cluster) : Option Cluster → Fleet ω
  | none => s
  | some c =>
    match s.row? copy.id with
    | some row => if row.generation = c.generation then s.store c else s
    | none => s

end Fleet

def markDeleting (c : Cluster) : Cluster :=
  { c with phase := .deleting, generation := c.generation + 1 }

namespace Deployment

variable {ω : Type} (D : Deployment ω)

/-- What admission depends on, with the owner's names and the DNS names filled in. -/
def admission (s : Fleet ω) (actor : String) (adm : CreateAdmission) (req : CreateRequest) :
    CreateAdmission :=
  { adm with
    ownerID := actor
    nameTaken := s.nameTaken actor req.name
    addressing := fun c => do
      let net ← adm.addressing c
      let apps ← D.admitDNS c.name
      pure { net with appsDomain := apps } }

/-- The critical section of `CreateCluster`; new ids are not in use. -/
def admitNew (s : Fleet ω) (actor : String) (adm : CreateAdmission) (req : CreateRequest) :
    Option Cluster :=
  if s.rows.any (·.id == adm.id) then none
  else (D.platform.app.createCluster (D.admission s actor adm req) req).toOption

def step (s : Fleet ω) : FleetInput → Fleet ω
  | .register user => { s with users := user :: s.users }
  | .startCreate actor => if actor ∈ s.users then s.opened (.create actor) else s
  | .create i adm req =>
    match s.flights[i]? with
    | some (.create actor) =>
      if s.locked then s
      else
        match D.admitNew s actor adm req with
        | some c => { s.closed i with rows := s.rows ++ [c] }
        | none => s.closed i
    | _ => s
  | .startCall k id =>
    if k.2.locksAdmission && s.locked then s
    else
      match s.row? id with
      | some c => s.opened (.call k c)
      | none => s
  | .commitCall i =>
    match s.flights[i]? with
    | some (.call k copy) =>
      match D.platform.edit k copy with
      | some c => (s.closed i).store c
      | none => s.closed i
    | _ => s
  | .startDeleteUser user =>
    if s.locked then s
    else if user ∈ s.users then s.opened (.deleteUser user (s.cascade user))
    else s
  | .deleteNext i =>
    match s.flights[i]? with
    | some (.deleteUser user (c :: left)) =>
      ({ s with flights := s.flights.set i (.deleteUser user left) } : Fleet ω).store
        (markDeleting c)
    | some (.deleteUser user []) => { s.closed i with users := s.users.filter (· ≠ user) }
    | _ => s
  | .startTick id =>
    if s.ticking id then s
    else
      match s.row? id with
      | some c => s.opened (.tick c)
      | none => s
  | .work i ρ n =>
    match s.flights[i]? with
    | some (.tick copy) =>
      { s with
        flights := s.flights.set i (.worked copy (tickResult D.platform.reconciler ρ copy))
        world := D.effect n copy (tickTrace D.platform.reconciler ρ copy) s.world }
    | _ => s
  | .commitTick i =>
    match s.flights[i]? with
    | some (.worked copy result) => (s.closed i).commitTick copy result
    | _ => s
  | .abandon i => s.closed i

end Deployment

/-! ### Inversion -/

/-- What a call or a tick has read when it takes off. -/
inductive Opens {ω : Type} (s : Fleet ω) : FleetFlight → Prop
  | create {actor : String} (h : actor ∈ s.users) : Opens s (.create actor)
  | call {k : Admission × Mutation} {c : Cluster} (h : c ∈ s.rows)
      (hlock : k.2.locksAdmission = true → s.locked = false) : Opens s (.call k c)
  | deleteUser {user : String} (h : user ∈ s.users) (hlock : s.locked = false) :
      Opens s (.deleteUser user (s.cascade user))
  | tick {c : Cluster} (h : c ∈ s.rows) (hidle : s.ticking c.id = false) : Opens s (.tick c)

/-- **One step** of the fleet. -/
inductive FleetStep {ω : Type} (D : Deployment ω) (s : Fleet ω) : FleetInput → Fleet ω → Prop
  /-- Nothing is stored; a call or tick may have ended. -/
  | stays (i : FleetInput) {flights : List FleetFlight} (h : flights.Sublist s.flights) :
      FleetStep D s i { s with flights }
  | registered (user : String) :
      FleetStep D s (.register user) { s with users := user :: s.users }
  | opened (i : FleetInput) {f : FleetFlight} (h : Opens s f) : FleetStep D s i (s.opened f)
  | created {i : Nat} {adm : CreateAdmission} {req : CreateRequest} {actor : String} {c : Cluster}
      (hi : s.flights[i]? = some (.create actor)) (hlock : s.locked = false)
      (hc : D.admitNew s actor adm req = some c) :
      FleetStep D s (.create i adm req) { s.closed i with rows := s.rows ++ [c] }
  | called {i : Nat} {k : Admission × Mutation} {copy c : Cluster}
      (hi : s.flights[i]? = some (.call k copy)) (hedit : Edit D.platform.app copy k.2 c) :
      FleetStep D s (.commitCall i) ((s.closed i).store c)
  | marked {i : Nat} {user : String} {c : Cluster} {left : List Cluster}
      (hi : s.flights[i]? = some (.deleteUser user (c :: left))) :
      FleetStep D s (.deleteNext i)
        (({ s with flights := s.flights.set i (.deleteUser user left) } : Fleet ω).store
          (markDeleting c))
  | userDeleted {i : Nat} {user : String}
      (hi : s.flights[i]? = some (.deleteUser user [])) :
      FleetStep D s (.deleteNext i) { s.closed i with users := s.users.filter (· ≠ user) }
  | worked {i n : Nat} {ρ : Env} {copy : Cluster} (hi : s.flights[i]? = some (.tick copy)) :
      FleetStep D s (.work i ρ n)
        { s with
          flights := s.flights.set i (.worked copy (tickResult D.platform.reconciler ρ copy))
          world := D.effect n copy (tickTrace D.platform.reconciler ρ copy) s.world }
  | ticked {i : Nat} {copy c row : Cluster}
      (hi : s.flights[i]? = some (.worked copy (some c)))
      (hrow : s.row? copy.id = some row) (hgen : row.generation = c.generation) :
      FleetStep D s (.commitTick i) ((s.closed i).store c)

section Inversion

variable {ω : Type} {D : Deployment ω} {s : Fleet ω}

private theorem FleetStep.same (i : FleetInput) : FleetStep D s i s :=
  .stays i (List.Sublist.refl _)

private theorem FleetStep.closed (i : FleetInput) (j : Nat) : FleetStep D s i (s.closed j) :=
  .stays i (List.eraseIdx_sublist ..)

private theorem mem_of_row? {id : String} {c : Cluster} (h : s.row? id = some c) :
    c ∈ s.rows ∧ c.id = id :=
  ⟨List.mem_of_find?_eq_some h, by simpa using List.find?_some h⟩

private theorem edit_of_platformEdit {P : Platform} {k : Admission × Mutation}
    {copy c : Cluster} (h : P.edit k copy = some c) : Edit P.app copy k.2 c := by
  have happly : P.app.apply k.1 k.2 copy = .ok (some c) := by
    unfold Platform.edit at h
    split at h
    · rename_i c' happly
      rw [happly, h]
    · cases h
  exact edit_of_apply happly

/-- **Inversion of `step`.** -/
theorem fleetStep (D : Deployment ω) (s : Fleet ω) (i : FleetInput) :
    FleetStep D s i (D.step s i) := by
  cases i with
  | register user => exact .registered user
  | startCreate actor =>
    simp only [Deployment.step]
    split
    · rename_i hactor
      exact .opened _ (.create hactor)
    · exact .same _
  | create i adm req =>
    simp only [Deployment.step]
    split
    · rename_i actor hi
      cases hlock : s.locked with
      | true => exact .same _
      | false =>
        cases hc : D.admitNew s actor adm req with
        | none => exact .closed _ i
        | some c => exact .created hi hlock hc
    · exact .same _
  | startCall k id =>
    simp only [Deployment.step]
    split
    · exact .same _
    · rename_i hfree
      cases hrow : s.row? id with
      | none => exact .same _
      | some c =>
        refine .opened _ (.call (mem_of_row? hrow).1 fun hlocks => ?_)
        simpa [hlocks] using hfree
  | commitCall i =>
    simp only [Deployment.step]
    split
    · rename_i k copy hi
      cases hedit : D.platform.edit k copy with
      | none => exact .closed _ i
      | some c => exact .called hi (edit_of_platformEdit hedit)
    · exact .same _
  | startDeleteUser user =>
    simp only [Deployment.step]
    cases hlock : s.locked with
    | true => exact .same _
    | false =>
      by_cases huser : user ∈ s.users
      · simp only [huser, Bool.false_eq_true, if_false, if_true]
        exact .opened _ (.deleteUser huser hlock)
      · simp only [huser, Bool.false_eq_true, if_false]
        exact .same _
  | deleteNext i =>
    simp only [Deployment.step]
    split
    · rename_i user c left hi
      exact .marked hi
    · rename_i user hi
      exact .userDeleted hi
    · exact .same _
  | startTick id =>
    simp only [Deployment.step]
    cases hidle : s.ticking id with
    | true => exact .same _
    | false =>
      cases hrow : s.row? id with
      | none => exact .same _
      | some c =>
        obtain ⟨hc, rfl⟩ := mem_of_row? hrow
        exact .opened _ (.tick hc hidle)
  | work i ρ n =>
    simp only [Deployment.step]
    split
    · rename_i copy hi
      exact .worked hi
    · exact .same _
  | commitTick i =>
    simp only [Deployment.step]
    split
    · rename_i copy result hi
      cases result with
      | none => exact .closed _ i
      | some c =>
        simp only [Fleet.commitTick]
        cases hrow : (s.closed i).row? copy.id with
        | none => exact .closed _ i
        | some row =>
          by_cases hgen : row.generation = c.generation
          · simp only [hgen, if_true]
            exact .ticked hi hrow hgen
          · simp only [hgen, if_false]
            exact .closed _ i
    · exact .same _
  | abandon i => exact .closed _ i

end Inversion

/-! ### What never changes about a cluster -/

/-- What a cluster keeps from its creation on. -/
structure SameIdentity (c c' : Cluster) : Prop where
  id : c'.id = c.id
  name : c'.name = c.name
  ownerID : c'.ownerID = c.ownerID
  provider : c'.provider = c.provider
  appsDomain : c'.appsDomain = c.appsDomain
  loadBalancerIP : c'.loadBalancerIP = c.loadBalancerIP

namespace SameIdentity

variable {c c' c'' : Cluster}

theorem refl (c : Cluster) : SameIdentity c c := ⟨rfl, rfl, rfl, rfl, rfl, rfl⟩

theorem trans (h : SameIdentity c c') (h' : SameIdentity c' c'') : SameIdentity c c'' :=
  ⟨h'.id.trans h.id, h'.name.trans h.name, h'.ownerID.trans h.ownerID,
    h'.provider.trans h.provider, h'.appsDomain.trans h.appsDomain,
    h'.loadBalancerIP.trans h.loadBalancerIP⟩

theorem symm (h : SameIdentity c c') : SameIdentity c' c :=
  ⟨h.id.symm, h.name.symm, h.ownerID.symm, h.provider.symm, h.appsDomain.symm,
    h.loadBalancerIP.symm⟩

end SameIdentity

section Identity

variable {c c' : Cluster}

theorem sameIdentity_markDeleting (c : Cluster) : SameIdentity c (markDeleting c) :=
  ⟨rfl, rfl, rfl, rfl, rfl, rfl⟩

theorem Edit.sameIdentity {a : App} {m : Mutation} (h : Edit a c m c') : SameIdentity c c' := by
  cases h <;> exact ⟨rfl, rfl, rfl, rfl, rfl, rfl⟩

theorem StaysAsked.sameIdentity (h : StaysAsked c c') : SameIdentity c c' :=
  ⟨h.eq fun _ => rfl, h.eq fun _ => rfl, h.eq fun _ => rfl, h.eq fun _ => rfl,
    h.eq fun _ => rfl, h.eq fun _ => rfl⟩

theorem TickStep.sameIdentity {r : Reconciler} {evs : List Event}
    (h : TickStep r c (some c') evs) : SameIdentity c c' :=
  h.staysAsked.sameIdentity

end Identity

/-! ### What every run keeps -/

/-- A copy is one of a cluster that is stored. -/
def Copies (rows : List Cluster) (c : Cluster) : Prop := ∃ row ∈ rows, SameIdentity row c

/-- What is in flight was read from the store, or computed from what was. -/
def FleetFlight.Sound {ω : Type} (D : Deployment ω) (rows : List Cluster) : FleetFlight → Prop
  | .create _ => True
  | .call _ copy => Copies rows copy
  | .deleteUser user left => ∀ c ∈ left, c.ownerID = user ∧ Copies rows c
  | .tick copy => Copies rows copy
  | .worked copy result => Copies rows copy ∧
      ∀ c, result = some c → ∃ evs, TickStep D.platform.reconciler copy (some c) evs

/-- **The common invariant**: ids are unique, and flights come from the store. -/
structure Fleet.Sound {ω : Type} (D : Deployment ω) (s : Fleet ω) : Prop where
  nodup : (s.rows.map (·.id)).Nodup
  flights : ∀ f ∈ s.flights, f.Sound D s.rows

section Sound

variable {ω : Type} {D : Deployment ω} {s : Fleet ω} {rows rows' : List Cluster} {c x : Cluster}

theorem Copies.of_mem (h : c ∈ rows) : Copies rows c := ⟨c, h, .refl c⟩

theorem Copies.trans (h : Copies rows c) (hx : SameIdentity c x) : Copies rows x := by
  obtain ⟨row, hrow, hc⟩ := h
  exact ⟨row, hrow, hc.trans hx⟩

theorem FleetFlight.Sound.mono {f : FleetFlight} (hrows : ∀ c, Copies rows c → Copies rows' c)
    (h : f.Sound D rows) : f.Sound D rows' := by
  cases f with
  | create actor => trivial
  | call k copy => exact hrows _ h
  | deleteUser user left => exact fun c hc => ⟨(h c hc).1, hrows c (h c hc).2⟩
  | tick copy => exact hrows _ h
  | worked copy result => exact ⟨hrows _ h.1, h.2⟩

theorem Fleet.Sound.sameIdentity (h : s.Sound D) {row : Cluster} (hrow : row ∈ s.rows)
    (hx : Copies s.rows x) (hid : row.id = x.id) : SameIdentity row x := by
  obtain ⟨row', hrow', hsame⟩ := hx
  have heq : row = row' :=
    List.inj_on_of_nodup_map h.nodup hrow hrow' (hid.trans hsame.id)
  rw [heq]
  exact hsame

theorem Fleet.mem_store {row : Cluster} (h : row ∈ (s.store x).rows) :
    (row = x ∧ ∃ old ∈ s.rows, old.id = x.id) ∨ row ∈ s.rows ∧ row.id ≠ x.id := by
  obtain ⟨old, hold, rfl⟩ := List.mem_map.1 h
  by_cases hid : old.id = x.id
  · exact .inl ⟨by rw [if_pos hid], old, hold, hid⟩
  · rw [if_neg hid]
    exact .inr ⟨hold, hid⟩

theorem Fleet.Sound.copies_store (h : s.Sound D) (hx : Copies s.rows x)
    (hc : Copies s.rows c) : Copies (s.store x).rows c := by
  obtain ⟨row, hrow, hsame⟩ := hc
  refine ⟨_, List.mem_map_of_mem hrow, ?_⟩
  by_cases hid : row.id = x.id
  · rw [if_pos hid]
    exact (h.sameIdentity hrow hx hid).symm.trans hsame
  · rw [if_neg hid]
    exact hsame

private theorem map_id_store (s : Fleet ω) (x : Cluster) :
    (s.store x).rows.map (·.id) = s.rows.map (·.id) := by
  simp only [Fleet.store, List.map_map]
  refine List.map_congr_left fun row _ => ?_
  simp only [Function.comp]
  split
  · rename_i hid
    exact hid.symm
  · rfl

theorem Fleet.Sound.with_flights (h : s.Sound D) {users : List String}
    {flights : List FleetFlight} {world : ω} (hf : ∀ f ∈ flights, f.Sound D s.rows) :
    Fleet.Sound D { s with users, flights, world } :=
  ⟨h.nodup, hf⟩

theorem Fleet.Sound.closed (h : s.Sound D) (i : Nat) : (s.closed i).Sound D :=
  ⟨h.nodup, fun f hf => h.flights f (List.eraseIdx_subset hf)⟩

theorem Fleet.Sound.store (h : s.Sound D) (hx : Copies s.rows x) : (s.store x).Sound D := by
  refine ⟨?_, fun f hf => (h.flights f hf).mono fun c => h.copies_store hx⟩
  rw [map_id_store]
  exact h.nodup

theorem Deployment.admitNew_fresh {actor : String} {adm : CreateAdmission} {req : CreateRequest}
    (hc : D.admitNew s actor adm req = some c) :
    (∀ row ∈ s.rows, row.id ≠ adm.id) ∧
      D.platform.app.createCluster (D.admission s actor adm req) req = .ok c := by
  unfold Deployment.admitNew at hc
  split at hc
  · cases hc
  · rename_i hnew
    refine ⟨by simpa using hnew, ?_⟩
    cases hok : D.platform.app.createCluster (D.admission s actor adm req) req with
    | error e => rw [hok] at hc; cases hc
    | ok c' =>
      rw [hok] at hc
      exact congrArg Except.ok (Option.some.inj hc)

private theorem Opens.sound {f : FleetFlight} (h : Opens s f) : f.Sound D s.rows := by
  cases h with
  | create h => trivial
  | call h hlock => exact .of_mem h
  | deleteUser h hlock =>
    intro c hc
    obtain ⟨hmem, hcond⟩ := List.mem_filter.1 hc
    have hown : c.ownerID = _ := eq_of_beq (Bool.and_eq_true_iff.1 hcond).1
    exact ⟨hown, .of_mem hmem⟩
  | tick h hidle => exact .of_mem h

private theorem sound_set {i : Nat} {f : FleetFlight} (h : s.Sound D) (hf : f.Sound D s.rows) :
    ∀ g ∈ s.flights.set i f, g.Sound D s.rows := by
  intro g hg
  rcases List.mem_or_eq_of_mem_set hg with hg | rfl
  · exact h.flights g hg
  · exact hf

/-- **Every step keeps the common invariant.** -/
theorem Fleet.Sound.step (h : s.Sound D) (i : FleetInput) : (D.step s i).Sound D := by
  generalize hs : D.step s i = s'
  have hstep : FleetStep D s i s' := hs ▸ fleetStep D s i
  cases hstep with
  | stays i hsub => exact h.with_flights fun f hf => h.flights f (hsub.subset hf)
  | registered user => exact h.with_flights h.flights
  | opened i hf =>
    refine h.with_flights fun g hg => ?_
    rcases List.mem_append.1 hg with hg | hg
    · exact h.flights g hg
    · rw [List.mem_singleton.1 hg]
      exact hf.sound
  | @created i adm req actor c hi hlock hc =>
    obtain ⟨hfresh, hok⟩ := Deployment.admitNew_fresh hc
    have hid : c.id = adm.id := (identity_of_createCluster hok).1
    refine ⟨?_, fun f hf => (h.flights f (List.eraseIdx_subset hf)).mono ?_⟩
    · rw [List.map_append, List.nodup_append]
      refine ⟨h.nodup, by simp, ?_⟩
      intro a ha b hb hab
      obtain ⟨row, hrow, rfl⟩ := List.mem_map.1 ha
      rw [List.map_singleton, List.mem_singleton.1 hb, hid] at *
      exact hfresh row hrow hab
    · rintro c' ⟨row, hrow, hsame⟩
      exact ⟨row, List.mem_append_left _ hrow, hsame⟩
  | called hi hedit =>
    have hcopy : Copies s.rows _ := h.flights _ (List.mem_of_getElem? hi)
    exact (h.closed _).store (hcopy.trans hedit.sameIdentity)
  | @marked i user c left hi =>
    have hleft := h.flights _ (List.mem_of_getElem? hi)
    have hset : Fleet.Sound D { s with flights := s.flights.set i (.deleteUser user left) } :=
      h.with_flights (sound_set h fun c' hc' => hleft c' (List.mem_cons_of_mem _ hc'))
    exact hset.store ((hleft c List.mem_cons_self).2.trans (sameIdentity_markDeleting c))
  | userDeleted hi =>
    exact h.with_flights fun f hf => h.flights f (List.eraseIdx_subset hf)
  | @worked i n ρ copy hi =>
    have hcopy : Copies s.rows copy := h.flights _ (List.mem_of_getElem? hi)
    refine h.with_flights (sound_set h ⟨hcopy, fun c hc => ?_⟩)
    have htick := tickStep D.platform.reconciler ρ copy
    rw [hc] at htick
    exact ⟨_, htick⟩
  | ticked hi hrow hgen =>
    obtain ⟨hcopy, hresult⟩ := h.flights _ (List.mem_of_getElem? hi)
    obtain ⟨evs, htick⟩ := hresult _ rfl
    exact (h.closed _).store (hcopy.trans htick.sameIdentity)

end Sound

/-! ### Facts about single clusters -/

def FleetFlight.clusters : FleetFlight → List Cluster
  | .create _ => []
  | .call _ copy | .tick copy => [copy]
  | .deleteUser _ left => left
  | .worked copy result => copy :: result.toList

/-- Every stored cluster and every copy in flight has `P`. -/
structure Fleet.All {ω : Type} (P : Cluster → Prop) (s : Fleet ω) : Prop where
  rows : ∀ c ∈ s.rows, P c
  flights : ∀ f ∈ s.flights, ∀ c ∈ f.clusters, P c

/-- New clusters have `P`, and whatever computes a row from another keeps it. -/
structure Deployment.Keeps {ω : Type} (D : Deployment ω) (P : Cluster → Prop) : Prop where
  created : ∀ s actor adm req c, D.admitNew s actor adm req = some c → P c
  edit : ∀ c m c', P c → Edit D.platform.app c m c' → P c'
  mark : ∀ c, P c → P (markDeleting c)
  tick : ∀ c c' evs, P c → TickStep D.platform.reconciler c (some c') evs → P c'

section All

variable {ω : Type} {D : Deployment ω} {s : Fleet ω} {P : Cluster → Prop} {x : Cluster}

private theorem Fleet.All.store (h : s.All P) (hx : P x) : (s.store x).All P := by
  refine ⟨fun row hrow => ?_, h.flights⟩
  rcases Fleet.mem_store hrow with ⟨rfl, -⟩ | ⟨hrow, -⟩
  · exact hx
  · exact h.rows row hrow

private theorem Fleet.All.closed (h : s.All P) (i : Nat) : (s.closed i).All P :=
  ⟨h.rows, fun f hf => h.flights f (List.eraseIdx_subset hf)⟩

private theorem Fleet.All.set (h : s.All P) {f : FleetFlight} (hf : ∀ c ∈ f.clusters, P c)
    (i : Nat) (w : ω) : Fleet.All P { s with flights := s.flights.set i f, world := w } := by
  refine ⟨h.rows, fun g hg => ?_⟩
  rcases List.mem_or_eq_of_mem_set hg with hg | rfl
  · exact h.flights g hg
  · exact hf

private theorem Opens.clusters_subset {f : FleetFlight} (h : Opens s f) :
    f.clusters ⊆ s.rows := by
  cases h with
  | create h => exact List.nil_subset _
  | call h hlock => exact List.cons_subset.2 ⟨h, List.nil_subset _⟩
  | deleteUser h hlock => exact fun c hc => (List.mem_filter.1 hc).1
  | tick h hidle => exact List.cons_subset.2 ⟨h, List.nil_subset _⟩

/-- **A fact that is kept** holds of every cluster, in the store and in flight. -/
theorem Fleet.All.step (h : s.All P) (hP : D.Keeps P) (i : FleetInput) : (D.step s i).All P := by
  generalize hs : D.step s i = s'
  have hstep : FleetStep D s i s' := hs ▸ fleetStep D s i
  cases hstep with
  | stays i hsub => exact ⟨h.rows, fun f hf => h.flights f (hsub.subset hf)⟩
  | registered user => exact ⟨h.rows, h.flights⟩
  | opened i hf =>
    refine ⟨h.rows, fun g hg c hc => ?_⟩
    rcases List.mem_append.1 hg with hg | hg
    · exact h.flights g hg c hc
    · rw [List.mem_singleton.1 hg] at hc
      exact h.rows c (hf.clusters_subset hc)
  | created hi hlock hc =>
    refine ⟨fun c' hc' => ?_, (h.closed _).flights⟩
    rcases List.mem_append.1 hc' with hc' | hc'
    · exact h.rows c' hc'
    · rw [List.mem_singleton.1 hc']
      exact hP.created _ _ _ _ _ hc
  | called hi hedit =>
    have hcopy := h.flights _ (List.mem_of_getElem? hi) _ List.mem_cons_self
    exact (h.closed _).store (hP.edit _ _ _ hcopy hedit)
  | @marked i user c left hi =>
    have hleft := h.flights _ (List.mem_of_getElem? hi)
    have hrest : ∀ c' ∈ (FleetFlight.deleteUser user left).clusters, P c' :=
      fun c' hc' => hleft c' (List.mem_cons_of_mem _ hc')
    refine (h.set hrest i s.world).store ?_
    exact hP.mark _ (hleft _ List.mem_cons_self)
  | userDeleted hi => exact ⟨h.rows, (h.closed _).flights⟩
  | @worked i n ρ copy hi =>
    have hcopy : P copy := h.flights _ (List.mem_of_getElem? hi) _ List.mem_cons_self
    refine h.set (fun c hc => ?_) _ _
    rcases List.mem_cons.1 hc with rfl | hc
    · exact hcopy
    · have htick := tickStep D.platform.reconciler ρ copy
      rw [Option.mem_toList.1 hc] at htick
      exact hP.tick _ _ _ hcopy htick
  | ticked hi hrow hgen =>
    have hresult := h.flights _ (List.mem_of_getElem? hi)
    exact (h.closed _).store (hresult _ (List.mem_cons_of_mem _ (by simp)))

end All

/-! ### Runs -/

def Fleet.initial {ω : Type} (w : ω) : Fleet ω := { world := w }

section Runs

variable {ω : Type} {D : Deployment ω} {P : Cluster → Prop} {w : ω}

theorem Fleet.Sound.initial : (Fleet.initial w).Sound D :=
  ⟨List.nodup_nil, fun _ hf => absurd hf List.not_mem_nil⟩

theorem Fleet.All.initial : (Fleet.initial w).All P :=
  ⟨fun _ hc => absurd hc List.not_mem_nil, fun _ hf => absurd hf List.not_mem_nil⟩

/-- **The invariant rule of the fleet**: what each step under the condition preserves, where
the common invariant holds and every cluster has the kept fact `P`. -/
theorem Deployment.run_invariant {C : Fleet ω → FleetInput → Prop} {I : Fleet ω → Prop}
    (hP : D.Keeps P)
    (hstep : ∀ s i s', s.Sound D → s.All P → I s → C s i → FleetStep D s i s' → I s')
    (h : I (Fleet.initial w)) {is : List FleetInput}
    (hC : Along D.step C (Fleet.initial w) is) :
    let s := run D.step (Fleet.initial w) is
    s.Sound D ∧ s.All P ∧ I s := by
  refine TransitionSystem.run_invariant (I := fun s => s.Sound D ∧ s.All P ∧ I s) ?_
    ⟨.initial, .initial, h⟩ hC
  rintro s i ⟨hsound, hall, hI⟩ hcond
  exact ⟨hsound.step i, hall.step hP i, hstep s i _ hsound hall hI hcond (fleetStep D s i)⟩

end Runs

/-! ### Small runs -/

/-- One tick of a cluster while nothing else is in progress. -/
def tickOnce (id : String) (ρ : Env) : List FleetInput :=
  [.startTick id, .work 0 ρ 0, .commitTick 0]

/-- The ticks that bring a new cluster up, when nothing fails. -/
def broughtUp (id : String) : List FleetInput := (List.replicate 6 (tickOnce id {})).flatten

/-- A new cluster, its actor resolved just before. -/
def createNow (actor id name : String) : List FleetInput :=
  [.startCreate actor, .create 0 { id } { name, bundle := "r1" }]

end KaaS
