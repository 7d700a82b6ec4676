import KaaS.App.Users
import KaaS.Library.Run
import Mathlib.Data.String.Basic

/-!
# Two writers of one list

The memberships of an account of the directory are written by logins and by administrators, each
rewriting the whole list. The rule that keeps them apart is `mergeMemberships`: a group is the
directory's or it is local, and each writer is trusted with its own groups.

So whatever the order of logins and updates, what is stored is **what the last login brought and
what the last update asked for in local groups**, with one entry for each group; and a login and an
update **commute** (`memberships_of_writers`).
-/

namespace KaaS

open Guard TransitionSystem

/-! ### Sorted by group -/

/-- One entry for each group, in the order of their ids. -/
def ByGroup (ms : List GroupMembership) : Prop := ms.Pairwise fun a b => a.groupID < b.groupID

section Sorting

variable {ms ms' D L : List GroupMembership} {m : GroupMembership} {groups : List Group}

theorem ByGroup.nodup (h : ByGroup ms) : (ms.map (·.groupID)).Nodup :=
  List.pairwise_map.mpr (h.imp fun hlt => ne_of_lt hlt)

theorem byGroup_sortMemberships (h : (ms.map (·.groupID)).Nodup) :
    ByGroup (sortMemberships ms) := by
  let le (a b : GroupMembership) : Prop := a.groupID ≤ b.groupID
  have : Std.Total le := ⟨fun a b => le_total a.groupID b.groupID⟩
  have : IsTrans GroupMembership le := ⟨fun _ _ _ hab hbc => hab.trans hbc⟩
  have hsorted : (sortMemberships ms).Pairwise le := List.pairwise_insertionSort le ms
  have hnodup : ((sortMemberships ms).map (·.groupID)).Nodup :=
    (((List.perm_insertionSort le ms).map _).nodup_iff).mpr h
  exact hsorted.imp₂ (fun _ _ hle hne => lt_of_le_of_ne hle hne) (List.pairwise_map.mp hnodup)

theorem ByGroup.eq_of_perm (h : ByGroup ms) (h' : ByGroup ms') (hperm : ms.Perm ms') :
    ms = ms' := by
  refine hperm.eq_of_pairwise (fun a b _ _ hlt hgt => ?_) h h'
  exact absurd hgt (lt_asymm hlt)

theorem sortMemberships_eq_of_perm (hperm : ms.Perm ms') (h : (ms.map (·.groupID)).Nodup) :
    sortMemberships ms = sortMemberships ms' := by
  have h' : (ms'.map (·.groupID)).Nodup := ((hperm.map _).nodup_iff).mp h
  refine (byGroup_sortMemberships h).eq_of_perm (byGroup_sortMemberships h') ?_
  exact (List.perm_insertionSort _ ms).trans (hperm.trans (List.perm_insertionSort _ ms').symm)

/-! ### The merge -/

/-- The group is there, and the directory keeps its roster. -/
def directoryGroup (groups : List Group) (id : String) : Bool :=
  (groupsByID groups id).any (·.directoryManaged)

/-- The group is there, and the administrators keep its roster. -/
def localGroup (groups : List Group) (id : String) : Bool :=
  (groupsByID groups id).any (!·.directoryManaged)

theorem not_localGroup {id : String} (h : directoryGroup groups id = true) :
    localGroup groups id = false := by
  unfold directoryGroup at h
  unfold localGroup
  cases hget : groupsByID groups id with
  | none => rfl
  | some g => simpa [hget] using h

def parts (D L : List GroupMembership) (groups : List Group) : List GroupMembership :=
  (D.filter fun m => directoryGroup groups m.groupID) ++
    L.filter fun m => localGroup groups m.groupID

theorem perm_mergeMemberships : (mergeMemberships D L groups).Perm (parts D L groups) :=
  List.perm_insertionSort _ _

theorem mem_mergeMemberships : m ∈ mergeMemberships D L groups ↔
    m ∈ D ∧ directoryGroup groups m.groupID = true ∨
      m ∈ L ∧ localGroup groups m.groupID = true := by
  rw [perm_mergeMemberships.mem_iff, parts, List.mem_append, List.mem_filter, List.mem_filter]

theorem nodup_parts (hD : ((D.filter fun m => directoryGroup groups m.groupID).map
      (·.groupID)).Nodup)
    (hL : ((L.filter fun m => localGroup groups m.groupID).map (·.groupID)).Nodup) :
    ((parts D L groups).map (·.groupID)).Nodup := by
  rw [parts, List.map_append]
  refine hD.append hL fun id hd hl => ?_
  obtain ⟨m, hm, rfl⟩ := List.mem_map.mp hd
  obtain ⟨m', hm', heq⟩ := List.mem_map.mp hl
  have hdir : directoryGroup groups m.groupID = true := (List.mem_filter.mp hm).2
  have hloc : localGroup groups m'.groupID = true := (List.mem_filter.mp hm').2
  rw [heq, not_localGroup hdir] at hloc
  exact Bool.false_ne_true hloc

theorem perm_directory_mergeMemberships :
    ((mergeMemberships D L groups).filter fun m => directoryGroup groups m.groupID).Perm
      (D.filter fun m => directoryGroup groups m.groupID) := by
  refine (perm_mergeMemberships.filter _).trans (List.Perm.of_eq ?_)
  rw [parts, List.filter_append, List.filter_filter, List.filter_filter]
  simp only [Bool.and_self]
  rw [List.append_right_eq_self, List.filter_eq_nil_iff]
  intro m _ hboth
  obtain ⟨hdir, hloc⟩ := Bool.and_eq_true_iff.mp hboth
  rw [not_localGroup hdir] at hloc
  exact Bool.false_ne_true hloc

theorem perm_local_mergeMemberships :
    ((mergeMemberships D L groups).filter fun m => localGroup groups m.groupID).Perm
      (L.filter fun m => localGroup groups m.groupID) := by
  refine (perm_mergeMemberships.filter _).trans (List.Perm.of_eq ?_)
  rw [parts, List.filter_append, List.filter_filter, List.filter_filter]
  simp only [Bool.and_self]
  rw [List.append_left_eq_self, List.filter_eq_nil_iff]
  intro m _ hboth
  obtain ⟨hloc, hdir⟩ := Bool.and_eq_true_iff.mp hboth
  rw [not_localGroup hdir] at hloc
  exact Bool.false_ne_true hloc

theorem byGroup_mergeMemberships (hD : (D.map (·.groupID)).Nodup)
    (hL : (L.map (·.groupID)).Nodup) : ByGroup (mergeMemberships D L groups) :=
  byGroup_sortMemberships <| nodup_parts (hD.sublist (List.filter_sublist.map _))
    (hL.sublist (List.filter_sublist.map _))

theorem mergeMemberships_mergeMemberships {C R : List GroupMembership}
    (M : List GroupMembership) (groups : List Group) (hC : (C.map (·.groupID)).Nodup)
    (hR : (R.map (·.groupID)).Nodup) :
    mergeMemberships C (mergeMemberships M R groups) groups = mergeMemberships C R groups ∧
      mergeMemberships (mergeMemberships C M groups) R groups = mergeMemberships C R groups := by
  have hnodup : ((parts C R groups).map (·.groupID)).Nodup :=
    nodup_parts (hC.sublist (List.filter_sublist.map _)) (hR.sublist (List.filter_sublist.map _))
  constructor
  · exact (sortMemberships_eq_of_perm (perm_local_mergeMemberships.symm.append_left _) hnodup).symm
  · exact (sortMemberships_eq_of_perm (perm_directory_mergeMemberships.symm.append_right _)
      hnodup).symm

end Sorting

/-! ### What each writer brings -/

section Sides

variable {groups : List Group}

private theorem groupsByID_of_mem (hgroups : (groups.map (·.id)).Nodup) {g : Group}
    (hg : g ∈ groups) : groupsByID groups g.id = some g :=
  (Keyed.find?_reverse_eq_some hgroups).mpr ⟨hg, rfl⟩

private theorem directoryGroup_of_getGroupBySource (hgroups : (groups.map (·.id)).Nodup)
    {key : String} {g : Group} (h : getGroupBySource groups key = some g) :
    directoryGroup groups g.id = true := by
  unfold getGroupBySource at h
  split at h
  · cases h
  · have hmanaged : g.directoryManaged = true := by
      have := List.find?_some h
      simp_all
    rw [directoryGroup, groupsByID_of_mem hgroups (List.mem_of_find?_eq_some h)]
    exact hmanaged

private theorem directoryGroup_of_mem_foldl (hgroups : (groups.map (·.id)).Nodup)
    {claims : List GroupClaim} {byGroup : AList fun _ : String => GroupRole}
    (h : ∀ id ∈ byGroup, directoryGroup groups id = true) :
    ∀ id ∈ claims.foldl (claim groups) byGroup, directoryGroup groups id = true := by
  induction claims generalizing byGroup with
  | nil => exact h
  | cons c claims ih =>
    refine ih fun id hid => ?_
    unfold claim at hid
    split at hid
    · exact h id hid
    · rename_i g hg
      split at hid
      · exact h id hid
      · rcases (AList.mem_insert _).mp hid with rfl | hid
        · exact directoryGroup_of_getGroupBySource hgroups hg
        · exact h id hid

/-- **A login** brings memberships in groups of the directory, one for each. -/
theorem claimedMemberships_spec (hgroups : (groups.map (·.id)).Nodup) (identity : Identity) :
    ByGroup (claimedMemberships groups identity) ∧
      ∀ m ∈ claimedMemberships groups identity, directoryGroup groups m.groupID = true := by
  constructor
  · refine byGroup_sortMemberships ?_
    rw [List.map_map]
    exact (identity.groups.foldl (claim groups) ∅).nodupKeys
  · intro m hm
    obtain ⟨e, he, rfl⟩ := List.mem_map.mp ((List.mem_insertionSort _).mp hm)
    have hkey : e.1 ∈ identity.groups.foldl (claim groups) ∅ := List.mem_map.mpr ⟨e, he, rfl⟩
    exact directoryGroup_of_mem_foldl hgroups (fun id hid => absurd hid (AList.notMem_empty id))
      e.1 hkey

theorem mergeMemberships_claimed_nil (hgroups : (groups.map (·.id)).Nodup)
    (identity : Identity) :
    mergeMemberships (claimedMemberships groups identity) [] groups =
      claimedMemberships groups identity := by
  obtain ⟨hsorted, hdirectory⟩ := claimedMemberships_spec hgroups identity
  refine (byGroup_mergeMemberships (L := []) hsorted.nodup List.nodup_nil).eq_of_perm hsorted ?_
  refine perm_mergeMemberships.trans (List.Perm.of_eq ?_)
  rw [parts, List.filter_nil, List.append_nil, List.filter_eq_self]
  exact hdirectory

/-- The memberships that a request spells out. -/
def MembershipRequest.memberships (asked : List MembershipRequest) : List GroupMembership :=
  asked.filterMap fun r => (GroupRole.ofText r.role).map fun role => ⟨r.groupID, role⟩

/-- **An update** asks for one membership in each group it names. -/
theorem checkMemberships_eq_ok {seen : List String} {asked : List MembershipRequest}
    {requested : List GroupMembership}
    (h : Accounts.checkMemberships groups seen asked = .ok requested) :
    requested = MembershipRequest.memberships asked ∧ (requested.map (·.groupID)).Nodup ∧
      ∀ m ∈ requested, m.groupID ∉ seen := by
  induction asked generalizing seen requested with
  | nil =>
    obtain rfl := Except.ok.inj h
    exact ⟨rfl, List.nodup_nil, nofun⟩
  | cons r asked ih =>
    simp only [Accounts.checkMemberships, bind_eq_ok, refuseIf_eq_ok] at h
    obtain ⟨-, -, -, hseen, h⟩ := h
    cases hrole : GroupRole.ofText r.role with
    | none => simp [hrole] at h
    | some role =>
      simp only [hrole, bind_eq_ok, refuseIf_eq_ok, pure_eq_ok] at h
      obtain ⟨-, -, rest, hrest, rfl⟩ := h
      obtain ⟨rfl, hnodup, hfresh⟩ := ih hrest
      refine ⟨?_, ?_, ?_⟩
      · simp [MembershipRequest.memberships, hrole]
      · rw [List.map_cons, List.nodup_cons]
        refine ⟨fun hmem => ?_, hnodup⟩
        obtain ⟨m, hm, hid⟩ := List.mem_map.mp hmem
        exact hfresh m hm (hid ▸ List.mem_cons_self)
      · intro m hm
        rcases List.mem_cons.mp hm with rfl | hm
        · exact hseen
        · exact fun hin => hfresh m hm (List.mem_cons_of_mem r.groupID hin)

end Sides

/-! ### Rows -/

namespace Accounts

section Rows

variable {users : List Account} {u v : Account} {name userID : String}

private theorem mem_of_getUserByUsername (h : getUserByUsername users name = some u) :
    u ∈ users ∧ u.username = name :=
  ⟨List.mem_of_find?_eq_some h, by simpa using List.find?_some h⟩

theorem getUser_eq_some (hnodup : (users.map (·.id)).Nodup) :
    getUser users userID = some u ↔ u ∈ users ∧ u.id = userID :=
  Keyed.find?_eq_some hnodup

theorem getUserByUsername_putUser (hnodup : (users.map (·.id)).Nodup) (hu : u ∈ users)
    (hid : v.id = u.id) (hname : v.username = u.username) :
    getUserByUsername (putUser users v) name =
      (getUserByUsername users name).map fun x => if x.id = v.id then v else x := by
  refine Keyed.find?_map_of_forall fun x hx => ?_
  split_ifs with heq
  · rw [List.inj_on_of_nodup_map hnodup hx hu (heq.trans hid), hname]
  · rfl

theorem of_getUserByUsername_putUser (hnodup : (users.map (·.id)).Nodup) (hu : u ∈ users)
    {w : Account} (h : getUserByUsername (putUser users v) name = some w) (hid : v.id = u.id)
    (hname : v.username = u.username) :
    ∃ old, getUserByUsername users name = some old ∧ (if old.id = v.id then v else old) = w := by
  rw [getUserByUsername_putUser hnodup hu hid hname] at h
  exact Option.map_eq_some_iff.mp h

theorem getUser_putUser : getUser (putUser users v) userID =
    (getUser users userID).map fun x => if x.id = v.id then v else x := by
  refine Keyed.find?_map_of_forall fun x _ => ?_
  split_ifs with heq
  · rw [show x.id = v.id from heq]
  · rfl

@[simp] theorem map_putUser : (putUser users v).map (·.id) = users.map (·.id) := Keyed.map_put

theorem putUser_putUser (h : u.id = v.id) : putUser (putUser users v) u = putUser users u :=
  Keyed.put_put h

theorem putUser_comm (h : u.id ≠ v.id) :
    putUser (putUser users v) u = putUser (putUser users u) v :=
  Keyed.put_comm h

end Rows

end Accounts

/-! ### The two writers commute -/

namespace Ledger

section Commute

variable (S : PortalSettings) (groups : List Group) (users : List Account)

def synced (identity : Identity) (u : Account) : Account :=
  { u with
    memberships := mergeMemberships (claimedMemberships groups identity) u.memberships groups }

def updated (req : UpdateUserRequest) (u : Account) : Option Account := do
  let quotas ← (Accounts.updatedQuotas S users u req).toOption
  let memberships ← (Accounts.updatedMemberships groups u req).toOption
  pure { u with quotas, memberships }

variable {S groups users} {s : Ledger} {identity : Identity} {req : UpdateUserRequest}
  {u v : Account} {name id userID : String} {actor : Option Account}

theorem step_syncDirectoryUser
    (hname : validateDirectoryUsername identity.username = .ok name)
    (hu : Accounts.getUserByUsername s.users name = some u) :
    s.step S (.syncDirectoryUser id identity) =
      if u.fromDirectory then
        { s with users := Accounts.putUser s.users (synced s.groups identity u) }
      else s := by
  cases hdir : u.fromDirectory with
  | true =>
    simp [step, exec, Accounts.syncDirectoryUserLocked, hname, hu, hdir, refuseIf, synced, bind,
      Except.bind, pure, Except.pure]
  | false =>
    simp [step, exec, Accounts.syncDirectoryUserLocked, hname, hu, hdir, refuseIf, bind,
      Except.bind]

theorem step_updateUser : s.step S (.updateUser actor userID req) =
    if actor.any (·.isAdmin) = false then s
    else match (Accounts.getUser s.users userID).bind (updated S s.groups s.users req) with
      | none => s
      | some v => { s with users := Accounts.putUser s.users v } := by
  cases hadmin : actor.any (·.isAdmin) with
  | false => simp [step, exec, Accounts.updateUser, hadmin, refuseIf, bind, Except.bind]
  | true =>
    cases hget : Accounts.getUser s.users userID with
    | none =>
      simp [step, exec, Accounts.updateUser, Accounts.updateUserLocked, hadmin, hget, refuseIf,
        bind, Except.bind]
    | some v =>
      simp only [step, exec, Accounts.updateUser, Accounts.updateUserLocked, hadmin, hget,
        refuseIf, updated, Option.bind_some]
      cases hquotas : Accounts.updatedQuotas S s.users v req with
      | error e => simp [bind, Except.bind, Except.toOption]
      | ok quotas =>
        cases hms : Accounts.updatedMemberships s.groups v req with
        | error e => simp [bind, Except.bind, Except.toOption]
        | ok ms => simp [bind, Except.bind, Except.toOption, pure, Except.pure]

theorem updated_eq_some (h : updated S groups users req u = some v) :
    v.id = u.id ∧ v.username = u.username ∧ v.fromDirectory = u.fromDirectory := by
  simp only [updated, Option.bind_eq_bind, Option.bind_eq_some_iff] at h
  obtain ⟨quotas, -, ms, -, heq⟩ := h
  obtain rfl := Option.some.inj heq
  exact ⟨rfl, rfl, rfl⟩

theorem updated_map {g : Account → Account} (hg : ∀ x ∈ users, (g x).SameGrants x) :
    updated S groups (users.map g) req u = updated S groups users req u := by
  rw [updated, updated, Accounts.updatedQuotas_map hg]

/-- **On one row** the two writers commute. -/
theorem updated_synced (hgroups : (groups.map (·.id)).Nodup) :
    updated S groups users req (synced groups identity u) =
      (updated S groups users req u).map (synced groups identity) := by
  have hquotas : Accounts.updatedQuotas S users (synced groups identity u) req =
      Accounts.updatedQuotas S users u req := rfl
  rw [updated, updated, hquotas]
  cases Accounts.updatedQuotas S users u req with
  | error e => rfl
  | ok quotas =>
    unfold Accounts.updatedMemberships
    cases req.memberships with
    | none => rfl
    | some asked =>
      dsimp only
      cases hcheck : Accounts.checkMemberships groups [] asked with
      | error e => rfl
      | ok requested =>
        obtain ⟨-, hrequested, -⟩ := checkMemberships_eq_ok hcheck
        obtain ⟨hlogin, hupdate⟩ := mergeMemberships_mergeMemberships u.memberships groups
          (claimedMemberships_spec hgroups identity).1.nodup hrequested
        simp [bind, Except.bind, Except.toOption, pure, Except.pure, synced, hlogin, hupdate]

private theorem sameGrants_put (hnodup : (users.map (·.id)).Nodup) (hu : u ∈ users)
    (hv : v.SameGrants u) : ∀ x ∈ users, (if x.id = v.id then v else x).SameGrants x := by
  intro x hx
  split_ifs with heq
  · rwa [List.inj_on_of_nodup_map hnodup hx hu (heq.trans hv.1)]
  · exact ⟨rfl, rfl, rfl⟩

section Comm

variable (hgroups : (s.groups.map (·.id)).Nodup) (hnodup : (s.users.map (·.id)).Nodup)
  (hname : validateDirectoryUsername identity.username = .ok name)
  (hu : Accounts.getUserByUsername s.users name = some u)
include hnodup hu

private theorem find_updated (hv : v ∈ s.users) {v' : Account}
    (hv' : updated S s.groups s.users req v = some v') :
    Accounts.getUserByUsername (Accounts.putUser s.users v') name =
      some (if u.id = v'.id then v' else u) := by
  obtain ⟨hid, husername, -⟩ := updated_eq_some hv'
  rw [Accounts.getUserByUsername_putUser hnodup hv hid husername, hu, Option.map_some]

include hname

private theorem step_comm_local (hdir : ¬ u.fromDirectory = true) :
    (s.step S (.syncDirectoryUser id identity)).step S (.updateUser actor userID req) =
      (s.step S (.updateUser actor userID req)).step S (.syncDirectoryUser id identity) := by
  obtain ⟨hmem, -⟩ := Accounts.mem_of_getUserByUsername hu
  rw [step_syncDirectoryUser hname hu, if_neg hdir, step_updateUser]
  split_ifs with hadmin
  · rw [step_syncDirectoryUser hname hu, if_neg hdir]
  · cases hget : Accounts.getUser s.users userID with
    | none => rw [Option.bind_none, step_syncDirectoryUser hname hu, if_neg hdir]
    | some v =>
      obtain ⟨hv, -⟩ := (Accounts.getUser_eq_some hnodup).mp hget
      rw [Option.bind_some]
      cases hv' : updated S s.groups s.users req v with
      | none => rw [step_syncDirectoryUser hname hu, if_neg hdir]
      | some v' =>
        obtain ⟨hid, -, hsource⟩ := updated_eq_some hv'
        rw [step_syncDirectoryUser hname (find_updated hnodup hu hv hv'), if_neg]
        split_ifs with hsame
        · rwa [hsource, List.inj_on_of_nodup_map hnodup hv hmem (hid.symm.trans hsame.symm)]
        · exact hdir

include hgroups

/-- **A login and an update commute**, on the accounts as a whole. -/
theorem step_comm :
    (s.step S (.syncDirectoryUser id identity)).step S (.updateUser actor userID req) =
      (s.step S (.updateUser actor userID req)).step S (.syncDirectoryUser id identity) := by
  by_cases hdir : u.fromDirectory = true
  swap
  · exact step_comm_local hnodup hname hu hdir
  obtain ⟨hmem, -⟩ := Accounts.mem_of_getUserByUsername hu
  have hlogin : s.step S (.syncDirectoryUser id identity) =
      { s with users := Accounts.putUser s.users (synced s.groups identity u) } := by
    rw [step_syncDirectoryUser hname hu, if_pos hdir]
  rw [hlogin, step_updateUser, step_updateUser]
  split_ifs with hadmin
  · exact hlogin.symm
  -- an update decides the same whether the login came first
  have hgrants := sameGrants_put (v := synced s.groups identity u) hnodup hmem ⟨rfl, rfl, rfl⟩
  have hupdated (x : Account) : updated S s.groups
      (Accounts.putUser s.users (synced s.groups identity u)) req x =
        updated S s.groups s.users req x := updated_map hgrants
  simp only [hupdated, Accounts.getUser_putUser]
  cases hget : Accounts.getUser s.users userID with
  | none => exact hlogin.symm
  | some v =>
    obtain ⟨hv, -⟩ := (Accounts.getUser_eq_some hnodup).mp hget
    rw [Option.map_some, Option.bind_some, Option.bind_some]
    by_cases hsame : v.id = u.id
    · obtain rfl : v = u := List.inj_on_of_nodup_map hnodup hv hmem hsame
      rw [if_pos (show v.id = (synced s.groups identity v).id from rfl), updated_synced hgroups]
      cases hv' : updated S s.groups s.users req v with
      | none => exact hlogin.symm
      | some v' =>
        obtain ⟨hid, -, hsource⟩ := updated_eq_some hv'
        have hfound := find_updated hnodup hu hv hv'
        rw [if_pos hid.symm] at hfound
        rw [Option.map_some, step_syncDirectoryUser hname hfound, hsource, if_pos hdir]
        have hid : (synced s.groups identity v').id = (synced s.groups identity v).id := hid
        dsimp only
        rw [Accounts.putUser_putUser hid,
          Accounts.putUser_putUser (v := v') (u := synced s.groups identity v') rfl]
    · rw [if_neg (show ¬ v.id = (synced s.groups identity u).id from hsame)]
      cases hv' : updated S s.groups s.users req v with
      | none => exact hlogin.symm
      | some v' =>
        obtain ⟨hid, -, -⟩ := updated_eq_some hv'
        have hother : v'.id ≠ (synced s.groups identity u).id := fun heq => hsame (hid ▸ heq)
        have hfound := find_updated hnodup hu hv hv'
        rw [if_neg (show ¬ u.id = v'.id from Ne.symm hother)] at hfound
        rw [step_syncDirectoryUser hname hfound, if_pos hdir]
        dsimp only
        rw [Accounts.putUser_comm hother]

end Comm

end Commute

end Ledger

/-! ### Whole runs -/

/-- The call writes memberships and leaves the groups. -/
def AccountCall.WritesMemberships : AccountCall → Prop
  | .updateUser .. => True
  | .syncDirectoryUser .. => True
  | _ => False

/-- The accounts and the calls that have been accepted, the latest first. -/
structure LedgerRun where
  ledger : Ledger
  accepted : List AccountCall := []

namespace LedgerRun

def step (S : PortalSettings) (t : LedgerRun) (call : AccountCall) : LedgerRun :=
  match t.ledger.exec S call with
  | .ok ledger => { ledger, accepted := call :: t.accepted }
  | .error _ => t

def lastSync (name : String) (accepted : List AccountCall) : Option Identity :=
  accepted.findSome? fun
    | .syncDirectoryUser _ identity =>
      if validateDirectoryUsername identity.username = .ok name then some identity else none
    | _ => none

/-- What the last update of the account that set memberships asked for. -/
def lastUpdate (userID : String) (accepted : List AccountCall) : List GroupMembership :=
  MembershipRequest.memberships <| (accepted.findSome? fun
    | .updateUser _ id req => if id = userID then req.memberships else none
    | _ => none).getD []

/-- **What is stored** under a name: the memberships of the last login and, in local groups, those
of the last update, one for each group. -/
def Stored (t : LedgerRun) (name : String) : Prop :=
  ∀ u, Accounts.getUserByUsername t.ledger.users name = some u →
    ∃ identity, lastSync name t.accepted = some identity ∧
      (∀ m, m ∈ u.memberships ↔ m ∈ claimedMemberships t.ledger.groups identity ∨
        m ∈ lastUpdate u.id t.accepted ∧ localGroup t.ledger.groups m.groupID = true) ∧
      (u.memberships.map (·.groupID)).Nodup

/-- What holds throughout: the list is the merge of the two sides. -/
private structure Inv (groups : List Group) (name : String) (t : LedgerRun) : Prop where
  groups_eq : t.ledger.groups = groups
  nodup : (t.ledger.users.map (·.id)).Nodup
  known : ∀ actor userID req, .updateUser actor userID req ∈ t.accepted →
    userID ∈ t.ledger.users.map (·.id)
  merged : ∀ u, Accounts.getUserByUsername t.ledger.users name = some u →
    ∃ identity, lastSync name t.accepted = some identity ∧
      u.memberships = mergeMemberships (claimedMemberships groups identity)
        (lastUpdate u.id t.accepted) groups ∧
      ((lastUpdate u.id t.accepted).map (·.groupID)).Nodup

section Inv

variable {S : PortalSettings} {groups : List Group} {name : String} {t : LedgerRun}

private theorem Inv.stored (hgroups : (groups.map (·.id)).Nodup) (h : t.Inv groups name) :
    t.Stored name := by
  intro u hu
  obtain ⟨identity, hsync, hmerged, hnodup⟩ := h.merged u hu
  obtain ⟨hsorted, hdirectory⟩ := claimedMemberships_spec hgroups identity
  refine ⟨identity, hsync, fun m => ?_, ?_⟩
  · rw [hmerged, mem_mergeMemberships, h.groups_eq]
    exact or_congr_left (and_iff_left_of_imp (hdirectory m))
  · rw [hmerged]
    exact (byGroup_mergeMemberships hsorted.nodup hnodup).nodup

/-! ### One call -/

section Last

variable {accepted : List AccountCall} {actor : Option Account} {id userID : String}
  {identity : Identity} {req : UpdateUserRequest}

private theorem lastSync_updateUser :
    lastSync name (.updateUser actor userID req :: accepted) = lastSync name accepted := rfl

private theorem lastSync_own (h : validateDirectoryUsername identity.username = .ok name) :
    lastSync name (.syncDirectoryUser id identity :: accepted) = some identity := by
  simp [lastSync, h]

private theorem lastSync_other (h : validateDirectoryUsername identity.username ≠ .ok name) :
    lastSync name (.syncDirectoryUser id identity :: accepted) = lastSync name accepted := by
  simp [lastSync, h]

private theorem lastUpdate_syncDirectoryUser :
    lastUpdate userID (.syncDirectoryUser id identity :: accepted) = lastUpdate userID accepted :=
  rfl

private theorem lastUpdate_other (h : id ≠ userID ∨ req.memberships = none) :
    lastUpdate userID (.updateUser actor id req :: accepted) = lastUpdate userID accepted := by
  rcases h with h | h
  · simp [lastUpdate, h]
  · simp [lastUpdate, h]

private theorem lastUpdate_own {asked : List MembershipRequest}
    (h : req.memberships = some asked) :
    lastUpdate userID (.updateUser actor userID req :: accepted) =
      MembershipRequest.memberships asked := by
  simp [lastUpdate, h]

private theorem lastUpdate_eq_nil
    (h : ∀ actor req, .updateUser actor userID req ∉ accepted) :
    lastUpdate userID accepted = [] := by
  have hnone : (accepted.findSome? fun
      | .updateUser _ id req => if id = userID then req.memberships else none
      | _ => none) = none := by
    rw [List.findSome?_eq_none_iff]
    intro call hcall
    split
    · rename_i actor id req
      rw [if_neg]
      rintro rfl
      exact h actor req hcall
    · rfl
  rw [lastUpdate, hnone]
  rfl

end Last

private theorem Inv.sync (hgroups : (groups.map (·.id)).Nodup) (h : t.Inv groups name)
    {id : String} {identity : Identity} {users' : List Account}
    (hok : Accounts.syncDirectoryUserLocked t.ledger.groups t.ledger.users id identity =
      .ok users') :
    Inv groups name
      ⟨{ t.ledger with users := users' }, .syncDirectoryUser id identity :: t.accepted⟩ := by
  obtain ⟨username, husername, hcases⟩ := Accounts.syncDirectoryUserLocked_eq_ok hok
  have hclaimed := (claimedMemberships_spec hgroups identity).1.nodup
  rw [h.groups_eq] at hcases
  -- who else has logged in is not seen under this name
  have hother (hne : username ≠ name) :
      validateDirectoryUsername identity.username ≠ .ok name := by
    rw [husername]
    exact fun heq => hne (Except.ok.inj heq)
  rcases hcases with ⟨hfree, hcreate⟩ | ⟨v, hv, -, rfl⟩
  · obtain ⟨rfl, hnew⟩ := Accounts.createUser_eq_ok hcreate
    refine ⟨h.groups_eq, ?_, ?_, ?_⟩
    · rw [List.map_append, List.map_singleton]
      refine List.nodup_append.mpr ⟨h.nodup, List.nodup_singleton _, ?_⟩
      intro x hx y hy
      obtain ⟨w, hw, rfl⟩ := List.mem_map.mp hx
      rw [List.mem_singleton.mp hy]
      exact (hnew w hw).1
    · intro actor userID req hmem
      have hknown := h.known actor userID req (by simpa using hmem)
      rw [List.map_append]
      exact List.mem_append_left _ hknown
    · intro u hu
      rw [lastUpdate_syncDirectoryUser]
      rw [Accounts.getUserByUsername, List.find?_append] at hu
      cases hold : Accounts.getUserByUsername t.ledger.users name with
      | some u' =>
        rw [show t.ledger.users.find? (·.username == name) = some u' from hold,
          Option.some_or] at hu
        obtain rfl := Option.some.inj hu
        have hne : username ≠ name := by
          rintro rfl
          rw [hfree] at hold
          cases hold
        rw [lastSync_other (hother hne)]
        exact h.merged u' hold
      | none =>
        rw [show t.ledger.users.find? (·.username == name) = none from hold, Option.none_or] at hu
        obtain ⟨rfl, hname⟩ : _ = u ∧ username = name := by
          simpa [and_comm] using hu
        subst hname
        have hnil : lastUpdate id t.accepted = [] := by
          refine lastUpdate_eq_nil fun actor req hmem => ?_
          obtain ⟨w, hw, hid⟩ := List.mem_map.mp (h.known actor id req hmem)
          exact (hnew w hw).1 hid
        refine ⟨identity, lastSync_own husername, ?_, ?_⟩
        · rw [hnil, mergeMemberships_claimed_nil hgroups]
        · rw [hnil]
          exact List.nodup_nil
  · obtain ⟨hmem, hvname⟩ := Accounts.mem_of_getUserByUsername hv
    refine ⟨h.groups_eq, ?_, ?_, ?_⟩
    · exact Accounts.map_putUser.symm ▸ h.nodup
    · intro actor userID req hin
      have hknown := h.known actor userID req (by simpa using hin)
      exact Accounts.map_putUser.symm ▸ hknown
    · intro u hu
      rw [lastUpdate_syncDirectoryUser]
      obtain ⟨old, hold, rfl⟩ := Accounts.of_getUserByUsername_putUser h.nodup hmem hu rfl rfl
      obtain ⟨last, hsync, hmerged, hnodup⟩ := h.merged old hold
      obtain ⟨holdmem, holdname⟩ := Accounts.mem_of_getUserByUsername hold
      by_cases hsame : old.id = v.id
      · obtain rfl : old = v := List.inj_on_of_nodup_map h.nodup holdmem hmem hsame
        rw [if_pos hsame]
        refine ⟨identity, lastSync_own (by rw [husername, ← hvname, holdname]), ?_, hnodup⟩
        dsimp only
        rw [hmerged, (mergeMemberships_mergeMemberships _ _ hclaimed hnodup).1]
      · rw [if_neg hsame]
        have hne : username ≠ name := by
          rintro rfl
          rw [hv] at hold
          exact hsame (by rw [Option.some.inj hold])
        exact ⟨last, by rw [lastSync_other (hother hne), hsync], hmerged, hnodup⟩

private theorem Inv.update (hgroups : (groups.map (·.id)).Nodup) (h : t.Inv groups name)
    {actor : Option Account} {userID : String} {req : UpdateUserRequest} {users' : List Account}
    (hok : Accounts.updateUser S t.ledger.groups t.ledger.users actor userID req = .ok users') :
    Inv groups name
      ⟨{ t.ledger with users := users' }, .updateUser actor userID req :: t.accepted⟩ := by
  obtain ⟨v, quotas, ms, hv, -, hms, rfl⟩ :=
    Accounts.updateUserLocked_eq_ok.mp (Accounts.updateUser_eq_ok hok)
  obtain ⟨hmem, rfl⟩ := (Accounts.getUser_eq_some h.nodup).mp hv
  rw [h.groups_eq] at hms
  refine ⟨h.groups_eq, ?_, ?_, ?_⟩
  · exact Accounts.map_putUser.symm ▸ h.nodup
  · intro actor' userID' req' hin
    have hknown : userID' ∈ t.ledger.users.map (·.id) := by
      rcases List.mem_cons.mp hin with heq | hin
      · obtain ⟨-, rfl, -⟩ := AccountCall.updateUser.inj heq
        exact List.mem_map_of_mem hmem
      · exact h.known actor' userID' req' hin
    exact Accounts.map_putUser.symm ▸ hknown
  · intro u hu
    rw [lastSync_updateUser]
    obtain ⟨old, hold, rfl⟩ := Accounts.of_getUserByUsername_putUser h.nodup hmem hu rfl rfl
    obtain ⟨last, hsync, hmerged, hnodup⟩ := h.merged old hold
    obtain ⟨holdmem, -⟩ := Accounts.mem_of_getUserByUsername hold
    by_cases hsame : old.id = v.id
    · obtain rfl : old = v := List.inj_on_of_nodup_map h.nodup holdmem hmem hsame
      rw [if_pos hsame]
      refine ⟨last, hsync, ?_⟩
      dsimp only
      cases hasked : req.memberships with
      | none =>
        simp only [Accounts.updatedMemberships, hasked, Except.ok.injEq] at hms
        rw [lastUpdate_other (.inr hasked), ← hms]
        exact ⟨hmerged, hnodup⟩
      | some asked =>
        simp only [Accounts.updatedMemberships, hasked, bind_eq_ok, pure_eq_ok] at hms
        obtain ⟨requested, hcheck, rfl⟩ := hms
        obtain ⟨rfl, hrequested, -⟩ := checkMemberships_eq_ok hcheck
        rw [lastUpdate_own hasked, hmerged]
        have hclaimed := (claimedMemberships_spec hgroups last).1.nodup
        exact ⟨(mergeMemberships_mergeMemberships _ _ hclaimed hrequested).2, hrequested⟩
    · rw [if_neg hsame, lastUpdate_other (.inl (Ne.symm hsame))]
      exact ⟨last, hsync, hmerged, hnodup⟩

private theorem Inv.step (hgroups : (groups.map (·.id)).Nodup) (h : t.Inv groups name)
    {call : AccountCall} (hcall : call.WritesMemberships) : (t.step S call).Inv groups name := by
  unfold LedgerRun.step
  split
  · rename_i ledger hexec
    cases call with
    | updateUser actor userID req =>
      simp only [Ledger.exec, bind_eq_ok, pure_eq_ok] at hexec
      obtain ⟨users', hok, rfl⟩ := hexec
      exact h.update hgroups hok
    | syncDirectoryUser id identity =>
      simp only [Ledger.exec, bind_eq_ok, pure_eq_ok] at hexec
      obtain ⟨users', hok, rfl⟩ := hexec
      exact h.sync hgroups hok
    | register | deleteUser | deleteGroup => exact hcall.elim
  · exact h

end Inv

/-- **Logins and updates**: however they are interleaved, what is stored for an account of the
directory is the directory part of its last login and the local part of its last update, with one
entry for each group; and from there a login of the account and an update of any account
commute. -/
theorem memberships_of_writers (S : PortalSettings) (start : Ledger) (name : String)
    (hgroups : (start.groups.map (·.id)).Nodup) (husers : (start.users.map (·.id)).Nodup)
    (hfirst : Accounts.getUserByUsername start.users name = none) (calls : List AccountCall)
    (hcalls : ∀ call ∈ calls, call.WritesMemberships) :
    (run (step S) { ledger := start } calls).Stored name ∧
      ∀ u identity id actor userID req, validateDirectoryUsername identity.username = .ok name →
        Accounts.getUserByUsername
          (run (step S) { ledger := start } calls).ledger.users name = some u →
        ((run (step S) { ledger := start } calls).ledger.step S
            (.syncDirectoryUser id identity)).step S (.updateUser actor userID req) =
          ((run (step S) { ledger := start } calls).ledger.step S
            (.updateUser actor userID req)).step S (.syncDirectoryUser id identity) := by
  have hstart : Inv start.groups name { ledger := start } := by
    refine ⟨rfl, husers, nofun, fun u hu => ?_⟩
    rw [hfirst] at hu
    cases hu
  have hinv := run_invariant (fun _ _ h hcall => h.step (S := S) hgroups hcall) hstart
    (along_of_forall hcalls _)
  refine ⟨hinv.stored hgroups, fun u identity id actor userID req hname hu => ?_⟩
  exact Ledger.step_comm (hinv.groups_eq.symm ▸ hgroups) hinv.nodup hname hu

/-- A group of the directory and a local one, and an administrator. -/
def twoGroups : Ledger where
  users := [{ id := "root", username := "admin", isAdmin := true }]
  groups := [{ id := "ops", directoryManaged := true, sourceKey := "ops" }, { id := "web" }]

/-- Alice logs in, and an update names both groups. -/
def loginThenUpdate : List AccountCall :=
  [.syncDirectoryUser "u1" { username := "alice", groups := [⟨"ops", .write⟩] },
    .updateUser (some { id := "root", username := "admin", isAdmin := true }) "u1"
      { memberships := some [⟨"web", "read"⟩, ⟨"ops", "read"⟩] }]

/-- The role the directory gave in its group stays, and the local group is added. -/
theorem memberships_loginThenUpdate :
    (run (step {}) { ledger := twoGroups } loginThenUpdate).Stored "alice" ∧
      ((Accounts.getUserByUsername (run (step {}) { ledger := twoGroups }
        loginThenUpdate).ledger.users "alice").map (·.memberships)) =
        some [⟨"ops", .write⟩, ⟨"web", .read⟩] := by
  refine ⟨(memberships_of_writers {} twoGroups "alice" (by decide) (by decide) (by decide)
    loginThenUpdate ?_).1, by decide +kernel⟩
  intro call hcall
  simp only [loginThenUpdate, List.mem_cons, List.not_mem_nil, or_false] at hcall
  rcases hcall with rfl | rfl
  · trivial
  · trivial

end LedgerRun

end KaaS
