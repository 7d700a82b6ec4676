import KaaS.App.Access
import KaaS.Vault.Access

/-!
# Policies and access agree

What an account may do with a cluster is decided in three places: by the check of a request
(`accessTo`), by the objects Vault is brought to (`desiredAccess`), where groups are principals of
their own, and by the list of policies of one account (`policiesForUser`). A path is open at the
strongest policy on it that is held (`pathAccess`): the **write policy** of the cluster and the
policy of the **administrators** allow everything, the **read policy** allows reading and listing.

Over a snapshot whose ids are keys and whose memberships name existing groups, each at most once
(`KeyedSnapshot`), the three agree on every account and every cluster
(`KeyedSnapshot.policies_agree`).
-/

namespace KaaS

/-! ### The policies of one account -/

/-- The role an actor has towards an owner: the loop over its memberships. -/
def bestRole (owner : User) (best : Option GroupRole) : List GroupMembership → Option GroupRole
  | [] => best
  | m :: ms =>
    if !owner.inGroup m.groupID then bestRole owner best ms
    else if m.role = .write then some .write
    else bestRole owner (some .read) ms

def policyFor (actor : User) (owners : String → Option User) (c : Cluster) : Option String :=
  if c.ownerID = actor.id then some (policyWrite c.id)
  else
    match owners c.ownerID with
    | none => none
    | some owner =>
      match bestRole owner none actor.memberships with
      | some .write => some (policyWrite c.id)
      | some .read => some (policyRead c.id)
      | none => none

def policiesForUser (actor : Option User) (clusters : List Cluster)
    (owners : String → Option User) : List String :=
  match actor with
  | none => []
  | some actor =>
    if actor.isAdmin then [policyAdmin]
    else sortedKeys (clusters.filterMap (policyFor actor owners))

/-- The strongest policy on the path of a cluster. -/
def pathAccess (policies : List String) (clusterID : String) : ClusterAccess :=
  if policyAdmin ∈ policies ∨ policyWrite clusterID ∈ policies then .full
  else if policyRead clusterID ∈ policies then .view
  else .none

/-- A snapshot of the store: ids are keys, that of an account is never empty, and memberships
name existing groups, each at most once. -/
structure KeyedSnapshot extends AccessSnapshot where
  userIDs : (users.map (·.id)).Nodup
  named : ∀ u ∈ users, u.id ≠ ""
  clusterIDs : (clusters.map (·.id)).Nodup
  known : ∀ u ∈ users, ∀ m ∈ u.memberships, m.groupID ∈ groups.map (·.id)
  once : ∀ u ∈ users, (u.memberships.map (·.groupID)).Nodup

/-! ### Names -/

section Names

variable {a b : String}

@[simp] theorem policyRead_inj : policyRead a = policyRead b ↔ a = b := by
  rw [policyRead, policyRead, String.append_left_inj, String.append_right_inj]

@[simp] theorem policyWrite_inj : policyWrite a = policyWrite b ↔ a = b := by
  rw [policyWrite, policyWrite, String.append_left_inj, String.append_right_inj]

@[simp] theorem policyWrite_ne_policyRead : policyWrite a ≠ policyRead b := by
  intro h
  have hlast := congrArg (·.toList.reverse.head?) h
  simp [policyWrite, policyRead] at hlast

@[simp] theorem policyAdmin_ne_policyWrite : policyAdmin ≠ policyWrite a := by
  intro h
  have htake := congrArg (·.toList.take 6) h
  simp [policyAdmin, policyWrite] at htake

@[simp] theorem policyAdmin_ne_policyRead : policyAdmin ≠ policyRead a := by
  intro h
  have htake := congrArg (·.toList.take 6) h
  simp [policyAdmin, policyRead] at htake

end Names

section Paths

variable {policies : List String} {id : String}

theorem pathAccess_eq_full_iff : pathAccess policies id = .full ↔
    policyAdmin ∈ policies ∨ policyWrite id ∈ policies := by
  unfold pathAccess
  split_ifs with hfull hread
  · exact iff_of_true rfl hfull
  · exact iff_of_false nofun hfull
  · exact iff_of_false nofun hfull

theorem pathAccess_ne_none_iff : pathAccess policies id ≠ .none ↔
    policyAdmin ∈ policies ∨ policyWrite id ∈ policies ∨ policyRead id ∈ policies := by
  rw [← or_assoc]
  unfold pathAccess
  split_ifs with hfull hread
  · exact iff_of_true nofun (.inl hfull)
  · exact iff_of_true nofun (.inr hread)
  · exact iff_of_false (not_not_intro rfl) (not_or.mpr ⟨hfull, hread⟩)

end Paths

/-- The policy a role in a group brings for a cluster the group reaches. -/
def GroupRole.policy : GroupRole → String → String
  | .read => policyRead
  | .write => policyWrite

section Roles

variable {role : GroupRole} {a b : String}

@[simp] theorem GroupRole.policy_eq_policyWrite :
    role.policy a = policyWrite b ↔ role = .write ∧ a = b := by
  cases role with
  | read => exact iff_of_false policyWrite_ne_policyRead.symm nofun
  | write => simp [policy]

@[simp] theorem GroupRole.policy_eq_policyRead :
    role.policy a = policyRead b ↔ role = .read ∧ a = b := by
  cases role with
  | read => simp [policy]
  | write => exact iff_of_false policyWrite_ne_policyRead nofun

theorem GroupRole.policy_inj {role' : GroupRole} :
    role.policy a = role'.policy b ↔ role = role' ∧ a = b := by
  cases role' with
  | read => exact policy_eq_policyRead
  | write => exact policy_eq_policyWrite

@[simp] theorem GroupRole.policy_ne_policyAdmin : role.policy a ≠ policyAdmin := by
  cases role with
  | read => exact policyAdmin_ne_policyRead.symm
  | write => exact policyAdmin_ne_policyWrite.symm

end Roles

/-! ### What is granted -/

namespace KeyedSnapshot

variable (S : KeyedSnapshot)

/-- An account and a cluster are connected through a membership: the owner is in the group. -/
def Reaches (m : GroupMembership) (c : Cluster) : Prop :=
  ∃ owner, S.users.find? (·.id == c.ownerID) = some owner ∧ owner.inGroup m.groupID

variable {S} {u : User} {lower : String → String}

theorem usersByID_eq (S : KeyedSnapshot) (id : String) :
    S.usersByID id = S.users.find? (·.id == id) := by
  refine Option.ext fun u => ?_
  rw [AccessSnapshot.usersByID, Keyed.find?_reverse_eq_some S.userIDs,
    Keyed.find?_eq_some S.userIDs]

theorem mem_groupClusters {m : GroupMembership} {c : Cluster} :
    c ∈ S.groupClusters m.groupID ↔ c ∈ S.clusters ∧ S.Reaches m c := by
  simp only [AccessSnapshot.groupClusters, List.mem_filter, usersByID_eq, Option.any_eq_true,
    List.any_eq_true, beq_iff_eq, Reaches, User.inGroup_iff]

theorem roleIn_eq_some (hu : u ∈ S.users) {groupID : String} {role : GroupRole} :
    u.roleIn groupID = some role ↔ ⟨groupID, role⟩ ∈ u.memberships := by
  rw [User.roleIn, Option.map_eq_some_iff]
  simp only [Keyed.find?_eq_some (S.once u hu)]
  constructor
  · rintro ⟨m, ⟨hm, rfl⟩, rfl⟩
    exact hm
  · intro hm
    exact ⟨_, ⟨hm, rfl⟩, rfl⟩

private theorem mem_members (hu : u ∈ S.users) {q : User → Bool} :
    entityName u.id ∈ ((S.users.filter q).map fun v => entityName v.id).insertionSort (· ≤ ·) ↔
      q u = true := by
  simp only [List.mem_insertionSort, List.mem_map, List.mem_filter, entityName_inj]
  constructor
  · rintro ⟨v, ⟨hv, hq⟩, hid⟩
    rwa [← List.inj_on_of_nodup_map S.userIDs hv hu hid]
  · intro hq
    exact ⟨u, ⟨hu, hq⟩, rfl⟩

/-- **What an account is granted**: the write policies of its own clusters, the policy of the
administrators if it is one, and for each membership the policies at its role. -/
theorem mem_granted_iff (lower : String → String) (hu : u ∈ S.users) {p : String} :
    p ∈ (S.desiredAccess lower).granted u.id ↔
      (∃ c ∈ S.clusters, c.ownerID = u.id ∧ p = policyWrite c.id) ∨
      (u.isAdmin = true ∧ p = policyAdmin) ∨
      ∃ m ∈ u.memberships, ∃ c ∈ S.clusters, S.Reaches m c ∧ p = m.role.policy c.id := by
  rw [mem_granted, mem_granted_entity]
  refine or_congr ?_ ?_
  · simp only [AccessSnapshot.entityPolicies, mem_sortedKeys, List.mem_map, List.mem_filter,
      Bool.and_eq_true, bne_iff_ne, beq_iff_eq]
    constructor
    · rintro ⟨-, c, ⟨hc, -, howner⟩, rfl⟩
      exact ⟨c, hc, howner, rfl⟩
    · rintro ⟨c, hc, howner, rfl⟩
      exact ⟨⟨u, hu, rfl⟩, c, ⟨hc, howner ▸ S.named u hu, howner⟩, rfl⟩
  · constructor
    · rintro ⟨g, hg, hmember, hp⟩
      rcases AccessSnapshot.mem_desiredGroups.mp hg with rfl | ⟨q, -, rfl | rfl⟩
      · exact .inl ⟨(mem_members hu).mp hmember, List.mem_singleton.mp hp⟩
      · have hrole : u.roleIn q.id = some .write := by simpa using (mem_members hu).mp hmember
        obtain ⟨c, hc, rfl⟩ := List.mem_map.mp (mem_sortedKeys.mp hp)
        obtain ⟨hc, hreaches⟩ := mem_groupClusters (m := ⟨q.id, .write⟩).mp hc
        exact .inr ⟨_, (roleIn_eq_some hu).mp hrole, c, hc, hreaches, rfl⟩
      · have hrole : u.roleIn q.id = some .read := by simpa using (mem_members hu).mp hmember
        obtain ⟨c, hc, rfl⟩ := List.mem_map.mp (mem_sortedKeys.mp hp)
        obtain ⟨hc, hreaches⟩ := mem_groupClusters (m := ⟨q.id, .read⟩).mp hc
        exact .inr ⟨_, (roleIn_eq_some hu).mp hrole, c, hc, hreaches, rfl⟩
    · rintro (⟨hadmin, rfl⟩ | ⟨⟨groupID, role⟩, hm, c, hc, hreaches, rfl⟩)
      · exact ⟨_, AccessSnapshot.mem_desiredGroups.mpr (.inl rfl), (mem_members hu).mpr hadmin,
          List.mem_singleton_self _⟩
      · obtain ⟨q, hq, rfl⟩ := List.mem_map.mp (S.known u hu _ hm)
        have hrole := (roleIn_eq_some hu).mpr hm
        have hcluster : c ∈ S.groupClusters q.id := mem_groupClusters.mpr ⟨hc, hreaches⟩
        -- the group of the role carries the policy
        cases role with
        | read =>
          exact ⟨_, AccessSnapshot.mem_desiredGroups.mpr (.inr ⟨q, hq, .inr rfl⟩),
            (mem_members hu).mpr (by simpa using hrole),
            mem_sortedKeys.mpr (List.mem_map_of_mem hcluster)⟩
        | write =>
          exact ⟨_, AccessSnapshot.mem_desiredGroups.mpr (.inr ⟨q, hq, .inl rfl⟩),
            (mem_members hu).mpr (by simpa using hrole),
            mem_sortedKeys.mpr (List.mem_map_of_mem hcluster)⟩

section AccessTo

variable {c : Cluster}

theorem accessTo_eq_full_iff_reaches : accessTo S.users u c = .full ↔
    u.isAdmin = true ∨ c.ownerID = u.id ∨
      ∃ m ∈ u.memberships, S.Reaches m c ∧ m.role = .write := by
  rw [← or_assoc]
  by_cases hself : u.isAdmin = true ∨ c.ownerID = u.id
  · exact iff_of_true (accessTo_eq_full hself) (.inl hself)
  · rw [accessTo_eq_full_iff hself, or_iff_right hself]
    constructor
    · rintro ⟨owner, howner, m, hm, hin, hrole⟩
      exact ⟨m, hm, ⟨owner, howner, hin⟩, hrole⟩
    · rintro ⟨m, hm, ⟨owner, howner, hin⟩, hrole⟩
      exact ⟨owner, howner, m, hm, hin, hrole⟩

theorem accessTo_ne_none_iff_reaches : accessTo S.users u c ≠ .none ↔
    u.isAdmin = true ∨ c.ownerID = u.id ∨ ∃ m ∈ u.memberships, S.Reaches m c := by
  rw [← or_assoc]
  by_cases hself : u.isAdmin = true ∨ c.ownerID = u.id
  · refine iff_of_true ?_ (.inl hself)
    rw [accessTo_eq_full hself]
    nofun
  · rw [accessTo_ne_none hself, or_iff_right hself]
    constructor
    · rintro ⟨owner, howner, m, hm, hin⟩
      exact ⟨m, hm, owner, howner, hin⟩
    · rintro ⟨m, hm, owner, howner, hin⟩
      exact ⟨owner, howner, m, hm, hin⟩

end AccessTo

/-! ### Vault and the check of a request -/

private theorem eq_of_id {c c' : Cluster} (hc : c ∈ S.clusters) (hc' : c' ∈ S.clusters)
    (hid : c.id = c'.id) : c = c' :=
  List.inj_on_of_nodup_map S.clusterIDs hc hc' hid

theorem policyAdmin_mem_granted (hu : u ∈ S.users) :
    policyAdmin ∈ (S.desiredAccess lower).granted u.id ↔ u.isAdmin = true := by
  rw [mem_granted_iff lower hu]
  simp [GroupRole.policy_ne_policyAdmin.symm]

theorem policyWrite_mem_granted (hu : u ∈ S.users) {c : Cluster} (hc : c ∈ S.clusters) :
    policyWrite c.id ∈ (S.desiredAccess lower).granted u.id ↔
      c.ownerID = u.id ∨ ∃ m ∈ u.memberships, S.Reaches m c ∧ m.role = .write := by
  simp only [mem_granted_iff lower hu, policyWrite_inj, policyAdmin_ne_policyWrite.symm, and_false,
    false_or]
  constructor
  · rintro (⟨c', hc', howner, hid⟩ | ⟨m, hm, c', hc', hreaches, hp⟩)
    · exact .inl (eq_of_id hc hc' hid ▸ howner)
    · obtain ⟨hrole, hid⟩ := GroupRole.policy_eq_policyWrite.mp hp.symm
      exact .inr ⟨m, hm, eq_of_id hc' hc hid ▸ hreaches, hrole⟩
  · rintro (howner | ⟨m, hm, hreaches, hrole⟩)
    · exact .inl ⟨c, hc, howner, rfl⟩
    · exact .inr ⟨m, hm, c, hc, hreaches, by rw [hrole]; rfl⟩

theorem policyRead_mem_granted (hu : u ∈ S.users) {c : Cluster} (hc : c ∈ S.clusters) :
    policyRead c.id ∈ (S.desiredAccess lower).granted u.id ↔
      ∃ m ∈ u.memberships, S.Reaches m c ∧ m.role = .read := by
  simp only [mem_granted_iff lower hu, policyWrite_ne_policyRead.symm,
    policyAdmin_ne_policyRead.symm, and_false, exists_false, false_or]
  constructor
  · rintro ⟨m, hm, c', hc', hreaches, hp⟩
    obtain ⟨hrole, hid⟩ := GroupRole.policy_eq_policyRead.mp hp.symm
    exact ⟨m, hm, eq_of_id hc' hc hid ▸ hreaches, hrole⟩
  · rintro ⟨m, hm, hreaches, hrole⟩
    exact ⟨m, hm, c, hc, hreaches, by rw [hrole]; rfl⟩

/-- **Vault opens a path at the level of the account.** -/
theorem pathAccess_granted (hu : u ∈ S.users) {c : Cluster} (hc : c ∈ S.clusters) :
    pathAccess ((S.desiredAccess lower).granted u.id) c.id = accessTo S.users u c := by
  refine ClusterAccess.eq_of_iff ?_ (not_iff_not.mp ?_)
  · rw [pathAccess_eq_full_iff, policyAdmin_mem_granted hu, policyWrite_mem_granted hu hc,
      accessTo_eq_full_iff_reaches]
  · rw [← ne_eq, ← ne_eq, accessTo_ne_none_iff_reaches, pathAccess_ne_none_iff,
      policyAdmin_mem_granted hu, policyWrite_mem_granted hu hc, policyRead_mem_granted hu hc,
      or_assoc]
    refine or_congr_right (or_congr_right ?_)
    constructor
    · rintro (⟨m, hm, hreaches, -⟩ | ⟨m, hm, hreaches, -⟩)
      · exact ⟨m, hm, hreaches⟩
      · exact ⟨m, hm, hreaches⟩
    · rintro ⟨m, hm, hreaches⟩
      cases hrole : m.role with
      | read => exact .inr ⟨m, hm, hreaches, hrole⟩
      | write => exact .inl ⟨m, hm, hreaches, hrole⟩

/-! ### The list of one account -/

private theorem bestRole_eq {owner : User} {best : Option GroupRole} {ms : List GroupMembership} :
    bestRole owner best ms =
      if ∃ m ∈ ms, owner.inGroup m.groupID ∧ m.role = .write then some .write
      else if ∃ m ∈ ms, owner.inGroup m.groupID then some .read else best := by
  induction ms generalizing best with
  | nil => simp [bestRole]
  | cons m ms ih =>
    unfold bestRole
    by_cases hin : owner.inGroup m.groupID = true
    · by_cases hwrite : m.role = .write
      · simp [hin, hwrite]
      · simp [hin, hwrite, ih]
    · simp [hin, ih]

theorem policyFor_eq {c : Cluster} (hadmin : u.isAdmin = false) :
    policyFor u S.usersByID c = match accessTo S.users u c with
      | .full => some (policyWrite c.id)
      | .view => some (policyRead c.id)
      | .none => none := by
  unfold policyFor
  split_ifs with howner
  · rw [accessTo_eq_full (.inr howner)]
  · rw [accessTo_of_not (by simp [hadmin, howner]), usersByID_eq]
    cases S.users.find? (·.id == c.ownerID) with
    | none => rfl
    | some owner =>
      simp only [bestRole_eq]
      split_ifs <;> rfl

private theorem mem_policiesForUser (hadmin : u.isAdmin = false) {p : String} :
    p ∈ policiesForUser (some u) S.clusters S.usersByID ↔
      ∃ c ∈ S.clusters, policyFor u S.usersByID c = some p := by
  simp only [policiesForUser, hadmin, Bool.false_eq_true, if_false, mem_sortedKeys,
    List.mem_filterMap]

private theorem mem_policiesForUser_cases (hadmin : u.isAdmin = false) {p : String}
    (hp : p ∈ policiesForUser (some u) S.clusters S.usersByID) :
    ∃ c ∈ S.clusters, accessTo S.users u c = .full ∧ p = policyWrite c.id ∨
      accessTo S.users u c = .view ∧ p = policyRead c.id := by
  obtain ⟨c, hc, hpolicy⟩ := (mem_policiesForUser hadmin).mp hp
  rw [policyFor_eq hadmin] at hpolicy
  refine ⟨c, hc, ?_⟩
  cases hlevel : accessTo S.users u c with
  | none => simp [hlevel] at hpolicy
  | view => exact .inr ⟨rfl, by simpa [hlevel] using hpolicy.symm⟩
  | full => exact .inl ⟨rfl, by simpa [hlevel] using hpolicy.symm⟩

private theorem policyAdmin_mem_policiesForUser :
    policyAdmin ∈ policiesForUser (some u) S.clusters S.usersByID ↔ u.isAdmin = true := by
  by_cases hadmin : u.isAdmin = true
  · simp [policiesForUser, hadmin]
  · refine iff_of_false (fun hp => ?_) hadmin
    obtain ⟨c, -, ⟨-, heq⟩ | ⟨-, heq⟩⟩ :=
      mem_policiesForUser_cases (Bool.eq_false_of_not_eq_true hadmin) hp
    · exact policyAdmin_ne_policyWrite heq
    · exact policyAdmin_ne_policyRead heq

/-- **The list of one account opens a path at its level.** -/
theorem pathAccess_policiesForUser {c : Cluster} (hc : c ∈ S.clusters) :
    pathAccess (policiesForUser (some u) S.clusters S.usersByID) c.id = accessTo S.users u c := by
  by_cases hadmin : u.isAdmin = true
  · rw [accessTo_eq_full (.inl hadmin), pathAccess_eq_full_iff]
    exact .inl (by simp [policiesForUser, hadmin])
  · have hadmin : u.isAdmin = false := Bool.eq_false_of_not_eq_true hadmin
    have hadd : policyAdmin ∉ policiesForUser (some u) S.clusters S.usersByID := by
      rw [policyAdmin_mem_policiesForUser, hadmin]
      exact Bool.false_ne_true
    have hwrite : policyWrite c.id ∈ policiesForUser (some u) S.clusters S.usersByID ↔
        accessTo S.users u c = .full := by
      constructor
      · intro hp
        obtain ⟨c', hc', ⟨hlevel, heq⟩ | ⟨-, heq⟩⟩ := mem_policiesForUser_cases hadmin hp
        · rwa [eq_of_id hc hc' (policyWrite_inj.mp heq)]
        · exact absurd heq policyWrite_ne_policyRead
      · intro hlevel
        exact (mem_policiesForUser hadmin).mpr ⟨c, hc, by rw [policyFor_eq hadmin, hlevel]⟩
    have hread : policyRead c.id ∈ policiesForUser (some u) S.clusters S.usersByID ↔
        accessTo S.users u c = .view := by
      constructor
      · intro hp
        obtain ⟨c', hc', ⟨-, heq⟩ | ⟨hlevel, heq⟩⟩ := mem_policiesForUser_cases hadmin hp
        · exact absurd heq.symm policyWrite_ne_policyRead
        · rwa [eq_of_id hc hc' (policyRead_inj.mp heq)]
      · intro hlevel
        exact (mem_policiesForUser hadmin).mpr ⟨c, hc, by rw [policyFor_eq hadmin, hlevel]⟩
    refine ClusterAccess.eq_of_iff ?_ (not_iff_not.mp ?_)
    · rw [pathAccess_eq_full_iff, or_iff_right hadd, hwrite]
    · rw [← ne_eq, pathAccess_ne_none_iff, or_iff_right hadd, hwrite, hread]
      cases accessTo S.users u c <;> simp

private theorem pathAccess_of_unknown {policies : List String} {id : String}
    (hwrite : policyWrite id ∉ policies) (hread : policyRead id ∉ policies) :
    pathAccess policies id = if policyAdmin ∈ policies then .full else .none := by
  unfold pathAccess
  simp only [hwrite, hread, or_false, if_false]

/-- **Three derivations of one access**: for every account and every cluster of a snapshot the
path of the cluster is open through Vault's entities and groups exactly at the level of
`accessTo`, and the policies of one account open every path at the same level. -/
theorem policies_agree (S : KeyedSnapshot) (lower : String → String) (u : User)
    (hu : u ∈ S.users) :
    (∀ c ∈ S.clusters,
      pathAccess ((S.desiredAccess lower).granted u.id) c.id = accessTo S.users u c) ∧
    ∀ id, pathAccess (policiesForUser (some u) S.clusters S.usersByID) id =
      pathAccess ((S.desiredAccess lower).granted u.id) id := by
  refine ⟨fun c hc => pathAccess_granted hu hc, fun id => ?_⟩
  by_cases hknown : ∃ c ∈ S.clusters, c.id = id
  · obtain ⟨c, hc, rfl⟩ := hknown
    rw [pathAccess_policiesForUser hc, pathAccess_granted hu hc]
  · have hgranted (role : GroupRole) :
        role.policy id ∉ (S.desiredAccess lower).granted u.id := by
      rw [mem_granted_iff lower hu]
      rintro (⟨c, hc, -, heq⟩ | ⟨-, heq⟩ | ⟨m, -, c, hc, -, heq⟩)
      · exact hknown ⟨c, hc, (GroupRole.policy_eq_policyWrite.mp heq).2.symm⟩
      · exact GroupRole.policy_ne_policyAdmin heq
      · exact hknown ⟨c, hc, (GroupRole.policy_inj.mp heq).2.symm⟩
    have hlisted (role : GroupRole) :
        role.policy id ∉ policiesForUser (some u) S.clusters S.usersByID := by
      intro hp
      by_cases hadmin : u.isAdmin = true
      · simp [policiesForUser, hadmin] at hp
      · obtain ⟨c, hc, ⟨-, heq⟩ | ⟨-, heq⟩⟩ :=
          mem_policiesForUser_cases (Bool.eq_false_of_not_eq_true hadmin) hp
        · exact hknown ⟨c, hc, (GroupRole.policy_eq_policyWrite.mp heq).2.symm⟩
        · exact hknown ⟨c, hc, (GroupRole.policy_eq_policyRead.mp heq).2.symm⟩
    rw [pathAccess_of_unknown (hgranted .write) (hgranted .read),
      pathAccess_of_unknown (hlisted .write) (hlisted .read)]
    simp only [policyAdmin_mem_granted hu, policyAdmin_mem_policiesForUser]

/-- A team: the owner of a cluster, one who may write and one who may read. -/
def team : KeyedSnapshot where
  users :=
    [{ id := "u1", username := "alice", memberships := [⟨"g", .read⟩] },
      { id := "u2", username := "bob", memberships := [⟨"g", .write⟩] },
      { id := "u3", username := "carol", memberships := [⟨"g", .read⟩] }]
  groups := [{ id := "g" }]
  clusters := [{ id := "c1", ownerID := "u1" }]
  userIDs := by decide
  named := by decide
  clusterIDs := by decide
  known := by decide
  once := by decide

/-- The reader of the team has a view, through Vault as through the portal. -/
theorem policies_agree_team :
    pathAccess ((team.desiredAccess id).granted "u3") "c1" = .view ∧
      pathAccess (policiesForUser (some ⟨"u3", "carol", false, [⟨"g", .read⟩]⟩) team.clusters
        team.usersByID) "c1" = .view := by
  obtain ⟨hvault, hlist⟩ := policies_agree team id ⟨"u3", "carol", false, [⟨"g", .read⟩]⟩
    (by decide)
  have hview : pathAccess ((team.desiredAccess id).granted "u3") "c1" = .view :=
    (hvault { id := "c1", ownerID := "u1" } List.mem_cons_self).trans (by decide)
  exact ⟨hview, (hlist "c1").trans hview⟩

end KeyedSnapshot

end KaaS
