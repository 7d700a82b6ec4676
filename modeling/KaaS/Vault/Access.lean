import KaaS.Domain.Access
import KaaS.Library.Assoc
import Mathlib.Data.List.Dedup
import Mathlib.Data.List.Sort

/-!
# Access in Vault

Who may read or write the secrets of a cluster is mirrored in Vault as **identity entities**, one
for each account, and **identity groups**, two for each group of the platform and one for the
administrators. `desiredAccess` computes them from a snapshot: the owner of a cluster has its
write policy, and the members of a group have the policies of the clusters whose owner is in it,
each at their own role.

`syncAccess` brings Vault there: entities are upserted by name, and each group is written with its
policies and the ids of its members. What is **not desired is not touched**. (The aliases, which
tie a login to an entity, change neither what it holds nor who is in a group, and are left out.)
-/

namespace KaaS

/-! ### Names -/

def policyRead (clusterID : String) : String := "kaas-cluster-" ++ clusterID ++ "-read"

def policyWrite (clusterID : String) : String := "kaas-cluster-" ++ clusterID ++ "-write"

def policyAdmin : String := "kaas-admin"

def groupAdmins : String := "kaas-admins"

def groupRead (groupID : String) : String := "kaas-group-" ++ groupID ++ "-read"

def groupWrite (groupID : String) : String := "kaas-group-" ++ groupID ++ "-write"

def entityName (userID : String) : String := "kaas-user-" ++ userID

section Names

variable {a b : String}

@[simp] theorem entityName_inj : entityName a = entityName b ↔ a = b := String.append_right_inj _

@[simp] theorem groupRead_inj : groupRead a = groupRead b ↔ a = b := by
  rw [groupRead, groupRead, String.append_left_inj, String.append_right_inj]

@[simp] theorem groupWrite_inj : groupWrite a = groupWrite b ↔ a = b := by
  rw [groupWrite, groupWrite, String.append_left_inj, String.append_right_inj]

theorem groupWrite_ne_groupRead : groupWrite a ≠ groupRead b := by
  intro h
  have hlast := congrArg (·.toList.reverse.head?) h
  simp [groupWrite, groupRead] at hlast

theorem groupAdmins_ne_groupWrite : groupAdmins ≠ groupWrite a := by
  intro h
  have htake := congrArg (·.toList.take 6) h
  simp [groupAdmins, groupWrite] at htake

theorem groupAdmins_ne_groupRead : groupAdmins ≠ groupRead a := by
  intro h
  have htake := congrArg (·.toList.take 6) h
  simp [groupAdmins, groupRead] at htake

end Names

/-! ### Desired access -/

def sortedKeys (keys : List String) : List String := keys.dedup.insertionSort (· ≤ ·)

@[simp] theorem mem_sortedKeys {keys : List String} {k : String} :
    k ∈ sortedKeys keys ↔ k ∈ keys := by
  rw [sortedKeys, List.mem_insertionSort, List.mem_dedup]

structure DesiredEntity where
  name : String
  aliasName : String
  policies : List String
  deriving DecidableEq

structure DesiredGroup where
  name : String
  members : List String
  policies : List String
  deriving DecidableEq

structure DesiredState where
  entities : List DesiredEntity
  groups : List DesiredGroup

namespace AccessSnapshot

variable (lower : String → String) (snap : AccessSnapshot)

/-- The policies of the clusters an account owns. -/
def entityPolicies (userID : String) : List String :=
  sortedKeys ((snap.clusters.filter fun c => c.ownerID != "" && c.ownerID == userID).map
    fun c => policyWrite c.id)

/-- The clusters a group reaches: those whose owner is in it. -/
def groupClusters (groupID : String) : List Cluster :=
  snap.clusters.filter fun c =>
    (snap.usersByID c.ownerID).any fun owner => owner.memberships.any (·.groupID == groupID)

/-- The entities of the accounts that have this role in the group. -/
def groupMembers (groupID : String) (role : GroupRole) : List String :=
  ((snap.users.filter fun u => u.roleIn groupID == some role).map
    fun u => entityName u.id).insertionSort (· ≤ ·)

def desiredEntity (u : User) : DesiredEntity where
  name := entityName u.id
  aliasName := lower u.username
  policies := snap.entityPolicies u.id

def desiredAdmins : DesiredGroup where
  name := groupAdmins
  members := ((snap.users.filter (·.isAdmin)).map fun u => entityName u.id).insertionSort (· ≤ ·)
  policies := [policyAdmin]

def desiredWriters (groupID : String) : DesiredGroup where
  name := groupWrite groupID
  members := snap.groupMembers groupID .write
  policies := sortedKeys ((snap.groupClusters groupID).map fun c => policyWrite c.id)

def desiredReaders (groupID : String) : DesiredGroup where
  name := groupRead groupID
  members := snap.groupMembers groupID .read
  policies := sortedKeys ((snap.groupClusters groupID).map fun c => policyRead c.id)

def desiredAccess : DesiredState where
  entities := (snap.users.map (snap.desiredEntity lower)).insertionSort fun x y => x.name ≤ y.name
  groups := (snap.desiredAdmins :: snap.groups.flatMap
    fun g => [snap.desiredWriters g.id, snap.desiredReaders g.id]).insertionSort
      fun x y => x.name ≤ y.name

variable {lower snap}

theorem mem_desiredEntities {e : DesiredEntity} :
    e ∈ (snap.desiredAccess lower).entities ↔ ∃ u ∈ snap.users, snap.desiredEntity lower u = e := by
  rw [desiredAccess, List.mem_insertionSort, List.mem_map]

theorem mem_desiredGroups {g : DesiredGroup} :
    g ∈ (snap.desiredAccess lower).groups ↔ g = snap.desiredAdmins ∨
      ∃ q ∈ snap.groups, g = snap.desiredWriters q.id ∨ g = snap.desiredReaders q.id := by
  simp only [desiredAccess, List.mem_insertionSort, List.mem_cons, List.mem_flatMap,
    List.not_mem_nil, or_false]

theorem eq_of_name_eq {g d : DesiredGroup} (hg : g ∈ (snap.desiredAccess lower).groups)
    (hd : d ∈ (snap.desiredAccess lower).groups) (h : g.name = d.name) : g = d := by
  rcases mem_desiredGroups.1 hg with rfl | ⟨p, -, rfl | rfl⟩ <;>
    rcases mem_desiredGroups.1 hd with rfl | ⟨q, -, rfl | rfl⟩
  · rfl
  · exact absurd h groupAdmins_ne_groupWrite
  · exact absurd h groupAdmins_ne_groupRead
  · exact absurd h.symm groupAdmins_ne_groupWrite
  · rw [groupWrite_inj.1 h]
  · exact absurd h groupWrite_ne_groupRead
  · exact absurd h.symm groupAdmins_ne_groupRead
  · exact absurd h.symm groupWrite_ne_groupRead
  · rw [groupRead_inj.1 h]

theorem exists_user_of_mem_members {g : DesiredGroup}
    (hg : g ∈ (snap.desiredAccess lower).groups) {m : String} (hm : m ∈ g.members) :
    ∃ u ∈ snap.users, m = entityName u.id := by
  have hsorted : ∀ q : User → Bool,
      m ∈ ((snap.users.filter q).map fun u => entityName u.id).insertionSort (· ≤ ·) →
      ∃ u ∈ snap.users, m = entityName u.id := by
    intro q hmem
    obtain ⟨u, hu, rfl⟩ := List.mem_map.1 ((List.mem_insertionSort _).1 hmem)
    exact ⟨u, (List.mem_filter.1 hu).1, rfl⟩
  rcases mem_desiredGroups.1 hg with rfl | ⟨p, -, rfl | rfl⟩
  · exact hsorted _ hm
  · exact hsorted _ hm
  · exact hsorted _ hm

end AccessSnapshot

/-- The policies the desired objects give an account, directly and through the groups. -/
def DesiredState.granted (D : DesiredState) (userID : String) : List String :=
  (D.entities.filter (·.name == entityName userID)).flatMap (·.policies) ++
    (D.groups.filter (·.members.contains (entityName userID))).flatMap (·.policies)

theorem mem_granted {D : DesiredState} {userID p : String} :
    p ∈ D.granted userID ↔ (∃ e ∈ D.entities, e.name = entityName userID ∧ p ∈ e.policies) ∨
      ∃ g ∈ D.groups, entityName userID ∈ g.members ∧ p ∈ g.policies := by
  simp only [DesiredState.granted, List.mem_append, List.mem_flatMap, List.mem_filter,
    beq_iff_eq, List.contains_iff_mem, and_assoc]

theorem mem_granted_entity {lower : String → String} {snap : AccessSnapshot} {userID p : String} :
    (∃ e ∈ (snap.desiredAccess lower).entities, e.name = entityName userID ∧ p ∈ e.policies) ↔
      (∃ u ∈ snap.users, u.id = userID) ∧ p ∈ snap.entityPolicies userID := by
  constructor
  · rintro ⟨e, he, hname, hp⟩
    obtain ⟨u, hu, rfl⟩ := AccessSnapshot.mem_desiredEntities.1 he
    obtain rfl := entityName_inj.1 hname
    exact ⟨⟨u, hu, rfl⟩, hp⟩
  · rintro ⟨⟨u, hu, rfl⟩, hp⟩
    exact ⟨_, AccessSnapshot.mem_desiredEntities.2 ⟨u, hu, rfl⟩, rfl, hp⟩

/-! ### Vault -/

structure Entity where
  id : Nat
  policies : List String
  deriving DecidableEq

structure IdentityGroup where
  policies : List String
  memberIDs : List Nat
  deriving DecidableEq

/-- The entities and groups by name. Ids are given out once. -/
structure Identities where
  entities : AList (fun _ : String => Entity) := ∅
  groups : AList (fun _ : String => IdentityGroup) := ∅
  nextID : Nat := 0

namespace Identities

/-- The id of the entity a write by name creates or updates. -/
def idOf (v : Identities) (name : String) : Nat :=
  ((v.entities.lookup name).map (·.id)).getD v.nextID

def upsertEntity (v : Identities) (name : String) (policies : List String) : Identities :=
  { v with
    entities := v.entities.insert name { id := v.idOf name, policies }
    nextID := if name ∈ v.entities then v.nextID else v.nextID + 1 }

def putGroup (v : Identities) (name : String) (policies : List String) (memberIDs : List Nat) :
    Identities :=
  { v with groups := v.groups.insert name { policies, memberIDs } }

/-- The first loop of `SyncAccess`, with the ids it collects. -/
def syncEntities (v : Identities) (ids : AList fun _ : String => Nat) :
    List DesiredEntity → Identities × AList fun _ : String => Nat
  | [] => (v, ids)
  | e :: es =>
    (v.upsertEntity e.name e.policies).syncEntities (ids.insert e.name (v.idOf e.name)) es

/-- The second one. -/
def syncGroups (ids : AList fun _ : String => Nat) (v : Identities) (gs : List DesiredGroup) :
    Identities :=
  gs.foldl (fun v g => v.putGroup g.name g.policies (g.members.filterMap ids.lookup)) v

def syncAccess (lower : String → String) (snap : AccessSnapshot) (v : Identities) :
    Identities :=
  let desired := snap.desiredAccess lower
  let (v, ids) := v.syncEntities ∅ desired.entities
  v.syncGroups ids desired.groups

/-- **What an entity holds**, directly and through every group that lists it. -/
def held (v : Identities) (e : Entity) : List String :=
  e.policies ++ (v.groups.entries.filter (·.2.memberIDs.contains e.id)).flatMap (·.2.policies)

theorem mem_held {v : Identities} {e : Entity} {p : String} :
    p ∈ v.held e ↔ p ∈ e.policies ∨
      ∃ name g, v.groups.lookup name = some g ∧ e.id ∈ g.memberIDs ∧ p ∈ g.policies := by
  simp only [held, List.mem_append, List.mem_flatMap, List.mem_filter, List.contains_iff_mem]
  refine or_congr_right ⟨?_, ?_⟩
  · rintro ⟨⟨name, g⟩, ⟨hmem, hid⟩, hp⟩
    exact ⟨name, g, AList.mem_lookup_iff.2 hmem, hid, hp⟩
  · rintro ⟨name, g, hlookup, hid, hp⟩
    exact ⟨⟨name, g⟩, ⟨AList.mem_lookup_iff.1 hlookup, hid⟩, hp⟩

/-! ### What a pass leaves -/

/-- Entities have different ids, all given out. -/
structure Unique (v : Identities) : Prop where
  lt : ∀ {name e}, v.entities.lookup name = some e → e.id < v.nextID
  inj : ∀ {name name' e e'}, v.entities.lookup name = some e →
    v.entities.lookup name' = some e' → e.id = e'.id → name = name'

section Entities

variable {v : Identities} {ids : AList fun _ : String => Nat} {es : List DesiredEntity}

private theorem idOf_cases (v : Identities) (name : String) :
    (∃ e, v.entities.lookup name = some e ∧ v.idOf name = e.id) ∨
      v.entities.lookup name = none ∧ v.idOf name = v.nextID := by
  unfold idOf
  cases hlookup : v.entities.lookup name with
  | none => exact .inr ⟨rfl, rfl⟩
  | some e => exact .inl ⟨e, rfl, rfl⟩

theorem Unique.upsertEntity (h : v.Unique) (name : String) (policies : List String) :
    (v.upsertEntity name policies).Unique := by
  have hlookup : ∀ {n e}, (v.upsertEntity name policies).entities.lookup n = some e →
      n = name ∧ e.id = v.idOf name ∨ n ≠ name ∧ v.entities.lookup n = some e := by
    intro n e hn
    by_cases heq : n = name
    · subst heq
      rw [Identities.upsertEntity, AList.lookup_insert] at hn
      exact .inl ⟨rfl, by rw [← Option.some.inj hn]⟩
    · rw [Identities.upsertEntity, AList.lookup_insert_ne heq] at hn
      exact .inr ⟨heq, hn⟩
  -- no other entity has the id of this one
  have hother : ∀ {n e}, n ≠ name → v.entities.lookup n = some e → e.id ≠ v.idOf name := by
    intro n e hne hn heq
    rcases idOf_cases v name with ⟨d, hd, hid⟩ | ⟨-, hid⟩
    · exact hne (h.inj hn hd (heq.trans hid))
    · exact absurd (h.lt hn) (by omega)
  refine ⟨fun {n e} hn => ?_, fun {n n' e e'} hn hn' hid => ?_⟩
  · have hnext : v.idOf name < (v.upsertEntity name policies).nextID ∧
        v.nextID ≤ (v.upsertEntity name policies).nextID := by
      rcases idOf_cases v name with ⟨d, hd, hid⟩ | ⟨hnone, hid⟩
      · have hmem : name ∈ v.entities := AList.lookup_isSome.1 (by rw [hd]; rfl)
        have := h.lt hd
        simp only [Identities.upsertEntity, if_pos hmem]
        omega
      · have hmem : name ∉ v.entities := AList.lookup_eq_none.1 hnone
        simp only [Identities.upsertEntity, if_neg hmem]
        omega
    rcases hlookup hn with ⟨-, hid⟩ | ⟨-, hn⟩
    · omega
    · have := h.lt hn
      omega
  · rcases hlookup hn with ⟨heq, hi⟩ | ⟨hne, hold⟩ <;>
      rcases hlookup hn' with ⟨heq', hi'⟩ | ⟨hne', hold'⟩
    · exact heq.trans heq'.symm
    · exact absurd (hid.symm.trans hi) (hother hne' hold')
    · exact absurd (hid.trans hi') (hother hne hold)
    · exact h.inj hold hold' hid

theorem Unique.syncEntities (h : v.Unique) : (v.syncEntities ids es).1.Unique := by
  induction es generalizing v ids with
  | nil => exact h
  | cons e es ih => exact ih (h.upsertEntity e.name e.policies)

theorem groups_syncEntities : (v.syncEntities ids es).1.groups = v.groups := by
  induction es generalizing v ids with
  | nil => rfl
  | cons e es ih => exact ih

theorem lookup_syncEntities_of_forall_ne (v : Identities) (ids : AList fun _ : String => Nat)
    {name : String} (h : ∀ e ∈ es, e.name ≠ name) :
    (v.syncEntities ids es).1.entities.lookup name = v.entities.lookup name ∧
      (v.syncEntities ids es).2.lookup name = ids.lookup name := by
  induction es generalizing v ids with
  | nil => exact ⟨rfl, rfl⟩
  | cons e es ih =>
    obtain ⟨hentity, hid⟩ := ih (v.upsertEntity e.name e.policies)
      (ids.insert e.name (v.idOf e.name)) fun d hd => h d (List.mem_cons_of_mem _ hd)
    have hne : name ≠ e.name := (h e List.mem_cons_self).symm
    exact ⟨hentity.trans (AList.lookup_insert_ne hne), hid.trans (AList.lookup_insert_ne hne)⟩

theorem lookup_syncEntities {e : DesiredEntity} (he : e ∈ es)
    (h : ∀ d ∈ es, d.name = e.name → d.policies = e.policies) :
    ∃ x, (v.syncEntities ids es).1.entities.lookup e.name = some x ∧
      x.policies = e.policies ∧ (v.syncEntities ids es).2.lookup e.name = some x.id := by
  induction es generalizing v ids e with
  | nil => cases he
  | cons z es ih =>
    -- the last entity of this name decides
    by_cases htail : ∃ d ∈ es, d.name = e.name
    · obtain ⟨d, hd, hname⟩ := htail
      have hpol := h d (List.mem_cons_of_mem _ hd) hname
      rw [← hname, ← hpol]
      refine ih hd fun d' hd' hname' => ?_
      rw [h d' (List.mem_cons_of_mem _ hd') (hname'.trans hname), hpol]
    · have hne : ∀ d ∈ es, d.name ≠ e.name := fun d hd hname => htail ⟨d, hd, hname⟩
      obtain rfl : e = z := by
        rcases List.mem_cons.1 he with he | he
        · exact he
        · exact absurd rfl (hne e he)
      obtain ⟨hentity, hid⟩ := lookup_syncEntities_of_forall_ne
        (v.upsertEntity e.name e.policies) (ids.insert e.name (v.idOf e.name)) hne
      exact ⟨⟨v.idOf e.name, e.policies⟩, hentity.trans (AList.lookup_insert _), rfl,
        hid.trans (AList.lookup_insert _)⟩

end Entities

section Groups

variable {v : Identities} {ids : AList fun _ : String => Nat} {gs : List DesiredGroup}

private def written (ids : AList fun _ : String => Nat) (g : DesiredGroup) : IdentityGroup where
  policies := g.policies
  memberIDs := g.members.filterMap ids.lookup

theorem entities_syncGroups : (v.syncGroups ids gs).entities = v.entities ∧
    (v.syncGroups ids gs).nextID = v.nextID := by
  unfold syncGroups
  induction gs generalizing v with
  | nil => exact ⟨rfl, rfl⟩
  | cons g gs ih => exact ih

private theorem groups_syncGroups : (v.syncGroups ids gs).groups =
    gs.foldl (fun m g => m.insert g.name (written ids g)) v.groups := by
  unfold syncGroups
  induction gs generalizing v with
  | nil => rfl
  | cons g gs ih => exact ih

end Groups

section Pass

variable {lower : String → String} {snap : AccessSnapshot} {v : Identities}

/-- The state between the loops, and the ids. -/
private def midway (lower : String → String) (snap : AccessSnapshot) (v : Identities) :
    Identities × AList fun _ : String => Nat :=
  v.syncEntities ∅ (snap.desiredAccess lower).entities

private theorem syncAccess_eq : v.syncAccess lower snap =
    (midway lower snap v).1.syncGroups (midway lower snap v).2
      (snap.desiredAccess lower).groups := rfl

private theorem entities_syncAccess :
    (v.syncAccess lower snap).entities = (midway lower snap v).1.entities := by
  rw [syncAccess_eq, entities_syncGroups.1]

theorem Unique.syncAccess (h : v.Unique) : (v.syncAccess lower snap).Unique := by
  have hmid : (midway lower snap v).1.Unique := h.syncEntities
  obtain ⟨hentities, hnext⟩ := entities_syncGroups (v := (midway lower snap v).1)
  rw [syncAccess_eq]
  constructor
  · intro name e he
    rw [hentities] at he
    rw [hnext]
    exact hmid.lt he
  · intro name name' e e' he he'
    rw [hentities] at he he'
    exact hmid.inj he he'

private theorem lookup_midway (lower : String → String) (v : Identities) {u : User}
    (hu : u ∈ snap.users) :
    ∃ x, (midway lower snap v).1.entities.lookup (entityName u.id) = some x ∧
      x.policies = snap.entityPolicies u.id ∧
      (midway lower snap v).2.lookup (entityName u.id) = some x.id := by
  refine lookup_syncEntities (e := snap.desiredEntity lower u)
    (AccessSnapshot.mem_desiredEntities.2 ⟨u, hu, rfl⟩) fun d hd hname => ?_
  obtain ⟨u', -, rfl⟩ := AccessSnapshot.mem_desiredEntities.1 hd
  have hid : u'.id = u.id := entityName_inj.1 hname
  simp only [AccessSnapshot.desiredEntity, hid]

/-- **Entities of the snapshot** have the policies they should. -/
theorem lookup_entities_syncAccess (lower : String → String) (v : Identities) {u : User}
    (hu : u ∈ snap.users) :
    ∃ x, (v.syncAccess lower snap).entities.lookup (entityName u.id) = some x ∧
      x.policies = snap.entityPolicies u.id := by
  obtain ⟨x, hx, hpol, -⟩ := lookup_midway lower v hu
  rw [entities_syncAccess]
  exact ⟨x, hx, hpol⟩

/-- **Others are as they were.** -/
theorem lookup_entities_syncAccess_of_forall_ne {name : String}
    (h : ∀ u ∈ snap.users, entityName u.id ≠ name) :
    (v.syncAccess lower snap).entities.lookup name = v.entities.lookup name := by
  rw [entities_syncAccess]
  refine (lookup_syncEntities_of_forall_ne v ∅ fun e he => ?_).1
  obtain ⟨u, hu, rfl⟩ := AccessSnapshot.mem_desiredEntities.1 he
  exact h u hu

/-- **Desired groups** have the policies and the members they should. -/
theorem lookup_groups_syncAccess {g : DesiredGroup}
    (hg : g ∈ (snap.desiredAccess lower).groups) :
    ∃ q, (v.syncAccess lower snap).groups.lookup g.name = some q ∧ q.policies = g.policies ∧
      ∀ i, i ∈ q.memberIDs ↔ ∃ m ∈ g.members, ∃ x,
        (v.syncAccess lower snap).entities.lookup m = some x ∧ x.id = i := by
  refine ⟨written (midway lower snap v).2 g, ?_, rfl, fun i => ?_⟩
  · rw [syncAccess_eq, groups_syncGroups]
    refine AList.lookup_foldl_insert hg (fun d hd hname => ?_) _
    rw [AccessSnapshot.eq_of_name_eq hd hg hname]
  · rw [written, List.mem_filterMap, entities_syncAccess]
    refine exists_congr fun m => and_congr_right fun hm => ?_
    obtain ⟨u, hu, rfl⟩ := AccessSnapshot.exists_user_of_mem_members hg hm
    obtain ⟨x, hx, -, hid⟩ := lookup_midway lower v hu
    rw [hx, hid]
    constructor
    · intro hi
      exact ⟨x, rfl, Option.some.inj hi⟩
    · rintro ⟨x', hx', rfl⟩
      rw [Option.some.inj hx']

/-- **Other groups are as they were.** -/
theorem lookup_groups_syncAccess_of_forall_ne {name : String}
    (h : ∀ g ∈ (snap.desiredAccess lower).groups, g.name ≠ name) :
    (v.syncAccess lower snap).groups.lookup name = v.groups.lookup name := by
  rw [syncAccess_eq, groups_syncGroups, AList.lookup_foldl_insert_of_forall_ne h]
  exact congrArg (AList.lookup name) groups_syncEntities

end Pass

end Identities

end KaaS
