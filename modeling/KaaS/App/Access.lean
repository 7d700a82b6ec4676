import KaaS.App.Accounts
import KaaS.Library.Keyed

/-!
# Who may do what with a cluster

An administrator and the owner of a cluster may do everything with it. Anybody else reaches it
through a **group the owner is in too**, at their own role there: write in any such group is full
access, read is a view. An owner who is no longer in the store shares no group.

The source writes this rule three times: for one cluster (`accessTo`), for anything with an owner
(`accessToOwned`), and in bulk, with maps of its own, for the list of clusters (`listClusters`).
The list is exactly the clusters an actor has access to, each shown with the level it has
(`listClusters_shows_access`).
-/

namespace KaaS

inductive ClusterAccess
  | none | view | full
  deriving DecidableEq

theorem ClusterAccess.eq_of_iff {a b : ClusterAccess} (hfull : a = .full ↔ b = .full)
    (hnone : a = .none ↔ b = .none) : a = b := by
  cases a <;> cases b <;> simp_all

/-- What an account may do with a cluster: everything with its own, and otherwise what its role
in a group allows that the owner is in too. -/
def accessTo (users : List User) (actor : User) (c : Cluster) : ClusterAccess :=
  if actor.isAdmin || c.ownerID == actor.id then .full
  else if actor.memberships.isEmpty then .none
  else
    match users.find? (·.id == c.ownerID) with
    | none => .none
    | some owner =>
      let shared := actor.memberships.filter fun m => owner.inGroup m.groupID
      if shared.any (·.role == .write) then .full
      else if shared.isEmpty then .none
      else .view

/-- The same for anything with an owner; the loop over the memberships is written out. -/
def accessToOwned (users : List User) (actor : User) (ownerID : String) : ClusterAccess :=
  if actor.isAdmin || ownerID == actor.id then .full
  else if actor.memberships.isEmpty then .none
  else
    match users.find? (·.id == ownerID) with
    | none => .none
    | some owner => best owner .none actor.memberships
where
  best (owner : User) (sofar : ClusterAccess) : List GroupMembership → ClusterAccess
    | [] => sofar
    | m :: ms =>
      if !owner.inGroup m.groupID then best owner sofar ms
      -- write in a shared group is the ceiling
      else if m.role = .write then .full
      else best owner .view ms

def canManageCluster (users : List User) (actor : User) (c : Cluster) : Bool :=
  accessTo users actor c = .full

def clustersOwnedBy (list : List Cluster) (ownerID : String) : List Cluster :=
  list.filter (·.ownerID == ownerID)

/-- The accounts and clusters of the store; the id of an account is a key. -/
structure Tenancy where
  users : List User
  clusters : List Cluster
  keyed : (users.map (·.id)).Nodup

structure ClusterResponse where
  cluster : Cluster
  ownerUsername : String
  canManage : Bool

namespace Tenancy

variable (T : Tenancy)

/-- The map of the bulk check: who else has a membership in a group of the actor. -/
def sharesGroup (actor : User) (ownerID : String) : Bool :=
  T.users.any fun u => u.id == ownerID && u.id != actor.id &&
    u.memberships.any fun m => actor.memberships.any (·.groupID == m.groupID)

/-- The clusters an actor is shown; without one there is no list. -/
def listClusters (actor : Option User) : Except AccountError (List Cluster) :=
  match actor with
  | none => .error .forbidden
  | some actor =>
    if actor.isAdmin then .ok T.clusters
    else if actor.memberships = [] then .ok (clustersOwnedBy T.clusters actor.id)
    else .ok (T.clusters.filter fun c => c.ownerID == actor.id || T.sharesGroup actor c.ownerID)

/-- The name of an owner, empty if it is no longer there. -/
def ownerUsername (ownerID : String) : String :=
  ((T.users.find? (·.id == ownerID)).map (·.username)).getD ""

/-- What the API answers a list request of an actor with. -/
def clusterResponses (actor : User) : Except AccountError (List ClusterResponse) := do
  let cs ← T.listClusters (some actor)
  pure <| cs.map fun c =>
    { cluster := c, ownerUsername := T.ownerUsername c.ownerID
      canManage := canManageCluster T.users actor c }

end Tenancy

/-! ### One cluster -/

section One

variable {users : List User} {actor owner : User} {c : Cluster}

theorem User.inGroup_iff {groupID : String} :
    owner.inGroup groupID = true ↔ ∃ m ∈ owner.memberships, m.groupID = groupID := by
  simp [User.inGroup, User.roleIn]

theorem accessTo_eq_full (h : actor.isAdmin ∨ c.ownerID = actor.id) :
    accessTo users actor c = .full := by
  rw [accessTo, if_pos (by simpa using h)]

theorem accessTo_of_not (h : ¬ (actor.isAdmin ∨ c.ownerID = actor.id)) :
    accessTo users actor c = match users.find? (·.id == c.ownerID) with
      | none => .none
      | some owner =>
        if ∃ m ∈ actor.memberships, owner.inGroup m.groupID ∧ m.role = .write then .full
        else if ∃ m ∈ actor.memberships, owner.inGroup m.groupID then .view else .none := by
  rw [accessTo, if_neg (by simpa using h)]
  by_cases hempty : actor.memberships = []
  · cases users.find? (·.id == c.ownerID) <;> simp [hempty]
  · rw [if_neg (by simpa using hempty)]
    cases users.find? (·.id == c.ownerID) with
    | none => rfl
    | some owner =>
      have hwrite : (actor.memberships.filter fun m => owner.inGroup m.groupID).any
          (·.role == .write) = true ↔
            ∃ m ∈ actor.memberships, owner.inGroup m.groupID ∧ m.role = .write := by
        simp
      have hshared : (actor.memberships.filter fun m => owner.inGroup m.groupID).isEmpty = true ↔
          ¬ ∃ m ∈ actor.memberships, owner.inGroup m.groupID := by
        simp
      simp only [hwrite, hshared, ite_not]

theorem accessTo_ne_none (h : ¬ (actor.isAdmin ∨ c.ownerID = actor.id)) :
    accessTo users actor c ≠ .none ↔ ∃ owner, users.find? (·.id == c.ownerID) = some owner ∧
      ∃ m ∈ actor.memberships, owner.inGroup m.groupID := by
  rw [accessTo_of_not h]
  cases users.find? (·.id == c.ownerID) with
  | none => simp
  | some owner =>
    simp only [Option.some.injEq, exists_eq_left']
    split_ifs with hwrite hread
    · obtain ⟨m, hm, hin, -⟩ := hwrite
      exact iff_of_true nofun ⟨m, hm, hin⟩
    · exact iff_of_true nofun hread
    · exact iff_of_false (not_not_intro rfl) hread

theorem accessTo_eq_full_iff (h : ¬ (actor.isAdmin ∨ c.ownerID = actor.id)) :
    accessTo users actor c = .full ↔ ∃ owner, users.find? (·.id == c.ownerID) = some owner ∧
      ∃ m ∈ actor.memberships, owner.inGroup m.groupID ∧ m.role = .write := by
  rw [accessTo_of_not h]
  cases users.find? (·.id == c.ownerID) with
  | none => simp
  | some owner =>
    simp only [Option.some.injEq, exists_eq_left']
    split_ifs with hwrite hread
    · exact iff_of_true rfl hwrite
    · exact iff_of_false nofun hwrite
    · exact iff_of_false nofun hwrite

end One

/-! ### Anything with an owner -/

section Owned

variable {owner : User} {sofar : ClusterAccess} {ms : List GroupMembership}

private theorem best_eq : accessToOwned.best owner sofar ms =
    if ∃ m ∈ ms, owner.inGroup m.groupID ∧ m.role = .write then .full
    else if ∃ m ∈ ms, owner.inGroup m.groupID then .view else sofar := by
  induction ms generalizing sofar with
  | nil => simp [accessToOwned.best]
  | cons m ms ih =>
    unfold accessToOwned.best
    by_cases hin : owner.inGroup m.groupID = true
    · by_cases hwrite : m.role = .write
      · simp [hin, hwrite]
      · simp [hin, hwrite, ih]
    · simp [hin, ih]

theorem accessToOwned_eq (users : List User) (actor : User) (c : Cluster) :
    accessToOwned users actor c.ownerID = accessTo users actor c := by
  by_cases h : actor.isAdmin ∨ c.ownerID = actor.id
  · rw [accessTo_eq_full h, accessToOwned, if_pos (by simpa using h)]
  · rw [accessTo_of_not h, accessToOwned, if_neg (by simpa using h)]
    by_cases hempty : actor.memberships = []
    · cases users.find? (·.id == c.ownerID) <;> simp [hempty]
    · rw [if_neg (by simpa using hempty)]
      simp only [best_eq]

end Owned

/-! ### The list -/

namespace Tenancy

variable {T : Tenancy} {actor : User}

/-- The bulk check agrees with the check of one cluster that is neither the actor's nor open to
it as an administrator. -/
theorem sharesGroup_iff {c : Cluster} (h : ¬ (actor.isAdmin ∨ c.ownerID = actor.id)) :
    T.sharesGroup actor c.ownerID = true ↔ accessTo T.users actor c ≠ .none := by
  simp only [sharesGroup, List.any_eq_true, Bool.and_eq_true, beq_iff_eq, bne_iff_ne,
    accessTo_ne_none h, Keyed.find?_eq_some T.keyed, User.inGroup_iff]
  constructor
  · rintro ⟨owner, howner, ⟨hid, -⟩, m, hm, m', hm', hgroup⟩
    exact ⟨owner, ⟨howner, hid⟩, m', hm', m, hm, hgroup.symm⟩
  · rintro ⟨owner, ⟨howner, hid⟩, m', hm', m, hm, hgroup⟩
    refine ⟨owner, howner, ⟨hid, fun hself => h (.inr ?_)⟩, m, hm, m', hm', hgroup.symm⟩
    rw [← hid, hself]

/-- **The list is what `accessTo` allows**, in the order of the store. -/
theorem listClusters_eq (T : Tenancy) (actor : User) : T.listClusters (some actor) =
    .ok (T.clusters.filter fun c => accessTo T.users actor c ≠ .none) := by
  have hfull {c : Cluster} (h : actor.isAdmin ∨ c.ownerID = actor.id) :
      decide (accessTo T.users actor c ≠ .none) = true := by
    rw [accessTo_eq_full h]
    rfl
  unfold listClusters
  dsimp only
  split_ifs with hadmin hempty
  · rw [List.filter_eq_self.mpr fun c _ => hfull (.inl hadmin)]
  · congr 1
    refine List.filter_congr fun c _ => ?_
    by_cases howner : c.ownerID = actor.id
    · rw [hfull (.inr howner), howner, beq_self_eq_true]
    · have hother : ¬ (actor.isAdmin ∨ c.ownerID = actor.id) := by simp [hadmin, howner]
      have hnone : ¬ accessTo T.users actor c ≠ .none := by
        rw [accessTo_ne_none hother]
        simp [hempty]
      rw [decide_eq_false hnone, beq_eq_false_iff_ne.mpr howner]
  · congr 1
    refine List.filter_congr fun c _ => ?_
    by_cases howner : c.ownerID = actor.id
    · rw [hfull (.inr howner), howner, beq_self_eq_true, Bool.true_or]
    · have hother : ¬ (actor.isAdmin ∨ c.ownerID = actor.id) := by simp [hadmin, howner]
      rw [beq_eq_false_iff_ne.mpr howner, Bool.false_or, Bool.eq_iff_iff, sharesGroup_iff hother,
        decide_eq_true_iff]

/-- **Lists show access**: for any accounts and clusters, an actor is shown the clusters it has
access to and no others, each with the level it has, and anything with an owner is reached as a
cluster of that owner is. Without an actor there is no list. -/
theorem listClusters_shows_access (T : Tenancy) (actor : User) :
    (∃ out, T.clusterResponses actor = .ok out ∧
      out.map (·.cluster) = T.clusters.filter (fun c => accessTo T.users actor c ≠ .none) ∧
      ∀ shown ∈ out, accessTo T.users actor shown.cluster =
        if shown.canManage then .full else .view) ∧
    (∀ (ownerID : String) (c : Cluster), accessToOwned T.users actor ownerID =
      accessTo T.users actor { c with ownerID := ownerID }) ∧
    T.listClusters none = .error .forbidden := by
  have hresponses := congrArg (fun cs => cs >>= fun cs => pure (cs.map fun c =>
    ClusterResponse.mk c (T.ownerUsername c.ownerID) (canManageCluster T.users actor c)))
    (listClusters_eq T actor)
  refine ⟨⟨_, hresponses, ?_, ?_⟩, fun ownerID c => ?_, rfl⟩
  · rw [List.map_map]
    exact List.map_id _
  · intro shown hshown
    obtain ⟨c, hc, rfl⟩ := List.mem_map.mp hshown
    have hsome : accessTo T.users actor c ≠ .none := by simpa using (List.mem_filter.mp hc).2
    unfold canManageCluster
    cases hlevel : accessTo T.users actor c with
    | none => exact absurd hlevel hsome
    | view => rfl
    | full => rfl
  · exact accessToOwned_eq T.users actor { c with ownerID := ownerID }

end Tenancy

end KaaS
