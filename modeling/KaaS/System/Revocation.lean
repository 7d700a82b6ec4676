import KaaS.Library.Run
import KaaS.Vault.Access

/-!
# Revocation in Vault

Each pass of `SyncAccess` writes the entities and groups that its snapshot asks for and leaves
every other one as an earlier pass left it. A role that changes is therefore mirrored, but an
account or a group that is **deleted** is not: the two identity groups of a deleted group keep
their policies and their members, and the entity of a deleted account keeps the policies of the
clusters it owned.

`VaultMirror` is Vault together with the snapshot of the last pass. If accounts and groups leave
the snapshot only after a pass has seen them without clusters (`EmptiedFirst`), then after every
pass each entity holds exactly what the snapshot grants (`exact_of_emptiedFirst`).
-/

namespace KaaS

open TransitionSystem

/-! ### Passes -/

/-- Vault, and the snapshot it was last brought in line with. -/
structure VaultMirror where
  vault : Identities := {}
  last : AccessSnapshot := {}

namespace VaultMirror

variable (lower : String → String)

def step (s : VaultMirror) (snap : AccessSnapshot) : VaultMirror where
  vault := s.vault.syncAccess lower snap
  last := snap

/-- **Vault is exact**: every entity is that of an account, and it holds what the snapshot grants
to this account, which is nothing if the account is not in it. -/
def Exact (s : VaultMirror) : Prop :=
  ∀ name e, s.vault.entities.lookup name = some e → ∃ userID, name = entityName userID ∧
    (∀ p, p ∈ s.vault.held e ↔ p ∈ (s.last.desiredAccess lower).granted userID) ∧
    ((∀ u ∈ s.last.users, u.id ≠ userID) → s.vault.held e = [])

/-- An account or a group of the last snapshot that is missing in the new one owned no cluster,
or reached none. -/
def EmptiedFirst (s : VaultMirror) (snap : AccessSnapshot) : Prop :=
  (∀ u ∈ s.last.users, (∀ u' ∈ snap.users, u'.id ≠ u.id) →
    ∀ c ∈ s.last.clusters, c.ownerID ≠ u.id) ∧
  ∀ g ∈ s.last.groups, (∀ g' ∈ snap.groups, g'.id ≠ g.id) → s.last.groupClusters g.id = []

instance EmptiedFirst.decidable (s : VaultMirror) (snap : AccessSnapshot) :
    Decidable (s.EmptiedFirst snap) := by
  unfold EmptiedFirst
  infer_instance

/-! ### The invariant -/

/-- An entity that carries what the last snapshot says of its account, or nothing. -/
def EntitySound (s : VaultMirror) (name : String) (e : Entity) : Prop :=
  ∃ userID, name = entityName userID ∧
    ((∃ u ∈ s.last.users, u.id = userID) ∧ e.policies = s.last.entityPolicies userID ∨
      (∀ u ∈ s.last.users, u.id ≠ userID) ∧ e.policies = [])

/-- A group that is as the last snapshot wants it, or gives nothing. -/
def GroupSound (s : VaultMirror) (name : String) (q : IdentityGroup) : Prop :=
  (∃ g ∈ (s.last.desiredAccess lower).groups, g.name = name ∧ q.policies = g.policies ∧
    ∀ i, i ∈ q.memberIDs ↔ ∃ m ∈ g.members, ∃ e,
      s.vault.entities.lookup m = some e ∧ e.id = i) ∨
  (∀ g ∈ (s.last.desiredAccess lower).groups, g.name ≠ name) ∧ q.policies = []

structure Sound (s : VaultMirror) : Prop where
  unique : s.vault.Unique
  entities : ∀ name e, s.vault.entities.lookup name = some e → s.EntitySound name e
  groups : ∀ name q, s.vault.groups.lookup name = some q → s.GroupSound lower name q
  written : ∀ g ∈ (s.last.desiredAccess lower).groups, g.members ≠ [] →
    g.name ∈ s.vault.groups

section Invariant

variable {lower} {s : VaultMirror} {snap : AccessSnapshot}

private theorem entityPolicies_eq_nil {userID : String}
    (h : ∀ c ∈ snap.clusters, c.ownerID ≠ userID) : snap.entityPolicies userID = [] := by
  rw [List.eq_nil_iff_forall_not_mem]
  intro p hp
  obtain ⟨c, hc, -⟩ := List.mem_map.1 (mem_sortedKeys.1 hp)
  obtain ⟨hc, howner⟩ := List.mem_filter.1 hc
  exact h c hc (eq_of_beq (Bool.and_eq_true_iff.1 howner).2)

private theorem policies_eq_nil {groupID : String}
    (h : snap.groupClusters groupID = []) :
    (snap.desiredWriters groupID).policies = [] ∧ (snap.desiredReaders groupID).policies = [] := by
  simp [AccessSnapshot.desiredWriters, AccessSnapshot.desiredReaders, h, sortedKeys]

private theorem Sound.entity_step (h : s.Sound lower) (hcond : s.EmptiedFirst snap)
    {name : String} {e : Entity}
    (he : (s.step lower snap).vault.entities.lookup name = some e) :
    (s.step lower snap).EntitySound name e := by
  by_cases hmem : ∃ u ∈ snap.users, entityName u.id = name
  · obtain ⟨u, hu, rfl⟩ := hmem
    obtain ⟨x, hx, hpol⟩ := Identities.lookup_entities_syncAccess lower s.vault hu
    obtain rfl := Option.some.inj (hx.symm.trans he)
    exact ⟨u.id, rfl, .inl ⟨⟨u, hu, rfl⟩, hpol⟩⟩
  · have hne : ∀ u ∈ snap.users, entityName u.id ≠ name := fun u hu heq => hmem ⟨u, hu, heq⟩
    have hold : s.vault.entities.lookup name = some e :=
      (Identities.lookup_entities_syncAccess_of_forall_ne hne).symm.trans he
    obtain ⟨userID, rfl, hcases⟩ := h.entities name e hold
    have hgone : ∀ u ∈ snap.users, u.id ≠ userID := fun u hu heq => hne u hu (by rw [heq])
    refine ⟨userID, rfl, .inr ⟨hgone, ?_⟩⟩
    rcases hcases with ⟨⟨u, hu, rfl⟩, hpol⟩ | ⟨-, hpol⟩
    · rw [hpol, entityPolicies_eq_nil (hcond.1 u hu hgone)]
    · exact hpol

private theorem Sound.group_step (h : s.Sound lower) (hcond : s.EmptiedFirst snap)
    {name : String} {q : IdentityGroup}
    (hq : (s.step lower snap).vault.groups.lookup name = some q) :
    (s.step lower snap).GroupSound lower name q := by
  by_cases hmem : ∃ g ∈ (snap.desiredAccess lower).groups, g.name = name
  · obtain ⟨g, hg, rfl⟩ := hmem
    obtain ⟨x, hx, hpol, hids⟩ := Identities.lookup_groups_syncAccess (v := s.vault) hg
    obtain rfl := Option.some.inj (hx.symm.trans hq)
    exact .inl ⟨g, hg, rfl, hpol, hids⟩
  · have hne : ∀ g ∈ (snap.desiredAccess lower).groups, g.name ≠ name :=
      fun g hg heq => hmem ⟨g, hg, heq⟩
    have hold : s.vault.groups.lookup name = some q :=
      (Identities.lookup_groups_syncAccess_of_forall_ne hne).symm.trans hq
    refine .inr ⟨hne, ?_⟩
    rcases h.groups name q hold with ⟨g, hg, rfl, hpol, -⟩ | ⟨-, hpol⟩
    · rw [hpol]
      -- the administrators are always desired, so it is a group that is gone
      rcases AccessSnapshot.mem_desiredGroups.1 hg with rfl | ⟨p, hp, hkind⟩
      · exact absurd rfl (hne snap.desiredAdmins (AccessSnapshot.mem_desiredGroups.2 (.inl rfl)))
      · have hgone : ∀ g' ∈ snap.groups, g'.id ≠ p.id := by
          intro g' hg' heq
          rcases hkind with rfl | rfl
          · refine hne _ (AccessSnapshot.mem_desiredGroups.2 (.inr ⟨g', hg', .inl rfl⟩)) ?_
            simp only [AccessSnapshot.desiredWriters, heq]
          · refine hne _ (AccessSnapshot.mem_desiredGroups.2 (.inr ⟨g', hg', .inr rfl⟩)) ?_
            simp only [AccessSnapshot.desiredReaders, heq]
        obtain ⟨hwriters, hreaders⟩ := policies_eq_nil (hcond.2 p hp hgone)
        rcases hkind with rfl | rfl
        · exact hwriters
        · exact hreaders
    · exact hpol

private theorem Sound.step (h : s.Sound lower) (hcond : s.EmptiedFirst snap) :
    (s.step lower snap).Sound lower := by
  refine ⟨h.unique.syncAccess, fun _ _ he => h.entity_step hcond he,
    fun _ _ hq => h.group_step hcond hq, fun g hg _ => ?_⟩
  have hg : g ∈ (snap.desiredAccess lower).groups := hg
  obtain ⟨q, hq, -⟩ := Identities.lookup_groups_syncAccess (v := s.vault) hg
  have hsome : ((s.step lower snap).vault.groups.lookup g.name).isSome = true := by
    rw [VaultMirror.step, hq]
    rfl
  exact AList.lookup_isSome.1 hsome

private theorem Sound.initial : Sound lower {} :=
  ⟨⟨fun he => (nomatch he), fun he => (nomatch he)⟩, fun _ _ he => (nomatch he),
    fun _ _ hq => (nomatch hq), fun g hg hne => by
      obtain ⟨m, hm⟩ := List.exists_mem_of_ne_nil _ hne
      obtain ⟨u, hu, -⟩ := AccessSnapshot.exists_user_of_mem_members hg hm
      cases hu⟩

/-! ### What is held is what is granted -/

private theorem Sound.mem_group (h : s.Sound lower) {userID p : String} {e : Entity}
    (he : s.vault.entities.lookup (entityName userID) = some e) :
    (∃ name q, s.vault.groups.lookup name = some q ∧ e.id ∈ q.memberIDs ∧ p ∈ q.policies) ↔
      ∃ g ∈ (s.last.desiredAccess lower).groups,
        entityName userID ∈ g.members ∧ p ∈ g.policies := by
  constructor
  · rintro ⟨name, q, hq, hid, hp⟩
    rcases h.groups name q hq with ⟨g, hg, -, hpol, hids⟩ | ⟨-, hpol⟩
    · obtain ⟨m, hm, e', he', heq⟩ := (hids e.id).1 hid
      rw [h.unique.inj he' he heq] at hm
      exact ⟨g, hg, hm, hpol ▸ hp⟩
    · rw [hpol] at hp
      cases hp
  · rintro ⟨g, hg, hm, hp⟩
    have hin : g.name ∈ s.vault.groups := h.written g hg (List.ne_nil_of_mem hm)
    obtain ⟨q, hq⟩ := Option.isSome_iff_exists.1 (AList.lookup_isSome.2 hin)
    rcases h.groups g.name q hq with ⟨g', hg', hname, hpol, hids⟩ | ⟨hne, -⟩
    · obtain rfl := AccessSnapshot.eq_of_name_eq hg' hg hname
      exact ⟨_, q, hq, (hids e.id).2 ⟨_, hm, e, he, rfl⟩, hpol ▸ hp⟩
    · exact absurd rfl (hne g hg)

private theorem Sound.exact (h : s.Sound lower) : s.Exact lower := by
  intro name e he
  obtain ⟨userID, rfl, hcases⟩ := h.entities name e he
  have hheld : ∀ p, p ∈ s.vault.held e ↔ p ∈ (s.last.desiredAccess lower).granted userID := by
    intro p
    rw [Identities.mem_held, mem_granted, h.mem_group he, mem_granted_entity]
    refine or_congr_left ?_
    rcases hcases with ⟨hu, hpol⟩ | ⟨hgone, hpol⟩
    · rw [hpol, and_iff_right hu]
    · rw [hpol]
      refine iff_of_false List.not_mem_nil ?_
      rintro ⟨⟨u, hu, hid⟩, -⟩
      exact hgone u hu hid
  refine ⟨userID, rfl, hheld, fun hgone => ?_⟩
  rw [List.eq_nil_iff_forall_not_mem]
  intro p hp
  rw [hheld, mem_granted, mem_granted_entity] at hp
  rcases hp with ⟨⟨u, hu, hid⟩, -⟩ | ⟨g, hg, hm, -⟩
  · exact hgone u hu hid
  · obtain ⟨u, hu, hid⟩ := AccessSnapshot.exists_user_of_mem_members hg hm
    exact hgone u hu (entityName_inj.1 hid).symm

end Invariant

/-- **Vault is exact after every pass** of a sequence in which accounts and groups are emptied
before they go. -/
theorem exact_of_emptiedFirst (lower : String → String) (snaps : List AccessSnapshot)
    (h : Along (step lower) EmptiedFirst {} snaps) : (run (step lower) {} snaps).Exact lower :=
  Sound.exact (TransitionSystem.run_invariant (fun _ _ hs hcond => hs.step hcond) .initial h)

/-! ### A group is deleted -/

/-- Alice and Bob may write in one group, and Alice has a cluster. -/
def sharedGroup : AccessSnapshot where
  users := [{ id := "alice", username := "alice", memberships := [⟨"dev", .write⟩] },
    { id := "bob", username := "bob", memberships := [⟨"dev", .write⟩] }]
  groups := [{ id := "dev" }]
  clusters := [{ id := "1", ownerID := "alice" }]

/-- The cluster goes first, then the group. -/
def emptiedGroup : List AccessSnapshot :=
  [sharedGroup, { sharedGroup with clusters := [] },
    AccessSnapshot.deleteGroup { sharedGroup with clusters := [] } "dev"]

theorem exact_emptiedGroup : Along (step id) EmptiedFirst {} emptiedGroup ∧
    (run (step id) {} emptiedGroup).Exact id := by
  have hcond : Along (step id) EmptiedFirst {} emptiedGroup := by decide +kernel
  exact ⟨hcond, exact_of_emptiedFirst id emptiedGroup hcond⟩

/-- The group is deleted and the cluster stays. -/
def deletedGroup : List AccessSnapshot := [sharedGroup, sharedGroup.deleteGroup "dev"]

/-- Bob shares no group with Alice any more and still writes the secrets of her cluster. -/
theorem held_deletedGroup :
    let s := run (step id) {} deletedGroup
    (s.vault.entities.lookup (entityName "bob")).map s.vault.held = some [policyWrite "1"] ∧
    (s.last.desiredAccess id).granted "bob" = [] := by
  decide +kernel

end VaultMirror

end KaaS
