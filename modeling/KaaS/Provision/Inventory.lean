import KaaS.Reconcile.Seam

/-!
# What the provisioners have

A cluster is built, grown and destroyed by one **provisioner**: the one of its infrastructure
provider, or the default one where the provider is not known. Several providers may share a
provisioner. The **inventory** says which provisioner has infrastructure of which cluster, which
is what `ListManaged` reads; `EnsureNodes` adds to it and `DestroyCluster` removes from it. A call
that fails may have come far enough to leave its mark, or not.
-/

namespace KaaS

/-- The provisioners of a reconciler by provider, numbered since they are compared by identity,
and the default one. -/
structure Provisioners where
  provs : List (String × Nat) := []
  default : Nat := 0

namespace Provisioners

variable (R : Provisioners)

def prov (c : Cluster) : Nat := (R.provs.lookup c.infraProvider).getD R.default

/-- Every distinct provisioner. The order is that of a map and so left open. -/
def provisioners : List Nat := (R.provs.map (·.2) ++ [R.default]).dedup

end Provisioners

/-- Which provisioner has infrastructure of which cluster. -/
abbrev Inventory := List (Nat × String)

/-- The call that builds infrastructure where there was none. -/
def Call.builds : Call → Bool
  | .ensureNodes .. => true
  | _ => false

namespace Inventory

def listManaged (v : Inventory) (p : Nat) : List String :=
  v.filterMap fun e => if e.1 = p then some e.2 else none

def ensureNodes (p : Nat) (id : String) (v : Inventory) : Inventory :=
  if (p, id) ∈ v then v else v ++ [(p, id)]

def destroyCluster (p : Nat) (id : String) (v : Inventory) : Inventory :=
  v.filter (· ≠ (p, id))

section Effect

variable (R : Provisioners) (n : Nat) (c : Cluster)

def call (v : Inventory) (e : Event) : Inventory :=
  -- a failed call may have left its mark
  if e.ok || n != 0 then
    match e.call with
    | .ensureNodes .. => v.ensureNodes (R.prov c) c.id
    | .destroyCluster => v.destroyCluster (R.prov c) c.id
    | _ => v
  else v

def effect (evs : List Event) (v : Inventory) : Inventory := evs.foldl (call R n c) v

end Effect

variable {R : Provisioners} {n p : Nat} {c : Cluster} {v : Inventory} {e : Nat × String}
  {id : String}

@[simp] theorem mem_listManaged : id ∈ v.listManaged p ↔ (p, id) ∈ v := by
  simp only [listManaged, List.mem_filterMap, Option.ite_none_right_eq_some, Option.some.injEq]
  constructor
  · rintro ⟨e, he, rfl, rfl⟩
    exact he
  · intro h
    exact ⟨_, h, rfl, rfl⟩

theorem mem_of_mem_destroyCluster (h : e ∈ v.destroyCluster p id) : e ∈ v :=
  (List.mem_filter.1 h).1

private theorem mem_call {ev : Event} (h : e ∈ call R n c v ev) :
    e ∈ v ∨ e = (R.prov c, c.id) ∧ ev.call.builds = true := by
  unfold call at h
  split at h
  · split at h
    · rename_i hcall
      rw [hcall]
      unfold ensureNodes at h
      split at h
      · exact .inl h
      · rcases List.mem_append.1 h with h | h
        · exact .inl h
        · exact .inr ⟨List.mem_singleton.1 h, rfl⟩
    · exact .inl (mem_of_mem_destroyCluster h)
    · exact .inl h
  · exact .inl h

/-- **What a tick adds** to the inventory is its own cluster, at the provisioner of that one. -/
theorem mem_effect {evs : List Event} (h : e ∈ effect R n c evs v) :
    e ∈ v ∨ e = (R.prov c, c.id) ∧ ∃ ev ∈ evs, ev.call.builds = true := by
  unfold effect at h
  induction evs generalizing v with
  | nil => exact .inl h
  | cons ev evs ih =>
    rcases ih h with hmem | ⟨heq, ev', hev', hbuilds⟩
    · rcases mem_call hmem with hmem | ⟨heq, hbuilds⟩
      · exact .inl hmem
      · exact .inr ⟨heq, ev, List.mem_cons_self, hbuilds⟩
    · exact .inr ⟨heq, ev', List.mem_cons_of_mem _ hev', hbuilds⟩

end Inventory

end KaaS
