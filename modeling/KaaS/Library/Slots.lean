import Mathlib.Data.List.Basic

/-!
# Volumes by position

A **store** holds volumes in numbered slots. Its tenants are given as a list, and the tenant at
position `i` of the list has the volume in slot `i`. Resizing the store to the length of a new
list keeps the slots both lengths have, fills new slots with blank volumes and deletes the
volumes of the slots that go.

What a tenant gets thus depends on its position alone. If no tenant of both lists changes its
position (`Steady`), every one keeps its volume and only volumes of tenants that left are
deleted (`keeps_of_steady`). In a sorted list the position is a rank (`position_eq_countP`). A list
that is grouped by a key, group after group, has the same members (`perm_flatMap_filter`).
-/

namespace Slots

variable {α : Type}

/-- The volume in slot `i` is `volumes[i]`; volumes are numbered as they are created. -/
structure Store where
  volumes : List ℕ := []
  created : ℕ := 0

namespace Store

variable (s : Store) (n : ℕ)

def resize : Store where
  volumes := s.volumes.take n ++ (List.range (n - s.volumes.length)).map (s.created + ·)
  created := s.created + (n - s.volumes.length)

theorem length_resize : (s.resize n).volumes.length = n := by
  simp only [resize, List.length_append, List.length_take, List.length_map, List.length_range]
  omega

variable {s n}

theorem getElem?_resize {i : ℕ} (hi : i < n) (hs : i < s.volumes.length) :
    (s.resize n).volumes[i]? = s.volumes[i]? := by
  rw [resize, List.getElem?_append_left (by rw [List.length_take]; omega), List.getElem?_take,
    if_pos hi]

end Store

/-- **Steady**: a tenant of both lists has the same position in both. -/
def Steady (old new : List α) : Prop :=
  ∀ p ∈ old.zipIdx, ∀ q ∈ new.zipIdx, p.1 = q.1 → p.2 = q.2

instance [DecidableEq α] (old new : List α) : Decidable (Steady old new) :=
  inferInstanceAs (Decidable (∀ _ ∈ _, ∀ _ ∈ _, _ → _))

/-- **Resizing for the new tenants keeps what the old ones had**: a tenant of both lists has the
same volume before and after, and a volume is deleted only if its tenant has left. -/
structure Keeps (s : Store) (old new : List α) : Prop where
  same : ∀ p ∈ old.zipIdx, ∀ q ∈ new.zipIdx, p.1 = q.1 →
    s.volumes[p.2]? = (s.resize new.length).volumes[q.2]?
  deleted : ∀ p ∈ old.zipIdx, ∀ v ∈ s.volumes[p.2]?,
    v ∉ (s.resize new.length).volumes → p.1 ∉ new

instance [DecidableEq α] (s : Store) (old new : List α) : Decidable (Keeps s old new) :=
  decidable_of_iff ((∀ p ∈ old.zipIdx, ∀ q ∈ new.zipIdx, p.1 = q.1 →
      s.volumes[p.2]? = (s.resize new.length).volumes[q.2]?) ∧
    ∀ p ∈ old.zipIdx, ∀ v ∈ s.volumes[p.2]?, v ∉ (s.resize new.length).volumes → p.1 ∉ new)
    ⟨fun h => ⟨h.1, h.2⟩, fun h => ⟨h.same, h.deleted⟩⟩

theorem keeps_of_steady {s : Store} {old new : List α} (hlen : s.volumes.length = old.length)
    (h : Steady old new) : Keeps s old new := by
  have hsame : ∀ p ∈ old.zipIdx, ∀ q ∈ new.zipIdx, p.1 = q.1 →
      s.volumes[p.2]? = (s.resize new.length).volumes[q.2]? := by
    intro p hp q hq heq
    have hp' := (List.mem_zipIdx hp).2.1
    have hq' := (List.mem_zipIdx hq).2.1
    rw [← h p hp q hq heq] at hq' ⊢
    exact (Store.getElem?_resize (by omega) (by omega)).symm
  refine ⟨hsame, fun p hp v hv hgone hmem => hgone ?_⟩
  -- a tenant that stayed still has its volume
  obtain ⟨i, hi, hget⟩ := List.mem_iff_getElem.mp hmem
  have hq : (p.1, i) ∈ new.zipIdx := by
    rw [List.mk_mem_zipIdx_iff_getElem?, List.getElem?_eq_getElem hi, hget]
  rw [Option.mem_def, hsame p hp _ hq rfl] at hv
  exact List.mem_of_getElem? hv

/-! ### Positions in a sorted list -/

/-- **The position of an entry of a sorted list** is the number of entries before it in the
order. -/
theorem position_eq_countP {r : α → α → Prop} [DecidableRel r] {l : List α} (hl : l.Pairwise r)
    (hirrefl : ∀ a, ¬r a a) (hasymm : ∀ a b, r a b → ¬r b a) {x : α} {i : ℕ}
    (h : l[i]? = some x) : i = l.countP (r · x) := by
  induction l generalizing i with
  | nil => simp at h
  | cons a l ih =>
    obtain ⟨ha, hl⟩ := List.pairwise_cons.mp hl
    cases i with
    | zero =>
      obtain rfl := Option.some.inj h
      have hnone : l.countP (r · a) = 0 :=
        List.countP_eq_zero.mpr fun b hb => by simpa using hasymm a b (ha b hb)
      rw [List.countP_cons_of_neg (by simpa using hirrefl a), hnone]
    | succ i =>
      have hx : l[i]? = some x := h
      rw [List.countP_cons_of_pos (by simpa using ha x (List.mem_of_getElem? hx)), ← ih hl hx]

/-- **Grouping by a key** loses nothing if every key has its group, once. -/
theorem perm_flatMap_filter {κ : Type} [DecidableEq κ] {f : α → κ} {keys : List κ} {l : List α}
    (hnodup : keys.Nodup) (hkeys : ∀ a ∈ l, f a ∈ keys) :
    (keys.flatMap fun k => l.filter fun a => f a == k).Perm l := by
  induction keys generalizing l with
  | nil =>
    obtain rfl : l = [] := List.eq_nil_iff_forall_not_mem.mpr fun a ha => by simpa using hkeys a ha
    exact .nil
  | cons k keys ih =>
    obtain ⟨hk, hrest⟩ := List.nodup_cons.mp hnodup
    -- the other groups are those of the members with another key
    have hothers : (keys.flatMap fun k' => l.filter fun a => f a == k') =
        keys.flatMap fun k' => (l.filter fun a => !(f a == k)).filter fun a => f a == k' := by
      refine List.flatMap_congr fun k' hk' => ?_
      rw [List.filter_filter]
      refine List.filter_congr fun a _ => ?_
      by_cases ha : f a = k'
      · have hne : k' ≠ k := fun h => hk (h ▸ hk')
        simp [ha, hne]
      · simp [ha]
    rw [List.flatMap_cons, hothers]
    refine ((ih hrest fun a ha => ?_).append_left _).trans
      (List.filter_append_perm (fun a => f a == k) l)
    obtain ⟨ha, hne⟩ := List.mem_filter.mp ha
    exact (List.mem_cons.mp (hkeys a ha)).resolve_left (by simpa using hne)

end Slots
