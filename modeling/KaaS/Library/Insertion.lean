import Mathlib.Data.List.Sort

/-!
# The insertion sort of an array

An insertion sort in place grows a sorted part from the left: the next element is swapped with its
left neighbour as long as that one does not stay before it. `sink` is that inner loop, on the sorted
part **with its last element first**, and `sinkAll` the outer one. The list version inserts from
the other end of the input; both leave equals in the order in which they were
(`reverse_sinkAll`).
-/

namespace Insertion

variable {α : Type*} (r : α → α → Prop) [DecidableRel r]

/-- Move `x` past everything that does not stay before it. -/
def sink (x : α) : List α → List α
  | [] => [x]
  | y :: ys => if ¬r y x then y :: sink x ys else x :: y :: ys

/-- The whole sort, last element first. -/
def sinkAll (l : List α) : List α := l.foldl (fun done x => sink r x done) []

variable {r}

theorem sink_append {x y : α} {ys : List α} (h : ∀ z ∈ ys, r z x → r y x) :
    sink r x (ys ++ [y]) = if r y x then sink r x ys ++ [y] else ys ++ [y, x] := by
  induction ys with
  | nil =>
    by_cases hyx : r y x <;> simp [sink, hyx]
  | cons z ys ih =>
    obtain ⟨hz, hys⟩ := List.forall_mem_cons.mp h
    have ih := ih hys
    by_cases hzx : r z x
    · simp [sink, hzx, hz hzx]
    · rw [List.cons_append, sink, if_pos hzx, ih, sink, if_pos hzx]
      split <;> rfl

theorem reverse_sink_cons [IsTrans α r] {x y : α} {ys : List α} (h : (y :: ys).Pairwise r) :
    (sink r x (y :: ys).reverse).reverse =
      if r y x then y :: (sink r x ys.reverse).reverse else x :: y :: ys := by
  have hfront : ∀ z ∈ ys.reverse, r z x → r y x := fun z hz hzx =>
    trans_of r ((List.pairwise_cons.mp h).1 z (List.mem_reverse.mp hz)) hzx
  rw [List.reverse_cons, sink_append hfront]
  split <;> simp

theorem mem_sink {x z : α} {ys : List α} : z ∈ sink r x ys ↔ z = x ∨ z ∈ ys := by
  induction ys with
  | nil => simp [sink]
  | cons y ys ih =>
    rw [sink]
    split
    · rw [List.mem_cons, ih, List.mem_cons, or_left_comm]
    · exact List.mem_cons

section Order

variable [Std.Total r] [IsTrans α r]

theorem pairwise_sink {x : α} {ys : List α} (h : ys.Pairwise r) :
    (sink r x ys.reverse).reverse.Pairwise r := by
  induction ys with
  | nil => exact List.pairwise_singleton r x
  | cons y ys ih =>
    rw [reverse_sink_cons h]
    obtain ⟨hy, hys⟩ := List.pairwise_cons.mp h
    split
    · rename_i hyx
      refine List.pairwise_cons.mpr ⟨fun z hz => ?_, ih hys⟩
      rcases mem_sink.mp (List.mem_reverse.mp hz) with rfl | hz
      · exact hyx
      · exact hy z (List.mem_reverse.mp hz)
    · rename_i hyx
      have hxy : r x y := (Std.Total.total x y).resolve_right hyx
      refine List.pairwise_cons.mpr ⟨fun z hz => ?_, h⟩
      rcases List.mem_cons.mp hz with rfl | hz
      · exact hxy
      · exact trans_of r hxy (hy z hz)

/-- Inserting one element from the front and sinking another from the end **commute**. -/
theorem sink_orderedInsert {a x : α} {ys : List α} (h : ys.Pairwise r) :
    (sink r x (ys.orderedInsert r a).reverse).reverse =
      ((sink r x ys.reverse).reverse).orderedInsert r a := by
  induction ys with
  | nil => by_cases hax : r a x <;> simp [sink, hax]
  | cons y ys ih =>
    have hinsert := h.orderedInsert a
    obtain ⟨-, hys⟩ := List.pairwise_cons.mp h
    rw [reverse_sink_cons h]
    by_cases hay : r a y
    · rw [List.orderedInsert_cons_of_le _ _ hay] at hinsert ⊢
      rw [reverse_sink_cons hinsert, reverse_sink_cons h]
      by_cases hyx : r y x
      · have hax : r a x := trans_of r hay hyx
        simp [hax, hyx, hay]
      · by_cases hax : r a x <;> simp [hax, hyx, hay]
    · rw [List.orderedInsert_of_not_le _ _ hay] at hinsert ⊢
      rw [reverse_sink_cons hinsert, ih hys]
      by_cases hyx : r y x
      · simp [hyx, hay]
      · have hax : ¬r a x := fun hax =>
          hay (trans_of r hax ((Std.Total.total x y).resolve_right hyx))
        simp [hyx, hax, hay]

private theorem foldl_sink_orderedInsert {a : α} (l : List α) {ys : List α} (h : ys.Pairwise r) :
    (l.foldl (fun done x => sink r x done) (ys.orderedInsert r a).reverse).reverse =
      ((l.foldl (fun done x => sink r x done) ys.reverse).reverse).orderedInsert r a := by
  induction l generalizing ys with
  | nil => simp
  | cons x l ih =>
    have hstep := sink_orderedInsert (a := a) (x := x) h
    rw [List.foldl_cons, List.foldl_cons, ← List.reverse_reverse (sink r x ys.reverse),
      ← ih (pairwise_sink h), ← hstep, List.reverse_reverse]

/-- **The two sorts agree.** -/
theorem reverse_sinkAll (l : List α) : (sinkAll r l).reverse = l.insertionSort r := by
  induction l with
  | nil => rfl
  | cons a l ih =>
    rw [List.insertionSort_cons, ← ih]
    exact foldl_sink_orderedInsert l List.Pairwise.nil

end Order

end Insertion
