import Mathlib.Data.List.Sort

/-!
# Child tables

Rows that belong to a parent are kept in a table of their own: each **entry** has the parent's
key, its position in the list it came from and a value. A parent's entries are replaced as a
whole (delete, then insert), and read back in an order the query asks for.

What a query returns for a parent is what was last inserted for it, up to the order, and in the
very order if the query sorts by position; replacing one parent's entries does not touch another's.
-/

namespace Tables

variable {κ α : Type} [DecidableEq κ]

structure Entry (κ α : Type) where
  key : κ
  position : Nat
  value : α
  deriving DecidableEq

/-- The entries of the parent `k` in a list's order, from position `i` on. -/
def entriesFrom (k : κ) : Nat → List α → List (Entry κ α)
  | _, [] => []
  | i, v :: vs => ⟨k, i, v⟩ :: entriesFrom k (i + 1) vs

/-- Delete the entries of `k` and insert those of `vs`. -/
def replace (k : κ) (vs : List α) (t : List (Entry κ α)) : List (Entry κ α) :=
  t.filter (·.key ≠ k) ++ entriesFrom k 0 vs

/-- The values of the parent `k`, ordered by `le`. -/
def select (le : Entry κ α → Entry κ α → Prop) [DecidableRel le] (k : κ)
    (t : List (Entry κ α)) : List α :=
  ((t.filter (·.key = k)).insertionSort le).map (·.value)

omit [DecidableEq κ] in
theorem key_of_mem_entriesFrom {k : κ} {i : Nat} {vs : List α} {e : Entry κ α}
    (h : e ∈ entriesFrom k i vs) : e.key = k := by
  induction vs generalizing i with
  | nil => cases h
  | cons v vs ih =>
    rcases List.mem_cons.mp h with rfl | h
    · rfl
    · exact ih h

omit [DecidableEq κ] in
private theorem le_position_of_mem {k : κ} {i : Nat} {vs : List α} {e : Entry κ α}
    (h : e ∈ entriesFrom k i vs) : i ≤ e.position := by
  induction vs generalizing i with
  | nil => cases h
  | cons v vs ih =>
    rcases List.mem_cons.mp h with rfl | h
    · exact le_rfl
    · have := ih h
      omega

omit [DecidableEq κ] in
private theorem map_value_entriesFrom (k : κ) (i : Nat) (vs : List α) :
    (entriesFrom k i vs).map (·.value) = vs := by
  induction vs generalizing i with
  | nil => rfl
  | cons v vs ih => rw [entriesFrom, List.map_cons, ih]

omit [DecidableEq κ] in
private theorem pairwise_entriesFrom (k : κ) (i : Nat) (vs : List α) :
    (entriesFrom k i vs).Pairwise fun a b => a.position < b.position := by
  induction vs generalizing i with
  | nil => exact .nil
  | cons v vs ih =>
    refine List.pairwise_cons.mpr ⟨fun e he => ?_, ih (i + 1)⟩
    have := le_position_of_mem he
    exact Nat.lt_of_succ_le this

private theorem filter_replace_self (k : κ) (vs : List α) (t : List (Entry κ α)) :
    (replace k vs t).filter (·.key = k) = entriesFrom k 0 vs := by
  have hold : (t.filter (·.key ≠ k)).filter (·.key = k) = [] := by
    rw [List.filter_filter, List.filter_eq_nil_iff]
    intro e _
    simp
  have hnew : (entriesFrom k 0 vs).filter (·.key = k) = entriesFrom k 0 vs :=
    List.filter_eq_self.mpr fun e he => decide_eq_true (key_of_mem_entriesFrom he)
  rw [replace, List.filter_append, hold, hnew, List.nil_append]

variable (le : Entry κ α → Entry κ α → Prop) [DecidableRel le]

theorem select_replace_perm (k : κ) (vs : List α) (t : List (Entry κ α)) :
    (select le k (replace k vs t)).Perm vs := by
  rw [select, filter_replace_self]
  have hperm := (List.perm_insertionSort le (entriesFrom k 0 vs)).map (·.value)
  rwa [map_value_entriesFrom] at hperm

theorem select_replace_eq (hle : ∀ a b : Entry κ α, a.position < b.position → le a b) (k : κ)
    (vs : List α) (t : List (Entry κ α)) : select le k (replace k vs t) = vs := by
  have hsorted : (entriesFrom k 0 vs).Pairwise le :=
    (pairwise_entriesFrom k 0 vs).imp fun h => hle _ _ h
  rw [select, filter_replace_self, List.Pairwise.insertionSort_eq hsorted, map_value_entriesFrom]

theorem select_replace_of_ne {k k' : κ} (h : k' ≠ k) (vs : List α) (t : List (Entry κ α)) :
    select le k' (replace k vs t) = select le k' t := by
  have hold : (t.filter (·.key ≠ k)).filter (·.key = k') = t.filter (·.key = k') := by
    rw [List.filter_filter]
    refine List.filter_congr fun e _ => ?_
    by_cases he : e.key = k'
    · simp [he, h]
    · simp [he]
  have hnew : (entriesFrom k 0 vs).filter (·.key = k') = [] := by
    rw [List.filter_eq_nil_iff]
    intro e he
    rw [key_of_mem_entriesFrom he]
    simpa using h.symm
  rw [select, select, replace, List.filter_append, hold, hnew, List.append_nil]

end Tables
