import Mathlib.Algebra.BigOperators.Group.List.Basic
import Mathlib.Data.List.Nodup

/-!
# Rows with a key

A table kept as a list of rows that have different keys. Looking a row up by its key finds it, from
whichever end the search goes (`find?_eq_some`). **Putting** a row in the place of the one with its
key leaves the keys as they are (`map_put`) and every other row (`mem_put`); a **sum** over the rows
is that of one row and that of the others (`sum_eq_add`), which putting a row does not change
(`besides_put`).
-/

namespace Keyed

theorem nodup_eraseDups {α : Type*} [BEq α] [LawfulBEq α] (l : List α) : l.eraseDups.Nodup := by
  match l with
  | [] => exact List.nodup_nil
  | a :: as =>
    rw [List.eraseDups_cons, List.nodup_cons, List.mem_eraseDups, List.mem_filter]
    exact ⟨by simp, nodup_eraseDups _⟩
termination_by l.length
decreasing_by exact Nat.lt_succ_of_le (List.length_filter_le ..)

theorem eraseDups_sublist {α : Type*} [BEq α] [LawfulBEq α] (l : List α) :
    l.eraseDups.Sublist l := by
  match l with
  | [] => exact List.Sublist.refl _
  | a :: as =>
    rw [List.eraseDups_cons]
    exact ((eraseDups_sublist _).trans List.filter_sublist).cons_cons a
termination_by l.length
decreasing_by exact Nat.lt_succ_of_le (List.length_filter_le ..)

/-! ### One place of a list -/

theorem map_modify_eq {α β : Type*} {f : α → α} {g : α → β} (hg : ∀ x, g (f x) = g x)
    (l : List α) (i : Nat) : (l.modify i f).map g = l.map g := by
  induction l generalizing i with
  | nil => simp
  | cons a l ih => cases i <;> simp [hg, ih]

theorem mem_modify {α : Type*} {f : α → α} {l : List α} {i : Nat} {x : α}
    (h : x ∈ l.modify i f) : x ∈ l ∨ ∃ y, l[i]? = some y ∧ x = f y := by
  obtain ⟨j, hj⟩ := List.mem_iff_getElem?.mp h
  rw [List.getElem?_modify, Option.map_eq_map, Option.map_eq_some_iff] at hj
  obtain ⟨y, hy, rfl⟩ := hj
  split
  · rename_i hij
    exact .inr ⟨y, hij ▸ hy, rfl⟩
  · exact .inl (List.mem_of_getElem? hy)

/-! ### Lookup -/

section Lookup

variable {ι α : Type*} [BEq ι] [LawfulBEq ι] {key : α → ι} {rows : List α} {k : ι} {row : α}

/-- **Looking up** finds the row of the key, and nothing else. -/
theorem find?_eq_some (hnodup : (rows.map key).Nodup) :
    rows.find? (fun x => key x == k) = some row ↔ row ∈ rows ∧ key row = k := by
  have hfound {x : α} (hx : rows.find? (fun x => key x == k) = some x) : x ∈ rows ∧ key x = k :=
    ⟨List.mem_of_find?_eq_some hx, beq_iff_eq.mp (List.find?_some hx :)⟩
  refine ⟨hfound, fun ⟨hrow, hkey⟩ => ?_⟩
  have hsome : (rows.find? fun x => key x == k).isSome :=
    List.find?_isSome.mpr ⟨row, hrow, beq_iff_eq.mpr hkey⟩
  obtain ⟨x, hx⟩ := Option.isSome_iff_exists.mp hsome
  obtain ⟨hmem, hkeyx⟩ := hfound hx
  rw [hx, List.inj_on_of_nodup_map hnodup hmem hrow (hkeyx.trans hkey.symm)]

theorem find?_reverse_eq_some (hnodup : (rows.map key).Nodup) :
    rows.reverse.find? (fun x => key x == k) = some row ↔ row ∈ rows ∧ key row = k := by
  have hreverse : (rows.reverse.map key).Nodup := by
    rw [List.map_reverse]
    exact List.nodup_reverse.mpr hnodup
  rw [find?_eq_some hreverse, List.mem_reverse]

omit [BEq ι] [LawfulBEq ι] in
theorem find?_map_of_forall {p : α → Bool} {g : α → α} (h : ∀ x ∈ rows, p (g x) = p x) :
    (rows.map g).find? p = (rows.find? p).map g := by
  induction rows with
  | nil => rfl
  | cons x rows ih =>
    have hx := h x List.mem_cons_self
    have hrest := ih fun y hy => h y (List.mem_cons_of_mem x hy)
    rw [List.map_cons, List.find?_cons, List.find?_cons, hx, hrest]
    cases p x <;> rfl

end Lookup

/-! ### Replacing a row -/

section Put

variable {ι α : Type*} [DecidableEq ι] (key : α → ι)

/-- The rows with `row` in the place of the one with its key. -/
def put (row : α) (rows : List α) : List α := rows.map fun x => if key x = key row then row else x

def besides (k : ι) (rows : List α) : List α := rows.filter fun x => key x ≠ k

variable {key} {row x : α} {rows : List α} {k : ι}

@[simp] theorem map_put : (put key row rows).map key = rows.map key := by
  rw [put, List.map_map]
  refine List.map_congr_left fun x _ => ?_
  dsimp only [Function.comp]
  split_ifs with h
  · exact h.symm
  · rfl

theorem put_put {row' : α} (h : key row' = key row) :
    put key row' (put key row rows) = put key row' rows := by
  rw [put, put, put, List.map_map]
  refine List.map_congr_left fun x _ => ?_
  by_cases hx : key x = key row
  · simp [hx, h]
  · simp [hx]

theorem put_comm {row' : α} (h : key row' ≠ key row) :
    put key row' (put key row rows) = put key row (put key row' rows) := by
  rw [put, put, put, put, List.map_map, List.map_map]
  refine List.map_congr_left fun x _ => ?_
  by_cases hx : key x = key row
  · simp [hx, h.symm]
  · by_cases hx' : key x = key row'
    · simp [hx', h]
    · simp [hx, hx']

theorem mem_besides : x ∈ besides key k rows ↔ x ∈ rows ∧ key x ≠ k := by
  simp [besides]

theorem besides_eq_self (h : k ∉ rows.map key) : besides key k rows = rows := by
  refine List.filter_eq_self.mpr fun x hx => ?_
  have hne : key x ≠ k := fun heq => h (List.mem_map.mpr ⟨x, hx, heq⟩)
  simpa using hne

theorem besides_put : besides key (key row) (put key row rows) = besides key (key row) rows := by
  unfold besides put
  induction rows with
  | nil => rfl
  | cons x rows ih =>
    by_cases h : key x = key row
    · simpa [h] using ih
    · simpa [h] using ih

theorem mem_put (h : key row ∈ rows.map key) :
    x ∈ put key row rows ↔ x = row ∨ x ∈ rows ∧ key x ≠ key row := by
  obtain ⟨old, hold, hkey⟩ := List.mem_map.mp h
  simp only [put, List.mem_map]
  constructor
  · rintro ⟨y, hy, rfl⟩
    split_ifs with heq
    · exact .inl rfl
    · exact .inr ⟨hy, heq⟩
  · rintro (rfl | ⟨hx, hne⟩)
    · exact ⟨old, hold, if_pos hkey⟩
    · exact ⟨x, hx, if_neg hne⟩

/-- **A sum** over the rows is what one row adds to that of the others. -/
theorem sum_eq_add {M : Type*} [AddCommMonoid M] (f : α → M) (hnodup : (rows.map key).Nodup)
    (hrow : row ∈ rows) :
    (rows.map f).sum = f row + ((besides key (key row) rows).map f).sum := by
  induction rows with
  | nil => exact absurd hrow List.not_mem_nil
  | cons x rows ih =>
    rw [List.map_cons, List.nodup_cons] at hnodup
    obtain ⟨hx, hnodup⟩ := hnodup
    rcases List.mem_cons.mp hrow with rfl | hrow
    · have hothers : besides key (key row) (row :: rows) = rows := by
        rw [besides, List.filter_cons_of_neg (by simp)]
        exact besides_eq_self hx
      rw [hothers, List.map_cons, List.sum_cons]
    · have hne : key x ≠ key row := by
        intro heq
        rw [heq] at hx
        exact hx (List.mem_map_of_mem hrow)
      have hothers : besides key (key row) (x :: rows) = x :: besides key (key row) rows := by
        rw [besides, List.filter_cons_of_pos (by simpa using hne)]
        rfl
      rw [hothers, List.map_cons, List.sum_cons, List.map_cons, List.sum_cons, ih hnodup hrow,
        add_left_comm]

omit [DecidableEq ι] in
/-- **A count** after the test has changed at one row only. -/
theorem countP_succ_of_others {p q : α → Bool} (hnodup : (rows.map key).Nodup) (hrow : row ∈ rows)
    (hp : p row = true) (hq : q row = false) (hothers : ∀ x ∈ rows, key x ≠ key row → q x = p x) :
    rows.countP q + 1 = rows.countP p := by
  induction rows with
  | nil => exact absurd hrow List.not_mem_nil
  | cons x rows ih =>
    rw [List.map_cons, List.nodup_cons] at hnodup
    obtain ⟨hx, hnodup⟩ := hnodup
    have hrest : ∀ y ∈ rows, key y ≠ key row → q y = p y := fun y hy =>
      hothers y (List.mem_cons_of_mem _ hy)
    rcases List.mem_cons.mp hrow with rfl | hrow
    · have hsame : rows.countP q = rows.countP p := by
        refine List.countP_congr fun y hy => ?_
        rw [hrest y hy fun heq => hx (heq ▸ List.mem_map_of_mem hy)]
      rw [List.countP_cons_of_neg (by simp [hq]), List.countP_cons_of_pos hp, hsame]
    · have hne : key x ≠ key row := fun heq => hx (heq ▸ List.mem_map_of_mem hrow)
      have hsame : q x = p x := hothers x List.mem_cons_self hne
      rw [List.countP_cons, List.countP_cons, hsame, ← ih hnodup hrow hrest]
      omega

theorem sum_put {M : Type*} [AddCommMonoid M] (f : α → M) (hnodup : (rows.map key).Nodup)
    (h : key row ∈ rows.map key) :
    ((put key row rows).map f).sum = f row + ((besides key (key row) rows).map f).sum := by
  have hkeys : ((put key row rows).map key).Nodup := by rwa [map_put]
  rw [sum_eq_add f hkeys ((mem_put h).mpr (.inl rfl)), besides_put]

end Put

end Keyed
