import Mathlib.Data.List.AList

/-!
# Filling an association list in a loop

What a loop that inserts one fixed value under some keys leaves at a given key: with the
value overwritten (`lookup_foldl_overwrite`) or kept when there is one
(`lookup_foldl_fill`). A loop that inserts a value for each element of a list leaves them all, if
elements with one key have one value (`lookup_foldl_insert`), and every other key as it was
(`lookup_foldl_insert_of_forall_ne`); under different keys it leaves each value once
(`perm_entries_foldl_insert`). A loop over keys that inserts a value for some of them leaves
at each key what it has for it (`lookup_foldl_some`).
-/

namespace AList

variable {α γ : Type*} [DecidableEq α] {β : α → Type*} {f : AList β → γ → AList β} {k : α}
  {v : β k} {q : γ → Prop} [DecidablePred q]

theorem lookup_foldl_overwrite
    (hf : ∀ m x, (f m x).lookup k = if q x then some v else m.lookup k) (l : List γ)
    (m : AList β) :
    (l.foldl f m).lookup k = if ∃ x ∈ l, q x then some v else m.lookup k := by
  induction l generalizing m with
  | nil => simp
  | cons x l ih =>
    rw [List.foldl_cons, ih, hf]
    by_cases hx : q x <;> simp [hx]

theorem lookup_foldl_fill
    (hf : ∀ m x, (f m x).lookup k = (m.lookup k).or (if q x then some v else none))
    (l : List γ) (m : AList β) :
    (l.foldl f m).lookup k = (m.lookup k).or (if ∃ x ∈ l, q x then some v else none) := by
  induction l generalizing m with
  | nil => simp
  | cons x l ih =>
    rw [List.foldl_cons, ih, hf]
    by_cases hx : q x <;> simp [hx]

/-- A loop over keys that inserts a value for some of them: `v` is the one for `k`, if any. -/
theorem lookup_foldl_some {f : AList β → α → AList β} {v : Option (β k)}
    (hf : ∀ m a, (f m a).lookup k = if a = k then v.or (m.lookup k) else m.lookup k) (l : List α)
    (m : AList β) :
    (l.foldl f m).lookup k = if k ∈ l then v.or (m.lookup k) else m.lookup k := by
  induction l generalizing m with
  | nil => simp
  | cons a l ih =>
    rw [List.foldl_cons, ih, hf]
    by_cases hak : a = k
    · cases v <;> simp [hak]
    · simp [hak, Ne.symm hak]

section Insert

variable {δ : Type*} {key : γ → α} {val : γ → δ}

theorem lookup_foldl_insert_of_forall_ne {l : List γ} {k : α} (h : ∀ x ∈ l, key x ≠ k)
    (m : AList fun _ : α => δ) :
    (l.foldl (fun m x => m.insert (key x) (val x)) m).lookup k = m.lookup k := by
  induction l generalizing m with
  | nil => rfl
  | cons x l ih =>
    rw [List.foldl_cons, ih fun y hy => h y (List.mem_cons_of_mem _ hy)]
    exact lookup_insert_ne (h x List.mem_cons_self).symm

theorem lookup_foldl_insert {l : List γ} {x : γ} (hx : x ∈ l)
    (h : ∀ y ∈ l, key y = key x → val y = val x) (m : AList fun _ : α => δ) :
    (l.foldl (fun m x => m.insert (key x) (val x)) m).lookup (key x) = some (val x) := by
  induction l generalizing m x with
  | nil => cases hx
  | cons z l ih =>
    rw [List.foldl_cons]
    -- the last element with the key decides
    by_cases hl : ∃ y ∈ l, key y = key x
    · obtain ⟨y, hy, hkey⟩ := hl
      have hval := h y (List.mem_cons_of_mem _ hy) hkey
      rw [← hkey, ← hval]
      refine ih hy (fun w hw hwkey => ?_) _
      rw [h w (List.mem_cons_of_mem _ hw) (hwkey.trans hkey), hval]
    · have hne : ∀ y ∈ l, key y ≠ key x := fun y hy hkey => hl ⟨y, hy, hkey⟩
      obtain rfl : x = z := by
        rcases List.mem_cons.1 hx with hx | hx
        · exact hx
        · exact absurd rfl (hne x hx)
      rw [lookup_foldl_insert_of_forall_ne hne, lookup_insert]

theorem perm_entries_foldl_insert {l : List γ} {m : AList fun _ : α => δ}
    (hnodup : (l.map key).Nodup) (hnew : ∀ x ∈ l, key x ∉ m) :
    ((l.foldl (fun m x => m.insert (key x) (val x)) m).entries.map (·.2)).Perm
      (l.map val ++ m.entries.map (·.2)) := by
  induction l generalizing m with
  | nil => exact List.Perm.refl _
  | cons x l ih =>
    rw [List.map_cons, List.nodup_cons] at hnodup
    have hnew' : ∀ y ∈ l, key y ∉ m.insert (key x) (val x) := by
      intro y hy hmem
      rcases (mem_insert m).mp hmem with hkey | hmem
      · exact hnodup.1 (hkey ▸ List.mem_map_of_mem hy)
      · exact hnew y (List.mem_cons_of_mem x hy) hmem
    refine (ih hnodup.2 hnew').trans ?_
    rw [entries_insert_of_notMem (hnew x List.mem_cons_self)]
    exact List.perm_middle

theorem mem_foldl_insert {l : List γ} {k : α} {m : AList fun _ : α => δ} :
    k ∈ l.foldl (fun m x => m.insert (key x) (val x)) m ↔ k ∈ l.map key ∨ k ∈ m := by
  induction l generalizing m with
  | nil => simp
  | cons x l ih =>
    rw [List.foldl_cons, ih, mem_insert, List.map_cons, List.mem_cons]
    tauto

theorem exists_of_lookup_foldl_insert {l : List γ} {k : α} {d : δ} {m : AList fun _ : α => δ}
    (h : (l.foldl (fun m x => m.insert (key x) (val x)) m).lookup k = some d) :
    (∃ x ∈ l, key x = k ∧ val x = d) ∨ m.lookup k = some d := by
  induction l generalizing m with
  | nil => exact .inr h
  | cons x l ih =>
    rcases ih h with ⟨y, hy, hkey, hval⟩ | hm
    · exact .inl ⟨y, List.mem_cons_of_mem x hy, hkey, hval⟩
    · by_cases hx : key x = k
      · subst hx
        rw [lookup_insert] at hm
        exact .inl ⟨x, List.mem_cons_self, rfl, Option.some.inj hm⟩
      · rw [lookup_insert_ne (Ne.symm hx)] at hm
        exact .inr hm

end Insert

end AList
