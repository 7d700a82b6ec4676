import Mathlib.Data.List.Nodup
import Mathlib.Data.List.Perm.Basic

/-!
# The first of each key

A list is walked with a set of **keys seen**: an element whose key was seen is passed over, any
other is kept, and its key is seen from then on. Elements without a key are always kept.

What is kept is a part of the list with different keys (`nodup_keepFirst`) in which every key has an
element (`exists_mem_keepFirst`), namely the first of those that have it: in a list that is ordered
in some way, the one that comes before all others (`eq_or_rel_of_mem_keepFirst`). Nothing happens to
elements without a key (`filter_keepFirst`). So the order of the list does not matter once it is
sorted, nor how often it has an element with a key (`keepFirst_eq_of_sorted`).
-/

namespace Distinct

variable {α κ : Type*} [DecidableEq κ] (key : α → Option κ)

/-- The first element of each key that was not seen, and all elements without a key. -/
def keepFirst : List κ → List α → List α
  | _, [] => []
  | seen, a :: l =>
    match key a with
    | none => a :: keepFirst seen l
    | some k => if k ∈ seen then keepFirst seen l else a :: keepFirst (k :: seen) l

variable {key}

theorem keepFirst_cons_of_none {seen : List κ} {a : α} {l : List α} (h : key a = none) :
    keepFirst key seen (a :: l) = a :: keepFirst key seen l := by
  simp only [keepFirst, h]

theorem keepFirst_cons_of_seen {seen : List κ} {a : α} {l : List α} {k : κ} (h : key a = some k)
    (hk : k ∈ seen) : keepFirst key seen (a :: l) = keepFirst key seen l := by
  simp only [keepFirst, h, if_pos hk]

theorem keepFirst_cons_of_new {seen : List κ} {a : α} {l : List α} {k : κ} (h : key a = some k)
    (hk : k ∉ seen) : keepFirst key seen (a :: l) = a :: keepFirst key (k :: seen) l := by
  simp only [keepFirst, h, if_neg hk]

theorem keepFirst_sublist (seen : List κ) (l : List α) : (keepFirst key seen l).Sublist l := by
  induction l generalizing seen with
  | nil => exact List.Sublist.refl _
  | cons a l ih =>
    unfold keepFirst
    split
    · exact (ih seen).cons_cons a
    · split
      · exact (ih seen).cons a
      · exact (ih _).cons_cons a

theorem mem_of_mem_keepFirst {seen : List κ} {l : List α} {a : α} (h : a ∈ keepFirst key seen l) :
    a ∈ l := (keepFirst_sublist seen l).subset h

private theorem not_mem_seen {seen : List κ} {l : List α} {a : α} {k : κ}
    (h : a ∈ keepFirst key seen l) (hk : key a = some k) : k ∉ seen := by
  induction l generalizing seen with
  | nil => simp [keepFirst] at h
  | cons b l ih =>
    unfold keepFirst at h
    split at h
    · rename_i hb
      rcases List.mem_cons.mp h with rfl | h
      · simp [hb] at hk
      · exact ih h
    · rename_i kb hb
      split at h
      · exact ih h
      · rename_i hnew
        rcases List.mem_cons.mp h with rfl | h
        · obtain rfl := Option.some.inj (hb.symm.trans hk)
          exact hnew
        · exact fun hmem => ih h (List.mem_cons_of_mem _ hmem)

/-- **What is kept has different keys.** -/
theorem nodup_keepFirst (seen : List κ) (l : List α) :
    ((keepFirst key seen l).filterMap key).Nodup := by
  induction l generalizing seen with
  | nil => exact List.nodup_nil
  | cons a l ih =>
    unfold keepFirst
    split
    · rename_i ha
      rw [List.filterMap_cons_none ha]
      exact ih seen
    · rename_i k ha
      split
      · exact ih seen
      · rw [List.filterMap_cons_some ha, List.nodup_cons]
        refine ⟨fun hmem => ?_, ih _⟩
        obtain ⟨b, hb, hkb⟩ := List.mem_filterMap.mp hmem
        exact not_mem_seen hb hkb List.mem_cons_self

/-- **Every key has an element** among those kept. -/
theorem exists_mem_keepFirst {seen : List κ} {l : List α} {a : α} {k : κ} (ha : a ∈ l)
    (hk : key a = some k) (hseen : k ∉ seen) : ∃ b ∈ keepFirst key seen l, key b = some k := by
  induction l generalizing seen with
  | nil => simp at ha
  | cons b l ih =>
    rcases List.mem_cons.mp ha with rfl | ha
    · rw [keepFirst_cons_of_new hk hseen]
      exact ⟨a, List.mem_cons_self, hk⟩
    · unfold keepFirst
      split
      · obtain ⟨c, hc, hkc⟩ := ih ha hseen
        exact ⟨c, List.mem_cons_of_mem _ hc, hkc⟩
      · rename_i kb hb
        split
        · exact ih ha hseen
        · by_cases heq : k = kb
          · exact ⟨b, List.mem_cons_self, heq ▸ hb⟩
          · obtain ⟨c, hc, hkc⟩ := ih ha (List.not_mem_cons_of_ne_of_not_mem heq hseen)
            exact ⟨c, List.mem_cons_of_mem _ hc, hkc⟩

/-- **The first of its key**: what is kept comes before all others that have its key. -/
theorem eq_or_rel_of_mem_keepFirst {r : α → α → Prop} {seen : List κ} {l : List α} {a b : α} {k : κ}
    (hl : l.Pairwise r) (hb : b ∈ keepFirst key seen l) (hkb : key b = some k) (ha : a ∈ l)
    (hka : key a = some k) : a = b ∨ r b a := by
  induction l generalizing seen with
  | nil => simp at ha
  | cons c l ih =>
    obtain ⟨hc, hl⟩ := List.pairwise_cons.mp hl
    unfold keepFirst at hb
    split at hb
    · rename_i hnone
      rcases List.mem_cons.mp hb with rfl | hb
      · simp [hnone] at hkb
      rcases List.mem_cons.mp ha with rfl | ha
      · simp [hnone] at hka
      · exact ih hl hb ha
    · rename_i kc hkc
      split at hb
      · rename_i hseen
        rcases List.mem_cons.mp ha with rfl | ha
        · obtain rfl := Option.some.inj (hkc.symm.trans hka)
          exact absurd hseen (not_mem_seen hb hkb)
        · exact ih hl hb ha
      · rcases List.mem_cons.mp hb with rfl | hrest
        · rcases List.mem_cons.mp ha with rfl | ha
          · exact .inl rfl
          · exact .inr (hc a ha)
        · rcases List.mem_cons.mp ha with rfl | ha
          · obtain rfl := Option.some.inj (hkc.symm.trans hka)
            exact absurd List.mem_cons_self (not_mem_seen hrest hkb)
          · exact ih hl hrest ha

/-- **Elements without a key** are all kept. -/
theorem filter_keepFirst (seen : List κ) (l : List α) :
    (keepFirst key seen l).filter (fun a => (key a).isNone) =
      l.filter fun a => (key a).isNone := by
  induction l generalizing seen with
  | nil => rfl
  | cons a l ih =>
    unfold keepFirst
    split
    · rename_i ha
      simp only [List.filter_cons, ha, Option.isNone_none, if_true, ih]
    · rename_i k ha
      have hdrop : (a :: l).filter (fun a => (key a).isNone) =
          l.filter fun a => (key a).isNone := by simp [ha]
      rw [hdrop]
      split
      · exact ih seen
      · rw [← ih (k :: seen)]
        simp [ha]

theorem keepFirst_subset_append (seen : List κ) (l l' : List α) :
    keepFirst key seen l ⊆ keepFirst key seen (l ++ l') := by
  induction l generalizing seen with
  | nil => exact List.nil_subset _
  | cons a l ih =>
    rw [List.cons_append]
    unfold keepFirst
    split
    · exact List.cons_subset_cons a (ih seen)
    · split
      · exact ih seen
      · exact List.cons_subset_cons a (ih _)

private theorem nodup_keyed (l : List α) :
    ((keepFirst key [] l).filter fun a => !(key a).isNone).Nodup := by
  have hnodup : ((keepFirst key [] l).filterMap key).Nodup := nodup_keepFirst [] l
  have hapart := (List.pairwise_filterMap.mp hnodup).filter fun a => !(key a).isNone
  refine hapart.imp_of_mem fun {a b} ha _ hne heq => ?_
  have hsome : (key a).isSome := by simpa using (List.mem_filter.mp ha).2
  obtain ⟨k, hk⟩ := Option.isSome_iff_exists.mp hsome
  exact hne k hk k (heq ▸ hk) rfl

/-- **Sorted lists with the same elements**: what is kept of them is the same, if the order tells
elements with a key apart and no element without a key is lost. -/
theorem keepFirst_eq_of_sorted {r : α → α → Prop} {l l' : List α} (hl : l.Pairwise r)
    (hl' : l'.Pairwise r) (hanti : ∀ a ∈ l, ∀ b ∈ l, r a b → r b a → a = b)
    (hmem : ∀ a, a ∈ l ↔ a ∈ l')
    (hnone : (l.filter fun a => (key a).isNone).Perm (l'.filter fun a => (key a).isNone)) :
    keepFirst key [] l = keepFirst key [] l' := by
  have hkept {l l' : List α} {a : α} {k : κ} (hl : l.Pairwise r) (hl' : l'.Pairwise r)
      (hanti : ∀ a ∈ l, ∀ b ∈ l, r a b → r b a → a = b) (hmem : ∀ a, a ∈ l ↔ a ∈ l')
      (ha : a ∈ keepFirst key [] l) (hk : key a = some k) : a ∈ keepFirst key [] l' := by
    have hal := mem_of_mem_keepFirst ha
    obtain ⟨b, hb, hkb⟩ := exists_mem_keepFirst ((hmem a).mp hal) hk List.not_mem_nil
    have hbl := (hmem b).mpr (mem_of_mem_keepFirst hb)
    rcases eq_or_rel_of_mem_keepFirst hl' hb hkb ((hmem a).mp hal) hk with rfl | hba
    · exact hb
    rcases eq_or_rel_of_mem_keepFirst hl ha hk hbl hkb with rfl | hab
    · exact hb
    · rwa [hanti a hal b hbl hab hba]
  refine List.Perm.eq_of_pairwise (fun a b ha hb => hanti a (mem_of_mem_keepFirst ha) b
    ((hmem b).mpr (mem_of_mem_keepFirst hb))) (hl.sublist (keepFirst_sublist _ _))
    (hl'.sublist (keepFirst_sublist _ _)) ?_
  -- Elements without a key are those of the lists; the others are kept once.
  refine (List.filter_append_perm (fun a => (key a).isNone) _).symm.trans (.trans (.append ?_ ?_)
    (List.filter_append_perm (fun a => (key a).isNone) _))
  · rwa [filter_keepFirst, filter_keepFirst]
  · refine (List.perm_ext_iff_of_nodup (nodup_keyed l) (nodup_keyed l')).mpr fun a => ?_
    rw [List.mem_filter, List.mem_filter]
    refine and_congr_left fun hkey => ?_
    have hsome : (key a).isSome := by simpa using hkey
    obtain ⟨k, hk⟩ := Option.isSome_iff_exists.mp hsome
    refine ⟨fun ha => hkept hl hl' hanti hmem ha hk, fun ha => ?_⟩
    exact hkept hl' hl (fun a ha b hb => hanti a ((hmem a).mpr ha) b ((hmem b).mpr hb))
      (fun a => (hmem a).symm) ha hk

theorem mem_keepFirst_iff {l : List α} {a : α} {k : κ}
    (hinj : ∀ x ∈ l, ∀ y ∈ l, (key x).isSome → key x = key y → x = y) (hk : key a = some k) :
    a ∈ keepFirst key [] l ↔ a ∈ l := by
  refine ⟨mem_of_mem_keepFirst, fun ha => ?_⟩
  obtain ⟨b, hb, hkb⟩ := exists_mem_keepFirst ha hk List.not_mem_nil
  rwa [hinj a ha b (mem_of_mem_keepFirst hb) (by simp [hk]) (hk.trans hkb.symm)]

end Distinct
