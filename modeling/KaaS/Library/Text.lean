import Mathlib.Data.List.DropRight
import Mathlib.Data.List.Infix
import Mathlib.Data.List.Sort
import Mathlib.Data.String.Basic

/-!
# Text

The string operations the model needs, on the list of characters so that they evaluate by
structural recursion, and the decimal numerals: two texts that end in the same separator
and a numeral are equal only if their numerals and what stands before the separator are
(`append_dash_inj`).
-/

namespace Text

def hasPrefix (s p : String) : Bool := p.toList.isPrefixOf s.toList

/-- `sub` stands somewhere in `s`. -/
def contains (s sub : String) : Bool := decide (sub.toList <:+: s.toList)

/-- White space as Unicode defines it. -/
def isSpace (ch : Char) : Bool :=
  ch.isWhitespace || [0x0b, 0x0c, 0x85, 0xa0, 0x1680, 0x2028, 0x2029, 0x202f, 0x205f,
    0x3000].contains ch.toNat || (0x2000 ≤ ch.toNat && ch.toNat ≤ 0x200a)

/-- `s` without the white space at either end. -/
def trimSpace (s : String) : String :=
  String.ofList ((s.toList.dropWhile isSpace).reverse.dropWhile isSpace).reverse

/-- The parts of `s` between the occurrences of `sep`. -/
def split (s : String) (sep : Char) : List String :=
  (s.toList.splitOn sep).map String.ofList

def quote (s : String) : String := "\"" ++ s ++ "\""

def join (sep : String) : List String → String
  | [] => ""
  | [s] => s
  | s :: rest => s ++ sep ++ join sep rest

def sorted (l : List String) : List String := l.insertionSort (· ≤ ·)

theorem trimSpace_eq_self {s : String} (h : ∀ ch ∈ s.toList, isSpace ch = false) :
    trimSpace s = s := by
  have hkeep (l : List Char) (hl : ∀ ch ∈ l, isSpace ch = false) : l.dropWhile isSpace = l := by
    cases l with
    | nil => rfl
    | cons ch l => rw [List.dropWhile_cons_of_neg (by simp [hl ch List.mem_cons_self])]
  rw [trimSpace, hkeep _ h, hkeep _ fun ch hch => h ch (List.mem_reverse.mp hch),
    List.reverse_reverse, String.ofList_toList]

theorem mem_trimSpace {s : String} {ch : Char} (h : ch ∈ (trimSpace s).toList) : ch ∈ s.toList := by
  rw [trimSpace, String.toList_ofList, List.mem_reverse] at h
  exact (List.dropWhile_sublist _).subset
    (List.mem_reverse.mp ((List.dropWhile_sublist _).subset h))

theorem trimSpace_trimSpace (s : String) : trimSpace (trimSpace s) = trimSpace s := by
  have hdef (s : String) :
      trimSpace s = String.ofList ((s.toList.dropWhile isSpace).rdropWhile isSpace) := rfl
  -- what is left begins as before the end was cut off
  have hfront {l : List Char} (hl : l.dropWhile isSpace = l) :
      (l.rdropWhile isSpace).dropWhile isSpace = l.rdropWhile isSpace := by
    cases he : l.rdropWhile isSpace with
    | nil => rfl
    | cons ch rest =>
      obtain ⟨t, ht⟩ := he ▸ List.rdropWhile_prefix isSpace (l := l)
      refine List.dropWhile_cons_of_neg fun hspace => ?_
      rw [← ht, List.cons_append, List.dropWhile_cons_of_pos hspace] at hl
      have hlen := congrArg List.length hl
      have hle := (List.dropWhile_sublist isSpace (l := rest ++ t)).length_le
      rw [List.length_cons] at hlen
      omega
  rw [hdef s, hdef, String.toList_ofList, hfront (List.dropWhile_idempotent _ _),
    List.rdropWhile_idempotent]

theorem join_injective {sep : String} {l l' : List String}
    (hlen : l.map (·.length) = l'.map (·.length)) (h : join sep l = join sep l') : l = l' := by
  induction l generalizing l' with
  | nil => simpa using hlen.symm
  | cons s rest ih =>
    cases l' with
    | nil => simp at hlen
    | cons s' rest' =>
      obtain ⟨hs, hrest⟩ := List.cons.inj hlen
      cases rest with
      | nil =>
        obtain rfl : rest' = [] := by simpa using hrest.symm
        simpa [join] using h
      | cons t ts =>
        cases rest' with
        | nil => simp at hrest
        | cons t' ts' =>
          have hl := congrArg String.toList h
          simp only [join, String.toList_append, List.append_assoc] at hl
          have hs : s.toList.length = s'.toList.length := by
            rw [String.length_toList, String.length_toList]
            exact hs
          obtain ⟨hfirst, hl⟩ := List.append_inj hl hs
          obtain ⟨-, hl⟩ := List.append_inj hl rfl
          rw [String.toList_inj.mp hfirst, ih hrest (String.toList_inj.mp hl)]

/-! ### Decimal numerals after a separator -/

theorem contains_append_left (s t : String) : contains (s ++ t) s = true := by
  simp only [contains, String.toList_append, decide_eq_true_eq]
  exact (List.prefix_append _ _).isInfix

private theorem toLower_eq_map (s : String) : s.toLower = s.map Char.toLower := rfl

theorem toLower_append (s t : String) : (s ++ t).toLower = s.toLower ++ t.toLower := by
  refine String.ext ?_
  simp only [toLower_eq_map, String.toList_map, String.toList_append, List.map_append]

theorem toLower_toLower (s : String) : s.toLower.toLower = s.toLower := by
  have hchar : ∀ ch : Char, ch.toLower.toLower = ch.toLower := by
    intro ch
    unfold Char.toLower
    split
    · rename_i hupper
      rw [dif_neg]
      simp only [UInt32.le_iff_toNat_le, UInt32.toNat_add] at hupper ⊢
      simp at hupper ⊢
      omega
    · rfl
  simp only [toLower_eq_map, String.map_map]
  exact congrArg (String.map · s) (funext hchar)

theorem toString_inj {m n : ℕ} (h : toString m = toString n) : m = n := by
  have hdigits : Nat.toDigits 10 m = Nat.toDigits 10 n := by
    simpa only [Nat.toString_eq_repr, Nat.toList_repr] using congrArg String.toList h
  have hparsed := congrArg (Nat.ofDigitChars 10 · 0) hdigits
  simpa only [Nat.ofDigitChars_ten_toDigits] using hparsed

theorem not_mem_toString {ch : Char} (h : ch.isDigit = false) (n : ℕ) :
    ch ∉ (toString n).toList := by
  rw [Nat.toString_eq_repr, Nat.toList_repr]
  intro hmem
  have hdigit := Nat.isDigit_of_mem_toDigits (by omega) le_rfl hmem
  simp [h] at hdigit

theorem append_cons_inj {α : Type*} {x : α} {as as' bs bs' : List α} (hb : x ∉ bs)
    (hb' : x ∉ bs') (h : as ++ x :: bs = as' ++ x :: bs') : as = as' ∧ bs = bs' := by
  rcases List.append_eq_append_iff.mp h with ⟨l, rfl, hl⟩ | ⟨l, rfl, hl⟩
  all_goals
    cases l with
    | nil => simp_all
    | cons y l =>
      obtain ⟨-, rfl⟩ := List.cons.inj hl
      simp_all

theorem append_cons_inj_left {α : Type*} {x : α} {as as' bs bs' : List α} (ha : x ∉ as)
    (ha' : x ∉ as') (h : as ++ x :: bs = as' ++ x :: bs') : as = as' ∧ bs = bs' := by
  have hrev := congrArg List.reverse h
  simp only [List.reverse_append, List.reverse_cons, List.append_assoc, List.singleton_append]
    at hrev
  obtain ⟨hbs, has⟩ := append_cons_inj (by simpa using ha) (by simpa using ha') hrev
  exact ⟨List.reverse_inj.mp has, List.reverse_inj.mp hbs⟩

/-- **Numbered names.** A stem, a dash and a numeral determine the stem and the number. -/
theorem append_dash_inj {s t : String} {m n : ℕ}
    (h : s ++ "-" ++ toString m = t ++ "-" ++ toString n) : s = t ∧ m = n := by
  have hl := congrArg String.toList h
  simp only [String.toList_append, List.append_assoc] at hl
  obtain ⟨hs, hn⟩ := append_cons_inj (not_mem_toString (by decide) m)
    (not_mem_toString (by decide) n) hl
  exact ⟨String.toList_inj.mp hs, toString_inj (String.toList_inj.mp hn)⟩

/-- The name is the stem, or goes on after it with a dash. -/
def continues (name stem : String) : Bool := name == stem || hasPrefix name (stem ++ "-")

private theorem eq_or_extends {α : Type*} {x : α} {as as' bs bs' : List α} (ha : x ∉ as)
    (h : as ++ x :: bs = as' ++ x :: bs') : as' = as ∨ ∃ r, as' = as ++ x :: r := by
  rcases List.append_eq_append_iff.mp h with ⟨l, rfl, hl⟩ | ⟨l, rfl, hl⟩
  · cases l with
    | nil => exact .inl (List.append_nil as)
    | cons y l =>
      obtain ⟨rfl, -⟩ := List.cons.inj hl
      exact .inr ⟨l, rfl⟩
  · cases l with
    | nil => exact .inl (List.append_nil as').symm
    | cons y l =>
      obtain ⟨rfl, -⟩ := List.cons.inj hl
      simp at ha

private theorem continues_of_cut {s t u : String} {m : ℕ} {l v : List Char}
    (ht : t.toList = s.toList ++ l)
    (h : '-' :: ((toString m).toList ++ '-' :: u.toList) = l ++ '-' :: v) :
    l = [] ∨ continues t (s ++ "-" ++ toString m) = true := by
  cases l with
  | nil => exact .inl rfl
  | cons y l =>
    rw [List.cons_append, List.cons.injEq] at h
    obtain ⟨rfl, h⟩ := h
    refine .inr ?_
    rw [continues, Bool.or_eq_true, beq_iff_eq]
    rcases eq_or_extends (not_mem_toString (by decide) m) h with rfl | ⟨r, rfl⟩
    · refine .inl (String.toList_inj.mp ?_)
      rw [ht]
      simp
    · refine .inr (List.isPrefixOf_iff_prefix.mpr ⟨r, ?_⟩)
      rw [ht]
      simp

/-- **Numbered names that go on.** Stem, number and rest are determined, unless one stem goes on
from the other with its number. -/
theorem append_dash_append_dash {s t u v : String} {m n : ℕ}
    (h : s ++ "-" ++ toString m ++ "-" ++ u = t ++ "-" ++ toString n ++ "-" ++ v) :
    (s = t ∧ m = n ∧ u = v) ∨ continues t (s ++ "-" ++ toString m) = true ∨
      continues s (t ++ "-" ++ toString n) = true := by
  have hl := congrArg String.toList h
  simp only [String.toList_append, List.append_assoc] at hl
  have hsame (hst : s.toList = t.toList)
      (hl : '-' :: ((toString m).toList ++ '-' :: u.toList) =
        '-' :: ((toString n).toList ++ '-' :: v.toList)) : s = t ∧ m = n ∧ u = v := by
    obtain ⟨hmn, huv⟩ := append_cons_inj_left (not_mem_toString (by decide) m)
      (not_mem_toString (by decide) n) (List.cons.inj hl).2
    exact ⟨String.toList_inj.mp hst, toString_inj (String.toList_inj.mp hmn),
      String.toList_inj.mp huv⟩
  rcases List.append_eq_append_iff.mp hl with ⟨l, hts, hl⟩ | ⟨l, hst, hl⟩
  · rcases continues_of_cut hts hl with rfl | hcont
    · exact .inl (hsame (by simp [hts]) hl)
    · exact .inr (.inl hcont)
  · rcases continues_of_cut hst hl with rfl | hcont
    · exact .inl (hsame (by simp [hst]) hl.symm)
    · exact .inr (.inr hcont)

end Text
