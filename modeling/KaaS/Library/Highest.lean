import Mathlib.Logic.Function.Basic
import Mathlib.Order.Nat

/-!
# The highest of several offers

A table keeps, for each of its keys, the best of what was put there so far. What it holds in the
end depends on the **set** of offers only, not on their order: it is *the highest offer*, which is
unique where different offers have different ranks (`IsHighest.unique`). Two loops that collect
the same offers in different ways therefore end with the same entry.
-/

namespace Highest

variable {ρ : Type*} (rank : ρ → ℕ)

/-- The entry is the highest of the offers `P`, and there is none if nothing was offered. -/
def IsHighest (P : ρ → Prop) : Option ρ → Prop
  | none => ∀ r, ¬P r
  | some r => P r ∧ ∀ r', P r' → rank r' ≤ rank r

/-- The entry after one more offer: it has to outrank what is there. -/
def raise (entry : Option ρ) (r : ρ) : Option ρ :=
  if (entry.map rank).getD 0 < rank r then some r else entry

variable {rank} {P Q : ρ → Prop} {a b : Option ρ} {r : ρ}

theorem IsHighest.unique (hinj : Function.Injective rank) (ha : IsHighest rank P a)
    (hb : IsHighest rank P b) : a = b := by
  cases a with
  | none =>
    cases b with
    | none => rfl
    | some r => exact absurd hb.1 (ha r)
  | some r =>
    cases b with
    | none => exact absurd ha.1 (hb r)
    | some r' => exact congrArg some (hinj (le_antisymm (hb.2 r ha.1) (ha.2 r' hb.1)))

theorem IsHighest.congr (ha : IsHighest rank P a) (h : ∀ r, P r ↔ Q r) : IsHighest rank Q a := by
  have hPQ : P = Q := funext fun r => propext (h r)
  exact hPQ ▸ ha

/-- **One more offer.** -/
theorem IsHighest.raise (ha : IsHighest rank P a) (hpos : 0 < rank r) :
    IsHighest rank (fun x => P x ∨ x = r) (raise rank a r) := by
  unfold Highest.raise
  split
  · rename_i hlt
    refine ⟨.inr rfl, ?_⟩
    rintro x (hx | rfl)
    · cases a with
      | none => exact absurd hx (ha x)
      | some s => exact (ha.2 x hx).trans (Nat.le_of_lt hlt)
    · exact le_rfl
  · rename_i hge
    cases a with
    | none => exact absurd hpos hge
    | some s =>
      refine ⟨.inl ha.1, ?_⟩
      rintro x (hx | rfl)
      · exact ha.2 x hx
      · exact not_lt.mp hge

theorem IsHighest.enter (htop : ∀ x, rank x ≤ rank r) :
    IsHighest rank (fun x => P x ∨ x = r) (some r) :=
  ⟨.inr rfl, fun x _ => htop x⟩

theorem IsHighest.exists_lt_iff (ha : IsHighest rank P a) (n : ℕ) :
    (∃ r, a = some r ∧ n < rank r) ↔ ∃ r, P r ∧ n < rank r := by
  constructor
  · rintro ⟨r, rfl, hr⟩
    exact ⟨r, ha.1, hr⟩
  · rintro ⟨r, hr, hlt⟩
    cases a with
    | none => exact absurd hr (ha r)
    | some s => exact ⟨s, rfl, hlt.trans_le (ha.2 r hr)⟩

end Highest
