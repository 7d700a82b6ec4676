import Mathlib.Logic.Basic

/-!
# Guarded computations

A check of the form "if `p` then fail with `e`" is `refuseIf p e`; a validator is a
sequence of them. The lemmas turn `x = .ok a` for such a sequence into the conjunction of
what each check established.
-/

namespace Guard

variable {ε α β : Type}

/-- Fail with `e` if `p` holds. -/
def refuseIf (p : Prop) [Decidable p] (e : ε) : Except ε Unit :=
  if p then .error e else .ok ()

@[simp] theorem refuseIf_eq_ok {p : Prop} [Decidable p] {e : ε} {u : Unit} :
    refuseIf p e = .ok u ↔ ¬p := by
  by_cases hp : p <;> simp [refuseIf, hp]

@[simp] theorem bind_eq_ok {x : Except ε α} {f : α → Except ε β} {b : β} :
    x >>= f = .ok b ↔ ∃ a, x = .ok a ∧ f a = .ok b := by
  cases x <;> simp [bind, Except.bind]

@[simp] theorem pure_eq_ok {a b : α} : (pure a : Except ε α) = .ok b ↔ a = b := by
  simp [pure, Except.pure]

@[simp] theorem throw_eq_ok {e : ε} {a : α} : (throw e : Except ε α) = .ok a ↔ False := by
  simp [throw, throwThe, MonadExceptOf.throw]

@[simp] theorem mapError_eq_ok {ε' : Type} {f : ε → ε'} {x : Except ε α} {a : α} :
    x.mapError f = .ok a ↔ x = .ok a := by
  cases x with
  | error e => exact ⟨nofun, nofun⟩
  | ok b =>
    change (Except.ok b : Except ε' α) = .ok a ↔ _
    rw [Except.ok.injEq, Except.ok.injEq]

theorem toOption_eq_some {x : Except ε α} {a : α} : x.toOption = some a ↔ x = .ok a := by
  cases x <;> simp [Except.toOption]

theorem eq_ok_getD {x : Except ε α} (h : x.toOption.isSome = true) (a : α) :
    x = .ok (x.toOption.getD a) := by
  cases x with
  | error e => simp [Except.toOption] at h
  | ok b => rfl

theorem forM_eq_ok {f : α → Except ε Unit} {l : List α} (h : l.forM f = .ok ()) :
    ∀ x ∈ l, f x = .ok () := by
  induction l with
  | nil => simp
  | cons x l ih =>
    rw [List.forM_eq_forM, List.forM_cons, bind_eq_ok] at h
    obtain ⟨⟨⟩, hx, hl⟩ := h
    exact List.forall_mem_cons.mpr ⟨hx, ih hl⟩

theorem exists_of_mapM_eq_ok {f : α → Except ε β} {l : List α} {out : List β}
    (h : l.mapM f = .ok out) {b : β} (hb : b ∈ out) : ∃ a ∈ l, f a = .ok b := by
  induction l generalizing out with
  | nil =>
    rw [List.mapM_nil, pure_eq_ok] at h
    simp [← h] at hb
  | cons a l ih =>
    simp only [List.mapM_cons, bind_eq_ok, pure_eq_ok] at h
    obtain ⟨b', hb', rest, hrest, rfl⟩ := h
    rcases List.mem_cons.mp hb with rfl | hb
    · exact ⟨a, List.mem_cons_self, hb'⟩
    · obtain ⟨x, hx, hf⟩ := ih hrest hb
      exact ⟨x, List.mem_cons_of_mem a hx, hf⟩

theorem map_eq_of_mapM_eq_ok {γ : Type*} {f : α → Except ε β} {g : β → γ} {k : α → γ}
    (hg : ∀ a b, f a = .ok b → g b = k a) {l : List α} {out : List β} (h : l.mapM f = .ok out) :
    out.map g = l.map k := by
  induction l generalizing out with
  | nil =>
    rw [List.mapM_nil, pure_eq_ok] at h
    rw [← h, List.map_nil, List.map_nil]
  | cons a l ih =>
    simp only [List.mapM_cons, bind_eq_ok, pure_eq_ok] at h
    obtain ⟨b, hb, rest, hrest, rfl⟩ := h
    rw [List.map_cons, hg a b hb, ih hrest, List.map_cons]

theorem map_of_mapM_eq_ok {f : α → Except ε β} {g : β → α}
    (hg : ∀ a b, f a = .ok b → g b = a) {l : List α} {out : List β} (h : l.mapM f = .ok out) :
    out.map g = l := by
  rw [map_eq_of_mapM_eq_ok (k := id) hg h, List.map_id]

end Guard
