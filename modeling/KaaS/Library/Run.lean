import Mathlib.Data.List.Basic

/-!
# Runs of a transition system

A system is a total function `step : σ → ι → σ`: the input `ι` carries everything that is
not determined by the state (which actor moves, what the outside world answers), and an
input that is not enabled leaves the state as it is. A **run** is the list of its inputs.

`Along step C s is` says that every step of the run `is` from `s` meets the condition `C` at
the state it is taken from, and `run_invariant` is the one induction from which every
statement about whole runs follows.
-/

namespace TransitionSystem

variable {σ ι : Type*} (step : σ → ι → σ)

/-- The state after the inputs `is`, from `s`. -/
def run (s : σ) (is : List ι) : σ := is.foldl step s

@[simp] theorem run_nil (s : σ) : run step s [] = s := rfl

@[simp] theorem run_cons (s : σ) (i : ι) (is : List ι) :
    run step s (i :: is) = run step (step s i) is := rfl

/-- Every step of the run `is` from `s` meets `C` at the state it is taken from. -/
def Along (C : σ → ι → Prop) : σ → List ι → Prop
  | _, [] => True
  | s, i :: is => C s i ∧ Along C (step s i) is

instance Along.decidable (C : σ → ι → Prop) [∀ s i, Decidable (C s i)] :
    ∀ s is, Decidable (Along step C s is)
  | _, [] => inferInstanceAs (Decidable True)
  | s, i :: is =>
    haveI := Along.decidable C (step s i) is
    inferInstanceAs (Decidable (C s i ∧ Along step C (step s i) is))

variable {step}

/-- **The invariant rule.** A property of the first state that every step meeting `C`
preserves holds after every run all of whose steps meet `C`. -/
theorem run_invariant {C : σ → ι → Prop} {I : σ → Prop}
    (hstep : ∀ s i, I s → C s i → I (step s i)) {s : σ} {is : List ι} (h : I s)
    (hC : Along step C s is) : I (run step s is) := by
  induction is generalizing s with
  | nil => exact h
  | cons i is ih => exact ih (hstep s i h hC.1) hC.2

theorem along_of_forall {P : ι → Prop} {is : List ι} (h : ∀ i ∈ is, P i) (s : σ) :
    Along step (fun _ i => P i) s is := by
  induction is generalizing s with
  | nil => trivial
  | cons i is ih =>
    obtain ⟨hi, hrest⟩ := List.forall_mem_cons.mp h
    exact ⟨hi, ih hrest _⟩

theorem run_preserves {I : σ → Prop} (hstep : ∀ s i, I s → I (step s i)) {s : σ} (h : I s)
    (is : List ι) : I (run step s is) := by
  induction is generalizing s with
  | nil => exact h
  | cons i is ih => exact ih (hstep s i h)

/-- What every step does under an invariant: if the steps that meet `C` preserve `I` and have
`D` where `I` holds, then all steps of a run that meet `C` have `D`. -/
theorem Along.of_invariant {C D : σ → ι → Prop} {I : σ → Prop}
    (hstep : ∀ s i, I s → C s i → I (step s i) ∧ D s i) {s : σ} {is : List ι} (h : I s)
    (hC : Along step C s is) : Along step D s is := by
  induction is generalizing s with
  | nil => trivial
  | cons i is ih => exact ⟨(hstep s i h hC.1).2, ih (hstep s i h hC.1).1 hC.2⟩

theorem along_iff_of_invariant {C D : σ → ι → Prop} {I : σ → Prop}
    (hstep : ∀ s i, I s → I (step s i)) (hiff : ∀ s i, I s → (C s i ↔ D s i)) {s : σ}
    (h : I s) (is : List ι) : Along step C s is ↔ Along step D s is := by
  induction is generalizing s with
  | nil => exact Iff.rfl
  | cons i is ih => exact and_congr (hiff s i h) (ih (hstep s i h))

theorem Along.and {C D : σ → ι → Prop} {s : σ} {is : List ι} (hC : Along step C s is)
    (hD : Along step D s is) : Along step (fun s i => C s i ∧ D s i) s is := by
  induction is generalizing s with
  | nil => trivial
  | cons i is ih => exact ⟨⟨hC.1, hD.1⟩, ih hC.2 hD.2⟩

end TransitionSystem
