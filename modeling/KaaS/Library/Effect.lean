import Mathlib.Order.Defs.Unbundled

/-!
# Programs with state and errors

A program `m : EStateM ε σ α` runs from a state and ends with a value or with an error,
and **keeps the state it reached in both cases**. `wp m Q E s` says that the run of `m`
from `s` ends in `Q` when it returns and in `E` when it throws; the lemmas below compute
it through the program's own constructors, so that a program is executed symbolically by
rewriting.

`Within R m` is the footprint form: whatever happens, the state `m` ends in is related by
`R` to the one it began in. For a preorder `R` this composes along `>>=`, so the footprint
of a long program is that of its parts.

A **request** to another party may be served and yet not answered (`Outcome`): its effect is then
there, and its answer is an error.

`Lockstep m n Q E s t` compares two programs over different states: they both return, in `Q`, or
both throw, in `E`.
-/

namespace Effect

variable {ε σ α β : Type}

/-- **Weakest precondition**: the run of `m` from `s` satisfies `Q` at its value and final
state, or `E` at its error and final state. -/
def wp (m : EStateM ε σ α) (Q : α → σ → Prop) (E : ε → σ → Prop) (s : σ) : Prop :=
  match m s with
  | .ok a s' => Q a s'
  | .error e s' => E e s'

instance wp.decidable (m : EStateM ε σ α) (Q : α → σ → Prop) (E : ε → σ → Prop) (s : σ)
    [∀ a s, Decidable (Q a s)] [∀ e s, Decidable (E e s)] : Decidable (wp m Q E s) :=
  match h : m s with
  | .ok a s' => decidable_of_iff (Q a s') (by simp only [wp, h])
  | .error e s' => decidable_of_iff (E e s') (by simp only [wp, h])

section Rules

variable {Q : α → σ → Prop} {E : ε → σ → Prop} {s : σ}

@[simp] theorem wp_pure (a : α) : wp (pure a) Q E s ↔ Q a s := Iff.rfl

@[simp] theorem wp_throw (e : ε) : wp (throw e : EStateM ε σ α) Q E s ↔ E e s := Iff.rfl

@[simp] theorem wp_get {Q : σ → σ → Prop} : wp (get : EStateM ε σ σ) Q E s ↔ Q s s := Iff.rfl

@[simp] theorem wp_modify {Q : PUnit → σ → Prop} (f : σ → σ) :
    wp (modify f : EStateM ε σ PUnit) Q E s ↔ Q ⟨⟩ (f s) := Iff.rfl

@[simp] theorem wp_bind {Q : β → σ → Prop} (m : EStateM ε σ α) (f : α → EStateM ε σ β) :
    wp (m >>= f) Q E s ↔ wp m (fun a s' => wp (f a) Q E s') E s := by
  simp only [wp, bind, EStateM.bind]
  cases m s <;> rfl

@[simp] theorem wp_tryCatch (m : EStateM ε σ α) (h : ε → EStateM ε σ α) :
    wp (tryCatch m h) Q E s ↔ wp m Q (fun e s' => wp (h e) Q E s') s := by
  simp only [wp, tryCatch, tryCatchThe, MonadExceptOf.tryCatch]
  delta EStateM.tryCatch
  cases m s <;> rfl

theorem wp_ite {c : Prop} [Decidable c] {m n : EStateM ε σ α} :
    wp (if c then m else n) Q E s ↔ (c → wp m Q E s) ∧ (¬c → wp n Q E s) := by
  split <;> simp_all

/-- **Consequence.** -/
theorem wp_mono {Q' : α → σ → Prop} {E' : ε → σ → Prop} {m : EStateM ε σ α}
    (h : wp m Q E s) (hQ : ∀ a s', Q a s' → Q' a s') (hE : ∀ e s', E e s' → E' e s') :
    wp m Q' E' s := by
  simp only [wp] at h ⊢
  cases hm : m s <;> rw [hm] at h
  · exact hQ _ _ h
  · exact hE _ _ h

theorem wp_and {Q' : α → σ → Prop} {E' : ε → σ → Prop} {m : EStateM ε σ α}
    (h : wp m Q E s) (h' : wp m Q' E' s) :
    wp m (fun a t => Q a t ∧ Q' a t) (fun e t => E e t ∧ E' e t) s := by
  simp only [wp] at h h' ⊢
  cases hm : m s <;> rw [hm] at h h' <;> exact ⟨h, h'⟩

/-- **The loop rule**: what holds before the loop of no element, and what a round adds an element
to, holds after the loop of all. -/
theorem wp_forM {β : Type} {f : β → EStateM ε σ PUnit} {E : ε → σ → Prop} {l : List β}
    (I : List β → σ → Prop)
    (hround : ∀ pre b post s, l = pre ++ b :: post → I pre s →
      wp (f b) (fun _ => I (pre ++ [b])) E s) {s : σ} (h : I [] s) :
    wp (l.forM f) (fun _ => I l) E s := by
  -- by induction on what is left, for every part that is done
  suffices hrest : ∀ rest pre, l = pre ++ rest → ∀ s, I pre s →
      wp (rest.forM f) (fun _ => I l) E s from hrest l [] rfl s h
  intro rest
  induction rest with
  | nil =>
    intro pre hl s hs
    rw [List.append_nil] at hl
    exact hl ▸ hs
  | cons b rest ih =>
    intro pre hl s hs
    rw [show (b :: rest).forM f = f b >>= fun _ => rest.forM f from rfl, wp_bind]
    refine wp_mono (hround pre b rest s hl hs) (fun _ s' hs' => ?_) fun _ _ => id
    exact ih (pre ++ [b]) (by rw [hl, List.append_assoc]; rfl) s' hs'

theorem of_wp_ok {m : EStateM ε σ α} {a : α} {s' : σ} (h : wp m Q E s) (hm : m s = .ok a s') :
    Q a s' := by
  simpa only [wp, hm] using h

end Rules

/-- The state after `m`, however it ends. -/
def final (m : EStateM ε σ α) (s : σ) : σ :=
  match m s with
  | .ok _ s' => s'
  | .error _ s' => s'

/-- `m` returns. -/
def returns (m : EStateM ε σ α) (s : σ) : Bool :=
  match m s with
  | .ok _ _ => true
  | .error _ _ => false

theorem eq_ok_of_returns {m : EStateM ε σ PUnit} {s : σ} (h : returns m s = true) :
    m s = .ok ⟨⟩ (final m s) := by
  simp only [returns] at h
  simp only [final]
  cases hm : m s with
  | ok a s' => rfl
  | error e s' => simp [hm] at h

theorem final_of_wp {P : σ → Prop} {m : EStateM ε σ α} {s : σ}
    (h : wp m (fun _ => P) (fun _ => P) s) : P (final m s) := by
  simp only [wp] at h
  simp only [final]
  cases hm : m s <;> rw [hm] at h <;> exact h

/-! ### Requests -/

/-- How a request ends. One that has no answer may have been served all the same. -/
inductive Outcome
  | answered
  | unanswered (error : String)
  | unserved (error : String)
  deriving DecidableEq

namespace Outcome

def served : Outcome → Bool
  | unserved _ => false
  | _ => true

def error? : Outcome → Option String
  | answered => none
  | unanswered e | unserved e => some e

end Outcome

/-- Make a request that does `f`. -/
def request (o : Outcome) (f : σ → σ) : EStateM String σ Unit := fun s =>
  let s' := if o.served then f s else s
  match o.error? with
  | none => .ok () s'
  | some e => .error e s'

/-- A step that may fail and changes nothing. -/
def attempt (error : Option String) : EStateM String σ Unit :=
  match error with
  | none => pure ()
  | some e => throw e

section Requests

variable {Q : Unit → σ → Prop} {E : String → σ → Prop} {s : σ}

theorem wp_request {o : Outcome} {f : σ → σ} (hok : o = .answered → Q () (f s))
    (hlost : ∀ e, o = .unanswered e → E e (f s)) (hnot : ∀ e, o = .unserved e → E e s) :
    wp (request o f) Q E s := by
  cases o with
  | answered => exact hok rfl
  | unanswered e => exact hlost e rfl
  | unserved e => exact hnot e rfl

theorem wp_attempt {error : Option String} (hok : error = none → Q () s)
    (hfail : ∀ e, error = some e → E e s) : wp (attempt error) Q E s := by
  cases error with
  | none => exact hok rfl
  | some e => exact hfail e rfl

end Requests

/-- The **footprint** of a program: however a run of `m` ends, its final state is related
by `R` to its first. -/
def Within (R : σ → σ → Prop) (m : EStateM ε σ α) : Prop :=
  ∀ s, wp m (fun _ s' => R s s') (fun _ s' => R s s') s

namespace Within

variable {R : σ → σ → Prop} {m n : EStateM ε σ α}

protected theorem ite {c : Prop} [Decidable c] (hm : Within R m) (hn : Within R n) :
    Within R (if c then m else n) := by
  split
  · exact hm
  · exact hn

section Preorder

variable [IsPreorder σ R]

protected theorem pure (a : α) : Within R (pure a : EStateM ε σ α) :=
  fun s => refl_of R s

protected theorem throw (e : ε) : Within R (throw e : EStateM ε σ α) :=
  fun s => refl_of R s

protected theorem get : Within R (get : EStateM ε σ σ) :=
  fun s => refl_of R s

protected theorem bind {f : α → EStateM ε σ β} (hm : Within R m)
    (hf : ∀ a, Within R (f a)) : Within R (m >>= f) := by
  intro s
  rw [wp_bind]
  refine wp_mono (hm s) (fun a s' hs => ?_) (fun _ _ hs => hs)
  exact wp_mono (hf a s') (fun _ _ => trans_of R hs) (fun _ _ => trans_of R hs)

protected theorem tryCatch {h : ε → EStateM ε σ α} (hm : Within R m)
    (hh : ∀ e, Within R (h e)) : Within R (tryCatch m h) := by
  intro s
  rw [wp_tryCatch]
  refine wp_mono (hm s) (fun _ _ hs => hs) (fun e s' hs => ?_)
  exact wp_mono (hh e s') (fun _ _ => trans_of R hs) (fun _ _ => trans_of R hs)

end Preorder

end Within

/-- **Two programs end alike** from `s` and `t`: both return, in `Q`, or both throw, in `E`. -/
def Lockstep {ε' τ : Type} (m : EStateM ε σ α) (n : EStateM ε' τ β) (Q : α → β → σ → τ → Prop)
    (E : ε → ε' → σ → τ → Prop) (s : σ) (t : τ) : Prop :=
  match m s, n t with
  | .ok a s', .ok b t' => Q a b s' t'
  | .error e s', .error e' t' => E e e' s' t'
  | _, _ => False

namespace Lockstep

variable {ε' τ : Type} {m : EStateM ε σ α} {n : EStateM ε' τ β} {Q : α → β → σ → τ → Prop}
  {E : ε → ε' → σ → τ → Prop} {s s' : σ} {t t' : τ}

theorem of_ok {a : α} {b : β} (hm : m s = .ok a s') (hn : n t = .ok b t') (h : Q a b s' t') :
    Lockstep m n Q E s t := by
  simpa only [Lockstep, hm, hn] using h

theorem of_error {e : ε} {e' : ε'} (hm : m s = .error e s') (hn : n t = .error e' t')
    (h : E e e' s' t') : Lockstep m n Q E s t := by
  simpa only [Lockstep, hm, hn] using h

/-- **Consequence**, where they return. -/
theorem mono {Q' : α → β → σ → τ → Prop} (h : Lockstep m n Q E s t)
    (hQ : ∀ a b s' t', Q a b s' t' → Q' a b s' t') : Lockstep m n Q' E s t := by
  simp only [Lockstep] at h ⊢
  cases hm : m s <;> cases hn : n t <;> rw [hm, hn] at h
  · exact hQ _ _ _ _ h
  · exact h.elim
  · exact h.elim
  · exact h

/-- One after the other. -/
protected theorem bind {α' β' : Type} {f : α → EStateM ε σ α'} {g : β → EStateM ε' τ β'}
    {Q' : α' → β' → σ → τ → Prop} (h : Lockstep m n Q E s t)
    (hrest : ∀ a b s' t', Q a b s' t' → Lockstep (f a) (g b) Q' E s' t') :
    Lockstep (m >>= f) (n >>= g) Q' E s t := by
  simp only [Lockstep, bind, EStateM.bind] at h ⊢
  cases hm : m s <;> cases hn : n t <;> rw [hm, hn] at h
  · exact hrest _ _ _ _ h
  · exact h.elim
  · exact h.elim
  · exact h

end Lockstep

end Effect
