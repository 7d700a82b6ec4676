import KaaS.Library.Effect
import Mathlib.Data.List.Basic

/-!
# Accounts of programs

A program works on a copy of something and records events. Its **account** says what a run can
come to: from which copy, whether it returned, with which copy and with which events in
between. Accounts leave out what a later argument does not need, the values passed on and the
events nobody asks about, and they compose: the account of `m >>= f` is that of `m` and, if it
returned, that of `f` after it (`Accounts.bind`).

What a program preserves is then read off its account, part by part.
-/

namespace Effect

variable {ε σ γ ω α β : Type}

/-- `A c ok c' es`: a run from the copy `c` may return or fail, as `ok` says, with the copy `c'`
and having recorded `es`. -/
abbrev Account (γ ω : Type) := γ → Bool → γ → List ω → Prop

namespace Account

variable {A B : Account γ ω}

/-- One part after the other; the second only if the first returned. -/
inductive Then (A B : Account γ ω) (c : γ) : Bool → γ → List ω → Prop
  | stopped {c' : γ} {es : List ω} (h : A c false c' es) : Then A B c false c' es
  | both {c₁ c' : γ} {ok : Bool} {es fs : List ω} (h : A c true c₁ es) (h' : B c₁ ok c' fs) :
      Then A B c ok c' (es ++ fs)

/-- The second part takes over where the first fails. -/
inductive Catch (A B : Account γ ω) (c : γ) : Bool → γ → List ω → Prop
  | returned {c' : γ} {es : List ω} (h : A c true c' es) : Catch A B c true c' es
  | caught {c₁ c' : γ} {ok : Bool} {es fs : List ω} (h : A c false c₁ es) (h' : B c₁ ok c' fs) :
      Catch A B c ok c' (es ++ fs)

/-- The copy is changed and nothing else happens. -/
inductive Sets (f : γ → γ) (c : γ) : Bool → γ → List ω → Prop
  | set : Sets f c true (f c) []

inductive Fails (c : γ) : Bool → γ → List ω → Prop
  | failed : Fails c false c []

/-- Nothing happens; the part may fail. -/
inductive Idle (c : γ) : Bool → γ → List ω → Prop
  | idle (ok : Bool) : Idle c ok c []

end Account

/-! ### Programs and their accounts -/

section Accounts

variable (copy : σ → γ) (events : σ → List ω)

/-- The run of `m` from `s` is among those of the account `A`. -/
def AccountsAt (m : EStateM ε σ α) (A : Account γ ω) (s : σ) : Prop :=
  wp m (fun _ t => ∃ es, A (copy s) true (copy t) es ∧ events t = events s ++ es)
    (fun _ t => ∃ es, A (copy s) false (copy t) es ∧ events t = events s ++ es) s

/-- Every run of `m` is among those of the account `A`. -/
def Accounts (m : EStateM ε σ α) (A : Account γ ω) : Prop :=
  ∀ s, AccountsAt copy events m A s

variable {copy events} {m : EStateM ε σ α} {A A' B : Account γ ω}

theorem AccountsAt.mono {s : σ} (h : AccountsAt copy events m A s)
    (hA : ∀ ok c' es, A (copy s) ok c' es → A' (copy s) ok c' es) :
    AccountsAt copy events m A' s :=
  wp_mono h (fun _ _ ⟨es, hes, ht⟩ => ⟨es, hA _ _ _ hes, ht⟩)
    (fun _ _ ⟨es, hes, ht⟩ => ⟨es, hA _ _ _ hes, ht⟩)

/-- **Composition.** -/
theorem AccountsAt.bind {f : α → EStateM ε σ β} {s : σ} (hm : AccountsAt copy events m A s)
    (hf : ∀ a, Accounts copy events (f a) B) :
    AccountsAt copy events (m >>= f) (A.Then B) s := by
  unfold AccountsAt
  rw [wp_bind]
  refine wp_mono hm (fun a t ⟨es, hes, ht⟩ => ?_) (fun _ _ ⟨es, hes, ht⟩ => ?_)
  · refine wp_mono (hf a t) (fun _ u ⟨fs, hfs, hu⟩ => ?_) (fun _ u ⟨fs, hfs, hu⟩ => ?_)
    · exact ⟨es ++ fs, .both hes hfs, by rw [hu, ht, List.append_assoc]⟩
    · exact ⟨es ++ fs, .both hes hfs, by rw [hu, ht, List.append_assoc]⟩
  · exact ⟨es, .stopped hes, ht⟩

theorem Accounts.bind {f : α → EStateM ε σ β} (hm : Accounts copy events m A)
    (hf : ∀ a, Accounts copy events (f a) B) : Accounts copy events (m >>= f) (A.Then B) :=
  fun s => (hm s).bind hf

theorem Accounts.tryCatch {h : ε → EStateM ε σ α} (hm : Accounts copy events m A)
    (hh : ∀ e, Accounts copy events (h e) B) :
    Accounts copy events (tryCatch m h) (A.Catch B) := by
  intro s
  unfold AccountsAt
  rw [wp_tryCatch]
  refine wp_mono (hm s) (fun _ _ ⟨es, hes, ht⟩ => ⟨es, .returned hes, ht⟩)
    (fun e t ⟨es, hes, ht⟩ => ?_)
  refine wp_mono (hh e t) (fun _ u ⟨fs, hfs, hu⟩ => ?_) (fun _ u ⟨fs, hfs, hu⟩ => ?_)
  · exact ⟨es ++ fs, .caught hes hfs, by rw [hu, ht, List.append_assoc]⟩
  · exact ⟨es ++ fs, .caught hes hfs, by rw [hu, ht, List.append_assoc]⟩

end Accounts

/-! ### What a part records and leaves alone -/

namespace Account

variable {δ : Type} {A B : Account γ ω} {p : ω → Prop} {f : γ → δ}

/-- Every event of the part has `p`. -/
def Only (p : ω → Prop) (A : Account γ ω) : Prop :=
  ∀ ⦃c ok c' es⦄, A c ok c' es → ∀ e ∈ es, p e

/-- The part leaves `f` of the copy as it was. -/
def Leaves (f : γ → δ) (A : Account γ ω) : Prop := ∀ ⦃c ok c' es⦄, A c ok c' es → f c' = f c

theorem Only.after (hA : Only p A) (hB : Only p B) : Only p (A.Then B) := by
  rintro c ok c' es (h | ⟨h, h'⟩) e he
  · exact hA h e he
  · exact (List.mem_append.mp he).elim (hA h e) (hB h' e)

theorem Only.sets {g : γ → γ} : Only p (Sets g) := by
  rintro c ok c' es ⟨⟩
  simp

theorem Only.idle : Only p (Idle : Account γ ω) := by
  rintro c ok c' es ⟨⟩
  simp

theorem Leaves.after (hA : Leaves f A) (hB : Leaves f B) : Leaves f (A.Then B) := by
  rintro c ok c' es (h | ⟨h, h'⟩)
  · exact hA h
  · exact (hB h').trans (hA h)

theorem Leaves.idle : Leaves f (Idle : Account γ ω) := by
  rintro c ok c' es ⟨⟩
  rfl

theorem Leaves.sets {g : γ → γ} (h : ∀ c, f (g c) = f c) :
    Leaves f (Sets g : Account γ ω) := by
  rintro c ok c' es ⟨⟩
  exact h c

end Account

end Effect
