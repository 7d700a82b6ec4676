import KaaS.Library.Run
import Mathlib.Order.Nat

/-!
# A guarded worker among blind writers

One row is shared by a **worker** and by **writers**. The worker reads the row, works on its
copy, acting on the outside meanwhile, and in the end writes the copy back **unless the
version of the row has moved**. A writer replaces the row in one step and moves its version.
The worker may also die before its write.

A run is recorded in a history, latest entry first: what the worker did, with the row it had
read, and every change of the row. `Each Q log` says that `Q` holds of every entry against
the history before it, and `Protocol.run_invariant` reduces an invariant of the row and the
history over all runs to what one tick of the worker and one write preserve.
-/

namespace Optimistic

variable {σ ω ι κ : Type}

/-! ### Histories -/

inductive Entry (σ ω : Type)
  /-- The worker did `event`, having read `row`. -/
  | did (row : σ) (event : ω)
  /-- The worker's copy `new` replaced `old`. -/
  | stored (old new : σ)
  /-- A writer replaced `old` by `new`. -/
  | written (old new : σ)

/-- The history after the worker did `events`, one after the other, having read `row`. -/
def push (row : σ) (events : List ω) (log : List (Entry σ ω)) : List (Entry σ ω) :=
  events.foldl (fun log e => .did row e :: log) log

@[simp] theorem push_nil (row : σ) (log : List (Entry σ ω)) : push row [] log = log := rfl

@[simp] theorem push_cons (row : σ) (e : ω) (es : List ω) (log : List (Entry σ ω)) :
    push row (e :: es) log = push row es (.did row e :: log) := rfl

theorem push_append (row : σ) (es fs : List ω) (log : List (Entry σ ω)) :
    push row (es ++ fs) log = push row fs (push row es log) := List.foldl_append

theorem mem_push {row : σ} {es : List ω} {log : List (Entry σ ω)} {x : Entry σ ω} :
    x ∈ push row es log ↔ (∃ e ∈ es, x = .did row e) ∨ x ∈ log := by
  induction es generalizing log with
  | nil => simp
  | cons e es ih =>
    rw [push_cons, ih, List.mem_cons, List.exists_mem_cons_iff, or_left_comm, or_assoc]

/-- `Q` holds of every entry of the history, against what came before it. -/
def Each (Q : Entry σ ω → List (Entry σ ω) → Prop) : List (Entry σ ω) → Prop
  | [] => True
  | e :: log => Q e log ∧ Each Q log

instance Each.decidable (Q : Entry σ ω → List (Entry σ ω) → Prop) [∀ e log, Decidable (Q e log)] :
    ∀ log, Decidable (Each Q log)
  | [] => inferInstanceAs (Decidable True)
  | e :: log =>
    haveI := Each.decidable Q log
    inferInstanceAs (Decidable (Q e log ∧ Each Q log))

theorem each_iff {Q : Entry σ ω → List (Entry σ ω) → Prop} {log : List (Entry σ ω)} :
    Each Q log ↔ ∀ later e earlier, log = later ++ e :: earlier → Q e earlier := by
  induction log with
  | nil => simp [Each]
  | cons a log ih =>
    constructor
    · rintro ⟨ha, hlog⟩ later e earlier heq
      rcases List.cons_eq_append_iff.mp heq with ⟨rfl, h⟩ | ⟨later', rfl, h⟩
      · obtain ⟨rfl, rfl⟩ := List.cons.inj h
        exact ha
      · exact ih.mp hlog later' e earlier h
    · intro h
      refine ⟨h [] a log rfl, ih.mpr fun later e earlier heq => ?_⟩
      exact h (a :: later) e earlier (by rw [heq, List.cons_append])

/-! ### The protocol -/

/-- The two kinds of parties: `work` is what the worker wants to write back and what it does
on the way, `write` is what a writer stores, if it stores anything. -/
structure Protocol (σ ω ι κ : Type) where
  version : σ → ℕ
  work : ι → σ → Option σ × List ω
  write : κ → σ → Option σ

structure State (σ ω : Type) where
  row : σ
  /-- The copy the worker has yet to write back. -/
  copy : Option σ := none
  log : List (Entry σ ω) := []

inductive Input (ι κ : Type)
  /-- The worker reads and works; nothing if it is already at it. -/
  | tick (i : ι)
  /-- The worker writes back what it has, unless superseded. -/
  | finish
  /-- The worker dies. -/
  | abandon
  | write (k : κ)

namespace Protocol

variable (p : Protocol σ ω ι κ)

def finish (s : State σ ω) : State σ ω :=
  match s.copy with
  | none => s
  | some c =>
    if p.version c = p.version s.row then
      { row := c, copy := none, log := .stored s.row c :: s.log }
    else { s with copy := none }

def step (s : State σ ω) : Input ι κ → State σ ω
  | .tick i =>
    if s.copy.isSome then s
    else { s with copy := (p.work i s.row).1, log := push s.row (p.work i s.row).2 s.log }
  | .finish => p.finish s
  | .abandon => { s with copy := none }
  | .write k =>
    match p.write k s.row with
    | none => s
    | some c => { s with row := c, log := .written s.row c :: s.log }

/-- **Writers move the version.** -/
def Moves : Prop := ∀ k c c', p.write k c = some c' → p.version c < p.version c'

/-- **The worker does not.** -/
def Keeps : Prop := ∀ i c c', (p.work i c).1 = some c' → p.version c' = p.version c

variable {p} {P : σ → List (Entry σ ω) → Prop} {C : State σ ω → Input ι κ → Prop}

/-- The invariant with what the worker's pending copy needs: it is old news, or storing it now
would be right. -/
private def Pending (p : Protocol σ ω ι κ) (P : σ → List (Entry σ ω) → Prop) (s : State σ ω) :
    Prop :=
  P s.row s.log ∧ ∀ c, s.copy = some c → p.version c ≤ p.version s.row ∧
    (p.version c = p.version s.row → P c (.stored s.row c :: s.log))

/-- **The invariant rule of the protocol.** An invariant of row and history has to survive a
tick, with the row as it is and with the copy stored, and a write. -/
theorem run_invariant (hmoves : p.Moves) (hkeeps : p.Keeps)
    (htick : ∀ s i, P s.row s.log → s.copy = none → C s (.tick i) →
      P s.row (push s.row (p.work i s.row).2 s.log) ∧
      ∀ c, (p.work i s.row).1 = some c →
        P c (.stored s.row c :: push s.row (p.work i s.row).2 s.log))
    (hwrite : ∀ s k c, P s.row s.log → C s (.write k) → p.write k s.row = some c →
      P c (.written s.row c :: s.log))
    {s : State σ ω} {is : List (Input ι κ)} (h : P s.row s.log) (hidle : s.copy = none)
    (hC : TransitionSystem.Along p.step C s is) :
    P (TransitionSystem.run p.step s is).row (TransitionSystem.run p.step s is).log := by
  have hinit : Pending p P s := ⟨h, by simp [hidle]⟩
  refine (TransitionSystem.run_invariant (I := Pending p P) ?_ hinit hC).1
  rintro s i ⟨hP, hcopy⟩ hCi
  cases i with
  | tick i =>
    simp only [step]
    split
    · exact ⟨hP, hcopy⟩
    · rename_i hnone
      rw [Bool.not_eq_true, Option.isSome_eq_false_iff, Option.isNone_iff_eq_none] at hnone
      obtain ⟨hrow, hstored⟩ := htick s i hP hnone hCi
      exact ⟨hrow, fun c hc => ⟨(hkeeps i s.row c hc).le, fun _ => hstored c hc⟩⟩
  | finish =>
    simp only [step, finish]
    split
    · exact ⟨hP, hcopy⟩
    · rename_i c hc
      split
      · rename_i hversion
        exact ⟨(hcopy c hc).2 hversion, by simp⟩
      · exact ⟨hP, by simp⟩
  | abandon => exact ⟨hP, by simp [step]⟩
  | write k =>
    simp only [step]
    split
    · exact ⟨hP, hcopy⟩
    · rename_i c' hc'
      refine ⟨hwrite s k c' hP hCi hc', fun c hc => ?_⟩
      -- the version has moved past every copy made before
      have hlt := (hcopy c hc).1.trans_lt (hmoves k s.row c' hc')
      exact ⟨hlt.le, fun heq => absurd heq hlt.ne⟩

end Protocol

end Optimistic
