import KaaS.Library.Run

/-!
# Overlapping reads and writes of one row

Any number of parties share one row. Each **reads** it whole and later **commits** what it
has made of its copy. A *caller* commits blindly: it replaces the row whatever it has become
meanwhile. A *worker* commits under a guard: its copy is refused once the version of the row
has moved. Callers that take the lock exclude each other from read to commit, and a party
may die in between.

The history holds what was committed, latest entry first, and splits for each party in flight into
what came `before` its read and what came `since`. Every copy in flight was once the row, so an
invariant of the row and the history holds of the copy and the history before its read
(`Protocol.run_invariant`); what carries it over to the present is that the entries since then
do not disturb it (`Flight.now`).
-/

namespace Overlap

variable {σ ι κ : Type}

/-! ### Parties and histories -/

inductive Party (ι κ : Type)
  | worker (i : ι)
  | caller (k : κ)

/-- A party between its read and its commit. -/
structure Flight (σ ι κ : Type) where
  id : ℕ
  party : Party ι κ
  /-- The row it read. -/
  copy : σ
  /-- How long the history was when it read. -/
  mark : ℕ

inductive Entry (σ ι κ : Type)
  /-- The party replaced `old` by `new`. -/
  | wrote (f : Flight σ ι κ) (old new : σ)
  /-- The caller succeeded without writing. -/
  | passed (f : Flight σ ι κ)

abbrev History (σ ι κ : Type) := List (Entry σ ι κ)

namespace Flight

variable (f : Flight σ ι κ) (log : History σ ι κ)

def since : History σ ι κ := log.take (log.length - f.mark)

/-- The history the party read after. -/
def before : History σ ι κ := log.drop (log.length - f.mark)

theorem since_append_before : f.since log ++ f.before log = log := List.take_append_drop _ _

variable {f log}

theorem before_cons (h : f.mark ≤ log.length) (e : Entry σ ι κ) :
    f.before (e :: log) = f.before log := by
  rw [before, before, List.length_cons, Nat.succ_sub h, List.drop_succ_cons]

/-- **Still true now**: what held of the history before the read holds of the whole, if no entry
since then disturbs it. -/
theorem now {p : History σ ι κ → Prop} {ok : Entry σ ι κ → Prop}
    (hkeep : ∀ e log, ok e → p log → p (e :: log)) (hok : ∀ e ∈ f.since log, ok e)
    (h : p (f.before log)) : p log := by
  have hgrow : ∀ l : History σ ι κ, (∀ e ∈ l, ok e) → p (l ++ f.before log) := by
    intro l
    induction l with
    | nil => exact fun _ => h
    | cons e l ih =>
      intro hl
      obtain ⟨he, hl⟩ := List.forall_mem_cons.mp hl
      exact hkeep e _ he (ih hl)
  have hall := hgrow (f.since log) hok
  rwa [since_append_before] at hall

end Flight

/-! ### The protocol -/

/-- What the parties make of their copies. A caller is refused, succeeds without a write, or
has a row to write. -/
structure Protocol (σ ι κ : Type) where
  version : σ → ℕ
  work : ι → σ → Option σ
  locks : κ → Bool
  apply : κ → σ → Option (Option σ)

structure State (σ ι κ : Type) where
  row : σ
  flights : List (Flight σ ι κ) := []
  log : History σ ι κ := []

inductive Input (ι κ : Type)
  | read (id : ℕ) (party : Party ι κ)
  | commit (id : ℕ)
  | abandon (id : ℕ)

namespace State

variable (s : State σ ι κ)

def flight (id : ℕ) : Option (Flight σ ι κ) := s.flights.find? (·.id == id)

def land (id : ℕ) : State σ ι κ := { s with flights := s.flights.filter (·.id != id) }

end State

namespace Protocol

variable (p : Protocol σ ι κ)

def holdsLock : Party ι κ → Bool
  | .worker _ => false
  | .caller k => p.locks k

/-- What a commit comes to, when the row is `row`. -/
def attempt (row : σ) (f : Flight σ ι κ) : Option (Option σ) :=
  match f.party with
  | .caller k => p.apply k f.copy
  | .worker i => ((p.work i f.copy).filter fun c => p.version c = p.version row).map some

def commit (s : State σ ι κ) (f : Flight σ ι κ) : State σ ι κ :=
  match p.attempt s.row f with
  | none => s
  | some none => { s with log := .passed f :: s.log }
  | some (some c) => { s with row := c, log := .wrote f s.row c :: s.log }

def step (s : State σ ι κ) : Input ι κ → State σ ι κ
  | .read id party =>
    -- the number is taken, or the lock is
    if (s.flight id).isSome ||
        p.holdsLock party && s.flights.any fun f => p.holdsLock f.party then s
    else { s with flights := ⟨id, party, s.row, s.log.length⟩ :: s.flights }
  | .commit id =>
    match s.flight id with
    | none => s
    | some f => p.commit (s.land id) f
  | .abandon id => s.land id

/-- The condition `C` at every commit of the run. -/
def Commits (C : State σ ι κ → Flight σ ι κ → Prop) (s : State σ ι κ) : Input ι κ → Prop
  | .commit id => ∀ f, s.flight id = some f → C s f
  | _ => True

instance (C : State σ ι κ → Flight σ ι κ → Prop) [∀ s f, Decidable (C s f)] (s : State σ ι κ) :
    ∀ i, Decidable (Commits C s i)
  | .commit id =>
    match h : s.flight id with
    | none => isTrue (by simp [Commits, h])
    | some f => decidable_of_iff (C s f) (by simp [Commits, h])
  | .read _ _ | .abandon _ => inferInstanceAs (Decidable True)

/-! ### The invariant rule -/

variable {p} {I : σ → History σ ι κ → Prop} {C : State σ ι κ → Flight σ ι κ → Prop}

/-- The invariant holds of the row now, and of every copy before its read. -/
private def Holds (I : σ → History σ ι κ → Prop) (s : State σ ι κ) : Prop :=
  I s.row s.log ∧ ∀ f ∈ s.flights, f.mark ≤ s.log.length ∧ I f.copy (f.before s.log)

private theorem Holds.land {s : State σ ι κ} (h : Holds I s) (id : ℕ) : Holds I (s.land id) :=
  ⟨h.1, fun f hf => h.2 f (List.mem_filter.mp hf).1⟩

private theorem Holds.push {s : State σ ι κ} (h : Holds I s) {c : σ} {e : Entry σ ι κ}
    (hc : I c (e :: s.log)) : Holds I { s with row := c, log := e :: s.log } := by
  refine ⟨hc, fun f hf => ?_⟩
  obtain ⟨hmark, hcopy⟩ := h.2 f hf
  refine ⟨by simp only [List.length_cons]; omega, ?_⟩
  rwa [Flight.before_cons hmark]

/-- **The invariant rule.** An invariant of row and history has to survive a write, and a
success without one, given that it held of the committing party's copy when that was read. -/
theorem run_invariant
    (hwrote : ∀ s f c, I s.row s.log → f.mark ≤ s.log.length → I f.copy (f.before s.log) →
      C s f → p.attempt s.row f = some (some c) → I c (.wrote f s.row c :: s.log))
    (hpassed : ∀ s f, I s.row s.log → f.mark ≤ s.log.length → I f.copy (f.before s.log) →
      C s f → p.attempt s.row f = some none → I s.row (.passed f :: s.log))
    {row : σ} {is : List (Input ι κ)} (h : I row [])
    (hC : TransitionSystem.Along p.step (Commits C) { row := row } is) :
    I (TransitionSystem.run p.step { row := row } is).row
      (TransitionSystem.run p.step { row := row } is).log := by
  have hinit : Holds I ({ row := row } : State σ ι κ) := ⟨h, by simp⟩
  refine (TransitionSystem.run_invariant (I := Holds I) ?_ hinit hC).1
  intro s i hs hCi
  cases i with
  | read id party =>
    simp only [step]
    split
    · exact hs
    · refine ⟨hs.1, List.forall_mem_cons.mpr ⟨⟨Nat.le_refl _, ?_⟩, hs.2⟩⟩
      simpa [Flight.before] using hs.1
  | commit id =>
    simp only [step]
    split
    · exact hs
    · rename_i f hf
      obtain ⟨hmark, hcopy⟩ := hs.2 f (List.mem_of_find?_eq_some hf)
      have hcond := hCi f hf
      simp only [commit]
      split
      · exact hs.land id
      · exact (hs.land id).push (hpassed s f hs.1 hmark hcopy hcond ‹_›)
      · exact (hs.land id).push (hwrote s f _ hs.1 hmark hcopy hcond ‹_›)
  | abandon id => exact hs.land id

theorem along_of_commits (hC : ∀ s f, C s f) (s : State σ ι κ) (is : List (Input ι κ)) :
    TransitionSystem.Along p.step (Commits C) s is := by
  induction is generalizing s with
  | nil => trivial
  | cons i is ih =>
    refine ⟨?_, ih _⟩
    cases i with
    | commit id => exact fun f _ => hC s f
    | read id party => trivial
    | abandon id => trivial

/-- **Invariants of the row alone**: what holds of the copies has to hold of what is made of
them. -/
theorem row_invariant {J : σ → Prop}
    (hwrote : ∀ s f c, J f.copy → C s f → p.attempt s.row f = some (some c) → J c) {row : σ}
    {is : List (Input ι κ)} (h : J row)
    (hC : TransitionSystem.Along p.step (Commits C) { row := row } is) :
    J (TransitionSystem.run p.step { row := row } is).row := by
  refine run_invariant (I := fun c _ => J c) ?_ ?_ h hC
  · exact fun s f c _ _ hcopy hcond hattempt => hwrote s f c hcopy hcond hattempt
  · exact fun s f hrow _ _ _ _ => hrow

end Protocol

end Overlap
