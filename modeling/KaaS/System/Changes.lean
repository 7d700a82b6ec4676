import KaaS.System.Calls

/-!
# Changes that get lost

A successful mutation changes its part of the row (a `Field`): the pools, an add-on with its
values, a disk, the target bundle. The change should stay until a later mutation changes the
same field, or a tick that had read it acts on it (`ChangesKept`), and no two mutations should
store the same generation, since that number is all the guard of the reconciler's write
compares.

Two overlapping calls break all of it at once: the later one stores the generation of the
earlier one and drops its change, and a tick that had read the first row passes the guard and
drops the second change too. If every call finds the generation it read (`Unmoved`), nothing is
lost (`changesKept_of_unmoved`): then a copy that carries the stored generation was read
after every change made so far.
-/

namespace KaaS

open Overlap

/-! ### Fields and changes -/

/-- The parts of the row that mutations change. -/
inductive Field
  | pools
  | addon (name : String)
  | disk (key : String × String)
  | target

/-- The rows have the same in this field. -/
def Agree : Field → Cluster → Cluster → Prop
  | .pools, c, c' => c.nodePools = c'.nodePools
  | .addon name, c, c' => c.addons.filter (·.name == name) = c'.addons.filter (·.name == name)
  | .disk key, c, c' => c.nodeDisks.filter (·.key == key) = c'.nodeDisks.filter (·.key == key)
  | .target, c, c' => c.targetBundle = c'.targetBundle

instance (fld : Field) (c c' : Cluster) : Decidable (Agree fld c c') := by
  cases fld <;> unfold Agree <;> infer_instance

theorem Agree.refl (fld : Field) (c : Cluster) : Agree fld c c := by
  cases fld <;> rfl

theorem Agree.trans {fld : Field} {c c' c'' : Cluster} (h : Agree fld c c')
    (h' : Agree fld c' c'') : Agree fld c c'' := by
  cases fld <;> exact Eq.trans h h'

def storedGenerations (log : RowHistory) : List ℕ :=
  log.filterMap fun
    | .wrote ⟨_, .caller _, _, _⟩ _ new => some new.generation
    | _ => none

/-- The entry changes the field: a mutation, or a tick that had read the first `n` entries. -/
def Supersedes (fld : Field) (n : ℕ) : RowEntry → Prop
  | .wrote ⟨_, .caller _, copy, _⟩ _ new => ¬Agree fld copy new
  | .wrote ⟨_, .worker _, copy, mark⟩ _ new => n ≤ mark ∧ ¬Agree fld copy new
  | .passed _ => False

instance (fld : Field) (n : ℕ) (e) : Decidable (Supersedes fld n e) := by
  rcases e with ⟨⟨_, _ | _, _, _⟩, _, _⟩ | _ <;> unfold Supersedes <;> infer_instance

/-- **A change is kept**: what the entry `n` back from the last changed in the field is in the
row, unless it was superseded since. -/
def Kept (fld : Field) (row : Cluster) (log : RowHistory) (n : ℕ) : Prop :=
  match log[n]? with
  | some (.wrote ⟨_, .caller _, copy, _⟩ _ new) =>
    Agree fld copy new ∨ Agree fld new row ∨
      ∃ e ∈ log.take n, Supersedes fld (log.length - n) e
  | _ => True

instance (fld : Field) (row : Cluster) (log : RowHistory) (n : ℕ) :
    Decidable (Kept fld row log n) := by
  unfold Kept
  rcases log[n]? with _ | ⟨⟨_, _ | _, _, _⟩, _, _⟩ | _ <;> infer_instance

structure ChangesKept (row : Cluster) (log : RowHistory) : Prop where
  generations : (storedGenerations log).Nodup
  kept : ∀ fld n, Kept fld row log n

/-- **Unmoved**: a call finds the generation it read. -/
def Unmoved (s : RowState) (f : RowFlight) : Prop :=
  match f.party with
  | .caller _ => f.copy.generation = s.row.generation
  | .worker _ => True

instance (s : RowState) (f : RowFlight) : Decidable (Unmoved s f) :=
  match f with
  | ⟨_, .worker _, _, _⟩ | ⟨_, .caller _, _, _⟩ => by unfold Unmoved; infer_instance

/-! ### Keeping changes -/

section Keeping

variable {fld : Field} {row c c' : Cluster} {log : RowHistory} {e : RowEntry}

/-- An entry further back than the new one: kept from `c` to `c'` if the field is the same, or
the new entry supersedes what it changed. -/
private theorem Kept.cons {n : ℕ} (h : Kept fld c log n)
    (hnew : (∃ f old new k, log[n]? = some (.wrote f old new) ∧ f.party = .caller k) →
      Agree fld c c' ∨ Supersedes fld (log.length - n) e) :
    Kept fld c' (e :: log) (n + 1) := by
  unfold Kept at h ⊢
  rw [List.getElem?_cons_succ]
  split at h
  · rename_i id k copy mark old new hn
    have hlen : (e :: log).length - (n + 1) = log.length - n := by
      rw [List.length_cons]
      omega
    rw [hlen, List.take_succ_cons, hn]
    rcases h with h | h | ⟨e', he', hs⟩
    · exact .inl h
    · rcases hnew ⟨_, _, _, k, hn, rfl⟩ with hagree | hsup
      · exact .inr (.inl (h.trans hagree))
      · exact .inr (.inr ⟨e, List.mem_cons_self, hsup⟩)
    · exact .inr (.inr ⟨e', List.mem_cons_of_mem _ he', hs⟩)
  · trivial

private theorem Kept.head (f : RowFlight) (old : Cluster) :
    Kept fld c (.wrote f old c :: log) 0 := by
  obtain ⟨id, party, copy, mark⟩ := f
  cases party with
  | worker => trivial
  | caller => exact .inr (.inl (Agree.refl fld c))

private def NotCaller (e : RowEntry) : Prop := storedGenerations [e] = []

private theorem NotCaller.kept_head (he : NotCaller e) : Kept fld c (e :: log) 0 := by
  rcases e with ⟨⟨id, party, copy, mark⟩, old, new⟩ | f
  · cases party with
    | worker => trivial
    | caller => simp [NotCaller, storedGenerations] at he
  · trivial

private theorem NotCaller.kept (he : NotCaller e) (h : ∀ fld n, Kept fld c log n) :
    ∀ fld n, Kept fld c (e :: log) n
  | _, 0 => he.kept_head
  | fld, n + 1 => (h fld n).cons fun _ => .inl (Agree.refl fld c)

/-! ### Generations -/

private theorem storedGenerations_since (f : RowFlight) (log : RowHistory) :
    storedGenerations log =
      storedGenerations (f.since log) ++ storedGenerations (f.before log) := by
  rw [storedGenerations, storedGenerations, storedGenerations, ← List.filterMap_append,
    f.since_append_before]

/-- The generation counts the mutations stored; none of them stored a later one; and what
they changed is kept. -/
private structure ChangesInv (g₀ : ℕ) (c : Cluster) (log : RowHistory) : Prop where
  generation : c.generation = g₀ + (storedGenerations log).length
  le : ∀ g ∈ storedGenerations log, g ≤ g₀ + (storedGenerations log).length
  kept : ChangesKept c log

private theorem ChangesInv.notCaller_since {g₀ : ℕ} {f : RowFlight} (hrow : ChangesInv g₀ row log)
    (hcopy : ChangesInv g₀ f.copy (f.before log)) (hgen : f.copy.generation = row.generation) :
    ∀ e ∈ f.since log, NotCaller e := by
  have hlen : (storedGenerations (f.since log)).length = 0 := by
    have hsplit := congrArg List.length (storedGenerations_since f log)
    rw [List.length_append] at hsplit
    have := hrow.generation
    have := hcopy.generation
    omega
  rw [List.length_eq_zero_iff, storedGenerations, List.filterMap_eq_nil_iff] at hlen
  intro e he
  simp [NotCaller, storedGenerations, hlen e he]

/-- What was kept in a copy that carries the stored generation is kept now. -/
private theorem ChangesInv.kept_copy {g₀ : ℕ} {f : RowFlight} (hrow : ChangesInv g₀ row log)
    (hcopy : ChangesInv g₀ f.copy (f.before log)) (hgen : f.copy.generation = row.generation) :
    ∀ fld n, Kept fld f.copy log n :=
  Flight.now (p := fun log => ∀ fld n, Kept fld f.copy log n) (fun _ _ he h => he.kept h)
    (hrow.notCaller_since hcopy hgen) hcopy.kept.kept

private theorem ChangesInv.read_of_caller {g₀ : ℕ} {f g : RowFlight} {old new : Cluster} {n : ℕ}
    {k : Admission × Mutation} (hrow : ChangesInv g₀ row log)
    (hcopy : ChangesInv g₀ f.copy (f.before log)) (hgen : f.copy.generation = row.generation)
    (hn : log[n]? = some (.wrote g old new)) (hg : g.party = .caller k) :
    log.length - n ≤ f.mark := by
  by_contra hlate
  have hmem : (f.since log)[n]? = some (.wrote g old new) := by
    rw [Flight.since, List.getElem?_take, if_pos (by omega), hn]
  have hnot := hrow.notCaller_since hcopy hgen _ (List.mem_of_getElem? hmem)
  obtain ⟨id, party, copy, mark⟩ := g
  obtain rfl : party = .caller k := hg
  simp [NotCaller, storedGenerations] at hnot

private theorem ChangesInv.wrote_tick {g₀ : ℕ} {f : RowFlight} {ρ : Env}
    (hrow : ChangesInv g₀ row log) (hcopy : ChangesInv g₀ f.copy (f.before log))
    (hgen : f.copy.generation = row.generation) (hparty : f.party = .worker ρ)
    (hc : c.generation = f.copy.generation) : ChangesInv g₀ c (.wrote f row c :: log) := by
  have hkept := hrow.kept_copy hcopy hgen
  obtain ⟨id, party, copy, mark⟩ := f
  obtain rfl : party = .worker ρ := hparty
  refine ⟨(hc.trans hgen).trans hrow.generation, hrow.le, hrow.kept.generations, fun fld n => ?_⟩
  cases n with
  | zero => exact Kept.head _ _
  | succ n =>
    refine (hkept fld n).cons ?_
    rintro ⟨g, old, new, k, hn, hg⟩
    by_cases hagree : Agree fld copy c
    · exact .inl hagree
    · exact .inr ⟨hrow.read_of_caller hcopy hgen hn hg, hagree⟩

private theorem ChangesInv.wrote_call {g₀ : ℕ} {f : RowFlight} {k : Admission × Mutation}
    (hrow : ChangesInv g₀ row log) (hcopy : ChangesInv g₀ f.copy (f.before log))
    (hgen : f.copy.generation = row.generation) (hparty : f.party = .caller k)
    (hc : c.generation = f.copy.generation + 1) : ChangesInv g₀ c (.wrote f row c :: log) := by
  have hkept := hrow.kept_copy hcopy hgen
  obtain ⟨id, party, copy, mark⟩ := f
  obtain rfl : party = .caller k := hparty
  have hstored : storedGenerations (.wrote ⟨id, .caller k, copy, mark⟩ row c :: log) =
      c.generation :: storedGenerations log := rfl
  have hnext : c.generation = g₀ + (storedGenerations log).length + 1 := by
    rw [hc, hgen, hrow.generation]
  refine ⟨by rw [hstored, List.length_cons]; omega, ?_, ?_, fun fld n => ?_⟩
  · rw [hstored, List.length_cons]
    intro g hg
    rcases List.mem_cons.mp hg with rfl | hg
    · omega
    · have := hrow.le g hg
      omega
  · rw [hstored, List.nodup_cons]
    refine ⟨fun hmem => ?_, hrow.kept.generations⟩
    have := hrow.le _ hmem
    omega
  · cases n with
    | zero => exact Kept.head _ _
    | succ n =>
      refine (hkept fld n).cons fun _ => ?_
      by_cases hagree : Agree fld copy c
      · exact .inl hagree
      · exact .inr hagree

end Keeping

/-- **Nothing is lost** in a run in which every call finds the generation it read: no two
mutations store the same generation, and a change stays until a later mutation of the same
field, or a tick that had read it, acts on it. -/
theorem changesKept_of_unmoved (P : Platform) (c : Cluster) (is : Platform.Schedule)
    (h : P.CommitsAlong Unmoved c is) :
    ChangesKept (P.overlap c is).row (P.overlap c is).log := by
  have hinv : ChangesInv c.generation (P.overlap c is).row (P.overlap c is).log := by
    refine Overlap.Protocol.run_invariant (C := Unmoved) ?_ ?_ ?_ h
    · intro s f c' hrow _ hcopy hcond hattempt
      cases wrote_of_attempt hattempt with
      | tick ρ evs hparty hversion hstep =>
        exact hrow.wrote_tick hcopy hversion hparty hstep.sameDesire.generation
      | call k hparty hedit =>
        simp only [Unmoved, hparty] at hcond
        exact hrow.wrote_call hcopy hcond hparty hedit.generation
    · intro s f hrow _ _ _ _
      have hnot : NotCaller (.passed f : RowEntry) := rfl
      exact ⟨hrow.generation, hrow.le, hrow.kept.generations, hnot.kept hrow.kept.kept⟩
    · exact ⟨rfl, by simp [storedGenerations], by simp [storedGenerations], fun _ _ => trivial⟩
  exact hinv.kept

/-- The calls and ticks of a run in which nothing overlaps. -/
def alone (id : ℕ) (party : RowParty) : Platform.Schedule := [.read id party, .commit id]

def bringUpSchedule : Platform.Schedule := (List.replicate 6 (alone 0 (.worker {}))).flatten

/-- A disk and a promotion, one after the other, on a running cluster. -/
def diskThenPromotion : Platform.Schedule :=
  bringUpSchedule ++ alone 1 (.caller ({}, .addNodeDisk demoDisk)) ++
    alone 2 (.caller ({}, .promoteCluster "r2"))

theorem changesKept_diskThenPromotion :
    rollingPlatform.CommitsAlong Unmoved demoCluster diskThenPromotion ∧
    (rollingPlatform.overlap demoCluster diskThenPromotion).row.generation = 3 ∧
    ChangesKept (rollingPlatform.overlap demoCluster diskThenPromotion).row
      (rollingPlatform.overlap demoCluster diskThenPromotion).log := by
  have hcond : rollingPlatform.CommitsAlong Unmoved demoCluster diskThenPromotion := by
    decide +kernel
  exact ⟨hcond, by decide +kernel,
    changesKept_of_unmoved rollingPlatform demoCluster diskThenPromotion hcond⟩

/-- The same two, overlapping, with a tick that reads between the writes. -/
def diskDuringPromotion : Platform.Schedule :=
  bringUpSchedule ++ calls 1 (.promoteCluster "r2") ++
    alone 2 (.caller ({}, .addNodeDisk demoDisk)) ++ ticks 3 ++ commits 1

/-- The promotion stores the generation of the disk and drops it; the tick then passes the
guard and drops the promotion. -/
theorem changes_lost :
    Created rollingPlatform.app.catalog demoCluster ∧
    storedGenerations (rollingPlatform.overlap demoCluster diskDuringPromotion).log = [2, 2] ∧
    ¬ChangesKept (rollingPlatform.overlap demoCluster diskDuringPromotion).row
      (rollingPlatform.overlap demoCluster diskDuringPromotion).log ∧
    ¬Kept .target (rollingPlatform.overlap demoCluster (diskDuringPromotion ++ commits 3)).row
      (rollingPlatform.overlap demoCluster (diskDuringPromotion ++ commits 3)).log 1 := by
  have hgens : storedGenerations (rollingPlatform.overlap demoCluster diskDuringPromotion).log =
      [2, 2] := by decide +kernel
  have hdisk : ¬Kept (.disk ("demo-default-0", "data"))
      (rollingPlatform.overlap demoCluster diskDuringPromotion).row
      (rollingPlatform.overlap demoCluster diskDuringPromotion).log 1 := by decide +kernel
  exact ⟨created_demoCluster _ _, hgens, fun h => hdisk (h.kept _ 1), by decide +kernel⟩

end KaaS
