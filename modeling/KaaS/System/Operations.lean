import KaaS.System.Calls

/-!
# The action history of a cluster

A mutation writes twice: first the row, then, without the lock, an **operation** for the history,
in progress at the generation it stored. The tick that brings the row to that generation stores the
row as well and then **sweeps**: it completes every operation up to there. Nothing else completes
one, so an operation is left behind if its call comes to write it only after the sweep that was
meant for it.

A row that is ready at its generation was stored by a tick, since every mutation opens a generation,
and that tick sweeps afterwards. So the sweep closes all there is, unless a call is between its two
writes (`operations_closed`).
-/

namespace KaaS

open Overlap Text

/-! ### Operations -/

/-- These close themselves. -/
def OperationKind.sweepExempt : OperationKind → Bool
  | .ssh | .repair | .restore | .snapshot | .certRenewal | .defrag => true
  | .create | .scale | .addons | .upgrade | .disks => false

inductive OperationStatus
  | inProgress | completed
  deriving DecidableEq

structure Operation where
  kind : OperationKind
  summary : String
  generation : Nat := 0
  status : OperationStatus := .inProgress
  deriving DecidableEq

/-- What a mutation that read `c` records once it has stored its row. -/
def App.operations (a : App) (adm : Admission) (c : Cluster) : Mutation → List PendingOp
  | .updateCluster req =>
    match applyUpdate a adm c req with
    | .ok updated => updated.2
    | .error _ => []
  | .addNodeDisk req =>
    let mountPath := if req.mountPath = "" then longhornMountPath req.name else req.mountPath
    [⟨.disks, "add disk " ++ quote req.name ++ " (" ++ toString req.sizeGB ++ " GB) to " ++
      req.vmName ++ " at " ++ mountPath⟩]
  | .removeNodeDisk vmName name => [⟨.disks, "remove disk " ++ quote name ++ " from " ++ vmName⟩]
  | .promoteCluster target => [⟨.upgrade, "Upgrade " ++ c.bundle ++ " → " ++ target⟩]
  | .setClusterAddonValues addonName override =>
    [⟨.addons, if trimSpace override = "" then "Reset " ++ quote addonName ++
      " add-on values to defaults" else "Edited " ++ quote addonName ++ " add-on values"⟩]
  | .deleteCluster => []

def createOperation (c : Cluster) : Operation where
  kind := .create
  summary := "Created cluster - bundle " ++ c.bundle ++ ", " ++ c.size ++ ", " ++
    toString c.workerCount ++ " worker(s) across " ++ toString c.nodePools.length ++
    " node pool(s), " ++
    if c.controlPlanes = 1 then "single-node control plane" else "HA control plane"
  generation := c.generation

/-- `CompleteOperations`: the sweep. -/
def completeOperations (throughGeneration : Nat) (ops : List Operation) : List Operation :=
  ops.map fun op =>
    if op.status = .inProgress ∧ op.kind.sweepExempt = false ∧ op.generation ≤ throughGeneration
    then { op with status := .completed } else op

/-! ### The protocol -/

structure HistoryState where
  rows : RowState
  /-- The calls between their two writes: what they have yet to record. -/
  unrecorded : List (Nat × Operation) := []
  /-- The ticks between their write and their sweep, with the generation stored. -/
  unswept : List (Nat × Nat) := []
  operations : List Operation := []

inductive HistoryInput
  | row (i : Overlap.Input Env (Admission × Mutation))
  /-- The call records its next operation; a failure is only logged. -/
  | record (id : Nat) (fails : Bool)
  /-- The tick sweeps; a failure is only logged. -/
  | sweep (id : Nat) (fails : Bool)
  /-- The party dies after its commit. -/
  | die (id : Nat)
  /-- A session, a repair or a maintenance is recorded, … -/
  | start (kind : OperationKind) (summary : String)
  /-- … and closed by `CompleteOperation`. -/
  | finish (n : Nat)

namespace HistoryState

variable (s : HistoryState)

def nextRecord (id : Nat) : Option (Nat × Operation) := s.unrecorded.find? (·.1 == id)

def nextSweep (id : Nat) : Option (Nat × Nat) := s.unswept.find? (·.1 == id)

def record (id : Nat) (fails : Bool) : HistoryState :=
  match s.nextRecord id with
  | none => s
  | some p =>
    { s with
      unrecorded := s.unrecorded.erase p
      operations := if fails then s.operations else s.operations ++ [p.2] }

def sweep (id : Nat) (fails : Bool) : HistoryState :=
  match s.nextSweep id with
  | none => s
  | some p =>
    { s with
      unswept := s.unswept.erase p
      operations := if fails then s.operations else completeOperations p.2 s.operations }

def start (kind : OperationKind) (summary : String) : HistoryState :=
  if kind.sweepExempt then { s with operations := s.operations ++ [{ kind, summary }] } else s

def finish (n : Nat) : HistoryState :=
  { s with operations := s.operations.modify n fun op => { op with status := .completed } }

end HistoryState

namespace Platform

variable (P : Platform)

/-- The party and the row that an input stores. -/
def storedBy (s : RowState) :
    Overlap.Input Env (Admission × Mutation) → Option (RowFlight × Cluster)
  | .commit id => (s.flight id).bind fun f =>
    match P.calls.attempt s.row f with
    | some (some c) => some (f, c)
    | _ => none
  | _ => none

/-- What is still to be recorded after a party stored `c`. -/
def toRecord (f : RowFlight) (c : Cluster) : List (Nat × Operation) :=
  match f.party with
  | .caller k => (P.app.operations k.1 f.copy k.2).map fun op =>
      (f.id, { kind := op.kind, summary := op.summary, generation := c.generation })
  | .worker _ => []

/-- The sweep that is still to come after a party stored `c`. -/
def toSweep (f : RowFlight) (c : Cluster) : List (Nat × Nat) :=
  match f.party with
  | .caller _ => []
  | .worker _ => if c.converged then [(f.id, c.generation)] else []

def historyStep (s : HistoryState) : HistoryInput → HistoryState
  | .row i =>
    let rows := P.calls.step s.rows i
    match P.storedBy s.rows i with
    | none => { s with rows }
    | some (f, c) =>
      { s with
        rows
        unrecorded := s.unrecorded ++ P.toRecord f c
        unswept := s.unswept ++ toSweep f c }
  | .record id fails => s.record id fails
  | .sweep id fails => s.sweep id fails
  | .die id =>
    { s with
      unrecorded := s.unrecorded.filter (·.1 != id)
      unswept := s.unswept.filter (·.1 != id) }
  | .start kind summary => s.start kind summary
  | .finish n => s.finish n

/-- A cluster whose `CreateCluster` has stored the row. -/
def historyBegin (c : Cluster) : HistoryState :=
  { rows := { row := c }, unrecorded := [(0, createOperation c)] }

def historyRun (c : Cluster) (is : List HistoryInput) : HistoryState :=
  TransitionSystem.run P.historyStep (historyBegin c) is

end Platform

/-- **A timely sweep** finds no call between its two writes at a generation it covers, does not fail
and is not skipped by a dying tick. -/
def TimelySweep (s : HistoryState) : HistoryInput → Prop
  | .sweep id fails => ∀ p, s.nextSweep id = some p →
    fails = false ∧ ∀ q ∈ s.unrecorded, p.2 < q.2.generation
  | .die id => ∀ p ∈ s.unswept, p.1 ≠ id
  | _ => True

instance (s : HistoryState) : ∀ i, Decidable (TimelySweep s i)
  | .sweep id fails =>
    match h : s.nextSweep id with
    | none => isTrue (by simp [TimelySweep, h])
    | some p => decidable_of_iff (fails = false ∧ ∀ q ∈ s.unrecorded, p.2 < q.2.generation)
        (by simp [TimelySweep, h])
  | .die id => inferInstanceAs (Decidable (∀ p ∈ s.unswept, p.1 ≠ id))
  | .row _ | .record _ _ | .start _ _ | .finish _ => inferInstanceAs (Decidable True)

/-! ### The invariant -/

/-- The operation is closed, if the sweep up to `g` is to close it. -/
def Operation.Closed (g : Nat) (op : Operation) : Prop :=
  op.kind.sweepExempt = false → op.generation ≤ g → op.status = .completed

theorem closed_completeOperations {g : Nat} {ops : List Operation} :
    ∀ op ∈ completeOperations g ops, op.Closed g := by
  intro op hop hkind hgen
  obtain ⟨op', -, rfl⟩ := List.mem_map.mp hop
  by_cases hopen : op'.status = .inProgress ∧ op'.kind.sweepExempt = false ∧ op'.generation ≤ g
  · rw [if_pos hopen]
  · rw [if_neg hopen] at hkind hgen ⊢
    cases hstatus : op'.status with
    | inProgress => exact absurd ⟨hstatus, hkind, hgen⟩ hopen
    | completed => rfl

theorem Operation.Closed.completeOperations {g g' : Nat} {ops : List Operation}
    (h : ∀ op ∈ ops, op.Closed g) : ∀ op ∈ completeOperations g' ops, op.Closed g := by
  intro op hop hkind hgen
  obtain ⟨op', hop', rfl⟩ := List.mem_map.mp hop
  split
  · rfl
  · rename_i hopen
    rw [if_neg hopen] at hkind hgen
    exact h op' hop' hkind hgen

/-- No row observes more than was asked for, and **a converged row is swept, or about to be**. -/
structure HistoryInv (s : HistoryState) : Prop where
  row : s.rows.row.observedGeneration ≤ s.rows.row.generation
  copies : ∀ f ∈ s.rows.flights, f.copy.observedGeneration ≤ f.copy.generation
  swept : s.rows.row.converged = true →
    (∃ p ∈ s.unswept, p.2 = s.rows.row.generation) ∨
    (∀ op ∈ s.operations, op.Closed s.rows.row.generation) ∧
      ∀ p ∈ s.unrecorded, s.rows.row.generation < p.2.generation

section Steps

variable {P : Platform} {s : HistoryState} {i : Overlap.Input Env (Admission × Mutation)}

private theorem rows_of_storedBy_none (h : P.storedBy s.rows i = none) :
    (P.calls.step s.rows i).row = s.rows.row ∧
    ∀ f ∈ (P.calls.step s.rows i).flights, f ∈ s.rows.flights ∨ f.copy = s.rows.row := by
  cases i with
  | read id party =>
    simp only [Overlap.Protocol.step]
    split
    · exact ⟨rfl, fun f hf => .inl hf⟩
    · refine ⟨rfl, fun f hf => ?_⟩
      rcases List.mem_cons.mp hf with rfl | hf
      · exact .inr rfl
      · exact .inl hf
  | commit id =>
    simp only [Overlap.Protocol.step]
    cases hf : s.rows.flight id with
    | none => exact ⟨rfl, fun f hf => .inl hf⟩
    | some f =>
      have hland : ∀ g ∈ (s.rows.land id).flights, g ∈ s.rows.flights ∨ g.copy = s.rows.row :=
        fun g hg => .inl (List.mem_of_mem_filter hg)
      simp only [Platform.storedBy, hf, Option.bind_some] at h
      simp only [Overlap.Protocol.commit]
      split
      · exact ⟨rfl, hland⟩
      · exact ⟨rfl, hland⟩
      · rename_i c hattempt
        rw [show (s.rows.land id).row = s.rows.row from rfl] at hattempt
        simp [hattempt] at h
  | abandon id => exact ⟨rfl, fun f hf => .inl (List.mem_of_mem_filter hf)⟩

private theorem rows_of_storedBy_some {f : RowFlight} {c : Cluster}
    (h : P.storedBy s.rows i = some (f, c)) :
    f ∈ s.rows.flights ∧ P.calls.attempt s.rows.row f = some (some c) ∧
    (P.calls.step s.rows i).row = c ∧
    ∀ g ∈ (P.calls.step s.rows i).flights, g ∈ s.rows.flights := by
  cases i with
  | read | abandon => simp [Platform.storedBy] at h
  | commit id =>
    simp only [Platform.storedBy] at h
    cases hf : s.rows.flight id with
    | none => simp [hf] at h
    | some f' =>
      simp only [hf, Option.bind_some] at h
      split at h
      · rename_i c' hattempt
        obtain ⟨rfl, rfl⟩ := Prod.mk.inj (Option.some.inj h)
        have hcommit : P.calls.step s.rows (.commit id) =
            { s.rows.land id with row := c', log := .wrote f' s.rows.row c' :: s.rows.log } := by
          simp only [Overlap.Protocol.step, hf, Overlap.Protocol.commit]
          rw [show (s.rows.land id).row = s.rows.row from rfl, hattempt]
          rfl
        rw [hcommit]
        exact ⟨List.mem_of_find?_eq_some hf, hattempt, rfl, fun g hg => List.mem_of_mem_filter hg⟩
      · simp at h

/-- **A commit or a read keeps the invariant**: a call's row is behind, and a converged row comes
with its sweep. -/
private theorem HistoryInv.rows (h : HistoryInv s) : HistoryInv (P.historyStep s (.row i)) := by
  simp only [Platform.historyStep]
  split
  · rename_i hnone
    obtain ⟨hrow, hcopies⟩ := rows_of_storedBy_none hnone
    refine ⟨by rw [hrow]; exact h.row, fun f hf => ?_, by rw [hrow]; exact h.swept⟩
    rcases hcopies f hf with hf | hf
    · exact h.copies f hf
    · rw [hf]
      exact h.row
  · rename_i f c hsome
    obtain ⟨hmem, hattempt, hrow, hcopies⟩ := rows_of_storedBy_some hsome
    have hcopy := h.copies f hmem
    cases wrote_of_attempt hattempt with
    | tick ρ evs hparty hversion hstep =>
      have hgen := hstep.sameDesire.generation
      have hle : c.observedGeneration ≤ c.generation := by
        rcases hstep.observedGeneration with hobs | hobs
        · rw [hobs, hgen]
          exact hcopy
        · rw [hobs, hgen]
      refine ⟨by rw [hrow]; exact hle, fun g hg => h.copies g (hcopies g hg), fun hconv => .inl ?_⟩
      rw [hrow] at hconv ⊢
      refine ⟨(f.id, c.generation), List.mem_append_right _ ?_, rfl⟩
      simp [Platform.toSweep, hparty, hconv]
    | call k hparty hedit =>
      have hlt : c.observedGeneration < c.generation := by
        rw [hedit.observedGeneration, hedit.generation]
        exact Nat.lt_succ_of_le hcopy
      refine ⟨by rw [hrow]; exact hlt.le, fun g hg => h.copies g (hcopies g hg), fun hconv => ?_⟩
      rw [hrow] at hconv
      simp only [Cluster.converged, Bool.and_eq_true, beq_iff_eq] at hconv
      exact absurd hconv.2 hlt.ne

/-- A record of a call that is late would have been excluded by the sweep. -/
private theorem HistoryInv.record (h : HistoryInv s) (id : Nat) (fails : Bool) :
    HistoryInv (s.record id fails) := by
  unfold HistoryState.record
  split
  · exact h
  · rename_i p hp
    refine ⟨h.row, h.copies, fun hconv => (h.swept hconv).imp_right fun ⟨hclosed, hlater⟩ => ?_⟩
    refine ⟨fun op hop => ?_, fun q hq => hlater q (List.mem_of_mem_erase hq)⟩
    dsimp only at hop
    split at hop
    · exact hclosed op hop
    · rcases List.mem_append.mp hop with hop | hop
      · exact hclosed op hop
      · rw [List.mem_singleton.mp hop]
        have hlt := hlater p (List.mem_of_find?_eq_some hp)
        intro _ hle
        exact absurd hle (Nat.not_le.mpr hlt)

/-- **A timely sweep** closes what it covers; another generation's leaves the rest to come. -/
private theorem HistoryInv.sweep (h : HistoryInv s) {id : Nat} {fails : Bool}
    (htimely : TimelySweep s (.sweep id fails)) : HistoryInv (s.sweep id fails) := by
  unfold HistoryState.sweep
  split
  · exact h
  · rename_i p hp
    obtain ⟨rfl, hlater⟩ := htimely p hp
    refine ⟨h.row, h.copies, fun hconv => ?_⟩
    by_cases hgen : p.2 = s.rows.row.generation
    · refine .inr ⟨fun op hop => ?_, fun q hq => hgen ▸ hlater q hq⟩
      exact hgen ▸ closed_completeOperations op hop
    · rcases h.swept hconv with ⟨q, hq, hqgen⟩ | ⟨hclosed, hunrecorded⟩
      · refine .inl ⟨q, (List.mem_erase_of_ne ?_).mpr hq, hqgen⟩
        rintro rfl
        exact hgen hqgen
      · exact .inr ⟨Operation.Closed.completeOperations hclosed, hunrecorded⟩

private theorem HistoryInv.die (h : HistoryInv s) {id : Nat} (htimely : TimelySweep s (.die id)) :
    HistoryInv (P.historyStep s (.die id)) := by
  refine ⟨h.row, h.copies, fun hconv => ?_⟩
  rcases h.swept hconv with ⟨q, hq, hqgen⟩ | ⟨hclosed, hlater⟩
  · exact .inl ⟨q, List.mem_filter.mpr ⟨hq, by simpa using htimely q hq⟩, hqgen⟩
  · exact .inr ⟨hclosed, fun q hq => hlater q (List.mem_of_mem_filter hq)⟩

private theorem HistoryInv.start (h : HistoryInv s) (kind : OperationKind) (summary : String) :
    HistoryInv (s.start kind summary) := by
  unfold HistoryState.start
  split
  · rename_i hexempt
    refine ⟨h.row, h.copies, fun hconv => (h.swept hconv).imp_right fun ⟨hclosed, hlater⟩ => ?_⟩
    refine ⟨fun op hop => ?_, hlater⟩
    rcases List.mem_append.mp hop with hop | hop
    · exact hclosed op hop
    · rw [List.mem_singleton.mp hop]
      intro hkind
      simp [hexempt] at hkind
  · exact h

private theorem HistoryInv.finish (h : HistoryInv s) (n : Nat) : HistoryInv (s.finish n) := by
  refine ⟨h.row, h.copies, fun hconv => (h.swept hconv).imp_right fun ⟨hclosed, hlater⟩ => ?_⟩
  refine ⟨fun op hop => ?_, hlater⟩
  obtain ⟨k, hk, rfl⟩ := List.mem_iff_getElem.mp hop
  simp only [HistoryState.finish, List.getElem_modify] at hk ⊢
  split
  · exact fun _ _ => rfl
  · exact hclosed _ (List.getElem_mem _)

end Steps

/-- **The history of a converged cluster is closed**: once every tick has swept, no operation up to
the observed generation is in progress, in any run with timely sweeps. -/
theorem operations_closed (P : Platform) (c : Cluster) (hcreated : Created P.app.catalog c)
    (is : List HistoryInput)
    (htimely : TransitionSystem.Along P.historyStep TimelySweep (Platform.historyBegin c) is)
    (hswept : (P.historyRun c is).unswept = [])
    (hready : (P.historyRun c is).rows.row.phase = .ready)
    (hobserved : (P.historyRun c is).rows.row.observedGeneration =
      (P.historyRun c is).rows.row.generation) :
    ∀ op ∈ (P.historyRun c is).operations, op.kind.sweepExempt = false →
      op.generation ≤ (P.historyRun c is).rows.row.observedGeneration → op.status = .completed := by
  have hinit : HistoryInv (Platform.historyBegin c) := by
    refine ⟨hcreated.behind.le, by simp [Platform.historyBegin], fun hconv => ?_⟩
    simp [Platform.historyBegin, Cluster.converged, hcreated.phase] at hconv
  have hinv : HistoryInv (P.historyRun c is) := by
    refine TransitionSystem.run_invariant (I := HistoryInv) (fun s i hs hi => ?_) hinit htimely
    cases i with
    | row i => exact hs.rows
    | record id fails => exact hs.record id fails
    | sweep id fails => exact hs.sweep hi
    | die id => exact hs.die hi
    | start kind summary => exact hs.start kind summary
    | finish n => exact hs.finish n
  intro op hop hkind hgen
  rcases hinv.swept (by simp [Cluster.converged, hready, hobserved]) with ⟨p, hp, -⟩ | ⟨hclosed, -⟩
  · rw [hswept] at hp
    exact absurd hp List.not_mem_nil
  · exact hclosed op hop hkind (hobserved ▸ hgen)

/-- The inputs of a schedule of rows. -/
def onRow (is : Platform.Schedule) : List HistoryInput := is.map .row

/-- A cluster is created and brought up, and scaled: both operations are recorded in time. -/
def recordedScaling : List HistoryInput :=
  [.record 0 false] ++ onRow ((List.range 6).flatMap fun n => ticks n ++ commits n) ++
    [.sweep 5 false] ++
    onRow (calls 6 (.updateCluster { nodePools := some (demoPools 3) }) ++ commits 6) ++
    [.record 6 false] ++ onRow (ticks 7 ++ commits 7 ++ ticks 8 ++ commits 8) ++ [.sweep 8 false]

theorem operations_closed_scaling :
    (rollingPlatform.historyRun demoCluster recordedScaling).rows.row.generation = 2 ∧
    (rollingPlatform.historyRun demoCluster recordedScaling).operations.length = 2 ∧
    ∀ op ∈ (rollingPlatform.historyRun demoCluster recordedScaling).operations,
      op.kind.sweepExempt = false →
      op.generation ≤
        (rollingPlatform.historyRun demoCluster recordedScaling).rows.row.observedGeneration →
      op.status = .completed := by
  refine ⟨by decide +kernel, by decide +kernel, ?_⟩
  exact operations_closed rollingPlatform demoCluster (created_demoCluster _ _) recordedScaling
    (by decide +kernel) (by decide +kernel) (by decide +kernel) (by decide +kernel)

/-- The same with the record of the scaling after the ticks. -/
def lateRecord : List HistoryInput :=
  [.record 0 false] ++ onRow ((List.range 6).flatMap fun n => ticks n ++ commits n) ++
    [.sweep 5 false] ++
    onRow (calls 6 (.updateCluster { nodePools := some (demoPools 3) }) ++ commits 6) ++
    onRow (ticks 7 ++ commits 7 ++ ticks 8 ++ commits 8) ++ [.sweep 8 false, .record 6 false]

/-- **Two quick ticks between the two writes** of a call leave its operation in progress. -/
theorem operation_left_open :
    Created rollingPlatform.app.catalog demoCluster ∧
    (rollingPlatform.historyRun demoCluster lateRecord).unrecorded = [] ∧
    (rollingPlatform.historyRun demoCluster lateRecord).unswept = [] ∧
    (rollingPlatform.historyRun demoCluster lateRecord).rows.flights.length = 0 ∧
    (rollingPlatform.historyRun demoCluster lateRecord).rows.row.phase = .ready ∧
    (rollingPlatform.historyRun demoCluster lateRecord).rows.row.observedGeneration = 2 ∧
    (rollingPlatform.historyRun demoCluster lateRecord).rows.row.generation = 2 ∧
    ⟨.scale, "Scaled up node pool \"default\" 2 → 3 workers", 2, .inProgress⟩ ∈
      (rollingPlatform.historyRun demoCluster lateRecord).operations := by
  refine ⟨created_demoCluster _ _, ?_⟩
  decide +kernel

end KaaS
