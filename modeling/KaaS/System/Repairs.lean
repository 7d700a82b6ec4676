import KaaS.System.Restores

/-!
# The record of a cluster's faults over time

Repair decides on a durable record, and the record is written by one observation after the
other: each is folded in by `observeFaults` and `mergeFaults`, and at most one repair is decided
on and stamped. A run is such a sequence, with whatever cluster each observation found.

An observation may be **blind**: no health snapshot that can be believed, and for some machines
no reading from the hypervisor. `mergeFaults` is not told. A fault it finds no evidence of is
taken for a recovery, whether the node was seen to be well or not seen at all; so blindness
clears the record (`keepsUnseen_iff`), and with it what the quorum guard reads
(`guardsQuorum_of_seesFaulty`). The attempts at a node are carried over a short recovery but not
over a change of the fault's class (`count_tried_le_maxAttempts`).
-/

namespace KaaS

open TransitionSystem

/-! ### Runs of observations -/

/-- The record, with the observations folded in and the machines repairs were decided for, the
latest first. -/
structure Repairs where
  record : ClusterRepair := {}
  seen : List (Cluster × RepairObservation) := []
  tried : List String := []

inductive RepairInput
  /-- The cluster is observed, and a repair decided on if one is due. -/
  | observe (c : Cluster) (obs : RepairObservation)
  /-- The repair decided on is over. -/
  | complete

namespace Repairs

variable (r : Reconciler) (s : Repairs) (c : Cluster) (obs : RepairObservation)

def faults : Faults := (observeFaults c obs r.repairPolicy).1

def merged : ClusterRepair :=
  mergeFaults s.record c (faults r c obs) r.repairPolicy obs.now

def observed : ClusterRepair :=
  announceFaults { s.merged r c obs with observedAt := some obs.now }

def planned : RepairPlan :=
  r.repairPolicy.plan { c with repair := some (s.observed r c obs) } obs (faults r c obs)

/-- The machine an attempt is stamped for, if one is. -/
def attempted : Option String :=
  if (s.planned r c obs).act then some (s.planned r c obs).target else none

def step : RepairInput → Repairs
  | .observe c obs =>
    { record := (decideRepair r { now := obs.now } obs
        { c with repair := some s.record }).repairState
      seen := (c, obs) :: s.seen
      tried := (s.attempted r c obs).toList ++ s.tried }
  | .complete => { s with record := s.record.completeAttempt }

end Repairs

/-! ### The record after a step -/

/-- A state apart from the text shown for it. -/
def NodeRepairState.silent (st : NodeRepairState) : NodeRepairState := { st with note := "" }

theorem silent_state_announceFaults (rs : ClusterRepair) (vm : String) :
    ((announceFaults rs).state vm).silent = (rs.state vm).silent := by
  let shown : NodeRepairState → NodeRepairState := fun st =>
    if st.suspended then { st with note := "" } else st
  have hshown (st : NodeRepairState) : (shown st).silent = st.silent := by
    simp only [shown]
    split <;> rfl
  have hfold (m : AList fun _ : String => NodeRepairState) (a : String) :
      (m.insert a (shown (rs.state a))).lookup vm =
        if a = vm then (some (shown (rs.state vm))).or (m.lookup vm) else m.lookup vm := by
    by_cases ha : a = vm
    · subst ha
      simp
    · simp [ha, AList.lookup_insert_ne (Ne.symm ha)]
  have hlookup : (announceFaults rs).nodes.lookup vm =
      if vm ∈ rs.nodes.keys then some (shown (rs.state vm)) else none :=
    (AList.lookup_foldl_some hfold rs.nodes.keys ∅).trans (by simp)
  rw [ClusterRepair.state, hlookup]
  split
  · exact hshown _
  · rename_i hnot
    have hnone : rs.nodes.lookup vm = none := AList.lookup_eq_none.mpr hnot
    rw [ClusterRepair.state, hnone]

namespace Repairs

variable {r : Reconciler} {s : Repairs} {c : Cluster} {obs : RepairObservation} {vm : String}

theorem silent_state_observed :
    ((s.observed r c obs).state vm).silent = ((s.merged r c obs).state vm).silent :=
  silent_state_announceFaults _ vm

theorem observed_congr {α : Type*} (f : NodeRepairState → α) (hf : ∀ st, f st.silent = f st) :
    f ((s.observed r c obs).state vm) = f ((s.merged r c obs).state vm) := by
  rw [← hf, silent_state_observed, hf]

theorem state_merged (h : vm ∈ c.nodes.map (·.vmName)) :
    (s.merged r c obs).state vm = (mergeFault r.repairPolicy obs.now (s.record.state vm)
      ((faults r c obs).lookup vm)).getD {} :=
  state_mergeFaults h

theorem state_merged_of_notMem (h : vm ∉ c.nodes.map (·.vmName)) :
    (s.merged r c obs).state vm = {} := by
  rw [merged, ClusterRepair.state, lookup_mergeFaults, if_neg h]
  rfl

/-- **Who is repaired**: a machine of the cluster that is faulty and whose next action the
plan is. -/
theorem exists_of_attempted (h : s.attempted r c obs = some vm) :
    ∃ n ∈ c.nodes, n.vmName = vm ∧ ∃ fault a, (faults r c obs).lookup vm = some fault ∧
      (s.planned r c obs).action = some a ∧ (s.planned r c obs).target = vm ∧
      r.repairPolicy.nextAction { c with repair := some (s.observed r c obs) } n
        ((s.observed r c obs).state vm) fault obs.now = some a := by
  simp only [attempted, Option.ite_none_right_eq_some, Option.some.injEq, RepairPlan.act,
    Bool.and_eq_true] at h
  obtain ⟨⟨-, hact⟩, htarget⟩ := h
  obtain ⟨a, ha⟩ := Option.isSome_iff_exists.mp hact
  obtain ⟨n, hn, fault, hplan, hfault, hnext⟩ := RepairPolicy.plan_eq_some ha
  have hname : n.vmName = vm := hplan.symm.trans htarget
  rw [hname] at hfault hnext
  exact ⟨n, hn, hname, fault, a, hfault, ha, htarget, hnext⟩

theorem record_step_of_act (hact : (s.planned r c obs).act = true) {a : RepairAction}
    (ha : (s.planned r c obs).action = some a) : (s.step r (.observe c obs)).record =
      (s.observed r c obs).recordAttempt (s.planned r c obs) a r.repairPolicy obs.now := by
  simp only [step, decideRepair]
  split
  · rename_i b hb
    obtain rfl := Option.some.inj (ha.symm.trans hb)
    split
    · rfl
    · rename_i hnot
      exact absurd hact hnot
  · rename_i hnone
    cases ha.symm.trans hnone

theorem record_step_of_not_act (hact : (s.planned r c obs).act = false) :
    (s.step r (.observe c obs)).record = s.observed r c obs := by
  simp only [step, decideRepair]
  split
  · split
    · rename_i hyes
      cases hact.symm.trans hyes
    · rfl
  · rfl

theorem state_step_of_ne (h : s.attempted r c obs ≠ some vm) :
    (s.step r (.observe c obs)).record.state vm = (s.observed r c obs).state vm := by
  cases hact : (s.planned r c obs).act with
  | false => rw [record_step_of_not_act hact]
  | true =>
    have hne : vm ≠ (s.planned r c obs).target := by
      rintro rfl
      exact h (if_pos hact)
    obtain ⟨a, ha⟩ := Option.isSome_iff_exists.mp (Bool.and_elim_right hact)
    rw [record_step_of_act hact ha]
    simp only [ClusterRepair.recordAttempt, ClusterRepair.state, AList.lookup_insert_ne hne]

theorem state_step_of_attempted (h : s.attempted r c obs = some vm) :
    let after := (s.step r (.observe c obs)).record.state vm
    let before := (s.observed r c obs).state vm
    after.fault = before.fault ∧ after.unhealthySince = before.unhealthySince ∧
      after.repairedAt = before.repairedAt ∧ after.attempts = before.attempts + 1 := by
  obtain ⟨n, -, -, fault, a, -, ha, rfl, -⟩ := exists_of_attempted h
  have hact : (s.planned r c obs).act = true := by
    simp only [attempted, Option.ite_none_right_eq_some] at h
    exact h.1
  rw [record_step_of_act hact ha]
  simp only [ClusterRepair.recordAttempt, ClusterRepair.state, AList.lookup_insert,
    Option.getD_some, and_self]

end Repairs

/-! ### What records look like -/

/-- **A sound state**: a fault has the time it was first seen and no recovery after it, a state
without a fault has neither a clock running nor a suspension, and attempts are not negative. -/
structure NodeRepairState.Sound (st : NodeRepairState) : Prop where
  faulty : st.fault ≠ none → st.unhealthySince.isSome ∧ st.repairedAt = none
  healthy : st.fault = none →
    st.unhealthySince = none ∧ st.lastActionAt = none ∧ st.suspended = false
  attempts : 0 ≤ st.attempts

namespace NodeRepairState

theorem sound_empty : Sound {} := ⟨by simp, by simp, le_rfl⟩

theorem sound_silent {st : NodeRepairState} : st.silent.Sound ↔ st.Sound :=
  ⟨fun h => ⟨h.faulty, h.healthy, h.attempts⟩, fun h => ⟨h.faulty, h.healthy, h.attempts⟩⟩

theorem Sound.merge {st : NodeRepairState} (h : st.Sound) (p : RepairPolicy) (now : Time)
    (fault : Option NodeFault) : ((mergeFault p now st fault).getD {}).Sound := by
  unfold mergeFault
  cases fault with
  | none =>
    dsimp only
    split_ifs
    · exact sound_empty
    · exact h
    all_goals exact ⟨by simp, by simp, h.attempts⟩
  | some fault =>
    dsimp only
    split_ifs
    · exact h
    all_goals exact ⟨by simp, by simp, by first | exact h.attempts | exact le_rfl⟩

end NodeRepairState

namespace Repairs

variable {r : Reconciler} {s : Repairs} {c : Cluster} {obs : RepairObservation} {vm : String}

def Sound (s : Repairs) : Prop := ∀ vm, (s.record.state vm).Sound

theorem sound_initial : Sound {} := fun _ => NodeRepairState.sound_empty

private theorem Sound.merged (h : s.Sound) (vm : String) :
    ((s.merged r c obs).state vm).Sound := by
  by_cases hvm : vm ∈ c.nodes.map (·.vmName)
  · rw [state_merged hvm]
    exact (h vm).merge _ _ _
  · rw [state_merged_of_notMem hvm]
    exact NodeRepairState.sound_empty

private theorem Sound.observed (h : s.Sound) (vm : String) :
    ((s.observed r c obs).state vm).Sound := by
  rw [← NodeRepairState.sound_silent, silent_state_observed, NodeRepairState.sound_silent]
  exact h.merged vm

/-- The fault of a machine of the cluster, once an observation is folded in, is the one
observed. -/
theorem fault_observed (h : vm ∈ c.nodes.map (·.vmName)) :
    ((s.observed r c obs).state vm).fault = (faults r c obs).lookup vm := by
  rw [observed_congr NodeRepairState.fault fun _ => rfl, state_merged h, fault_mergeFault]

theorem Sound.step (h : s.Sound) (i : RepairInput) : (s.step r i).Sound := by
  cases i with
  | complete => exact h
  | observe c obs =>
    intro vm
    by_cases hvm : s.attempted r c obs = some vm
    · obtain ⟨hfault, hsince, hrepaired, hattempts⟩ := state_step_of_attempted hvm
      obtain ⟨n, hn, hname, fault, -, hlookup, -⟩ := exists_of_attempted hvm
      have hobs : ((s.observed r c obs).state vm).Sound := h.observed vm
      -- only faulty machines are attempted
      have hne : ((s.observed r c obs).state vm).fault ≠ none := by
        rw [fault_observed (List.mem_map.mpr ⟨n, hn, hname⟩), hlookup]
        simp
      refine ⟨fun _ => ?_, fun hnone => absurd (hfault.symm.trans hnone) hne, ?_⟩
      · rw [hsince, hrepaired]
        exact hobs.faulty hne
      · rw [hattempts]
        exact Int.add_nonneg hobs.attempts Int.one_nonneg
    · rw [state_step_of_ne hvm]
      exact h.observed vm

/-- **Every record that is reached is sound.** -/
theorem sound_run (is : List RepairInput) : (run (Repairs.step r) {} is).Sound :=
  run_preserves (I := Sound) (fun _ i h => Sound.step h i) sound_initial is

end Repairs

/-! ### Blindness -/

/-- What the record says of the fault and of the attempts at it. -/
def NodeRepairState.episode (st : NodeRepairState) :
    Option NodeFault × Option Time × Int × Option Time × Bool :=
  (st.fault, st.unhealthySince, st.attempts, st.lastActionAt, st.suspended)

/-- Nothing is lost of the state when no fault is found: there is none, and no attempts that
have expired by now. -/
def NodeRepairState.AtRest (p : RepairPolicy) (now : Time) (st : NodeRepairState) : Prop :=
  st.fault = none ∧ (st.attempts = 0 ∨ ∀ t ∈ st.repairedAt, now - t ≤ p.flapWindow)

instance (p : RepairPolicy) (now : Time) (st : NodeRepairState) :
    Decidable (st.AtRest p now) := by
  unfold NodeRepairState.AtRest
  infer_instance

namespace NodeRepairState

variable {st : NodeRepairState} (p : RepairPolicy) (now : Time)

private theorem Sound.episode_mergeFault_none (h : st.Sound) :
    ((mergeFault p now st none).getD {}).episode = st.episode ↔ st.AtRest p now := by
  simp only [mergeFault, AtRest]
  by_cases hfault : st.fault = none
  · obtain ⟨hsince, hlast, hsuspended⟩ := h.healthy hfault
    rw [if_pos hfault]
    cases hrepaired : st.repairedAt with
    | none => simp [hfault]
    | some t =>
      by_cases hlong : now - t > p.flapWindow
      · -- an expired state is dropped, which loses its attempts and nothing else
        have hkept : ({} : NodeRepairState).episode = st.episode ↔ st.attempts = 0 := by
          simp [episode, hfault, hsince, hlast, hsuspended, eq_comm]
        rw [Option.any_some, decide_eq_true hlong]
        refine hkept.trans ⟨fun hzero => ⟨hfault, .inl hzero⟩, fun hrest => ?_⟩
        exact hrest.2.resolve_right fun hrecent => not_le.mpr hlong (hrecent t rfl)
      · rw [Option.any_some, decide_eq_false hlong]
        refine iff_of_true rfl ⟨hfault, .inr fun u hu => ?_⟩
        obtain rfl := Option.some.inj hu
        exact not_lt.mp hlong
  · rw [if_neg hfault]
    simp [episode, hfault, Ne.symm hfault]

private theorem Sound.episode_mergeFault_some (h : st.Sound) (fault : NodeFault) :
    some fault ≠ st.fault ∨ ((mergeFault p now st (some fault)).getD {}).episode = st.episode := by
  by_cases hfault : st.fault = some fault
  · have hsince : st.unhealthySince.isSome := (h.faulty (by simp [hfault])).1
    exact .inr (by simp [mergeFault, hfault, hsince])
  · exact .inl (Ne.symm hfault)

end NodeRepairState

namespace Repairs

section Blind

variable (r : Reconciler) (s : Repairs) (c : Cluster) (obs : RepairObservation)

/-- The observation has a health snapshot that can be believed. -/
def sighted : Bool := (observeFaults c obs r.repairPolicy).2

/-- **Not being able to see is no recovery**: what is recorded of a machine that an observation
without a believable snapshot does not find powered on stays as it is, unless a new fault is
recorded. -/
def KeepsUnseen : RepairInput → Prop
  | .observe c obs => ∀ n ∈ c.nodes, sighted r c obs = false →
      obs.powered.lookup n.vmName ≠ some true →
      ((s.merged r c obs).state n.vmName).fault ≠ none ∧
          ((s.merged r c obs).state n.vmName).fault ≠ (s.record.state n.vmName).fault ∨
        ((s.merged r c obs).state n.vmName).episode = (s.record.state n.vmName).episode
  | .complete => True

def BlindAtRest : RepairInput → Prop
  | .observe c obs => ∀ n ∈ c.nodes, sighted r c obs = false →
      obs.powered.lookup n.vmName = none →
      (s.record.state n.vmName).AtRest r.repairPolicy obs.now
  | .complete => True

instance (i : RepairInput) : Decidable (KeepsUnseen r s i) :=
  match i with
  | .observe c _ => by
    unfold KeepsUnseen
    exact @List.decidableBAll _ _ (fun _ => @forall_prop_decidable _ _ _ fun _ =>
      @forall_prop_decidable _ _ _ fun _ => inferInstance) c.nodes
  | .complete => by unfold KeepsUnseen; infer_instance

instance (i : RepairInput) : Decidable (BlindAtRest r s i) := by
  cases i <;> unfold BlindAtRest <;> infer_instance

variable {r s c obs}

theorem lookup_faults_of_blind (h : sighted r c obs = false) (vm : String) :
    (faults r c obs).lookup vm =
      if ∃ n ∈ c.nodes, n.vmName = vm ∧ obs.powered.lookup vm = some false then some .vmDown
      else none := by
  rw [← lookup_powerFaults]
  unfold sighted observeFaults at h
  unfold faults observeFaults
  cases hhealth : obs.health with
  | none => rfl
  | some health =>
    rw [hhealth] at h
    dsimp only at h ⊢
    split_ifs at h ⊢
    rfl

private theorem keepsUnseen_iff_of_sound (h : s.Sound) (i : RepairInput) :
    KeepsUnseen r s i ↔ BlindAtRest r s i := by
  cases i with
  | complete => exact Iff.rfl
  | observe c obs =>
    simp only [KeepsUnseen, BlindAtRest]
    refine forall₃_congr fun n hn hblind => ?_
    have hvm : n.vmName ∈ c.nodes.map (·.vmName) := List.mem_map_of_mem hn
    rw [state_merged hvm, fault_mergeFault, lookup_faults_of_blind hblind]
    match hpower : obs.powered.lookup n.vmName with
    | some true => simp
    | some false =>
      have hdown : ∃ m ∈ c.nodes, m.vmName = n.vmName ∧ some false = some false :=
        ⟨n, hn, rfl, rfl⟩
      have hsome := (h n.vmName).episode_mergeFault_some r.repairPolicy obs.now .vmDown
      rw [if_pos hdown]
      simpa using hsome
    | none =>
      have hnone := (h n.vmName).episode_mergeFault_none r.repairPolicy obs.now
      simpa using hnone

end Blind

/-- **When blindness is harmless.** Along a run of observations from an empty record, what is not
seen keeps its state exactly when every machine that an observation sees nothing of is at rest:
a fault that was seen before counts as recovered as soon as nothing can be seen. -/
theorem keepsUnseen_iff (r : Reconciler) (is : List RepairInput) :
    Along (step r) (KeepsUnseen r) {} is ↔ Along (step r) (BlindAtRest r) {} is :=
  along_iff_of_invariant (I := Sound) (fun _ i h => h.step i)
    (fun _ i h => keepsUnseen_iff_of_sound h i) sound_initial is

end Repairs

/-- A cluster with so many control planes, once it is up. -/
def upCluster (controlPlanes : Int) : Cluster :=
  (repairingPlatform.run { demoCluster with controlPlanes := controlPlanes } bringUpRun).row

/-- The cluster answers, and all of its nodes are ready but these. -/
def sightedAt (c : Cluster) (now : Time) (notReady : List String) : RepairObservation where
  now := now
  health := some
    { checks := [⟨.apiServer, .healthy⟩]
      nodes := c.nodes.map fun n =>
        { nodeName := n.vmName, ready := decide (n.vmName ∉ notReady) }
      collectedAt := now }

namespace Repairs

def notReadyThenBlind : List RepairInput :=
  [.observe (upCluster 1) (sightedAt (upCluster 1) 0 ["demo-default-0"]),
   .observe (upCluster 1) { now := 2 * Duration.minute }]

/-- A node is not ready, and then the cluster cannot be reached: the node counts as
recovered. -/
theorem blindness_recovers_node :
    ((run (step repairingPlatform.reconciler) {} (notReadyThenBlind.take 1)).record.state
        "demo-default-0").fault = some .notReady ∧
    ((run (step repairingPlatform.reconciler) {} notReadyThenBlind).record.state
        "demo-default-0").fault = none ∧
    ¬Along (step repairingPlatform.reconciler) (KeepsUnseen repairingPlatform.reconciler) {}
      notReadyThenBlind := by
  decide +kernel

theorem keepsUnseen_readyThenBlind :
    sighted repairingPlatform.reconciler (upCluster 1) {} = false ∧
    Along (step repairingPlatform.reconciler) (KeepsUnseen repairingPlatform.reconciler) {}
      [.observe (upCluster 1) (sightedAt (upCluster 1) 0 []), .observe (upCluster 1) {}] :=
  ⟨by decide +kernel, (keepsUnseen_iff _ _).mpr (by decide +kernel)⟩

/-! ### How often a node is repaired -/

section Bound

variable (r : Reconciler) (vm : String) (s : Repairs)

/-- When the spell of observations that find no fault on the machine began, if the latest is one
of them. -/
def freeSince : List (Cluster × RepairObservation) → Option Time
  | [] => none
  | (c, obs) :: seen =>
    if ((faults r c obs).lookup vm).isSome then none
    else some ((freeSince seen).getD obs.now)

/-- The machine is part of the cluster, and has not been observed free of faults for longer than
the window in which a new fault counts as the old one. -/
def NeverFreeForLong : RepairInput → Prop
  | .observe c obs => vm ∈ c.nodes.map (·.vmName) ∧
      ∀ t ∈ freeSince r vm ((c, obs) :: s.seen), obs.now - t ≤ r.repairPolicy.flapWindow
  | .complete => True

/-- A fault that is found on the machine is the recorded one, or no attempt is counted, or it
follows a recovery within the window. -/
def SameEpisode : RepairInput → Prop
  | .observe c obs => ∀ fault ∈ (faults r c obs).lookup vm,
      (s.record.state vm).fault = some fault ∨ (s.record.state vm).attempts = 0 ∨
        ∃ t ∈ (s.record.state vm).repairedAt, obs.now - t ≤ r.repairPolicy.flapWindow
  | .complete => True

instance (i : RepairInput) : Decidable (NeverFreeForLong r vm s i) := by
  cases i <;> unfold NeverFreeForLong <;> infer_instance

instance (i : RepairInput) : Decidable (SameEpisode r vm s i) := by
  cases i <;> unfold SameEpisode <;> infer_instance

/-- **The invariant**: the attempts of the run are bounded, and once there is one, all are
counted in the record, which knows the spell without faults. -/
private structure Counted : Prop where
  sound : s.Sound
  bounded : (s.tried.count vm : Int) ≤ r.repairPolicy.maxAttempts
  counted : 0 < s.tried.count vm → (s.tried.count vm : Int) ≤ (s.record.state vm).attempts
  faulty : 0 < s.tried.count vm → (s.record.state vm).fault ≠ none → freeSince r vm s.seen = none
  free : 0 < s.tried.count vm → (s.record.state vm).fault = none →
    (freeSince r vm s.seen).isSome ∧ (s.record.state vm).repairedAt = freeSince r vm s.seen

variable {r vm s} {c : Cluster} {obs : RepairObservation}

/-- Before an attempt is stamped the count is kept, and a recovery is where the spell without
faults began. -/
private theorem Counted.observed (h : Counted r vm s)
    (hfree : NeverFreeForLong r vm s (.observe c obs))
    (hsame : SameEpisode r vm s (.observe c obs)) (htried : 0 < s.tried.count vm) :
    ((s.observed r c obs).state vm).attempts = (s.record.state vm).attempts ∧
    ((s.observed r c obs).state vm).fault = (faults r c obs).lookup vm ∧
    ((faults r c obs).lookup vm = none →
      ((s.observed r c obs).state vm).repairedAt = freeSince r vm ((c, obs) :: s.seen)) := by
  rw [observed_congr NodeRepairState.attempts fun _ => rfl,
    observed_congr NodeRepairState.repairedAt fun _ => rfl, fault_observed hfree.1,
    state_merged hfree.1]
  cases hfault : (faults r c obs).lookup vm with
  | some fault =>
    have hsince (hf : (s.record.state vm).fault = some fault) :
        (s.record.state vm).unhealthySince.isSome :=
      ((h.sound vm).faulty (by simp [hf])).1
    exact ⟨attempts_mergeFault_some hsince (hsame fault hfault), rfl, nofun⟩
  | none =>
    have hspell : freeSince r vm ((c, obs) :: s.seen) =
        some ((freeSince r vm s.seen).getD obs.now) := by
      simp [freeSince, hfault]
    have hrecent (hnone : (s.record.state vm).fault = none) :
        ∀ t ∈ (s.record.state vm).repairedAt, obs.now - t ≤ r.repairPolicy.flapWindow := by
      intro t ht
      rw [(h.free htried hnone).2] at ht
      refine hfree.2 t ?_
      rw [hspell, Option.mem_def.mp ht]
      rfl
    obtain ⟨hkept, hrecovered⟩ := mergeFault_none_of_recent hrecent
    refine ⟨hkept, rfl, fun _ => hrecovered.trans ?_⟩
    rw [hspell]
    split_ifs with hnone
    · obtain ⟨hsome, heq⟩ := h.free htried hnone
      obtain ⟨t, ht⟩ := Option.isSome_iff_exists.mp hsome
      rw [heq, ht]
      rfl
    · rw [h.faulty htried hnone]
      rfl

private theorem count_tried_step :
    (s.step r (.observe c obs)).tried.count vm =
      s.tried.count vm + if s.attempted r c obs = some vm then 1 else 0 := by
  simp only [step, List.count_append]
  cases s.attempted r c obs with
  | none => simp
  | some target => simp [List.count_singleton, Nat.add_comm]

private theorem Counted.step (h : Counted r vm s) (i : RepairInput)
    (hC : NeverFreeForLong r vm s i ∧ SameEpisode r vm s i) : Counted r vm (s.step r i) := by
  cases i with
  | complete => exact ⟨h.sound.step _, h.bounded, h.counted, h.faulty, h.free⟩
  | observe c obs =>
    have hsound := h.sound.step (r := r) (.observe c obs)
    have hobs := h.observed hC.1 hC.2
    by_cases hvm : s.attempted r c obs = some vm
    · obtain ⟨hfault, -, -, hattempts⟩ := state_step_of_attempted hvm
      obtain ⟨n, -, -, fault, a, hlookup, -, -, hnext⟩ := exists_of_attempted hvm
      have hlt := RepairPolicy.attempts_lt_of_nextAction hnext
      have hcount : (s.step r (.observe c obs)).tried.count vm = s.tried.count vm + 1 := by
        rw [count_tried_step, if_pos hvm]
      -- all earlier attempts of the run are in the count the decision was taken on
      have hearlier : (s.tried.count vm : Int) ≤ ((s.observed r c obs).state vm).attempts := by
        rcases Nat.eq_zero_or_pos (s.tried.count vm) with hzero | hpos
        · rw [hzero]
          exact (h.sound.observed vm).attempts
        · exact (h.counted hpos).trans (hobs hpos).1.ge
      have hfaulty : ((s.step r (.observe c obs)).record.state vm).fault = some fault := by
        rw [hfault, fault_observed hC.1.1, hlookup]
      refine ⟨hsound, ?_, fun _ => ?_, fun _ _ => ?_, fun _ hnone => ?_⟩
      · rw [hcount]
        omega
      · rw [hcount, hattempts]
        omega
      · simp [Repairs.step, freeSince, hlookup]
      · exact absurd (hfaulty.symm.trans hnone) (Option.some_ne_none fault)
    · have hcount : (s.step r (.observe c obs)).tried.count vm = s.tried.count vm := by
        rw [count_tried_step, if_neg hvm, Nat.add_zero]
      refine ⟨hsound, ?_, ?_, ?_, ?_⟩ <;> rw [hcount]
      · exact h.bounded
      all_goals
        intro hpos
        obtain ⟨hattempts, hfault, hrepaired⟩ := hobs hpos
        rw [state_step_of_ne hvm]
      · rw [hattempts]
        exact h.counted hpos
      · intro hne
        rw [hfault] at hne
        simp [Repairs.step, freeSince, Option.isSome_iff_ne_none.mpr hne]
      · intro hnone
        rw [hfault] at hnone
        refine ⟨?_, hrepaired hnone⟩
        simp [Repairs.step, freeSince, hnone]

end Bound

/-- **The bound on attempts.** A machine that stays in the cluster and is never observed free of
faults for longer than the flap window is repaired at most `maxAttempts` times, if every fault
found while attempts are counted is the recorded one or follows a recent recovery: a fault of
another class starts the count again. -/
theorem count_tried_le_maxAttempts (r : Reconciler) (vm : String) (is₀ is : List RepairInput)
    (hmax : 1 ≤ r.repairPolicy.maxAttempts)
    (hfree : Along (step r) (NeverFreeForLong r vm)
      { record := (run (step r) {} is₀).record } is)
    (hsame : Along (step r) (SameEpisode r vm) { record := (run (step r) {} is₀).record } is) :
    ((run (step r) { record := (run (step r) {} is₀).record } is).tried.count vm : Int) ≤
      r.repairPolicy.maxAttempts := by
  have hinitial : Counted r vm { record := (run (step r) {} is₀).record } :=
    ⟨sound_run is₀, by simp only [List.count_nil]; omega, by simp, by simp, by simp⟩
  exact (run_invariant (I := Counted r vm) (fun _ i h hC => h.step i hC) hinitial
    (hfree.and hsame)).bounded

/-- The hypervisor reports the first worker off, so many minutes into the run. -/
def workerOff (minutes : Int) : RepairInput :=
  .observe (upCluster 1)
    { now := minutes * Duration.minute, powered := AList.singleton "demo-default-0" false }

def workerNotReady (minutes : Int) : RepairInput :=
  .observe (upCluster 1) (sightedAt (upCluster 1) (minutes * Duration.minute) ["demo-default-0"])

theorem count_tried_workerOff :
    ((run (step repairingPlatform.reconciler) {}
      [workerOff 0, .complete, workerOff 30, .complete, workerOff 90]).tried.count
        "demo-default-0" : Int) ≤ 3 :=
  count_tried_le_maxAttempts repairingPlatform.reconciler "demo-default-0" []
    [workerOff 0, .complete, workerOff 30, .complete, workerOff 90] (by decide) (by decide +kernel)
    (by decide +kernel)

/-- A worker that is off uses its three attempts up and is suspended. It comes back but is not
ready, and is repaired for the fourth time. -/
theorem fourth_attempt_on_worker :
    Along (step repairingPlatform.reconciler)
      (NeverFreeForLong repairingPlatform.reconciler "demo-default-0") {}
      [workerOff 0, .complete, workerOff 30, .complete, workerOff 90, .complete,
        workerNotReady 92, workerNotReady 102] ∧
    (run (step repairingPlatform.reconciler) {}
      [workerOff 0, .complete, workerOff 30, .complete, workerOff 90, .complete,
        workerNotReady 92, workerNotReady 102]).tried.count "demo-default-0" = 4 ∧
    repairingPlatform.reconciler.repairPolicy.maxAttempts = 3 := by
  decide +kernel

/-! ### The quorum guard -/

section Quorum

variable (r : Reconciler) (s : Repairs)

/-- An observation says something about a machine: a snapshot that can be believed, or a reading
of its power. -/
def visible (c : Cluster) (obs : RepairObservation) (vm : String) : Bool :=
  sighted r c obs || (obs.powered.lookup vm).isSome

/-- The fault of a control plane in its latest observation that says something about it. -/
def knownFault (vm : String) : List (Cluster × RepairObservation) → Option NodeFault
  | [] => none
  | (c, obs) :: seen =>
    if vm ∉ (controlPlanesOf c).map (·.vmName) then none
    else if visible r c obs vm then (faults r c obs).lookup vm
    else knownFault vm seen

/-- **One member at a time**: a control plane of an HA cluster is rebuilt only where no other is
known to be faulty, and where as many members of etcd as there should be are counted, if any. -/
def GuardsQuorum : RepairInput → Prop
  | .observe c obs => c.ha → (s.planned r c obs).action = some .replace →
      (∀ n ∈ c.nodes, n.vmName = (s.planned r c obs).target → n.role = .controlPlane) →
      (∀ cp ∈ controlPlanesOf c, cp.vmName ≠ (s.planned r c obs).target →
        knownFault r cp.vmName ((c, obs) :: s.seen) = none) ∧
      ∀ e ∈ c.etcd, e.members ≤ 0 ∨ c.controlPlaneCount ≤ e.members
  | .complete => True

/-- No fault is recorded for a control plane that an observation says nothing about. -/
def SeesFaulty : RepairInput → Prop
  | .observe c obs => ∀ cp ∈ controlPlanesOf c, visible r c obs cp.vmName = false →
      (s.record.state cp.vmName).fault = none
  | .complete => True

instance (i : RepairInput) : Decidable (GuardsQuorum r s i) := by
  cases i <;> unfold GuardsQuorum <;> infer_instance

instance (i : RepairInput) : Decidable (SeesFaulty r s i) := by
  cases i <;> unfold SeesFaulty <;> infer_instance

/-- **The invariant**: what is known to be faulty is recorded as such. -/
private def RecordsKnown : Prop :=
  ∀ vm, knownFault r vm s.seen ≠ none → (s.record.state vm).fault ≠ none

variable {r s} {c : Cluster} {obs : RepairObservation} {vm : String}

private theorem RecordsKnown.observed (h : RecordsKnown r s)
    (hsees : SeesFaulty r s (.observe c obs))
    (hknown : knownFault r vm ((c, obs) :: s.seen) ≠ none) :
    ((s.observed r c obs).state vm).fault ≠ none := by
  unfold knownFault at hknown
  by_cases hcp : vm ∈ (controlPlanesOf c).map (·.vmName)
  · obtain ⟨cp, hmem, rfl⟩ := List.mem_map.mp hcp
    rw [if_neg (not_not.mpr hcp)] at hknown
    have hnode : cp.vmName ∈ c.nodes.map (·.vmName) :=
      List.mem_map_of_mem (List.mem_filter.mp hmem).1
    rw [fault_observed hnode]
    by_cases hvisible : visible r c obs cp.vmName
    · rwa [if_pos hvisible] at hknown
    · -- a control plane out of sight has no recorded fault, so none is known
      rw [if_neg hvisible] at hknown
      exact absurd (hsees cp hmem (Bool.eq_false_iff.mpr hvisible)) (h _ hknown)
  · rw [if_pos hcp] at hknown
    exact absurd rfl hknown

private theorem fault_step : ((s.step r (.observe c obs)).record.state vm).fault =
    ((s.observed r c obs).state vm).fault := by
  by_cases hvm : s.attempted r c obs = some vm
  · exact (state_step_of_attempted hvm).1
  · rw [state_step_of_ne hvm]

private theorem RecordsKnown.step (h : RecordsKnown r s) (i : RepairInput)
    (hsees : SeesFaulty r s i) : RecordsKnown r (s.step r i) := by
  cases i with
  | complete => exact h
  | observe c obs =>
    intro vm hknown
    rw [fault_step]
    exact h.observed hsees hknown

private theorem RecordsKnown.guardsQuorum (h : RecordsKnown r s) (i : RepairInput)
    (hsees : SeesFaulty r s i) : GuardsQuorum r s i := by
  cases i with
  | complete => trivial
  | observe c obs =>
    intro hha haction hrole
    obtain ⟨n, hn, fault, htarget, hlookup, hnext⟩ := RepairPolicy.plan_eq_some haction
    have hcontrol : n.role = .controlPlane := hrole n hn htarget.symm
    obtain ⟨hetcd, hone⟩ := RepairPolicy.quorum_of_destructiveAction
      (c := { c with repair := some (s.observed r c obs) }) hha hcontrol rfl
      (RepairPolicy.destructiveAction_of_nextAction hnext)
    refine ⟨fun cp hcp hne => ?_, hetcd⟩
    by_contra hknown
    have hfault : ((s.observed r c obs).state n.vmName).fault ≠ none := by
      have hnode : n.vmName ∈ c.nodes.map (·.vmName) := List.mem_map_of_mem hn
      rw [fault_observed hnode]
      exact hlookup ▸ Option.some_ne_none fault
    have hsame : cp = n :=
      hone cp hcp n (List.mem_filter.mpr ⟨hn, by simp [hcontrol]⟩) (h.observed hsees hknown) hfault
    exact hne (hsame ▸ htarget.symm)

end Quorum

/-- **When the quorum is guarded.** Along a run of observations from an empty record, no control
plane is rebuilt while another is known to be faulty, if no control plane with a recorded fault
gets out of sight: the guard reads the record, and an observation that says nothing about a
control plane takes its fault off the record. -/
theorem guardsQuorum_of_seesFaulty (r : Reconciler) (is : List RepairInput)
    (h : Along (step r) (SeesFaulty r) {} is) : Along (step r) (GuardsQuorum r) {} is :=
  h.of_invariant (I := RecordsKnown r)
    (fun _ i hknown hsees => ⟨hknown.step i hsees, hknown.guardsQuorum i hsees⟩)
    fun _ hknown => absurd rfl hknown

/-- The first control plane of three is off, and the hypervisor has no reading of the second. -/
def firstOff (minutes : Int) : RepairObservation where
  now := minutes * Duration.minute
  powered := (AList.singleton "demo-cp-0" false).insert "demo-cp-2" true

/-- The same, while the cluster answers and its second control plane is not ready. -/
def firstOffSighted (minutes : Int) : RepairObservation :=
  { sightedAt (upCluster 3) (minutes * Duration.minute) ["demo-cp-1"] with
    powered := (firstOff minutes).powered }

theorem guardsQuorum_inSight :
    (planned repairingPlatform.reconciler
        (run (step repairingPlatform.reconciler) {} [.observe (upCluster 3) (firstOff 0)])
        (upCluster 3) (firstOff 30)).action = some .replace ∧
    Along (step repairingPlatform.reconciler) (GuardsQuorum repairingPlatform.reconciler) {}
      [.observe (upCluster 3) (firstOff 0), .observe (upCluster 3) (firstOff 30)] :=
  ⟨by decide +kernel, guardsQuorum_of_seesFaulty _ _ (by decide +kernel)⟩

/-- The second control plane is seen to be down, and the first is not rebuilt. Then the cluster
stops answering: nothing is left of the fault of the second, and the first is rebuilt. -/
theorem quorum_unguarded_when_blind :
    (planned repairingPlatform.reconciler
        (run (step repairingPlatform.reconciler) {}
          [.observe (upCluster 3) (firstOff 0), .complete,
            .observe (upCluster 3) (firstOffSighted 30)])
        (upCluster 3) (firstOff 32)) =
      { target := "demo-cp-0", action := some .replace, fault := some .vmDown } ∧
    ¬Along (step repairingPlatform.reconciler) (GuardsQuorum repairingPlatform.reconciler) {}
      [.observe (upCluster 3) (firstOff 0), .complete,
        .observe (upCluster 3) (firstOffSighted 30), .observe (upCluster 3) (firstOff 32)] := by
  decide +kernel

end Repairs

end KaaS
