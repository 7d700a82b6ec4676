import KaaS.Domain.Repair
import Mathlib.Algebra.Order.Field.Basic
import Mathlib.Algebra.Order.Field.Rat

/-!
# What a repair plan promises

`RepairPolicy.plan` passes nine guards before it names a node. Here they are as **one condition on
the node and its record** (`Due`), independent of the order in which the code asks them, and what
the two breakers promise.

The breaker of a cluster counts the fault map, in which a name may stand that is no node of the
cluster, so it trips at least as early as the share of faulty nodes says. Both breakers are
switched off by a limit of zero: a share above **a positive limit** is what stops a plan.
-/

namespace KaaS

/-! ### The guards as a condition -/

def NodeFault.cheapAction : NodeFault → RepairAction
  | .vmDown => .powerOn
  | .missing => .rejoin
  | .notReady => .restartKubelet

/-- The grace period of a fault class; a machine that is off has none. -/
def RepairPolicy.grace (p : RepairPolicy) : NodeFault → Option Duration
  | .vmDown => none
  | .missing => some p.nodeStartupGrace
  | .notReady => some p.notReadyGrace

structure SoleControlPlane (c : Cluster) (n : Node) : Prop where
  role : n.role = .controlPlane
  single : c.controlPlaneCount ≤ 1

/-- Where no more control planes are recorded than there should be, it is the only one recorded. -/
theorem SoleControlPlane.eq {c : Cluster} {n m : Node} (h : SoleControlPlane c n) (hn : n ∈ c.nodes)
    (hcount : (controlPlanesOf c).length ≤ c.controlPlaneCount) (hm : m ∈ controlPlanesOf c) :
    m = n := by
  have hmem : n ∈ controlPlanesOf c := List.mem_filter.mpr ⟨hn, by simp [h.role]⟩
  have hsingle := h.single
  match hl : controlPlanesOf c with
  | [] => simp [hl] at hm
  | [only] =>
    rw [hl, List.mem_singleton] at hm hmem
    exact hm.trans hmem.symm
  | _ :: _ :: _ =>
    simp only [hl, List.length_cons] at hcount
    omega

/-- **The action is due**: the record lets it through, and it is the rung of the attempt. -/
structure Due (p : RepairPolicy) (c : Cluster) (n : Node) (st : NodeRepairState) (fault : NodeFault)
    (now since : Time) (a : RepairAction) : Prop where
  unsuspended : st.suspended = false
  attempts : st.attempts < p.maxAttempts
  backoff : ∀ t ∈ st.lastActionAt, p.backoffFor st.attempts ≤ now - t
  stamped : st.unhealthySince = some since
  cheap : st.attempts = 0 → a = fault.cheapAction ∧ ∀ d ∈ p.grace fault, d ≤ now - since
  last : st.attempts ≠ 0 → p.replaceAfter ≤ now - since ∧ p.replace = true ∧
    (a = .replace ∨ a = .restore ∧ p.restore = true ∧ SoleControlPlane c n)

section Guards

variable {p : RepairPolicy} {c : Cluster} {n : Node} {st : NodeRepairState} {fault : NodeFault}
  {now since : Time} {a : RepairAction}

private theorem of_destructiveAction (h : p.destructiveAction c n = some a) :
    p.replace = true ∧ (a = .replace ∨ a = .restore ∧ p.restore = true ∧ SoleControlPlane c n) := by
  unfold RepairPolicy.destructiveAction at h
  split_ifs at h with hreplace hrole hha hrestore
  · exact ⟨by simpa using hreplace, .inl (Option.some.inj h).symm⟩
  · have hsingle : c.controlPlaneCount ≤ 1 := by
      simpa [Cluster.ha] using hha
    exact ⟨by simpa using hreplace, .inr ⟨(Option.some.inj h).symm, by simpa using hrestore,
      not_not.mp hrole, hsingle⟩⟩
  · exact ⟨by simpa using hreplace, .inl (Option.some.inj h).symm⟩

private theorem cheap_eq_some {elapsed : Duration} :
    (match fault with
      | .vmDown => some RepairAction.powerOn
      | .missing => if elapsed < p.nodeStartupGrace then none else some .rejoin
      | .notReady => if elapsed < p.notReadyGrace then none else some .restartKubelet) = some a ↔
      a = fault.cheapAction ∧ ∀ d ∈ p.grace fault, d ≤ elapsed := by
  cases fault <;> simp [NodeFault.cheapAction, RepairPolicy.grace, eq_comm, and_comm]

/-- **The guards, passed**: what `nextAction` chooses is due. -/
theorem due_of_nextAction (h : p.nextAction c n st fault now = some a) :
    ∃ since, Due p c n st fault now since a := by
  unfold RepairPolicy.nextAction at h
  by_cases hsuspended : st.suspended = true
  · simp [hsuspended] at h
  rw [if_neg hsuspended] at h
  by_cases hattempts : st.attempts ≥ p.maxAttempts
  · simp [hattempts] at h
  rw [if_neg hattempts] at h
  by_cases hbackoff : (st.lastActionAt.any fun t =>
      decide (now - t < p.backoffFor st.attempts)) = true
  · simp [hbackoff] at h
  rw [if_neg hbackoff] at h
  have hwait : ∀ t ∈ st.lastActionAt, p.backoffFor st.attempts ≤ now - t := by
    intro t ht
    rw [Option.mem_def.mp ht] at hbackoff
    simpa using hbackoff
  cases hsince : st.unhealthySince with
  | none => simp [hsince] at h
  | some since =>
    simp only [hsince] at h
    refine ⟨since, by simpa using hsuspended, not_le.mp hattempts, hwait, hsince, fun hzero => ?_,
      fun hnonzero => ?_⟩
    · rw [if_pos hzero] at h
      exact cheap_eq_some.mp h
    · rw [if_neg hnonzero] at h
      split_ifs at h with helapsed
      exact ⟨not_lt.mp helapsed, of_destructiveAction h⟩

theorem nextAction_of_due (hrole : n.role ≠ .controlPlane) (h : Due p c n st fault now since a) :
    p.nextAction c n st fault now = some a := by
  have hbackoff : (st.lastActionAt.any fun t => decide (now - t < p.backoffFor st.attempts)) =
      false := by
    cases hlast : st.lastActionAt with
    | none => rfl
    | some t => exact decide_eq_false (not_lt.mpr (h.backoff t hlast))
  unfold RepairPolicy.nextAction
  rw [if_neg (by simp [h.unsuspended]), if_neg (not_le.mpr h.attempts), hbackoff,
    if_neg (by simp), h.stamped]
  dsimp only
  by_cases hzero : st.attempts = 0
  · rw [if_pos hzero]
    exact cheap_eq_some.mpr (h.cheap hzero)
  · obtain ⟨helapsed, hreplace, hlast⟩ := h.last hzero
    rw [if_neg hzero, if_neg (not_lt.mpr helapsed)]
    rcases hlast with rfl | ⟨-, -, hsole⟩
    · simp [RepairPolicy.destructiveAction, hreplace, hrole]
    · exact absurd hsole.role hrole

end Guards

/-! ### The node that is chosen -/

section Choice

variable {p : RepairPolicy} {c : Cluster} {faults : Faults} {obs : RepairObservation} {now : Time}
  {a : RepairAction}

private theorem planFor_eq_some {l : List Node} (h : (p.planFor c faults now l).action = some a) :
    ∃ before n after fault, l = before ++ n :: after ∧
      p.planFor c faults now l = ⟨n.vmName, some a, some fault⟩ ∧
      faults.lookup n.vmName = some fault ∧
      p.nextAction c n (c.repairState.state n.vmName) fault now = some a ∧
      ∀ m ∈ before, ∀ f, faults.lookup m.vmName = some f →
        p.nextAction c m (c.repairState.state m.vmName) f now = none := by
  induction l with
  | nil => simp [RepairPolicy.planFor] at h
  | cons n rest ih =>
    -- nothing is due for this node: the choice is made in the rest
    have hskip (hnone : ∀ f, faults.lookup n.vmName = some f →
        p.nextAction c n (c.repairState.state n.vmName) f now = none)
        (heq : p.planFor c faults now (n :: rest) = p.planFor c faults now rest) :
        ∃ before m after fault, n :: rest = before ++ m :: after ∧
          p.planFor c faults now (n :: rest) = ⟨m.vmName, some a, some fault⟩ ∧
          faults.lookup m.vmName = some fault ∧
          p.nextAction c m (c.repairState.state m.vmName) fault now = some a ∧
          ∀ k ∈ before, ∀ f, faults.lookup k.vmName = some f →
            p.nextAction c k (c.repairState.state k.vmName) f now = none := by
      rw [heq] at h
      obtain ⟨before, m, after, fault, hrest, hplan, hfault, haction, hbefore⟩ := ih h
      exact ⟨n :: before, m, after, fault, by rw [hrest]; rfl, heq.trans hplan, hfault, haction,
        List.forall_mem_cons.mpr ⟨hnone, hbefore⟩⟩
    cases hfault : faults.lookup n.vmName with
    | none => exact hskip (by simp [hfault]) (by simp [RepairPolicy.planFor, hfault])
    | some fault =>
      cases haction : p.nextAction c n (c.repairState.state n.vmName) fault now with
      | none =>
        refine hskip (fun f hf => ?_) (by simp [RepairPolicy.planFor, hfault, haction])
        obtain rfl := Option.some.inj (hfault.symm.trans hf)
        exact haction
      | some b =>
        have hplan : p.planFor c faults now (n :: rest) = ⟨n.vmName, some b, some fault⟩ := by
          simp [RepairPolicy.planFor, hfault, haction]
        rw [hplan] at h
        obtain rfl := Option.some.inj h
        exact ⟨[], n, rest, fault, rfl, hplan, hfault, haction, by simp⟩

theorem plan_eq_planFor (h : (p.plan c obs faults).action = some a) :
    p.plan c obs faults = p.planFor c faults obs.now (workersOf c ++ controlPlanesOf c) := by
  unfold RepairPolicy.plan at h ⊢
  split_ifs at h ⊢
  rfl

/-- **Workers first**: a control plane is chosen only where no worker has an action. -/
theorem exists_node_of_plan (h : (p.plan c obs faults).action = some a) :
    ∃ n ∈ c.nodes, ∃ fault, p.plan c obs faults = ⟨n.vmName, some a, some fault⟩ ∧
      faults.lookup n.vmName = some fault ∧
      p.nextAction c n (c.repairState.state n.vmName) fault obs.now = some a ∧
      (n.role = .controlPlane → ∀ w ∈ c.nodes, w.role ≠ .controlPlane → ∀ f,
        faults.lookup w.vmName = some f →
        p.nextAction c w (c.repairState.state w.vmName) f obs.now = none) := by
  have heq := plan_eq_planFor h
  rw [heq] at h ⊢
  obtain ⟨before, n, after, fault, hsplit, hplan, hfault, haction, hbefore⟩ := planFor_eq_some h
  have hmem : n ∈ workersOf c ++ controlPlanesOf c := by simp [hsplit]
  have hnode : n ∈ c.nodes :=
    (List.mem_append.mp hmem).elim (List.mem_filter.mp · |>.1) (List.mem_filter.mp · |>.1)
  refine ⟨n, hnode, fault, hplan, hfault, haction, fun hrole w hw hworker f hf => ?_⟩
  refine hbefore w ?_ f hf
  -- all workers stand before the first control plane
  have hwmem : w ∈ workersOf c := List.mem_filter.mpr ⟨hw, by simpa using hworker⟩
  rcases List.append_eq_append_iff.mp hsplit with ⟨mid, rfl, -⟩ | ⟨mid, hworkers, hcps⟩
  · exact List.mem_append_left _ hwmem
  · cases mid with
    | nil =>
      rw [List.append_nil] at hworkers
      exact hworkers ▸ hwmem
    | cons x mid =>
      obtain ⟨rfl, -⟩ := List.cons.inj hcps
      have : n ∈ workersOf c := by simp [hworkers]
      exact absurd hrole (by simpa using (List.mem_filter.mp this).2)

end Choice

/-! ### The breakers -/

def faultyNodes (c : Cluster) (faults : Faults) : List String :=
  (c.nodes.map (·.vmName)).dedup.filter fun vm => (faults.lookup vm).isSome

/-- **Too much is broken**: of the nodes of the cluster, or of the fleet, a larger share than a
positive limit, and at least two. -/
def TooManyFaults (p : RepairPolicy) (c : Cluster) (obs : RepairObservation) (faults : Faults) :
    Prop :=
  (0 < p.maxUnhealthyFraction ∧ 2 ≤ (faultyNodes c faults).length ∧
    p.maxUnhealthyFraction < ((faultyNodes c faults).length : ℚ) / c.nodes.length) ∨
  (0 < p.maxUnhealthyClusters ∧ 2 ≤ obs.fleetUnhealthyN ∧
    p.maxUnhealthyClusters < obs.fleetUnhealthy)

theorem length_faultyNodes_le (c : Cluster) (faults : Faults) :
    (faultyNodes c faults).length ≤ faults.keys.length := by
  refine (List.subperm_of_subset ((List.nodup_dedup _).filter _) fun vm hvm => ?_).length_le
  have hlookup := (List.mem_filter.mp hvm).2
  exact AList.lookup_isSome.mp hlookup

/-- **The breakers**: with too many faults there is no plan. -/
theorem plan_of_tooManyFaults {p : RepairPolicy} {c : Cluster} {obs : RepairObservation}
    {faults : Faults} (h : TooManyFaults p c obs faults) : p.plan c obs faults = {} := by
  have hle := length_faultyNodes_le c faults
  unfold RepairPolicy.plan
  split_ifs with henabled hfleet hnone hnodes
  · rfl
  · rfl
  · rfl
  · rfl
  · exfalso
    rcases h with ⟨hlimit, htwo, hshare⟩ | ⟨hlimit, htwo, hshare⟩
    · have hne : c.nodes ≠ [] := by
        rintro hnil
        simp [faultyNodes, hnil] at htwo
      have hcast : ((faultyNodes c faults).length : ℚ) ≤ faults.keys.length := by exact_mod_cast hle
      have hcounted : ((faultyNodes c faults).length : ℚ) / c.nodes.length ≤
          (faults.keys.length : ℚ) / c.nodes.length :=
        div_le_div_of_nonneg_right hcast (Nat.cast_nonneg _)
      exact hnodes ⟨hne, hlimit, by omega, hshare.trans_le hcounted⟩
    · exact hfleet ⟨hlimit, htwo, hshare⟩

/-! ### Plans -/

def Cluster.observed (c : Cluster) (p : RepairPolicy) (obs : RepairObservation) : Cluster :=
  { c with repair := some (mergeFaults c.repairState c (observeFaults c obs p).1 p obs.now) }

/-- **What a plan is**: it is for a node of the cluster that is faulty now and has the action due,
no worker is passed over for a control plane, and there is none when too much is broken. -/
theorem plan_sound (p : RepairPolicy) (c : Cluster) (obs : RepairObservation) :
    (∀ a, (p.plan (c.observed p obs) obs (observeFaults c obs p).1).action = some a →
      ∃ n ∈ c.nodes, ∃ fault since,
        p.plan (c.observed p obs) obs (observeFaults c obs p).1 =
          ⟨n.vmName, some a, some fault⟩ ∧
        (observeFaults c obs p).1.lookup n.vmName = some fault ∧
        Due p (c.observed p obs) n ((c.observed p obs).repairState.state n.vmName) fault obs.now
          since a ∧
        (a = .restore → (controlPlanesOf c).length ≤ c.controlPlaneCount →
          ∀ m ∈ controlPlanesOf c, m = n) ∧
        (n.role = .controlPlane → ∀ w ∈ c.nodes, w.role = .worker → ∀ f,
          (observeFaults c obs p).1.lookup w.vmName = some f → ∀ since' a',
          ¬Due p (c.observed p obs) w ((c.observed p obs).repairState.state w.vmName) f obs.now
            since' a')) ∧
    (TooManyFaults p c obs (observeFaults c obs p).1 →
      p.plan (c.observed p obs) obs (observeFaults c obs p).1 = {}) := by
  refine ⟨fun a ha => ?_, fun h => plan_of_tooManyFaults (c := c.observed p obs) h⟩
  obtain ⟨n, hn, fault, hplan, hfault, haction, hworkers⟩ := exists_node_of_plan ha
  obtain ⟨since, hdue⟩ := due_of_nextAction haction
  refine ⟨n, hn, fault, since, hplan, hfault, hdue, fun hrestore hcount m hm => ?_,
    fun hrole w hw hworker f hf since' a' hdue' => ?_⟩
  · have hsole : SoleControlPlane (c.observed p obs) n := by
      subst hrestore
      by_cases hzero : ((c.observed p obs).repairState.state n.vmName).attempts = 0
      · cases fault <;> exact absurd (hdue.cheap hzero).1 (by simp [NodeFault.cheapAction])
      · obtain ⟨-, -, hlast⟩ := hdue.last hzero
        exact (hlast.resolve_left (by simp)).2.2
    exact hsole.eq hn hcount hm
  have hnot : w.role ≠ .controlPlane := by simp [hworker]
  have hsome := nextAction_of_due hnot hdue'
  rw [hworkers hrole w hw hnot f hf] at hsome
  simp at hsome

/-- A control plane and two workers, at rest. -/
def repairRow : Cluster :=
  { name := "demo"
    size := "small"
    controlPlanes := 1
    nodes := [
      { vmName := "demo-cp-0", role := .controlPlane, ip := "10.0.0.2" },
      { vmName := "demo-default-0", role := .worker, ip := "10.0.0.3" },
      { vmName := "demo-default-1", role := .worker, ip := "10.0.0.4" }] }

/-- The hypervisor says of these machines that they are off. -/
def machinesOff (vms : List String) : RepairObservation where
  powered := vms.foldl (fun m vm => m.insert vm false) ∅

theorem plan_sound_powerOn :
    ∃ n ∈ repairRow.nodes, ∃ fault, defaultRepairPolicy.plan
      (repairRow.observed defaultRepairPolicy (machinesOff ["demo-default-0"]))
      (machinesOff ["demo-default-0"])
      (observeFaults repairRow (machinesOff ["demo-default-0"]) defaultRepairPolicy).1 =
        ⟨n.vmName, some .powerOn, some fault⟩ := by
  obtain ⟨n, hn, fault, -, hplan, -⟩ := (plan_sound defaultRepairPolicy repairRow
    (machinesOff ["demo-default-0"])).1 .powerOn (by decide +kernel)
  exact ⟨n, hn, fault, hplan⟩

/-- A limit of zero does not stop a repair with all workers down. -/
theorem plan_above_zero_limit :
    let p := { defaultRepairPolicy with maxUnhealthyFraction := 0 }
    let obs := machinesOff ["demo-default-0", "demo-default-1"]
    let faults := (observeFaults repairRow obs p).1
    (faultyNodes repairRow faults).length = 2 ∧
    p.maxUnhealthyFraction < ((faultyNodes repairRow faults).length : ℚ) / repairRow.nodes.length ∧
    (p.plan (repairRow.observed p obs) obs faults).action = some .powerOn := by
  decide +kernel

end KaaS
