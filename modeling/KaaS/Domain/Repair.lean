import KaaS.Domain.Maintenance
import KaaS.Library.Assoc
import Mathlib.Data.List.Dedup

/-!
# Automatic repair: observing and deciding

Repair folds two independent views of a cluster into faults per node: what the hypervisor
says about its machines and what the last health snapshot says about its nodes
(`observeFaults`). The record of a cluster (`ClusterRepair`) carries the faults over time
(`mergeFaults`), and `RepairPolicy.plan` decides on at most one action on one node.

The texts of the health panel and of the log are not part of the model.
-/

namespace KaaS

/-! ### Health snapshots -/

inductive HealthStatus
  | unknown | healthy | degraded | unhealthy
  deriving DecidableEq

/-- The checks of the health panel; `apiServer` is the one repair reads. -/
inductive CheckID
  | apiServer | nodesReady | systemWorkloads | scheduling | etcd | etcdStore | addons | certs
  | backup | repair
  deriving DecidableEq

structure HealthCheck where
  id : CheckID
  status : HealthStatus
  deriving DecidableEq

structure NodeHealth where
  nodeName : String := ""
  ready : Bool := false
  cordoned : Bool := false
  pressures : List String := []
  deriving DecidableEq

structure HealthSnapshot where
  clusterID : String := ""
  status : HealthStatus := .unknown
  checks : List HealthCheck := []
  nodes : List NodeHealth := []
  collectedAt : Time := 0
  deriving DecidableEq

def HealthStatus.rank : HealthStatus → Nat
  | unknown => 0
  | healthy => 1
  | degraded => 2
  | unhealthy => 3

def rollupHealth (checks : List HealthCheck) : HealthStatus :=
  checks.foldl (fun worst c =>
    if c.status = .unknown then worst
    else if worst = .unknown ∨ c.status.rank > worst.rank then c.status
    else worst) .unknown

/-! ### The record of a cluster -/

structure RepairPolicy where
  enabled : Bool := false
  replace : Bool := false
  restore : Bool := false
  observeInterval : Duration := 0
  healthMaxAge : Duration := 0
  notReadyGrace : Duration := 0
  nodeStartupGrace : Duration := 0
  replaceAfter : Duration := 0
  maxUnhealthyFraction : ℚ := 0
  maxUnhealthyClusters : ℚ := 0
  maxAttempts : Int := 0
  backoff : Duration := 0

/-- The policy of a deployment that configures none of it. -/
def defaultRepairPolicy : RepairPolicy where
  enabled := true
  replace := true
  restore := true
  observeInterval := 2 * .minute
  healthMaxAge := .minute
  notReadyGrace := 10 * .minute
  nodeStartupGrace := 20 * .minute
  replaceAfter := 30 * .minute
  maxUnhealthyFraction := 1 / 2
  maxUnhealthyClusters := 1 / 2
  maxAttempts := 3
  backoff := 30 * .minute

/-- What a decision is taken on. `powered` is empty on a backend that does not report power. -/
structure RepairObservation where
  health : Option HealthSnapshot := none
  powered : AList (fun _ : String => Bool) := ∅
  fleetUnhealthy : ℚ := 0
  fleetUnhealthyN : Int := 0
  now : Time := 0

structure RepairPlan where
  target : String := ""
  action : Option RepairAction := none
  fault : Option NodeFault := none
  deriving DecidableEq

def RepairPlan.act (p : RepairPlan) : Bool := p.target != "" && p.action.isSome

abbrev Faults := AList (fun _ : String => NodeFault)

def Cluster.repairState (c : Cluster) : ClusterRepair := c.repair.getD {}

namespace ClusterRepair

def state (r : ClusterRepair) (vm : String) : NodeRepairState := (r.nodes.lookup vm).getD {}

def inFlight (r : ClusterRepair) : Bool := r.target != "" && r.action.isSome

def completeAttempt (r : ClusterRepair) : ClusterRepair := { r with target := "", action := none }

end ClusterRepair

namespace RepairPolicy

def repairObservationDue (p : RepairPolicy) (r : Option ClusterRepair) (now : Time) : Bool :=
  p.enabled &&
    match r.bind (·.observedAt) with
    | none => true
    | some t => decide (now - t ≥ p.observeInterval)

def flapWindow (p : RepairPolicy) : Duration :=
  if p.backoff ≤ 0 then .hour else 4 * p.backoff

end RepairPolicy

def Cluster.repairDue (c : Cluster) (p : RepairPolicy) (now : Time) : Bool :=
  c.converged && p.repairObservationDue c.repair now

/-! ### Observing -/

/-- The API server is down, or the snapshot does not say. -/
def apiServerUnreachable (s : HealthSnapshot) : Bool :=
  match s.checks.find? (·.id == .apiServer) with
  | some ch => ch.status == .unhealthy
  | none => true

/-- The faults the hypervisor reports: machines it knows to be off. -/
def powerFaults (c : Cluster) (obs : RepairObservation) : Faults :=
  c.nodes.foldl (fun faults n =>
    if obs.powered.lookup n.vmName = some false then faults.insert n.vmName .vmDown
    else faults) ∅

/-- The nodes the snapshot lists as not ready, unless they have a fault already. -/
def notReadyFaults (faults : Faults) (nodes : List NodeHealth) : Faults :=
  nodes.foldl (fun faults nh =>
    if !nh.ready && (faults.lookup nh.nodeName).isNone then
      faults.insert nh.nodeName .notReady
    else faults) faults

/-- The machines that have an address but that no entry of the snapshot names. -/
def missingFaults (c : Cluster) (faults : Faults) (nodes : List NodeHealth) : Faults :=
  c.nodes.foldl (fun faults n =>
    if n.ip = "" ∨ n.vmName ∈ nodes.map (·.nodeName) then faults
    else if (faults.lookup n.vmName).isNone then faults.insert n.vmName .missing
    else faults) faults

def observeFaults (c : Cluster) (obs : RepairObservation) (p : RepairPolicy) : Faults × Bool :=
  let faults := powerFaults c obs
  match obs.health with
  | none => (faults, false)
  | some h =>
    if obs.now - h.collectedAt ≤ p.healthMaxAge ∧ !apiServerUnreachable h then
      (missingFaults c (notReadyFaults faults h.nodes) h.nodes, true)
    else (faults, false)

theorem lookup_powerFaults {c : Cluster} {obs : RepairObservation} {vm : String} :
    (powerFaults c obs).lookup vm =
      if ∃ n ∈ c.nodes, n.vmName = vm ∧ obs.powered.lookup vm = some false then some .vmDown
      else none := by
  refine AList.lookup_foldl_overwrite (fun m n => ?_) c.nodes ∅
  by_cases hn : n.vmName = vm
  · subst hn
    by_cases hp : obs.powered.lookup n.vmName = some false <;> simp [hp]
  · split_ifs <;> simp_all [AList.lookup_insert_ne (Ne.symm hn)]

theorem lookup_missingFaults {c : Cluster} {faults : Faults} {nodes : List NodeHealth}
    {vm : String} :
    (missingFaults c faults nodes).lookup vm =
      (faults.lookup vm).or
        (if ∃ n ∈ c.nodes, n.vmName = vm ∧ n.ip ≠ "" ∧ vm ∉ nodes.map (·.nodeName) then
          some .missing else none) := by
  refine AList.lookup_foldl_fill (fun m n => ?_) c.nodes faults
  by_cases hn : n.vmName = vm
  · subst hn
    by_cases hsafe : n.ip = "" ∨ n.vmName ∈ nodes.map (·.nodeName)
    · rw [if_pos hsafe, if_neg (by tauto), Option.or_none]
    · rw [if_neg hsafe]
      cases hf : m.lookup n.vmName <;> simp_all
  · split_ifs <;> simp_all [AList.lookup_insert_ne (Ne.symm hn)]

/-! ### Carrying faults over time -/

/-- How one node's state takes up an observation; `none` drops it. -/
def mergeFault (p : RepairPolicy) (now : Time) (st : NodeRepairState) :
    Option NodeFault → Option NodeRepairState
  | none =>
    if st.fault = none then
      if st.repairedAt.any fun t => decide (now - t > p.flapWindow) then none else some st
    else
      some { repairedAt := some now, attempts := st.attempts,
             note := if st.attempts > 0 then "recovered after " ++ toString st.attempts ++
               " repair attempt(s)" else "" }
  | some fault =>
    if st.fault = some fault ∧ st.unhealthySince.isSome then some st
    else
      let carried :=
        if st.repairedAt.any fun t => decide (now - t ≤ p.flapWindow) then st.attempts else 0
      some { fault := some fault, unhealthySince := some now, attempts := carried,
             note := if carried > 0 then "re-failed within " ++ humanDuration p.flapWindow ++
               " of a repair" else "" }

theorem fault_mergeFault (p : RepairPolicy) (now : Time) (st : NodeRepairState)
    (fault : Option NodeFault) : ((mergeFault p now st fault).getD {}).fault = fault := by
  unfold mergeFault
  cases fault with
  | none =>
    dsimp only
    split_ifs with hfault
    · rfl
    · exact hfault
    all_goals rfl
  | some fault =>
    dsimp only
    split_ifs with hsame
    · exact hsame.1
    all_goals rfl

/-- A node without a fault keeps its attempts while its recovery is recent, and the recovery is the
first observation without one. -/
theorem mergeFault_none_of_recent {p : RepairPolicy} {now : Time} {st : NodeRepairState}
    (h : st.fault = none → ∀ t ∈ st.repairedAt, now - t ≤ p.flapWindow) :
    ((mergeFault p now st none).getD {}).attempts = st.attempts ∧
    ((mergeFault p now st none).getD {}).repairedAt =
      if st.fault = none then st.repairedAt else some now := by
  simp only [mergeFault]
  by_cases hfault : st.fault = none
  · have hrecent : (st.repairedAt.any fun t => decide (now - t > p.flapWindow)) = false := by
      cases hrepaired : st.repairedAt with
      | none => rfl
      | some t => exact decide_eq_false (not_lt.mpr (h hfault t hrepaired))
    simp [hfault, hrecent]
  · simp [hfault]

theorem attempts_mergeFault_some {p : RepairPolicy} {now : Time} {st : NodeRepairState}
    {fault : NodeFault} (hsince : st.fault = some fault → st.unhealthySince.isSome)
    (h : st.fault = some fault ∨ st.attempts = 0 ∨
      ∃ t ∈ st.repairedAt, now - t ≤ p.flapWindow) :
    ((mergeFault p now st (some fault)).getD {}).attempts = st.attempts := by
  simp only [mergeFault]
  by_cases hfault : st.fault = some fault
  · rw [if_pos ⟨hfault, hsince hfault⟩]
    rfl
  · rw [if_neg fun hsame => hfault hsame.1]
    rcases h.resolve_left hfault with hzero | ⟨t, ht, hrecent⟩
    · simp [hzero]
    · have hany : (st.repairedAt.any fun t => decide (now - t ≤ p.flapWindow)) = true := by
        rw [Option.mem_def.mp ht]
        exact decide_eq_true hrecent
      rw [hany]
      rfl

/-- Fold an observation into the record: states of machines that are gone are dropped, and
each machine of the cluster takes up its fault or the absence of one. -/
def mergeFaults (r : ClusterRepair) (c : Cluster) (faults : Faults) (p : RepairPolicy)
    (now : Time) : ClusterRepair :=
  let live := (c.nodes.map (·.vmName)).dedup
  { r with
    nodes := live.foldl (fun m vm =>
      match mergeFault p now (r.state vm) (faults.lookup vm) with
      | some st => m.insert vm st
      | none => m) ∅ }

theorem lookup_mergeFaults (r : ClusterRepair) (c : Cluster) (faults : Faults) (p : RepairPolicy)
    (now : Time) (vm : String) :
    (mergeFaults r c faults p now).nodes.lookup vm =
      if vm ∈ c.nodes.map (·.vmName) then mergeFault p now (r.state vm) (faults.lookup vm)
      else none := by
  have hfold (m : AList fun _ : String => NodeRepairState) (a : String) :
      (match mergeFault p now (r.state a) (faults.lookup a) with
        | some st => m.insert a st
        | none => m).lookup vm =
      if a = vm then (mergeFault p now (r.state vm) (faults.lookup vm)).or (m.lookup vm)
      else m.lookup vm := by
    by_cases ha : a = vm
    · subst ha
      cases mergeFault p now (r.state a) (faults.lookup a) <;> simp
    · cases mergeFault p now (r.state a) (faults.lookup a) <;>
        simp [ha, AList.lookup_insert_ne (Ne.symm ha)]
  rw [mergeFaults, AList.lookup_foldl_some hfold]
  simp only [List.mem_dedup, AList.lookup_empty, Option.or_none]

theorem state_mergeFaults {r : ClusterRepair} {c : Cluster} {faults : Faults} {p : RepairPolicy}
    {now : Time} {vm : String} (h : vm ∈ c.nodes.map (·.vmName)) :
    (mergeFaults r c faults p now).state vm =
      (mergeFault p now (r.state vm) (faults.lookup vm)).getD {} := by
  rw [ClusterRepair.state, lookup_mergeFaults, if_pos h]

/-! ### Deciding -/

def workersOf (c : Cluster) : List Node := c.nodes.filter (·.role != .controlPlane)

def controlPlanesOf (c : Cluster) : List Node := c.nodes.filter (·.role == .controlPlane)

namespace RepairPolicy

variable (p : RepairPolicy)

/-- The doubling of `backoffFor`, at most `n` times and up to a day. -/
def backoffLoop (d : Duration) : Nat → Duration
  | 0 => d
  | n + 1 => if d < 24 * .hour then backoffLoop (d * 2) n else d

def backoffFor (attempts : Int) : Duration :=
  if p.backoff ≤ 0 ∨ attempts ≤ 0 then 0
  else min (backoffLoop p.backoff (attempts - 1).toNat) (24 * .hour)

/-- The last rung: rebuild the node, or restore a sole control plane from a snapshot. -/
def destructiveAction (c : Cluster) (n : Node) : Option RepairAction :=
  if !p.replace then none
  else if n.role ≠ .controlPlane then some .replace
  else if !c.ha then
    if !p.restore then none else some .restore
  else if c.etcd.any fun e => decide (e.members > 0 ∧ e.members < c.controlPlaneCount) then none
  else if c.repair.any fun r => decide (1 < ((controlPlanesOf c).filter fun cp =>
      ((r.nodes.lookup cp.vmName).bind (·.fault)).isSome).length) then none
  else some .replace

def nextAction (c : Cluster) (n : Node) (st : NodeRepairState) (fault : NodeFault)
    (now : Time) : Option RepairAction :=
  if st.suspended then none
  else if st.attempts ≥ p.maxAttempts then none
  else if st.lastActionAt.any fun t => decide (now - t < p.backoffFor st.attempts) then none
  else match st.unhealthySince with
    | none => none
    | some since =>
      let elapsed := now - since
      if st.attempts = 0 then
        match fault with
        | .vmDown => some .powerOn
        | .missing => if elapsed < p.nodeStartupGrace then none else some .rejoin
        | .notReady => if elapsed < p.notReadyGrace then none else some .restartKubelet
      else if elapsed < p.replaceAfter then none
      else p.destructiveAction c n

/-- The first node, workers before control planes, that is faulty and has an action due. -/
def planFor (c : Cluster) (faults : Faults) (now : Time) : List Node → RepairPlan
  | [] => {}
  | n :: rest =>
    match faults.lookup n.vmName with
    | none => planFor c faults now rest
    | some fault =>
      match p.nextAction c n (c.repairState.state n.vmName) fault now with
      | none => planFor c faults now rest
      | some action => { target := n.vmName, action := some action, fault := some fault }

def plan (c : Cluster) (obs : RepairObservation) (faults : Faults) : RepairPlan :=
  if !p.enabled then {}
  else if p.maxUnhealthyClusters > 0 ∧ obs.fleetUnhealthyN ≥ 2 ∧
      obs.fleetUnhealthy > p.maxUnhealthyClusters then {}
  else if faults.keys = [] then {}
  else if c.nodes ≠ [] ∧ p.maxUnhealthyFraction > 0 ∧ faults.keys.length > 1 ∧
      (faults.keys.length : ℚ) / c.nodes.length > p.maxUnhealthyFraction then {}
  else p.planFor c faults obs.now (workersOf c ++ controlPlanesOf c)

variable {p}

/-- **Inversion of the plan**: it is for a faulty machine whose own next action it is. -/
theorem plan_eq_some {c : Cluster} {obs : RepairObservation} {faults : Faults} {a : RepairAction}
    (h : (p.plan c obs faults).action = some a) :
    ∃ n ∈ c.nodes, ∃ fault, (p.plan c obs faults).target = n.vmName ∧
      faults.lookup n.vmName = some fault ∧
      p.nextAction c n (c.repairState.state n.vmName) fault obs.now = some a := by
  have hfor (l : List Node) (hl : (p.planFor c faults obs.now l).action = some a) :
      ∃ n ∈ l, ∃ fault, (p.planFor c faults obs.now l).target = n.vmName ∧
        faults.lookup n.vmName = some fault ∧
        p.nextAction c n (c.repairState.state n.vmName) fault obs.now = some a := by
    induction l with
    | nil => simp [planFor] at hl
    | cons n rest ih =>
      unfold planFor at hl ⊢
      cases hfault : faults.lookup n.vmName with
      | none =>
        rw [hfault] at hl
        obtain ⟨m, hm, hfound⟩ := ih hl
        exact ⟨m, List.mem_cons_of_mem n hm, hfound⟩
      | some fault =>
        rw [hfault] at hl
        dsimp only at hl ⊢
        cases haction : p.nextAction c n (c.repairState.state n.vmName) fault obs.now with
        | none =>
          rw [haction] at hl
          obtain ⟨m, hm, hfound⟩ := ih hl
          exact ⟨m, List.mem_cons_of_mem n hm, hfound⟩
        | some action =>
          rw [haction] at hl
          obtain rfl : action = a := Option.some.inj hl
          exact ⟨n, List.mem_cons_self, fault, rfl, hfault, haction⟩
  unfold plan at h ⊢
  split_ifs at h ⊢
  case neg =>
    obtain ⟨n, hn, hfound⟩ := hfor _ h
    refine ⟨n, ?_, hfound⟩
    exact (List.mem_append.mp hn).elim (List.mem_filter.mp · |>.1) (List.mem_filter.mp · |>.1)

theorem attempts_lt_of_nextAction {c : Cluster} {n : Node} {st : NodeRepairState}
    {fault : NodeFault} {now : Time} {a : RepairAction}
    (h : p.nextAction c n st fault now = some a) : st.attempts < p.maxAttempts := by
  by_contra hle
  simp [nextAction, not_lt.mp hle] at h

theorem destructiveAction_of_nextAction {c : Cluster} {n : Node} {st : NodeRepairState}
    {fault : NodeFault} {now : Time} (h : p.nextAction c n st fault now = some .replace) :
    p.destructiveAction c n = some .replace := by
  unfold nextAction at h
  iterate 3
    split at h
    · simp at h
  cases hsince : st.unhealthySince with
  | none => simp [hsince] at h
  | some since =>
    simp only [hsince] at h
    by_cases hfirst : st.attempts = 0
    · -- the first rung never rebuilds
      rw [if_pos hfirst] at h
      cases fault with
      | vmDown => simp at h
      | missing | notReady =>
        dsimp only at h
        split_ifs at h
        simp at h
    · rw [if_neg hfirst] at h
      split_ifs at h
      exact h

/-- **What the quorum guard checks** before a control plane of an HA cluster is rebuilt: etcd counts
no member as missing, and the record has no second control plane with a fault. -/
theorem quorum_of_destructiveAction {c : Cluster} {n : Node} {rs : ClusterRepair} (hha : c.ha)
    (hrole : n.role = .controlPlane) (hrepair : c.repair = some rs)
    (h : p.destructiveAction c n = some .replace) :
    (∀ e ∈ c.etcd, e.members ≤ 0 ∨ c.controlPlaneCount ≤ e.members) ∧
    ∀ cp ∈ controlPlanesOf c, ∀ cp' ∈ controlPlanesOf c,
      (rs.state cp.vmName).fault ≠ none → (rs.state cp'.vmName).fault ≠ none → cp = cp' := by
  have hisSome (vm : String) (hne : (rs.state vm).fault ≠ none) :
      ((rs.nodes.lookup vm).bind (·.fault)).isSome := by
    rw [ClusterRepair.state] at hne
    cases hlookup : rs.nodes.lookup vm with
    | none => simp [hlookup] at hne
    | some st =>
      rw [hlookup] at hne
      exact Option.isSome_iff_ne_none.mpr hne
  simp only [destructiveAction, hrole, ne_eq, not_true_eq_false, if_false, hha, Bool.not_true,
    Bool.false_eq_true, hrepair, Option.any_some, decide_eq_true_eq] at h
  split_ifs at h with hreplace hetcd hfaulty
  refine ⟨fun e he => ?_, fun cp hcp cp' hcp' hfault hfault' => ?_⟩
  · rw [Option.mem_def.mp he] at hetcd
    simp only [Option.any_some, decide_eq_true_eq] at hetcd
    omega
  · -- both are among the at most one that the guard counts
    let faulty : Node → Bool := fun cp => ((rs.nodes.lookup cp.vmName).bind (·.fault)).isSome
    have hmem : cp ∈ (controlPlanesOf c).filter faulty :=
      List.mem_filter.mpr ⟨hcp, hisSome _ hfault⟩
    have hmem' : cp' ∈ (controlPlanesOf c).filter faulty :=
      List.mem_filter.mpr ⟨hcp', hisSome _ hfault'⟩
    have hle : ((controlPlanesOf c).filter faulty).length ≤ 1 := not_lt.mp hfaulty
    match hl : (controlPlanesOf c).filter faulty with
    | [] => simp [hl] at hmem
    | [only] =>
      rw [hl, List.mem_singleton] at hmem hmem'
      exact hmem.trans hmem'.symm
    | _ :: _ :: _ => simp [hl] at hle

end RepairPolicy

def RepairAction.text : RepairAction → String
  | powerOn => "power-on"
  | rejoin => "rejoin"
  | restartKubelet => "restart-kubelet"
  | replace => "replace"
  | restore => "restore"

/-- Stamp a decided repair before it is carried out. -/
def ClusterRepair.recordAttempt (r : ClusterRepair) (plan : RepairPlan) (action : RepairAction)
    (p : RepairPolicy) (now : Time) : ClusterRepair :=
  let st := r.state plan.target
  let attempts := st.attempts + 1
  let exhausted := decide (attempts ≥ p.maxAttempts)
  { r with
    nodes := r.nodes.insert plan.target
      { st with
        attempts := attempts
        lastAction := some action
        lastActionAt := some now
        suspended := st.suspended || exhausted
        note :=
          if exhausted then action.text ++ " failed to fix " ++ plan.target ++ " after " ++
            toString attempts ++ " attempt(s) - repair suspended, needs a human"
          else action.text ++ " (attempt " ++ toString attempts ++ "/" ++
            toString p.maxAttempts ++ ")" }
    target := plan.target
    action := some action }

end KaaS
