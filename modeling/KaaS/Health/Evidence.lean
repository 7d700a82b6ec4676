import KaaS.Health.Kubectl

/-!
# On what evidence a node is faulty

Repair rebuilds machines, so a fault should rest on something that was seen: a machine the
hypervisor reports off, or a node list that was read and shows a node not ready or absent.
The checker and the fault derivation are in different packages, and their contract is
implicit: `parseNodes` turns a node list that could not be read into an empty one, next to
an API server reported healthy, and `observeFaults` takes absence from the list for a fault.

`hypervisorOnly_iff` says exactly when an unread node list is nevertheless harmless, and
`unread_nodes_missing` shows a cluster on which it is not.
-/

namespace KaaS

/-- Repair has only the hypervisor's word: every fault is a machine reported off, and so is
the fault behind every plan. -/
structure HypervisorOnly (c : Cluster) (obs : RepairObservation) (p : RepairPolicy) : Prop where
  fault : ∀ vm fault, (observeFaults c obs p).1.lookup vm = some fault →
    fault = .vmDown ∧ obs.powered.lookup vm = some false
  plan : ∀ (c' : Cluster) (fault : NodeFault),
    (p.plan c' obs (observeFaults c obs p).1).fault = some fault → fault = .vmDown

private theorem planFor_fault {p : RepairPolicy} {c : Cluster} {faults : Faults} {now : Time}
    {l : List Node} {fault : NodeFault} (h : (p.planFor c faults now l).fault = some fault) :
    ∃ vm, faults.lookup vm = some fault := by
  induction l with
  | nil => simp [RepairPolicy.planFor] at h
  | cons n l ih =>
    rw [RepairPolicy.planFor] at h
    split at h
    · exact ih h
    · split at h
      · exact ih h
      · simp only [Option.some.injEq] at h
        subst h
        exact ⟨n.vmName, ‹_›⟩

private theorem plan_fault {p : RepairPolicy} {c : Cluster} {obs : RepairObservation}
    {faults : Faults} {fault : NodeFault} (h : (p.plan c obs faults).fault = some fault) :
    ∃ vm, faults.lookup vm = some fault := by
  unfold RepairPolicy.plan at h
  split_ifs at h
  exact planFor_fault h

theorem HypervisorOnly.of_fault {c : Cluster} {obs : RepairObservation} {p : RepairPolicy}
    (h : ∀ vm fault, (observeFaults c obs p).1.lookup vm = some fault →
      fault = .vmDown ∧ obs.powered.lookup vm = some false) : HypervisorOnly c obs p := by
  refine ⟨h, fun c' fault hplan => ?_⟩
  obtain ⟨vm, hvm⟩ := plan_fault hplan
  exact (h vm fault hvm).1

private theorem powerFaults_off {c : Cluster} {obs : RepairObservation} {vm : String}
    {fault : NodeFault} (h : (powerFaults c obs).lookup vm = some fault) :
    fault = .vmDown ∧ obs.powered.lookup vm = some false := by
  rw [lookup_powerFaults] at h
  split_ifs at h with hoff
  obtain ⟨n, -, -, hp⟩ := hoff
  exact ⟨(Option.some.inj h).symm, hp⟩

private theorem hypervisorOnly_of_eq {c : Cluster} {obs : RepairObservation} {p : RepairPolicy}
    (h : (observeFaults c obs p).1 = powerFaults c obs) : HypervisorOnly c obs p :=
  .of_fault fun _ _ hf => powerFaults_off (h ▸ hf)

/-! ### What the snapshot of an unread node list leads to -/

section Snapshot

variable {snapshots : EtcdSnapshotPolicy} {repair : RepairPolicy} {checked c : Cluster}
  {q : Queries} {collected : Time} {obs : RepairObservation}

private theorem check_nodes_of_unread (checked : Cluster) (collected : Time)
    (h : q.nodes.read = none) : (check checked q collected).nodes = [] := by
  unfold check
  split
  · rfl
  · simp [parseNodes, h]

/-- The faults of an observation whose snapshot has no node entry: the hypervisor's, and if
the snapshot is usable every other machine with an address, as missing. -/
private theorem observeFaults_of_unread (hunread : q.nodes.read = none)
    (hobs : obs.health =
      (checkHealthOne snapshots repair checked (.ok ()) q collected).toOption) :
    (observeFaults c obs repair).1 =
      if obs.now - collected ≤ repair.healthMaxAge ∧ q.readyz = true then
        missingFaults c (powerFaults c obs) []
      else powerFaults c obs := by
  have hnodes := check_nodes_of_unread checked collected hunread
  have hup (checks : List HealthCheck) : apiServerUnreachable
      { checks := (check checked q collected).checks ++ checks } = !q.readyz := by
    cases hr : q.readyz <;> simp [apiServerUnreachable, check, hr]
  have hsome : obs.health = some _ := hobs
  simp only [observeFaults, hsome, hnodes, notReadyFaults, List.foldl_nil]
  simp only [apiServerUnreachable] at hup ⊢
  simp only [hup, Bool.not_not]
  split_ifs <;> rfl

/-- With every other machine missing, only the hypervisor's word is taken if there is no
other machine with an address. -/
private theorem hypervisorOnly_iff_of_missing
    (h : (observeFaults c obs repair).1 = missingFaults c (powerFaults c obs) []) :
    HypervisorOnly c obs repair ↔
      ∀ n ∈ c.nodes, n.ip = "" ∨ obs.powered.lookup n.vmName = some false := by
  constructor
  · intro honly n hn
    by_contra! hexposed
    have hpower : (powerFaults c obs).lookup n.vmName = none := by
      rw [lookup_powerFaults, if_neg (by simp [hexposed.2])]
    have hmissing : (observeFaults c obs repair).1.lookup n.vmName = some .missing := by
      rw [h, lookup_missingFaults, hpower, Option.none_or, if_pos]
      exact ⟨n, hn, rfl, hexposed.1, by simp⟩
    exact NodeFault.noConfusion (honly.fault _ _ hmissing).1
  · intro hsafe
    refine .of_fault fun vm fault hf => ?_
    rw [h, lookup_missingFaults] at hf
    cases hpower : (powerFaults c obs).lookup vm with
    | some f =>
      rw [hpower, Option.some_or, Option.some.injEq] at hf
      exact powerFaults_off (hf ▸ hpower)
    | none =>
      rw [hpower, Option.none_or] at hf
      split_ifs at hf with hexposed
      obtain ⟨n, hn, rfl, hip, -⟩ := hexposed
      have hoff := (hsafe n hn).resolve_left hip
      rw [lookup_powerFaults, if_pos ⟨n, hn, rfl, hoff⟩] at hpower
      simp at hpower

end Snapshot

/-- **Evidence.** A node list that could not be read or decoded leaves repair with the
hypervisor's word alone exactly if no snapshot was stored, or the API server did not answer
either, or the snapshot is too old to be used, or every machine of the cluster has no
address or is reported off. -/
theorem hypervisorOnly_iff (snapshots : EtcdSnapshotPolicy) (repair : RepairPolicy)
    (checked c : Cluster) (kubeconfig : Except String Unit) (q : Queries) (collected : Time)
    (obs : RepairObservation) :
    (q.nodes.read = none →
      HypervisorOnly c { obs with
        health := (checkHealthOne snapshots repair checked kubeconfig q collected).toOption }
        repair) ↔
      q.nodes.read.isSome ∨ kubeconfig ≠ .ok () ∨ q.readyz = false ∨
        obs.now - collected > repair.healthMaxAge ∨
        ∀ n ∈ c.nodes, n.ip = "" ∨ obs.powered.lookup n.vmName = some false := by
  cases hread : q.nodes.read with
  | some l => simp
  | none =>
    cases kubeconfig with
    | error e =>
      refine iff_of_true (fun _ => hypervisorOnly_of_eq ?_) (.inr (.inl (by simp)))
      rfl
    | ok u =>
      set seen : RepairObservation := { obs with
        health := (checkHealthOne snapshots repair checked (.ok u) q collected).toOption }
      have hfaults : (observeFaults c seen repair).1 = _ := observeFaults_of_unread hread rfl
      by_cases husable : obs.now - collected ≤ repair.healthMaxAge ∧ q.readyz = true
      · rw [if_pos husable] at hfaults
        rw [hypervisorOnly_iff_of_missing hfaults]
        simp [husable.2, husable.1.not_gt, seen]
      · rw [if_neg husable] at hfaults
        refine iff_of_true (fun _ => hypervisorOnly_of_eq hfaults) ?_
        grind

/-! ### A converged cluster whose node list could not be read -/

/-- One control plane and one worker, both running. -/
def runningCluster : Cluster :=
  { name := "demo"
    size := "small"
    phase := .ready
    nodes := [
      { role := .controlPlane, vmName := "demo-cp-0", ip := "10.0.0.10" },
      { role := .worker, vmName := "demo-default-0", ip := "10.0.0.11" }] }

/-- The API server answers, but the query for its nodes fails. -/
def nodesQueryFails : Queries :=
  { readyz := true, nodes := .failed, pods := .decoded [], deployments := .decoded [],
    daemonsets := .decoded [], livezEtcd := true }

def bothPoweredOn : RepairObservation :=
  { powered := [⟨"demo-cp-0", true⟩, ⟨"demo-default-0", true⟩].toAList }

theorem unread_nodes_missing :
    ¬(nodesQueryFails.nodes.read = none →
      HypervisorOnly runningCluster { bothPoweredOn with
        health := (checkHealthOne {} {} runningCluster (.ok ()) nodesQueryFails 0).toOption }
        {}) := by
  intro h
  have hmissing := (h rfl).fault "demo-default-0" .missing (by decide)
  exact NodeFault.noConfusion hmissing.1

end KaaS
