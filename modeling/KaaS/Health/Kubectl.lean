import KaaS.Domain.Repair

/-!
# The health checker

`check` puts a few read-only queries to the cluster's API server and turns the answers into
the checks of the health panel and one entry per node. `checkHealthOne` adds the checks that
derive from the stored row and stores the result as the cluster's snapshot, from which
repair reads its faults (`observeFaults`).

A query's answer is `failed` when the command failed, `undecodable` when what it printed is
not the document expected, and `decoded` otherwise. Only what the checks read of a document
is kept, and the panel's texts are left out.
-/

namespace KaaS

inductive Answer (α : Type)
  | failed | undecodable
  | decoded (a : α)

namespace Answer

variable {α : Type}

/-- The document, if it could be read and decoded. -/
def read : Answer α → Option α
  | decoded a => some a
  | _ => none

def succeeded : Answer α → Bool
  | failed => false
  | _ => true

end Answer

structure Condition where
  type : String
  status : String
  reason : String := ""

structure NodeItem where
  name : String
  unschedulable : Bool := false
  conditions : List Condition := []

structure ContainerStatus where
  ready : Bool
  restartCount : Int := 0
  waitingReason : Option String := none

structure Pod where
  name : String
  namespaceName : String
  phase : String
  conditions : List Condition := []
  containerStatuses : List ContainerStatus := []
  initContainerStatuses : List ContainerStatus := []

structure HelmWorkload where
  releaseName : String
  available : Bool

/-- Everything `check` learns from the cluster. -/
structure Queries where
  readyz : Bool
  nodes : Answer (List NodeItem)
  pods : Answer (List Pod)
  deployments : Answer (List HelmWorkload)
  daemonsets : Answer (List HelmWorkload)
  livezEtcd : Bool

/-! ### Nodes -/

def pressureTypes : List String := ["MemoryPressure", "DiskPressure", "PIDPressure"]

/-- One node's entry; of several `Ready` conditions the last counts. -/
def NodeItem.health (it : NodeItem) : NodeHealth :=
  { nodeName := it.name
    ready := it.conditions.foldl (fun r cond =>
      if cond.type = "Ready" then cond.status == "True" else r) false
    cordoned := it.unschedulable
    pressures := (it.conditions.filter fun cond =>
      cond.type != "Ready" && pressureTypes.contains cond.type && cond.status == "True").map
        (·.type) }

/-- The nodes of the answer, `none` when there is no readable one. -/
def parseNodes (answer : Answer (List NodeItem)) : Option (List NodeHealth) :=
  answer.read.map (·.map (·.health))

def nodesReadyCheck (nodes : Option (List NodeHealth)) : HealthCheck :=
  ⟨.nodesReady,
    match nodes with
    | none => .unknown
    | some l => if l.all (·.ready) then .healthy else .unhealthy⟩

/-! ### Workloads -/

namespace Pod

def waitingReasons : List String :=
  ["CrashLoopBackOff", "ImagePullBackOff", "ErrImagePull", "CreateContainerConfigError",
    "CreateContainerError", "RunContainerError"]

def crashing (p : Pod) : Bool :=
  (p.initContainerStatuses ++ p.containerStatuses).any fun cs =>
    cs.waitingReason.any waitingReasons.contains || (decide (cs.restartCount ≥ 2) && !cs.ready)

def containersReady (p : Pod) : Bool :=
  !p.containerStatuses.isEmpty && p.containerStatuses.all (·.ready)

def unschedulable (p : Pod) : Bool :=
  p.phase == "Pending" && p.conditions.any fun cond =>
    cond.type == "PodScheduled" && cond.status == "False" && cond.reason == "Unschedulable"

end Pod

def systemWorkloadsCheck (pods : Answer (List Pod)) : HealthCheck :=
  ⟨.systemWorkloads,
    match pods.read with
    | none => .unknown
    | some l =>
      let system := l.filter (·.namespaceName == "kube-system")
      let unfinished := system.filter (·.phase != "Succeeded")
      if system.isEmpty then .unknown
      else if unfinished.any (·.crashing) then .unhealthy
      else if unfinished.all fun p => p.phase == "Running" && p.containersReady then .healthy
      else .degraded⟩

def schedulingCheck (nodes : Option (List NodeHealth)) (pods : Answer (List Pod)) :
    HealthCheck :=
  let nodes := nodes.getD []
  ⟨.scheduling,
    match pods.read with
    | none => .unknown
    | some l =>
      if l.any (·.unschedulable) then .unhealthy
      else if nodes != [] && nodes.all (·.cordoned) then .unhealthy
      else if nodes.any (·.cordoned) || nodes.any (·.pressures != []) then .degraded
      else .healthy⟩

def etcdCheck (livez : Bool) : HealthCheck :=
  ⟨.etcd, if livez then .healthy else .unhealthy⟩

def installedAddonReleases (c : Cluster) : List String :=
  (c.addons.filter (·.phase == .installed)).map (·.name)

def addonAvailabilityCheck (deployments daemonsets : Answer (List HelmWorkload))
    (wanted : List String) : HealthCheck :=
  ⟨.addons,
    if !deployments.succeeded || !daemonsets.succeeded then .unknown
    else if wanted = [] then .unknown
    else match deployments.read, daemonsets.read with
      | some deps, some dss =>
        let rel := (deps ++ dss).filter fun w => wanted.contains w.releaseName
        if rel.isEmpty then .unknown
        else if rel.all (·.available) then .healthy
        else .degraded
      | _, _ => .unknown⟩

/-! ### Checks on the stored row -/

def etcdAlarmCorrupt : String := "CORRUPT"

def etcdDefaultQuotaBytes : Int := 2 * 1024 * 1024 * 1024

def EtcdStatus.effectiveQuotaBytes (s : EtcdStatus) : Int :=
  if s.quotaBytes > 0 then s.quotaBytes else etcdDefaultQuotaBytes

def EtcdStatus.quotaUsage (s : EtcdStatus) : ℚ := (s.dbBytes : ℚ) / (s.effectiveQuotaBytes : ℚ)

def etcdQuotaWarn : ℚ := 3 / 4

def etcdStoreCheck (c : Cluster) : HealthCheck :=
  ⟨.etcdStore,
    match c.etcd with
    | none => .unknown
    | some s =>
      if s.hasAlarm etcdAlarmCorrupt then .unhealthy
      else if s.hasAlarm etcdAlarmNoSpace then .unhealthy
      else if s.quotaUsage ≥ etcdQuotaWarn then .degraded
      else .healthy⟩

def certWarnWindow : Duration := 30 * 24 * .hour

def certCheck (c : Cluster) (now : Time) : HealthCheck :=
  ⟨.certs,
    match c.certNotAfter with
    | none => .unknown
    | some t =>
      if t ≤ now then .unhealthy
      else if t - now ≤ certWarnWindow then .degraded
      else .healthy⟩

def backupCheck (c : Cluster) (p : EtcdSnapshotPolicy) (now : Time) : HealthCheck :=
  ⟨.backup,
    if !p.enabled then .unknown
    else match c.etcdSnapshotAt with
      | none => .unknown
      | some t => if p.interval > 0 ∧ now - t > 2 * p.interval then .degraded else .healthy⟩

def repairCheck (c : Cluster) (p : RepairPolicy) : HealthCheck :=
  ⟨.repair,
    if !p.enabled then .unknown
    else match c.repair with
      | none => .unknown
      | some r =>
        if r.observedAt = none then .unknown
        else if r.nodes.entries.any (·.2.suspended) then .unhealthy
        else if r.inFlight then .degraded
        else if r.nodes.entries.any (·.2.fault.isSome) then .degraded
        else .healthy⟩

/-! ### The snapshot -/

structure HealthResult where
  checks : List HealthCheck
  nodes : List NodeHealth

/-- Evaluate a cluster. When its API server does not answer, nothing else is asked. -/
def check (c : Cluster) (q : Queries) (now : Time) : HealthResult :=
  if !q.readyz then
    { checks := [⟨.apiServer, .unhealthy⟩, ⟨.nodesReady, .unknown⟩, ⟨.systemWorkloads, .unknown⟩,
        ⟨.scheduling, .unknown⟩, ⟨.etcd, .unknown⟩, ⟨.addons, .unknown⟩, etcdStoreCheck c,
        certCheck c now]
      nodes := [] }
  else
    let nodes := parseNodes q.nodes
    { checks := [⟨.apiServer, .healthy⟩, nodesReadyCheck nodes, systemWorkloadsCheck q.pods,
        schedulingCheck nodes q.pods, etcdCheck q.livezEtcd, etcdStoreCheck c,
        addonAvailabilityCheck q.deployments q.daemonsets (installedAddonReleases c),
        certCheck c now]
      nodes := nodes.getD [] }

/-- The snapshot stored after evaluating `c`; `kubeconfig` is the outcome of fetching the
credential and writing it to a file, without which nothing is stored. -/
def checkHealthOne (snapshots : EtcdSnapshotPolicy) (repair : RepairPolicy) (c : Cluster)
    (kubeconfig : Except String Unit) (q : Queries) (now : Time) :
    Except String HealthSnapshot := do
  kubeconfig
  let res := check c q now
  let checks := res.checks ++ [backupCheck c snapshots now, repairCheck c repair]
  pure { clusterID := c.id, status := rollupHealth checks, checks := checks,
         nodes := res.nodes, collectedAt := now }

end KaaS
