import KaaS.Reconcile.Machines

/-!
# The reconcile loop

`reconcileOne` advances a cluster by one phase. It is the switch of the source, phase by
phase; what follows it there, the guarded write of the copy, belongs to the store and is
modelled with the runs of the system. A tick that ends with an error writes nothing.
-/

namespace KaaS

open Effect

variable (r : Reconciler) (ρ : Env)

def setPhase (p : Phase) : Tick Unit := modifyCluster fun c => { c with phase := p }

/-! ### Bring-up -/

/-- Ask for `specs`, and record the machines and disks reported. -/
def ensureNodes (specs : List NodeSpec) : Tick Unit := do
  let c ← getCluster
  perform ρ (.ensureNodes (netSpec c) specs)
  modifyCluster fun c =>
    { c with
      nodes := toDomainNodes specs (ρ.provisioned specs)
      nodeDisks := observeDisks c.nodeDisks (ρ.provisioned specs) }

def provisionInfra : Tick Unit := do
  let c ← getCluster
  ensureNodes ρ (nodeSpecs c)
  setPhase .infraReady

def initControlPlane : Tick Unit := do
  perform ρ .initControlPlane
  saveSecret ρ .kubeconfig
  saveSecret ρ .joinToken
  setPhase .controlPlaneReady

def joinWorkers : Tick Unit := do
  perform ρ .joinWorkers
  setPhase .workersReady

def ensureViewerKubeconfig : Tick Unit := do
  perform ρ .ensureViewerKubeconfig "viewer kubeconfig: "
  saveSecret ρ .kubeconfigViewer

def installCNI : Tick Unit := do
  perform ρ .installCNI
  ensureViewerKubeconfig ρ
  mountNodeDisks ρ
  setPhase .installingAddons

/-- The end of bring-up: the generation is observed only if the machines match it. -/
def finishBringUp (c : Cluster) : Cluster :=
  if nodesConverged c then
    { c with phase := .ready, observedGeneration := c.generation, status := "cluster ready" }
  else { c with phase := .ready }

def installAddons : Tick Unit := do
  reconcileAddons ρ
  reconcileWiring r ρ
  modifyCluster finishBringUp

/-! ### Updates -/

/-- Drain the workers that are no longer desired. -/
def removeWorkers (c : Cluster) : Tick Unit :=
  if (removedWorkers c.nodes (nodeSpecs c)).isEmpty then pure ()
  else perform ρ (.removeWorkers (removedWorkers c.nodes (nodeSpecs c)))

/-- The end of an update: the generation is observed only once every disk is mounted. -/
def finishUpdate (c : Cluster) : Cluster :=
  if disksConverged c then { c with phase := .ready, observedGeneration := c.generation }
  else { c with phase := .ready }

/-- Converge the machines: drain, release, ask, join and mount. -/
def updateMachines : Tick Unit := do
  let c ← getCluster
  removeWorkers ρ c
  releaseRemovedDisks ρ
  let c ← getCluster
  ensureNodes ρ (nodeSpecs c)
  perform ρ .joinWorkers
  mountNodeDisks ρ

def update : Tick Unit := do
  updateMachines ρ
  reconcileAddons ρ
  reconcileWiring r ρ
  modifyCluster finishUpdate

/-! ### Upgrades -/

def upgradeInPlace (diff : BundleDiff) (dst : ResolvedBundle) : Tick Unit :=
  if !diff.osChanged && diff.k8sChanged then perform ρ (.upgradeKubernetes dst.kubernetes)
  else pure ()

/-- The versions of the bundle a hop ends in. -/
def Cluster.setBundle (c : Cluster) (bundleName : String) (dst : ResolvedBundle) : Cluster :=
  { c with
    bundle := bundleName
    osImage := dst.os.name
    k8sVersion := dst.kubernetes
    cni := dst.cni.name
    cniVersion := dst.cni.version }

def upgradeCNI (diff : BundleDiff) : Tick Unit :=
  if !diff.cniChanged then pure ()
  else do
    perform ρ .installCNI
    modifyCluster fun c => { c with monitoringWired := false }

/-- An add-on the bundle pins at another version is installed again. -/
def pinAddon (dst : ResolvedBundle) (ad : Addon) : Addon :=
  if ad.phase = .removing then ad
  else match (dst.addons.filter (·.name == ad.name)).getLast? with
    | none => ad
    | some pinned =>
      if pinned.version ≠ ad.version then { ad with version := pinned.version, phase := .pending }
      else ad

def finalizeHop (bundleName : String) (dst : ResolvedBundle) (diff : BundleDiff) : Tick Unit := do
  modifyCluster fun c => c.setBundle bundleName dst
  upgradeCNI ρ diff
  modifyCluster fun c => { c with addons := c.addons.map (pinAddon dst) }
  reconcileAddons ρ

/-- The end of a hop: the promotion is complete at its target, and the generation is then
observed only if the machines match it. -/
def finishHop (c : Cluster) : Cluster :=
  if c.bundle = c.targetBundle then
    { c with
      phase := .ready
      targetBundle := ""
      status := "upgraded to " ++ c.bundle ++ " (k8s " ++ c.k8sVersion ++ ")"
      observedGeneration := if nodesConverged c then c.generation else c.observedGeneration }
  else { c with phase := .ready }

/-- One tick of a hop: replace one node, or, with none left, finish it. -/
def upgradeHop (bundleName : String) (src dst : ResolvedBundle) : Tick Unit := do
  let c ← getCluster
  let diff := diffResolved src dst
  let targetImage := goldenImageNameFor c.infraProvider dst.os.name dst.kubernetes
  if diff.osChanged && !allNodesOnImage c.nodes targetImage then rollOneNode r ρ targetImage
  else do
    upgradeInPlace ρ diff dst
    finalizeHop ρ bundleName dst diff
    modifyCluster fun c =>
      { c with certNotAfter := if diff.k8sChanged || diff.osChanged then none else c.certNotAfter }
    reconcileMonitoringWiring ρ
    modifyCluster finishHop

def reconcileUpgrade : Tick Unit := do
  let c ← getCluster
  match r.catalog.nextUpgrade c.bundle with
  | none => modifyCluster fun c =>
      { c with phase := .ready, targetBundle := "", observedGeneration := c.generation }
  | some hop =>
    match r.catalog.resolve c.bundle, r.catalog.resolve hop.name with
    | .ok src, .ok dst => upgradeHop r ρ hop.name src dst
    | .error e, _ => throw e
    | .ok _, .error e => throw e

/-! ### Time-driven work -/

def certRenewCutoff : Time := ρ.now + r.certRenewWindow

/-- Observe the certificates' expiry if it was never seen. -/
def observeCerts : Tick Unit := do
  let c ← getCluster
  if c.certNotAfter.isSome then pure ()
  else do
    perform ρ .certExpiry "observe cert expiry: "
    modifyCluster fun c => { c with certNotAfter := some ρ.certExpiry }

def reconcileCerts : Tick Unit := do
  observeCerts ρ
  modifyCluster fun c =>
    if c.certNotAfter.any fun t => decide (t < certRenewCutoff r ρ) then
      { c with phase := .renewingCerts }
    else c

def reconcileCertRenewal : Tick Unit := do
  perform ρ .renewCerts
  saveSecret ρ .kubeconfig
  modifyCluster fun c => { c with certNotAfter := some ρ.renewedUntil, phase := .ready }

/-- Observe etcd; the time of the last defragmentation is carried over. -/
def observeEtcd (c : Cluster) : EtcdStatus :=
  match c.etcd with
  | none => ρ.etcdStatus
  | some st => { ρ.etcdStatus with defraggedAt := st.defraggedAt }

def reconcileEtcd : Tick Unit := do
  perform ρ .etcdStatus "observe etcd status: "
  modifyCluster fun c =>
    let st := observeEtcd ρ c
    { c with
      etcd := some st
      phase := if r.etcdPolicy.defragDue st c.controlPlanes ρ.now then .defragmentingEtcd
        else c.phase }

def reconcileDefrag : Tick Unit := do
  perform ρ .defragEtcd
  modifyCluster fun c => { c with etcd := some ρ.defragged, phase := .ready }

def deleteSnapshots : List EtcdSnapshot → Tick Unit
  | [] => pure ()
  | old :: rest => do
    perform ρ (.deleteEtcdSnapshot old.id)
    deleteSnapshots rest

/-- Retention is best effort. -/
def pruneSnapshots : Tick Unit :=
  tryCatch (do
    perform ρ .listEtcdSnapshots
    deleteSnapshots ρ (r.snapshotPolicy.pruneEtcdSnapshots ρ.snapshots)) fun _ => pure ()

def reconcileSnapshot : Tick Unit := do
  perform ρ .snapshotEtcd "snapshot etcd: "
  perform ρ .seal "seal etcd snapshot: "
  perform ρ .saveEtcdSnapshot "store etcd snapshot: "
  modifyCluster fun c => { c with etcdSnapshotAt := some ρ.snapshotTakenAt }
  pruneSnapshots r ρ
  setPhase .ready

/-! ### Repair -/

/-- The share and number of unhealthy clusters among those that are ready. -/
def fleetUnhealthy : ℚ × Int :=
  let live := ρ.fleet.filter (·.1 == .ready)
  let unhealthy := live.filter (·.2 == some .unhealthy)
  if live.isEmpty then (0, 0) else ((unhealthy.length : ℚ) / live.length, unhealthy.length)

/-- A suspension is announced once, and its note cleared. -/
def announceFaults (rs : ClusterRepair) : ClusterRepair :=
  { rs with
    nodes := rs.nodes.keys.foldl (fun m vm =>
      let st := rs.state vm
      m.insert vm (if st.suspended then { st with note := "" } else st)) ∅ }

/-- The hypervisor's view; a failed poll only loses the second opinion. -/
def pollPower (c : Cluster) : Tick (AList fun _ : String => Bool) :=
  if !r.nodePowerer c.infraProvider then pure ∅
  else tryCatch (do perform ρ .nodePower; pure ρ.power) fun _ => pure ∅

/-- Fold the observation into the record and decide. -/
def decideRepair (obs : RepairObservation) (c : Cluster) : Cluster :=
  let faults := (observeFaults c obs r.repairPolicy).1
  let merged := mergeFaults c.repairState c faults r.repairPolicy ρ.now
  let rs := announceFaults { merged with observedAt := some ρ.now }
  let c := { c with repair := some rs }
  let plan := r.repairPolicy.plan c obs faults
  match plan.action with
  | some action =>
    if plan.act then
      { c with
        repair := some (rs.recordAttempt plan action r.repairPolicy ρ.now)
        phase := .repairing }
    else c
  | none => c

def reconcileRepair : Tick Unit := do
  perform ρ .getHealth "read health snapshot: "
  let c ← getCluster
  let powered ← pollPower r ρ c
  perform ρ .listClusters "assess fleet health: "
  modifyCluster <| decideRepair r ρ
    { health := ρ.health, powered := powered, fleetUnhealthy := (fleetUnhealthy ρ).1,
      fleetUnhealthyN := (fleetUnhealthy ρ).2, now := ρ.now }

/-- The image a like-for-like rebuild uses. -/
def repairImage (c : Cluster) (node : Node) : String :=
  if node.image = "" then currentImage c else node.image

def restoreSnapshot (node : Node) : Tick Unit := do
  perform ρ .listEtcdSnapshots "list etcd snapshots: "
  let c ← getCluster
  match restorableSnapshot ρ.snapshots r.snapshotPolicy ρ.now with
  | .error reason => throw ("cannot restore " ++ c.name ++ ": " ++ reason)
  | .ok snap => do
    perform ρ (.getEtcdSnapshotPayload snap.id) "read etcd snapshot payload: "
    perform ρ .unseal "unseal etcd snapshot: "
    perform ρ (.restoreEtcdSnapshot node) "restore etcd snapshot: "
    modifyCluster fun c => { c with certNotAfter := none, etcd := none }

def repairByRestore (node : Node) : Tick Unit := do
  let c ← getCluster
  if c.ha then
    throw ("refusing to restore a snapshot onto an HA cluster - " ++ node.vmName ++
      " should be replaced instead")
  else do
    let _ ← recreateNodeVM r ρ node (repairImage c node) true
    let c ← getCluster
    restoreSnapshot r ρ (nodeByName c.nodes node.vmName)

def runRepairAction (c : Cluster) (node : Node) : RepairAction → Tick Unit
  | .powerOn =>
    if !r.nodePowerer c.infraProvider then
      throw ("provider " ++ c.infraProvider ++ " cannot power on a VM")
    else perform ρ (.powerOnNode node.vmName)
  | .restartKubelet => perform ρ (.restartKubelet node)
  | .rejoin =>
    if node.role = .controlPlane then perform ρ (.joinControlPlane node)
    else perform ρ .joinWorkers
  | .replace => replaceNode r ρ node (repairImage c node) true
  | .restore => repairByRestore r ρ node

/-- Carry out the repair decided on, if its node still exists. -/
def executeRepair : Tick Unit := do
  let c ← getCluster
  match c.repairState.action, nodeByNameOK c.nodes c.repairState.target with
  | some action, some node =>
    if c.repairState.inFlight then runRepairAction r ρ c node action else pure ()
  | _, _ => pure ()

/-- A failed repair is an ordinary outcome: the attempt is over either way. -/
def repair : Tick Unit := do
  tryCatch (executeRepair r ρ) fun _ => pure ()
  modifyCluster fun c =>
    { c with repair := some c.repairState.completeAttempt, phase := .ready }

/-! ### Deletion -/

def delete : Tick Unit := do
  releaseDNS r ρ
  releaseVault r ρ
  releaseRegistry r ρ
  perform ρ .destroyCluster
  modifyCluster fun c => { c with deletedAt := some ρ.now, phase := .deleted }

/-! ### The switch -/

/-- A cluster created before the viewer credential existed gets one. -/
def ensureViewer : Tick Unit :=
  if ρ.viewerMissing then ensureViewerKubeconfig ρ else pure ()

/-- What a ready cluster needs next: an upgrade, an update, and then whatever the clock
asks for, repair first. -/
def reconcileReady : Tick Unit := do
  ensureViewer ρ
  let c ← getCluster
  if c.upgradePending then setPhase .upgrading
  else if c.observedGeneration ≠ c.generation then setPhase .updating
  else if c.repairDue r.repairPolicy ρ.now then reconcileRepair r ρ
  else if r.certRenewWindow > 0 ∧ c.certRenewalDue (certRenewCutoff r ρ) then reconcileCerts r ρ
  else if c.etcdSnapshotDue r.snapshotPolicy ρ.now then setPhase .snapshottingEtcd
  else if c.etcdMaintenanceDue r.etcdPolicy ρ.now then reconcileEtcd r ρ
  else pure ()

def reconcileOne : Tick Unit := do
  let c ← getCluster
  match c.phase with
  | .pending => setPhase .provisioningInfra
  | .provisioningInfra => provisionInfra ρ
  | .infraReady => initControlPlane ρ
  | .controlPlaneReady => joinWorkers ρ
  | .workersReady => installCNI ρ
  | .installingAddons => installAddons r ρ
  | .ready => reconcileReady r ρ
  | .renewingCerts => reconcileCertRenewal ρ
  | .defragmentingEtcd => reconcileDefrag ρ
  | .snapshottingEtcd => reconcileSnapshot r ρ
  | .repairing => repair r ρ
  | .upgrading => reconcileUpgrade r ρ
  | .updating => update r ρ
  | .deleting => delete r ρ
  | .deleted | .failed => pure ()

/-- The copy a tick on the row `c` wants to store, if it ends without an error. -/
def tickResult (c : Cluster) : Option Cluster :=
  match reconcileOne r ρ { c := c } with
  | .ok _ s => some s.c
  | .error _ _ => none

def tickTrace (c : Cluster) : List Event :=
  match reconcileOne r ρ { c := c } with
  | .ok _ s => s.trace
  | .error _ s => s.trace

/-- The copy a tick on the row `c` is left with, after an error too. -/
def tickCopy (c : Cluster) : Cluster :=
  match reconcileOne r ρ { c := c } with
  | .ok _ s => s.c
  | .error _ s => s.c

variable {r ρ}

/-- What is shown of the loop holds of the tick. -/
theorem tick_of_wp {c : Cluster} {Q E : TickState → Prop}
    (h : wp (reconcileOne r ρ) (fun _ => Q) (fun _ => E) { c := c }) :
    ∃ s : TickState, tickTrace r ρ c = s.trace ∧ tickCopy r ρ c = s.c ∧
      (tickResult r ρ c = some s.c ∧ Q s ∨ tickResult r ρ c = none ∧ E s) := by
  unfold wp at h
  unfold tickTrace tickCopy tickResult
  split at h
  · rename_i s hrun
    rw [hrun]
    exact ⟨s, rfl, rfl, .inl ⟨rfl, h⟩⟩
  · rename_i s hrun
    rw [hrun]
    exact ⟨s, rfl, rfl, .inr ⟨rfl, h⟩⟩

end KaaS
