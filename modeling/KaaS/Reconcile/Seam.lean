import KaaS.Reconcile.Nodes
import KaaS.Domain.Repair
import KaaS.Library.Effect

/-!
# The reconciler's seams

A tick works on its own copy of the row and talks to the outside through seams: the
infrastructure, the configuration management, the add-on installer, the platform services
and the store. `Call` lists these calls with the arguments that matter, `Env` gives the
answers of one tick, and `Tick` is the program type: it carries the copy and the trace of
the calls made so far, **and keeps both when it ends with an error**, because a failed call
has had its effects and because `Repairing` stores the copy it was left with.

Events for the activity timeline and the reconciler's own operation records are left out.
-/

namespace KaaS

open Effect

inductive SecretKind
  | kubeconfig | kubeconfigViewer | joinToken | registryPull
  deriving DecidableEq

inductive Call
  -- infrastructure
  | ensureNodes (net : NetworkSpec) (specs : List NodeSpec)
  | replaceNode (vmName : String)
  | imageAvailable (image : String)
  | nodePower
  | powerOnNode (vmName : String)
  | destroyCluster
  -- configuration management
  | initControlPlane
  | joinWorkers
  | joinControlPlane (node : Node)
  | installCNI
  | ensureViewerKubeconfig
  | ensureNodeDisks (disks : List NodeDisk)
  | removeNodeDisks (disks : List NodeDisk)
  | evictLonghornDisks (disks : List NodeDisk)
  | ensureLonghornDisks
  | ensureControlPlaneMetrics
  | ensureCNIMetrics
  | ensureDefaultGateway
  | ensureExternalSecrets
  | clusterOIDC
  | ensureRegistryPullSecret
  | upgradeKubernetes (version : String)
  | removeWorkers (nodes : List Node)
  | removeControlPlane (node : Node)
  | backupControlPlane (node : Node)
  | restoreControlPlane (node : Node)
  | restoreEtcdSnapshot (node : Node)
  | restartKubelet (node : Node)
  | certExpiry
  | renewCerts
  | etcdStatus
  | defragEtcd
  | snapshotEtcd
  -- add-ons
  | installAddon (addon : Addon)
  | uninstallAddon (addon : Addon)
  -- platform services
  | dnsEnsureCluster
  | dnsReleaseCluster
  | vaultEnsureCluster
  | vaultReleaseCluster
  | registryEnsureCluster
  | registryReleaseCluster
  -- store and sealing
  | saveSecret (kind : SecretKind)
  | getSecret (kind : SecretKind)
  | seal
  | unseal
  | getHealth
  | listClusters
  | saveEtcdSnapshot
  | listEtcdSnapshots
  | getEtcdSnapshotPayload (id : String)
  | deleteEtcdSnapshot (id : String)
  deriving DecidableEq

/-- A call that was made, and whether it succeeded. -/
structure Event where
  call : Call
  ok : Bool
  deriving DecidableEq

/-- The answers of the outside world during one tick. `fails n k` is the error of call `k`
when it is the `n`-th of the tick. -/
structure Env where
  now : Time := 0
  fails : Nat → Call → Option String := fun _ _ => none
  provisioned : List NodeSpec → List ProvisionedNode := fun _ => []
  viewerMissing : Bool := false
  certExpiry : Time := 0
  renewedUntil : Time := 0
  etcdStatus : EtcdStatus := {}
  defragged : EtcdStatus := {}
  snapshotTakenAt : Time := 0
  snapshots : List EtcdSnapshot := []
  health : Option HealthSnapshot := none
  power : AList (fun _ : String => Bool) := ∅
  fleet : List (Phase × Option HealthStatus) := []
  robotCreated : Bool := true
  robotExpires : Option Time := none
  storedRobotExpires : Option Time := none

/-- What a deployment fixes: the catalog, the policies, which platform services it runs and
what each provider can do beyond creating machines. -/
structure Reconciler where
  catalog : Catalog
  certRenewWindow : Duration := 0
  etcdPolicy : EtcdDefragPolicy := {}
  snapshotPolicy : EtcdSnapshotPolicy := {}
  repairPolicy : RepairPolicy := {}
  dns : Bool := false
  vault : Bool := false
  registry : Bool := false
  imageChecker : String → Bool := fun _ => false
  nodeReplacer : String → Bool := fun _ => false
  nodePowerer : String → Bool := fun _ => false

/-- A tick's copy of the row and the calls it has made. -/
structure TickState where
  c : Cluster
  trace : List Event := []

def TickState.log (s : TickState) (k : Call) (ok : Bool) : TickState :=
  { s with trace := s.trace ++ [⟨k, ok⟩] }

@[simp] theorem TickState.c_log (s : TickState) (k : Call) (ok : Bool) : (s.log k ok).c = s.c :=
  rfl

@[simp] theorem TickState.trace_log (s : TickState) (k : Call) (ok : Bool) :
    (s.log k ok).trace = s.trace ++ [⟨k, ok⟩] := rfl

abbrev Tick := EStateM String TickState

/-- Make a call; its error is reported behind `context`. -/
def perform (ρ : Env) (k : Call) (context : String := "") : Tick Unit := fun s =>
  match ρ.fails s.trace.length k with
  | none => .ok () (s.log k true)
  | some e => .error (context ++ e) (s.log k false)

def getCluster : Tick Cluster := fun s => .ok s.c s

def modifyCluster (f : Cluster → Cluster) : Tick Unit := modify fun s => { s with c := f s.c }

section Rules

variable {Q : Unit → TickState → Prop} {E : String → TickState → Prop} {s : TickState}

theorem wp_perform {ρ : Env} {k : Call} {context : String}
    (hok : ρ.fails s.trace.length k = none → Q () (s.log k true))
    (herr : ∀ e, E e (s.log k false)) : wp (perform ρ k context) Q E s := by
  simp only [wp, perform]
  cases h : ρ.fails s.trace.length k with
  | none => exact hok h
  | some e => exact herr _

theorem wp_perform_of_none {ρ : Env} {k : Call} {context : String}
    (h : ρ.fails s.trace.length k = none) (hok : Q () (s.log k true)) :
    wp (perform ρ k context) Q E s := by
  simpa only [wp, perform, h] using hok

theorem wp_perform_of_some {ρ : Env} {k : Call} {context e : String}
    (h : ρ.fails s.trace.length k = some e) (herr : E (context ++ e) (s.log k false)) :
    wp (perform ρ k context) Q E s := by
  simpa only [wp, perform, h] using herr

@[simp] theorem wp_getCluster {Q : Cluster → TickState → Prop} :
    wp getCluster Q E s ↔ Q s.c s := Iff.rfl

@[simp] theorem wp_modifyCluster (f : Cluster → Cluster) :
    wp (modifyCluster f) Q E s ↔ Q () { s with c := f s.c } := Iff.rfl

end Rules

end KaaS
