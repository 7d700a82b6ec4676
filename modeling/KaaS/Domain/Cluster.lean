import KaaS.Library.Text
import Mathlib.Data.List.AList
import Mathlib.Data.Rat.Defs

/-!
# The cluster row

The control plane keeps one row per cluster: what the owner asked for (`nodePools`,
`nodeDisks`, `addons`, `targetBundle`, counted by `generation`) and what the reconciler has
made of it (`phase`, `nodes`, the wired markers, the repair record and the observed times).
The same row is read and written by the API and by the reconciler, as one value.

Integers of the source are `Int`, instants are nanoseconds, a nil pointer or a zero instant
is `none`, and maps are association lists without repeated keys (`AList`). Every field has
the zero value of its type as default, so that `{}` is the zero row.
-/

namespace KaaS

abbrev Time := Int

/-- A span of time, in nanoseconds. -/
abbrev Duration := Int

def Duration.second : Duration := 1000000000

def Duration.minute : Duration := 60 * second

def Duration.hour : Duration := 60 * minute

/-! ### Phases and roles -/

/-- Where a cluster is in its life; `reconcileOne` advances it one phase a tick. -/
inductive Phase
  | pending | provisioningInfra | infraReady | controlPlaneReady | workersReady
  | installingAddons | ready | updating | upgrading | renewingCerts | defragmentingEtcd
  | snapshottingEtcd | repairing | deleting | deleted | failed
  deriving DecidableEq

namespace Phase

def text : Phase → String
  | pending => "Pending"
  | provisioningInfra => "ProvisioningInfra"
  | infraReady => "InfraReady"
  | controlPlaneReady => "ControlPlaneReady"
  | workersReady => "WorkersReady"
  | installingAddons => "InstallingAddons"
  | ready => "Ready"
  | updating => "Updating"
  | upgrading => "Upgrading"
  | renewingCerts => "RenewingCerts"
  | defragmentingEtcd => "DefragmentingEtcd"
  | snapshottingEtcd => "SnapshottingEtcd"
  | repairing => "Repairing"
  | deleting => "Deleting"
  | deleted => "Deleted"
  | failed => "Failed"

def terminal (p : Phase) : Bool := p == deleted || p == failed

end Phase

inductive Role
  | controlPlane | worker
  deriving DecidableEq

/-! ### Pools, nodes and disks -/

structure SizeSpec where
  cpus : Int := 0
  memMB : Int := 0
  diskGB : Int := 0
  controlPlanes : Int := 0
  deriving DecidableEq

/-- The sizes the platform offers; an unknown size has none. -/
def sizes : String → Option SizeSpec
  | "small" => some ⟨2, 8192, 50, 1⟩
  | "medium" => some ⟨4, 16384, 50, 1⟩
  | "large" => some ⟨8, 32768, 50, 1⟩
  | _ => none

/-- Reading the size table at an unknown name gives the zero size. -/
def sizeOf (name : String) : SizeSpec := (sizes name).getD {}

structure NodePool where
  name : String := ""
  size : String := ""
  desiredWorkers : Int := 0
  diskGB : Int := 0
  deriving DecidableEq

/-- The root disk of a pool's nodes: the pool's override, or the default of its size. -/
def NodePool.rootDiskGB (p : NodePool) : Int :=
  if p.diskGB > 0 then p.diskGB else (sizeOf p.size).diskGB

/-- A machine the reconciler has provisioned, with the golden image it was built from. -/
structure Node where
  id : String := ""
  role : Role := .controlPlane
  vmName : String := ""
  pool : String := ""
  ip : String := ""
  mac : String := ""
  phase : String := ""
  image : String := ""
  deriving DecidableEq

inductive DiskPhase
  | pending | attached | removing
  deriving DecidableEq

/-- An extra disk of a worker. `deviceID` is what the infrastructure reported for it, empty
until it has. -/
structure NodeDisk where
  vmName : String := ""
  name : String := ""
  sizeGB : Int := 0
  mountPath : String := ""
  fsType : String := ""
  phase : DiskPhase := .pending
  wwn : String := ""
  deviceID : String := ""
  deriving DecidableEq

/-- What identifies a disk within its cluster. -/
def NodeDisk.key (d : NodeDisk) : String × String := (d.vmName, d.name)

inductive AddonPhase
  | unset | pending | updating | installed | removing
  deriving DecidableEq

structure Addon where
  name : String := ""
  version : String := ""
  phase : AddonPhase := .unset
  valuesOverride : String := ""
  catalogID : String := ""
  chart : String := ""
  repo : String := ""
  namespaceName : String := ""
  description : String := ""
  deriving DecidableEq

/-- An add-on taken from a tenant's own catalog. -/
def Addon.custom (a : Addon) : Bool := a.catalogID != ""

/-! ### Observed state -/

/-- The etcd backend as the reconciler last saw it. -/
structure EtcdStatus where
  dbBytes : Int := 0
  dbInUseBytes : Int := 0
  quotaBytes : Int := 0
  alarms : List String := []
  members : Int := 0
  observedAt : Option Time := none
  defraggedAt : Option Time := none
  deriving DecidableEq

inductive NodeFault
  | notReady | missing | vmDown
  deriving DecidableEq

inductive RepairAction
  | powerOn | rejoin | restartKubelet | replace | restore
  deriving DecidableEq

/-- What repair knows about one node. -/
structure NodeRepairState where
  fault : Option NodeFault := none
  unhealthySince : Option Time := none
  attempts : Int := 0
  lastAction : Option RepairAction := none
  lastActionAt : Option Time := none
  repairedAt : Option Time := none
  suspended : Bool := false
  note : String := ""
  deriving DecidableEq

/-- The repair record of a cluster: its nodes' states and the repair decided on, if any. -/
structure ClusterRepair where
  nodes : AList (fun _ : String => NodeRepairState) := ∅
  target : String := ""
  action : Option RepairAction := none
  observedAt : Option Time := none
  deriving DecidableEq

/-! ### The row -/

structure Cluster where
  id : String := ""
  name : String := ""
  ownerID : String := ""
  size : String := ""
  nodePools : List NodePool := []
  nodeDisks : List NodeDisk := []
  provider : String := ""
  networkCIDR : String := ""
  networkName : String := ""
  ipMode : String := ""
  netGateway : String := ""
  netDNS : String := ""
  staticIPs : AList (fun _ : String => String) := ∅
  controlPlanes : Int := 0
  apiVIP : String := ""
  loadBalancerIP : String := ""
  appsDomain : String := ""
  bundle : String := ""
  osImage : String := ""
  k8sVersion : String := ""
  cni : String := ""
  cniVersion : String := ""
  targetBundle : String := ""
  phase : Phase := .pending
  status : String := ""
  generation : Nat := 0
  observedGeneration : Nat := 0
  monitoringWired : Bool := false
  gatewayWired : Bool := false
  dnsWired : Bool := false
  vaultWired : Bool := false
  registryWired : Bool := false
  registryRobotNotAfter : Option Time := none
  storageWired : String := ""
  storageDiskGB : Int := 0
  certNotAfter : Option Time := none
  etcd : Option EtcdStatus := none
  etcdSnapshotAt : Option Time := none
  repair : Option ClusterRepair := none
  nodes : List Node := []
  addons : List Addon := []
  deletedAt : Option Time := none

end KaaS
