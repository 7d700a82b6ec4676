import KaaS.Catalog
import KaaS.Domain.Disks

/-!
# From the row to the machines and back

What the reconciler asks the infrastructure for (`nodeSpecs`, `netSpec`), how it records
what it got (`toDomainNodes`, `observeDisks`) and its tests for having arrived
(`nodesConverged`, `disksConverged`). These are the pure parts of a tick.
-/

namespace KaaS

open Text

structure NetworkSpec where
  cidr : String := ""
  mode : String := ""
  name : String := ""
  gateway : String := ""
  dns : List String := []
  vip : String := ""
  clusterName : String := ""
  loadBalancerIP : String := ""
  deriving DecidableEq

structure DiskSpec where
  name : String := ""
  sizeGB : Int := 0
  wwn : String := ""
  deriving DecidableEq

/-- One machine as the infrastructure is asked for it. -/
structure NodeSpec where
  vmName : String := ""
  role : Role := .controlPlane
  pool : String := ""
  cpus : Int := 0
  memMB : Int := 0
  diskGB : Int := 0
  image : String := ""
  ip : String := ""
  disks : List DiskSpec := []
  deriving DecidableEq

/-- One machine as the infrastructure reports it; `disks` maps a disk to its device id. -/
structure ProvisionedNode where
  vmName : String := ""
  ip : String := ""
  mac : String := ""
  disks : AList (fun _ : String => String) := ∅
  deriving DecidableEq

/-! ### Asking -/

def netSpec (c : Cluster) : NetworkSpec :=
  if c.infraProvider = providerVSphere ∨ c.infraProvider = providerProxmox then
    { cidr := c.networkCIDR, mode := c.ipMode, name := c.networkName, gateway := c.netGateway,
      dns := ((split c.netDNS ',').map trimSpace).filter (· != ""),
      vip := c.apiVIP, clusterName := c.name, loadBalancerIP := c.loadBalancerIP }
  else { cidr := c.networkCIDR, mode := "nat", clusterName := c.name }

def diskSpecs (c : Cluster) (vmName : String) : List DiskSpec :=
  (disksFor c vmName).map fun d => { name := d.name, sizeGB := d.sizeGB, wwn := d.wwn }

def currentImage (c : Cluster) : String :=
  goldenImageNameFor c.infraProvider c.osImage c.k8sVersion

def nodeSpecs (c : Cluster) : List NodeSpec :=
  (desiredNodes c).map fun d =>
    { vmName := d.vmName, role := d.role, pool := d.pool, cpus := d.spec.cpus,
      memMB := d.spec.memMB, diskGB := d.spec.diskGB, image := currentImage c,
      ip := (c.staticIPs.lookup d.vmName).getD "", disks := diskSpecs c d.vmName }

theorem map_vmName_nodeSpecs (c : Cluster) : (nodeSpecs c).map (·.vmName) = nodeVMNames c := by
  simp [nodeSpecs, nodeVMNames, Function.comp_def]

/-! ### Recording -/

/-- What was reported for a machine; of several reports the last counts. -/
def reportFor (nodes : List ProvisionedNode) (vmName : String) : ProvisionedNode :=
  ((nodes.filter (·.vmName == vmName)).getLast?).getD {}

def toDomainNodes (specs : List NodeSpec) (nodes : List ProvisionedNode) : List Node :=
  specs.map fun s =>
    { id := s.vmName, role := s.role, vmName := s.vmName, pool := s.pool,
      ip := (reportFor nodes s.vmName).ip, mac := (reportFor nodes s.vmName).mac,
      phase := "ready", image := s.image }

theorem map_vmName_toDomainNodes (specs : List NodeSpec) (nodes : List ProvisionedNode) :
    (toDomainNodes specs nodes).map (·.vmName) = specs.map (·.vmName) := by
  simp [toDomainNodes, Function.comp_def]

/-- A disk takes the device id reported for it, and keeps its own if none is. -/
def NodeDisk.observe (nodes : List ProvisionedNode) (d : NodeDisk) : NodeDisk :=
  let id := ((reportFor nodes d.vmName).disks.lookup d.name).getD ""
  if id ≠ "" then { d with deviceID := id } else d

def observeDisks (disks : List NodeDisk) (nodes : List ProvisionedNode) : List NodeDisk :=
  disks.map (·.observe nodes)

/-- A disk with a device id counts as attached once the mount run succeeded. -/
def NodeDisk.mount (d : NodeDisk) : NodeDisk :=
  if d.deviceID ≠ "" ∧ d.phase ≠ .attached then { d with phase := .attached } else d

/-! ### Comparing -/

def nodesConverged (c : Cluster) : Bool :=
  (nodeSpecs c).length == c.nodes.length &&
    (nodeSpecs c).all fun s => (c.nodes.map (·.vmName)).contains s.vmName

def disksConverged (c : Cluster) : Bool := c.nodeDisks.all (·.phase == .attached)

def removedWorkers (current : List Node) (desired : List NodeSpec) : List Node :=
  current.filter fun n => n.role == .worker && !(desired.map (·.vmName)).contains n.vmName

def removingDisks (c : Cluster) : List NodeDisk := c.nodeDisks.filter (·.phase == .removing)

def allNodesOnImage (nodes : List Node) (image : String) : Bool :=
  nodes.all (·.image == image) && !nodes.isEmpty

/-- The node an OS hop replaces next: workers first. -/
def nextNodeToRoll (nodes : List Node) (targetImage : String) : Option Node :=
  (nodes.find? fun n => n.role == .worker && n.image != targetImage).or
    (nodes.find? fun n => n.role == .controlPlane && n.image != targetImage)

def nodeByNameOK (nodes : List Node) (name : String) : Option Node :=
  nodes.find? (·.vmName == name)

def nodeByName (nodes : List Node) (name : String) : Node := (nodeByNameOK nodes name).getD {}

/-- The image recorded for a machine, empty if there is none; of several the last counts. -/
def recordedImage (nodes : List Node) (vmName : String) : String :=
  (((nodes.filter (·.vmName == vmName)).getLast?).map (·.image)).getD ""

/-- The specs a single node's rebuild passes: every machine keeps the image recorded for it,
and `node` takes the target. -/
def rebuildSpecs (c : Cluster) (node : Node) (targetImage : String) : List NodeSpec :=
  (nodeSpecs c).map fun s =>
    let kept :=
      if recordedImage c.nodes s.vmName ≠ "" then
        { s with image := recordedImage c.nodes s.vmName }
      else s
    if s.vmName = node.vmName then { kept with image := targetImage } else kept

/-! ### What convergence means -/

/-- **Converged nodes** are exactly the desired ones, once the desired names are distinct:
as many nodes as names, and every name among them. -/
theorem perm_of_nodesConverged {c : Cluster} (hpools : PoolNames c.nodePools)
    (h : nodesConverged c = true) : (c.nodes.map (·.vmName)).Perm (nodeVMNames c) := by
  simp only [nodesConverged, Bool.and_eq_true, beq_iff_eq, List.all_eq_true,
    List.contains_iff_mem] at h
  obtain ⟨hlen, hall⟩ := h
  have hsub : nodeVMNames c ⊆ c.nodes.map (·.vmName) := by
    intro vm hvm
    rw [← map_vmName_nodeSpecs, List.mem_map] at hvm
    obtain ⟨s, hs, rfl⟩ := hvm
    exact hall s hs
  have hsubperm := List.subperm_of_subset (nodup_nodeVMNames hpools) hsub
  refine (hsubperm.perm_of_length_le ?_).symm
  rw [List.length_map, ← hlen, ← map_vmName_nodeSpecs, List.length_map]

theorem disksConverged_iff {c : Cluster} :
    disksConverged c = true ↔ ∀ d ∈ c.nodeDisks, d.phase = .attached := by
  simp [disksConverged]

@[simp] theorem NodeDisk.key_observe (d : NodeDisk) (nodes : List ProvisionedNode) :
    (d.observe nodes).key = d.key := by
  simp only [observe]
  split <;> rfl

@[simp] theorem NodeDisk.key_mount (d : NodeDisk) : d.mount.key = d.key := by
  simp only [mount]
  split <;> rfl

@[simp] theorem NodeDisk.phase_observe (d : NodeDisk) (nodes : List ProvisionedNode) :
    (d.observe nodes).phase = d.phase := by
  simp only [observe]
  split <;> rfl

@[simp] theorem NodeDisk.deviceID_mount (d : NodeDisk) : d.mount.deviceID = d.deviceID := by
  simp only [mount]
  split <;> rfl

end KaaS
