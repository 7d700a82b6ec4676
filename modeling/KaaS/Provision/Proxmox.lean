import KaaS.Library.Slots
import KaaS.Reconcile.Nodes

/-!
# Extra disks on Proxmox

The Proxmox backend turns a call for machines into the variables of its infrastructure module,
each machine with its extra disks sorted by name. The module flattens the disks of all machines
into one list (`extraFlat`); the disk at position `i` of that list is the volume at interface
`scsi<i>` of a machine that is never started and only owns the volumes, and the node it
belongs to attaches that volume. So a disk's volume is found by **the number of disks before
it**, on all machines: by its position in `diskOrder`, the disks of the row in the order of the
desired machines and then by name (`map_key_extraFlat`).
-/

namespace KaaS

open Guard

namespace Proxmox

/-! ### The variables of the module -/

/-- What the operator configured, as far as a call for machines uses it. -/
structure Config where
  node : String := ""
  datastore : String := ""
  vlan : Int := 0
  sshPublicKey : String := ""

structure TfvDisk where
  name : String
  sizeGB : Int
  wwn : String

structure TfvNode where
  name : String
  role : Role
  cpus : Int
  memMB : Int
  diskGB : Int
  image : String
  ip : String
  extraDisks : List TfvDisk

structure Tfvars where
  nodeName : String
  datastore : String
  bridge : String
  vlan : Int
  clusterID : String
  clusterName : String
  ipMode : String
  networkCIDR : String
  gateway : String
  dns : List String
  sshAuthorizedKey : String
  nodes : List TfvNode

def tfvNode (s : NodeSpec) : TfvNode where
  name := s.vmName
  role := s.role
  cpus := s.cpus
  memMB := s.memMB
  diskGB := s.diskGB
  image := s.image
  ip := s.ip
  extraDisks := (s.disks.map fun d => ⟨d.name, d.sizeGB, d.wwn⟩).insertionSort
    (fun a b => a.name ≤ b.name)

/-- With static addresses every machine needs one. -/
def checkStaticIPs (mode : String) (specs : List NodeSpec) : Except String Unit :=
  if mode = "static" then
    match specs.find? (·.ip == "") with
    | some s =>
      throw ("proxmox: node " ++ s.vmName ++ " has no static IP allocated (ip_mode=static)")
    | none => pure ()
  else pure ()

/-- The variables a call for machines writes before it applies the module. -/
def ensureVars (cfg : Config) (clusterID : String) (net : NetworkSpec) (specs : List NodeSpec) :
    Except String Tfvars := do
  let mode := if net.mode = "" then "dhcp" else net.mode
  refuseIf (net.name = "") ("proxmox: cluster " ++ clusterID ++ " has no bridge name")
  checkStaticIPs mode specs
  pure
    { nodeName := cfg.node
      datastore := cfg.datastore
      bridge := net.name
      vlan := cfg.vlan
      clusterID := clusterID
      clusterName := net.clusterName
      ipMode := mode
      networkCIDR := net.cidr
      gateway := net.gateway
      dns := net.dns
      sshAuthorizedKey := Text.trimSpace cfg.sshPublicKey
      nodes := specs.map tfvNode }

/-! ### The module -/

structure ExtraDisk where
  node : String
  name : String
  sizeGB : Int
  serial : String
  nodeSlot : Nat

def ExtraDisk.key (d : ExtraDisk) : String × String := (d.node, d.name)

/-- Every extra disk across every node; the position in this list is the interface of its
volume on the owner. -/
def extraFlat (nodes : List TfvNode) : List ExtraDisk :=
  nodes.flatMap fun n => n.extraDisks.zipIdx.map fun (d, i) =>
    { node := n.name
      name := d.name
      sizeGB := d.sizeGB
      serial := d.wwn.replace "0x" ""
      nodeSlot := i + 1 }

end Proxmox

/-! ### The order of disks -/

/-- The disks of a row in the order of the desired machines and then by name. -/
def diskOrder (c : Cluster) : List (String × String) :=
  (desiredNodes c).flatMap fun n => (disksFor c n.vmName).map (·.key)

open Proxmox

theorem nodes_of_ensureVars {cfg : Config} {clusterID : String} {net : NetworkSpec}
    {specs : List NodeSpec} {v : Tfvars} (h : ensureVars cfg clusterID net specs = .ok v) :
    v.nodes = specs.map tfvNode := by
  simp only [ensureVars, bind_eq_ok, pure_eq_ok] at h
  obtain ⟨-, -, -, -, rfl⟩ := h
  rfl

theorem map_key_extraFlat_tfvNode (specs : List NodeSpec) :
    (extraFlat (specs.map tfvNode)).map (·.key) =
      specs.flatMap fun s => (tfvNode s).extraDisks.map fun d => (s.vmName, d.name) := by
  rw [extraFlat, List.map_flatMap, List.flatMap_map]
  refine List.flatMap_congr fun s _ => ?_
  rw [List.map_map]
  conv_rhs => rw [← List.zipIdx_map_fst 0 (tfvNode s).extraDisks, List.map_map]
  rfl

theorem extraDisks_nodeSpec (c : Cluster) (vm : String) :
    ((diskSpecs c vm).map fun d => (⟨d.name, d.sizeGB, d.wwn⟩ : TfvDisk)).insertionSort
        (fun a b => a.name ≤ b.name) =
      (disksFor c vm).map fun d => ⟨d.name, d.sizeGB, d.wwn⟩ := by
  have hsorted : (disksFor c vm).Pairwise fun a b => a.name ≤ b.name := by
    have : Std.Total fun a b : NodeDisk => a.name ≤ b.name :=
      ⟨fun a b => String.le_total a.name b.name⟩
    have : IsTrans NodeDisk fun a b => a.name ≤ b.name := ⟨fun _ _ _ => String.le_trans⟩
    exact List.pairwise_insertionSort _ _
  rw [diskSpecs, List.map_map]
  exact List.Pairwise.insertionSort_eq (List.pairwise_map.mpr hsorted)

/-- **The flattened list** of the machines of a row is its disk order. -/
theorem map_key_extraFlat (c : Cluster) :
    (extraFlat ((nodeSpecs c).map tfvNode)).map (·.key) = diskOrder c := by
  rw [map_key_extraFlat_tfvNode, nodeSpecs, List.flatMap_map, diskOrder]
  refine List.flatMap_congr fun n _ => ?_
  simp only [tfvNode, extraDisks_nodeSpec, List.map_map]
  refine List.map_congr_left fun d hd => ?_
  simp [NodeDisk.key, (mem_disksFor.mp hd).2]

end KaaS
