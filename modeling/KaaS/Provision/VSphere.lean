import KaaS.Provision.Proxmox

/-!
# Extra disks on vSphere

The vSphere backend writes its machines as the Proxmox backend does, each with its extra disks
sorted by name. Its module gives every extra disk a resource of its own, in one map over all
machines keyed `<node>/<disk>`, and attaches it to its machine at the SCSI unit that is **one more
than the disk's index** in the sorted list; unit 0 is the root disk. On Proxmox the slot on the
machine is that number too. `scsiSlots` lists it for the machines of a call, and both modules
assign what it lists (`Proxmox.attachments_eq`, `VSphere.mem_attachments`).
-/

namespace KaaS

open Guard

namespace VSphere

open Proxmox (TfvNode tfvNode)

/-! ### The variables of the module -/

/-- What the operator configured, as far as a call for machines uses it. -/
structure Config where
  datacenter : String := ""
  computeCluster : String := ""
  datastore : String := ""
  parentFolder : String := ""
  sshPublicKey : String := ""

structure Tfvars where
  datacenter : String
  computeCluster : String
  datastore : String
  network : String
  parentFolder : String
  folderName : String
  clusterID : String
  clusterName : String
  ipMode : String
  networkCIDR : String
  gateway : String
  dns : List String
  sshAuthorizedKey : String
  nodes : List TfvNode

def folderName (clusterName clusterID : String) : String :=
  if clusterName = "" then clusterID else clusterName ++ "-" ++ clusterID

/-- With static addresses every machine needs one. -/
def checkStaticIPs (mode : String) (specs : List NodeSpec) : Except String Unit :=
  if mode = "static" then
    match specs.find? (·.ip == "") with
    | some s =>
      throw ("vsphere: node " ++ s.vmName ++ " has no static IP allocated (ip_mode=static)")
    | none => pure ()
  else pure ()

/-- The variables a call for machines writes before it applies the module. -/
def ensureVars (cfg : Config) (clusterID : String) (net : NetworkSpec) (specs : List NodeSpec) :
    Except String Tfvars := do
  let mode := if net.mode = "" then "dhcp" else net.mode
  refuseIf (net.name = "") ("vsphere: cluster " ++ clusterID ++ " has no network name")
  checkStaticIPs mode specs
  pure
    { datacenter := cfg.datacenter
      computeCluster := cfg.computeCluster
      datastore := cfg.datastore
      network := net.name
      parentFolder := cfg.parentFolder
      folderName := folderName net.clusterName clusterID
      clusterID := clusterID
      clusterName := net.clusterName
      ipMode := mode
      networkCIDR := net.cidr
      gateway := net.gateway
      dns := net.dns
      sshAuthorizedKey := Text.trimSpace cfg.sshPublicKey
      nodes := specs.map tfvNode }

theorem nodes_of_ensureVars {cfg : Config} {clusterID : String} {net : NetworkSpec}
    {specs : List NodeSpec} {v : Tfvars} (h : ensureVars cfg clusterID net specs = .ok v) :
    v.nodes = specs.map tfvNode := by
  simp only [ensureVars, bind_eq_ok, pure_eq_ok] at h
  obtain ⟨-, -, -, -, rfl⟩ := h
  rfl

/-! ### The module -/

structure ExtraDisk where
  node : String
  name : String
  sizeGB : Int
  unitNumber : Nat

/-- The map of one machine's extra disks, entry by entry. -/
def nodeExtraDisks (n : TfvNode) : List (String × ExtraDisk) :=
  n.extraDisks.zipIdx.map fun (d, i) => (n.name ++ "/" ++ d.name,
    { node := n.name
      name := d.name
      sizeGB := d.sizeGB
      unitNumber := i + 1 })

/-- The maps of all machines merged: of entries under one key the last one counts. -/
def extraDisks (nodes : List TfvNode) : AList fun _ : String => ExtraDisk :=
  (nodes.flatMap nodeExtraDisks).foldl (fun m e => m.insert e.1 e.2) ∅

/-- Where disks are attached: each disk of a machine with its SCSI unit there. -/
def attachments (nodes : List TfvNode) : List ((String × String) × ℕ) :=
  (extraDisks nodes).entries.map fun e => ((e.2.node, e.2.name), e.2.unitNumber)

end VSphere

namespace Proxmox

/-- Where disks are attached: each disk of a machine with its slot there. -/
def attachments (nodes : List TfvNode) : List ((String × String) × ℕ) :=
  (extraFlat nodes).map fun d => (d.key, d.nodeSlot)

end Proxmox

/-! ### Slots by index -/

open Proxmox (TfvNode tfvNode)

/-- The disks of all machines, each with the SCSI slot its index in the list of its machine
gives. -/
def scsiSlots (nodes : List TfvNode) : List ((String × String) × ℕ) :=
  nodes.flatMap fun n => n.extraDisks.zipIdx.map fun (d, i) => ((n.name, d.name), i + 1)

theorem Proxmox.attachments_eq (nodes : List TfvNode) :
    Proxmox.attachments nodes = scsiSlots nodes := by
  rw [Proxmox.attachments, Proxmox.extraFlat, List.map_flatMap, scsiSlots]
  refine List.flatMap_congr fun n _ => ?_
  rw [List.map_map]
  rfl

private theorem entries_foldl_insert {β : Type} {es : List (String × β)}
    {m : AList fun _ : String => β} (hnodup : (es.map (·.1)).Nodup)
    (hnew : ∀ e ∈ es, e.1 ∉ m) :
    (es.foldl (fun m e => m.insert e.1 e.2) m).entries =
      (es.map fun e => ⟨e.1, e.2⟩).reverse ++ m.entries := by
  induction es generalizing m with
  | nil => rfl
  | cons e es ih =>
    obtain ⟨hfirst, hrest⟩ := List.nodup_cons.mp hnodup
    rw [List.foldl_cons, ih hrest, AList.entries_insert_of_notMem (hnew e List.mem_cons_self)]
    · simp
    · intro e' he' hmem
      rcases (AList.mem_insert _).mp hmem with heq | hmem
      · exact hfirst (List.mem_map.mpr ⟨e', he', heq⟩)
      · exact hnew e' (List.mem_cons_of_mem _ he') hmem

/-- **The module attaches every disk** at the slot of its index, if no two have the same key. -/
theorem VSphere.mem_attachments {nodes : List TfvNode} {p : (String × String) × ℕ}
    (hnodup : ((scsiSlots nodes).map fun p => p.1.1 ++ "/" ++ p.1.2).Nodup) :
    p ∈ VSphere.attachments nodes ↔ p ∈ scsiSlots nodes := by
  have hslots : scsiSlots nodes = (nodes.flatMap VSphere.nodeExtraDisks).map
      fun e => ((e.2.node, e.2.name), e.2.unitNumber) := by
    rw [scsiSlots, List.map_flatMap]
    refine List.flatMap_congr fun n _ => ?_
    rw [VSphere.nodeExtraDisks, List.map_map]
    rfl
  have hkeys : (scsiSlots nodes).map (fun p => p.1.1 ++ "/" ++ p.1.2) =
      (nodes.flatMap VSphere.nodeExtraDisks).map (·.1) := by
    rw [scsiSlots, List.map_flatMap, List.map_flatMap]
    refine List.flatMap_congr fun n _ => ?_
    rw [VSphere.nodeExtraDisks, List.map_map, List.map_map]
    rfl
  rw [VSphere.attachments, VSphere.extraDisks, entries_foldl_insert (hkeys ▸ hnodup) (by simp),
    hslots]
  simp

end KaaS
