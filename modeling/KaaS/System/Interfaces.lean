import KaaS.Provision.Proxmox
import KaaS.System.Disks

/-!
# SCSI interfaces on Proxmox

The infrastructure module for Proxmox names the interface of every disk by a number. On a node the
root disk has the first one and the extra disks count from there. The volumes of the extra disks
belong to **one owner for all nodes**, where they count from zero through the disks of all nodes.

Proxmox has thirty-one interfaces. What admission bounds is the number of extra disks **per node**,
far below that; of the nodes there may be any number, and with Longhorn each of them has a disk. So
the interfaces of the nodes are always good, and those of the owner exactly if the cluster has no
more than thirty-one extra disks (`interfacesSound_iff`).
-/

namespace KaaS

open Guard Text Proxmox

/-! ### The interfaces of the module -/

def scsi (slot : ℕ) : String := "scsi" ++ toString slot

def scsiInterfaces : List String := (List.range 31).map scsi

namespace Proxmox

/-- The interfaces of the disk-owner's disks. -/
def ownerInterfaces (nodes : List TfvNode) : List String :=
  (extraFlat nodes).zipIdx.map fun (_, gi) => scsi gi

/-- The interfaces of a node's disks, the root disk's first. -/
def nodeInterfaces (nodes : List TfvNode) (name : String) : List String :=
  scsi 0 :: ((extraFlat nodes).filter (·.node == name)).map fun d => scsi d.nodeSlot

/-- **The interfaces of a machine's disks** are accepted and different. -/
structure Usable (interfaces : List String) : Prop where
  accepted : ∀ i ∈ interfaces, i ∈ scsiInterfaces
  nodup : interfaces.Nodup

/-- **Every interface the module assigns** is good, on the owner and on each node. -/
structure InterfacesSound (nodes : List TfvNode) : Prop where
  owner : Usable (ownerInterfaces nodes)
  node : ∀ n ∈ nodes, Usable (nodeInterfaces nodes n.name)

end Proxmox

/-! ### Counting from zero -/

theorem scsi_inj {m n : ℕ} (h : scsi m = scsi n) : m = n := by
  refine toString_inj (String.toList_inj.mp ?_)
  simpa [scsi] using congrArg String.toList h

theorem usable_range_iff {n : ℕ} : Usable ((List.range n).map scsi) ↔ n ≤ 31 := by
  constructor
  · intro h
    by_contra hmany
    obtain ⟨k, hk, heq⟩ := List.mem_map.mp
      (h.accepted (scsi 31) (List.mem_map_of_mem (List.mem_range.mpr (by omega))))
    obtain rfl := scsi_inj heq
    simp at hk
  · intro h
    refine ⟨fun i hi => ?_, List.Nodup.map (fun _ _ => scsi_inj) List.nodup_range⟩
    obtain ⟨k, hk, rfl⟩ := List.mem_map.mp hi
    exact List.mem_map_of_mem (List.mem_range.mpr ((List.mem_range.mp hk).trans_le h))

theorem ownerInterfaces_eq (nodes : List TfvNode) :
    ownerInterfaces nodes = (List.range (extraFlat nodes).length).map scsi := by
  have hindex : (extraFlat nodes).zipIdx.map Prod.snd = List.range (extraFlat nodes).length := by
    rw [List.zipIdx_map_snd, List.range_eq_range']
  rw [← hindex, List.map_map]
  rfl

private def entriesOf (n : TfvNode) : List ExtraDisk := extraFlat [n]

private theorem extraFlat_cons (n : TfvNode) (nodes : List TfvNode) :
    extraFlat (n :: nodes) = entriesOf n ++ extraFlat nodes := by
  simp [entriesOf, extraFlat]

private theorem node_of_mem_extraFlat {nodes : List TfvNode} {d : ExtraDisk}
    (h : d ∈ extraFlat nodes) : ∃ n ∈ nodes, d.node = n.name := by
  obtain ⟨n, hn, hd⟩ := List.mem_flatMap.mp h
  obtain ⟨x, -, rfl⟩ := List.mem_map.mp hd
  exact ⟨n, hn, rfl⟩

private theorem node_of_mem_entriesOf {n : TfvNode} {d : ExtraDisk} (h : d ∈ entriesOf n) :
    d.node = n.name := by
  obtain ⟨m, hm, hd⟩ := node_of_mem_extraFlat h
  rwa [List.mem_singleton.mp hm] at hd

private theorem filter_extraFlat {nodes : List TfvNode} (hnodup : (nodes.map (·.name)).Nodup)
    {n : TfvNode} (hn : n ∈ nodes) :
    (extraFlat nodes).filter (·.node == n.name) = entriesOf n := by
  induction nodes with
  | nil => simp at hn
  | cons m nodes ih =>
    obtain ⟨hm, hrest⟩ := List.nodup_cons.mp hnodup
    rw [extraFlat_cons, List.filter_append]
    rcases List.mem_cons.mp hn with rfl | hn
    · have hown : (entriesOf n).filter (·.node == n.name) = entriesOf n :=
        List.filter_eq_self.mpr fun d hd => by simp [node_of_mem_entriesOf hd]
      have hothers : (extraFlat nodes).filter (·.node == n.name) = [] := by
        refine List.filter_eq_nil_iff.mpr fun d hd hname => ?_
        obtain ⟨m, hm', hd⟩ := node_of_mem_extraFlat hd
        exact hm (List.mem_map.mpr ⟨m, hm', hd.symm.trans (beq_iff_eq.mp hname)⟩)
      rw [hown, hothers, List.append_nil]
    · have hnone : (entriesOf m).filter (·.node == n.name) = [] := by
        refine List.filter_eq_nil_iff.mpr fun d hd hname => ?_
        have heq : m.name = n.name := (node_of_mem_entriesOf hd).symm.trans (beq_iff_eq.mp hname)
        exact hm (List.mem_map.mpr ⟨n, hn, heq.symm⟩)
      rw [hnone, List.nil_append, ih hrest hn]

theorem nodeInterfaces_eq {nodes : List TfvNode} (hnodup : (nodes.map (·.name)).Nodup)
    {n : TfvNode} (hn : n ∈ nodes) :
    nodeInterfaces nodes n.name = (List.range (n.extraDisks.length + 1)).map scsi := by
  have hslots : (entriesOf n).map (fun d => scsi d.nodeSlot) =
      (n.extraDisks.zipIdx.map Prod.snd).map fun i => scsi (i + 1) := by
    simp only [entriesOf, extraFlat, List.flatMap_cons, List.flatMap_nil, List.append_nil,
      List.map_map]
    rfl
  rw [nodeInterfaces, filter_extraFlat hnodup hn, hslots, List.zipIdx_map_snd,
    ← List.range_eq_range', List.range_succ_eq_map, List.map_cons, List.map_map]
  rfl

/-! ### The interfaces of a cluster -/

section Cluster

variable {c : Cluster}

theorem length_extraFlat (hpools : PoolNames c.nodePools)
    (hvalid : ValidDisks (workerNames c) c.nodeDisks) :
    (extraFlat ((nodeSpecs c).map tfvNode)).length = c.nodeDisks.length := by
  have hgroups : ((nodeVMNames c).flatMap fun vm => c.nodeDisks.filter (·.vmName == vm)).Perm
      c.nodeDisks :=
    Slots.perm_flatMap_filter (f := NodeDisk.vmName) (nodup_nodeVMNames hpools) fun d hd =>
      nodeVMName_of_worker (hvalid.on_worker d hd)
  have hlen := congrArg List.length (map_key_extraFlat c)
  rw [List.length_map] at hlen
  rw [hlen, ← hgroups.length_eq, diskOrder, nodeVMNames, List.flatMap_map, List.length_flatMap,
    List.length_flatMap]
  refine congrArg List.sum (List.map_congr_left fun n _ => ?_)
  rw [List.length_map, disksFor, List.length_insertionSort]

private theorem length_extraDisks (hvalid : ValidDisks (workerNames c) c.nodeDisks) {n : TfvNode}
    (hn : n ∈ (nodeSpecs c).map tfvNode) : n.extraDisks.length ≤ maxDisksPerNode := by
  obtain ⟨spec, hspec, rfl⟩ := List.mem_map.mp hn
  obtain ⟨d, -, rfl⟩ := List.mem_map.mp hspec
  simp only [tfvNode, extraDisks_nodeSpec, List.length_map, disksFor, List.length_insertionSort]
  exact hvalid.few d.vmName

/-- **The interfaces of a cluster are good exactly if the owner has enough of them.** -/
theorem interfacesSound_iff (cfg : Proxmox.Config) (c : Cluster) (v : Proxmox.Tfvars)
    (hpools : validateNodePools c.name c.nodePools = .ok ())
    (hdisks : validateNodeDisks c c.nodeDisks = .ok ())
    (hvars : ensureVars cfg c.id (netSpec c) (nodeSpecs c) = .ok v) :
    InterfacesSound v.nodes ↔ c.nodeDisks.length ≤ 31 := by
  have hnames := poolNames_of_validateNodePools hpools
  have hvalid := validateNodeDisks_iff.mp hdisks
  have hnodes := nodes_of_ensureVars hvars
  have howner : Usable (ownerInterfaces v.nodes) ↔ c.nodeDisks.length ≤ 31 := by
    rw [ownerInterfaces_eq, usable_range_iff, hnodes, length_extraFlat hnames hvalid]
  refine ⟨fun h => howner.mp h.owner, fun h => ⟨howner.mpr h, fun n hn => ?_⟩⟩
  have hnodup : (v.nodes.map (·.name)).Nodup := by
    rw [hnodes, nodeSpecs, List.map_map, List.map_map]
    exact nodup_nodeVMNames hnames
  rw [nodeInterfaces_eq hnodup hn, usable_range_iff]
  rw [hnodes] at hn
  have hfew := length_extraDisks hvalid hn
  simp only [maxDisksPerNode] at hfew
  omega

end Cluster

/-! ### A disk on every worker -/

def onProxmox : CreateAdmission where
  id := "1"
  ownerID := "alice"
  infraProviders := [providerProxmox]
  addressing := fun _ => .ok { networkName := "vmbr0", ipMode := "dhcp" }

/-- The row of a new cluster with Longhorn and that many workers. -/
def longhornRow (workers : Int) : Cluster :=
  (((addonPlatform ["longhorn"]).app.createCluster onProxmox
    (pooledRequest [smallPool "default" workers])).toOption).getD {}

private theorem createCluster_longhornRow (workers : Int)
    (h : ((addonPlatform ["longhorn"]).app.createCluster onProxmox
      (pooledRequest [smallPool "default" workers])).toOption.isSome = true) :
    (addonPlatform ["longhorn"]).app.createCluster onProxmox
      (pooledRequest [smallPool "default" workers]) = .ok (longhornRow workers) :=
  eq_ok_getD h {}

private theorem exists_ensureVars {c : Cluster}
    (h : (ensureVars {} c.id (netSpec c) (nodeSpecs c)).toOption.isSome = true) :
    ∃ v, ensureVars {} c.id (netSpec c) (nodeSpecs c) = .ok v := by
  obtain ⟨v, hv⟩ := Option.isSome_iff_exists.mp h
  exact ⟨v, toOption_eq_some.mp hv⟩

/-- Three workers. -/
theorem interfacesSound_three :
    (addonPlatform ["longhorn"]).app.createCluster onProxmox
        (pooledRequest [smallPool "default" 3]) = .ok (longhornRow 3) ∧
      ∃ v, ensureVars {} (longhornRow 3).id (netSpec (longhornRow 3))
        (nodeSpecs (longhornRow 3)) = .ok v ∧ InterfacesSound v.nodes := by
  refine ⟨createCluster_longhornRow 3 (by decide +kernel), ?_⟩
  obtain ⟨v, hv⟩ := exists_ensureVars (c := longhornRow 3) (by decide +kernel)
  exact ⟨v, hv, (interfacesSound_iff {} (longhornRow 3) v (by decide +kernel) (by decide +kernel)
    hv).mpr (by decide +kernel)⟩

/-- **Thirty-two workers** are admitted, each with its disk, and the last disk is on the owner at an
interface there is not. -/
theorem owner_overflows :
    (addonPlatform ["longhorn"]).app.createCluster onProxmox
        (pooledRequest [smallPool "default" 32]) = .ok (longhornRow 32) ∧
      validateNodePools (longhornRow 32).name (longhornRow 32).nodePools = .ok () ∧
      validateNodeDisks (longhornRow 32) (longhornRow 32).nodeDisks = .ok () ∧
      ∃ v, ensureVars {} (longhornRow 32).id (netSpec (longhornRow 32))
        (nodeSpecs (longhornRow 32)) = .ok v ∧
        "scsi31" ∈ ownerInterfaces v.nodes ∧ ¬InterfacesSound v.nodes := by
  have hcreate := createCluster_longhornRow 32 (by decide +kernel)
  have hdisked := WellDisked.create hcreate
  refine ⟨hcreate, hdisked.pools, validateNodeDisks_iff.mpr hdisked.valid, ?_⟩
  obtain ⟨v, hv⟩ := exists_ensureVars (c := longhornRow 32) (by decide +kernel)
  have hlast : "scsi31" ∈ ownerInterfaces v.nodes := by
    have hcount : (longhornRow 32).nodeDisks.length = 32 := by decide +kernel
    rw [ownerInterfaces_eq, nodes_of_ensureVars hv,
      length_extraFlat (poolNames_of_validateNodePools hdisked.pools) hdisked.valid, hcount]
    exact List.mem_map.mpr ⟨31, by simp, rfl⟩
  have hnone : "scsi31" ∉ scsiInterfaces := by decide +kernel
  exact ⟨v, hv, hlast, fun h => hnone (h.owner.accepted _ hlast)⟩

end KaaS
