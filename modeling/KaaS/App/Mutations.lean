import KaaS.Catalog
import KaaS.Domain.Disks

/-!
# API mutations of a cluster

Each mutation of the API is a read of the whole row, a computation on that copy and a blind
write of the result. This module holds the computations: `App.apply a adm m c` is the row
mutation `m` stores when it read `c`, if it stores one.

What a call depends on besides the row is in `Admission`: the actor's access, the owner's
budget and the provider's ceiling (which count the other clusters), the addresses in use,
the values' validity and the tenant's catalogs. They may answer differently on every call.
-/

namespace KaaS

open Text Guard

/-! ### Requests -/

structure CustomAddonRef where
  catalogID : String
  name : String

structure CustomAddon where
  name : String := ""
  description : String := ""
  repo : String := ""
  chart : String := ""
  version : String := ""
  namespaceName : String := ""
  values : String := ""

structure CustomCatalog where
  id : String := ""
  name : String := ""
  addons : List CustomAddon := []

structure UpdateRequest where
  nodePools : Option (List NodePool) := none
  addons : Option (List String) := none
  addonValues : AList (fun _ : String => String) := ∅
  customAddons : Option (List CustomAddonRef) := none

structure AddNodeDiskRequest where
  vmName : String := ""
  name : String := ""
  sizeGB : Int := 0
  mountPath : String := ""
  fsType : String := ""

inductive Mutation
  | updateCluster (req : UpdateRequest)
  | addNodeDisk (req : AddNodeDiskRequest)
  | removeNodeDisk (vmName name : String)
  | promoteCluster (targetBundle : String)
  | setClusterAddonValues (addonName override : String)
  | deleteCluster

/-- What a deployment fixes: its catalog, and the digest function of the language. -/
structure App where
  catalog : Catalog
  md5 : String → String := id

/-- What one call depends on besides the row. -/
structure Admission where
  authorized : Except String Unit := .ok ()
  ownerBudget : Cluster → Except String Unit := fun _ => .ok ()
  providerCapacity : Cluster → Except String Unit := fun _ => .ok ()
  sharedNet : Bool := false
  usedIPs : List String := []
  allocateStatic : List String → Nat → Except String (List String) := fun _ _ => .ok []
  validValues : String → Except String Unit := fun _ => .ok ()
  authorizeCatalog : String → Except String CustomCatalog := fun _ => .error ""

/-- The kinds of entries of a cluster's action history. -/
inductive OperationKind
  | create | scale | addons | upgrade | disks
  | ssh | repair | restore | snapshot | certRenewal | defrag
  deriving DecidableEq

structure PendingOp where
  kind : OperationKind
  summary : String

/-! ### Node pools -/

def nodePoolOps (current want : List NodePool) : List PendingOp :=
  (want.filterMap fun w =>
    match (current.filter (·.name == w.name)).getLast? with
    | none => some ⟨.scale, "Added node pool " ++ quote w.name ++ " - " ++
        toString w.desiredWorkers ++ " × " ++ w.size⟩
    | some cur =>
      if cur.desiredWorkers ≠ w.desiredWorkers then
        let verb := if w.desiredWorkers < cur.desiredWorkers then "Scaled down" else "Scaled up"
        some ⟨.scale, verb ++ " node pool " ++ quote w.name ++ " " ++
          toString cur.desiredWorkers ++ " → " ++ toString w.desiredWorkers ++ " workers"⟩
      else none) ++
  (current.filter fun p => !(want.map (·.name)).contains p.name).map fun p =>
    ⟨.scale, "Removed node pool " ++ quote p.name ++ " - " ++ toString p.desiredWorkers ++
      " × " ++ p.size ++ " drained"⟩

/-- A pool that stays keeps its size and its root disk. -/
def checkImmutable (c : Cluster) (w : NodePool) : Except String Unit :=
  match c.pool w.name with
  | none => pure ()
  | some cur => do
    refuseIf (cur.size ≠ w.size) ("node pool " ++ quote w.name ++ ": size is immutable (" ++
      cur.size ++ "); add a pool at the new size and remove this one")
    refuseIf (cur.diskGB ≠ w.diskGB) ("node pool " ++ quote w.name ++
      ": disk size is immutable (" ++ toString cur.rootDiskGB ++ " GB); add an extra disk to " ++
      "its nodes, or add a pool at the new disk size and remove this one")

def disksOnDesiredNodes (c : Cluster) : List NodeDisk :=
  c.nodeDisks.filter fun d => (nodeVMNames c).contains d.vmName

/-- The disks with the platform disk of each desired worker that has none yet. -/
def syncStorageDisks (md5 : String → String) (c : Cluster) : List NodeDisk :=
  c.nodeDisks ++ (desiredStorageDisks md5 c).filter fun d =>
    !(c.nodeDisks.map fun e => e.vmName ++ "/" ++ e.name).contains (d.vmName ++ "/" ++ d.name)

/-- Addresses of the desired machines on a shared network: a machine that has one keeps it. -/
def scaleSharedStaticIPs (adm : Admission) (c : Cluster) :
    Except String (AList fun _ : String => String) :=
  if !adm.sharedNet || c.ipMode != "static" then pure c.staticIPs
  else do
    let desired := nodeVMNames c
    let kept := desired.filterMap fun n => (c.staticIPs.lookup n).map fun ip => (n, ip)
    let missing := desired.filter fun n => (c.staticIPs.lookup n).isNone
    let used := adm.usedIPs ++ [c.apiVIP, c.loadBalancerIP].filter (· != "") ++ kept.map (·.2)
    let fresh ← if missing = [] then pure [] else adm.allocateStatic used missing.length
    pure ((kept ++ missing.zip fresh).foldl (fun m p => m.insert p.1 p.2) ∅)

def applyNodePools (a : App) (adm : Admission) (c : Cluster) (want : List NodePool) :
    Except String (Cluster × List PendingOp) := do
  validateNodePools c.name want
  want.forM (checkImmutable c)
  let ops := nodePoolOps c.nodePools want
  if ops.isEmpty then pure (c, [])
  else do
    let candidate := { c with nodePools := want }
    let candidate := { candidate with nodeDisks := disksOnDesiredNodes candidate }
    let candidate := { candidate with nodeDisks := syncStorageDisks a.md5 candidate }
    adm.ownerBudget candidate
    adm.providerCapacity candidate
    let ips ← scaleSharedStaticIPs adm candidate
    pure ({ c with nodePools := want, staticIPs := ips, nodeDisks := candidate.nodeDisks }, ops)

/-! ### Add-on selections -/

/-- Bring the add-ons that `governs` selects to the wanted set: kept ones stay (a pending
removal is cancelled), others are marked for removal, new ones are appended in `order`. -/
def reconcileAddonSet (addons : List Addon) (want : AList fun _ : String => Addon)
    (order : List String) (governs : Addon → Bool) : List Addon × Bool :=
  let settled := addons.map fun ad =>
    if !governs ad then ad
    else if ad.name ∈ want then
      if ad.phase = .removing then { ad with phase := .pending } else ad
    else { ad with phase := .removing }
  let seen := (addons.filter fun ad => governs ad && decide (ad.name ∈ want)).map (·.name)
  let added := (order.filter (!seen.contains ·)).eraseDups
  (settled ++ added.map fun n => (want.lookup n).getD {},
    settled != addons || !added.isEmpty)

def addonSelectionSummary (addons : List Addon) (requested : List String)
    (governs : Addon → Bool) : String :=
  let present := addons.filter fun ad => ad.phase != .removing && governs ad
  let parts := ((present.filter fun ad => !requested.contains ad.name).map ("-" ++ ·.name)) ++
    (requested.filter fun n => !(present.map (·.name)).contains n).map ("+" ++ ·)
  if parts = [] then "Add-ons updated" else "Add-ons: " ++ join ", " parts

def resolveAddon (a : App) (adm : Admission) (c : Cluster) (req : UpdateRequest)
    (name : String) : Except String Addon := do
  let pinned := ((a.catalog.bundle c.bundle).bind (·.addons.lookup name)).getD ""
  let version ←
    if pinned ≠ "" then pure pinned
    else match a.catalog.addon name with
      | none => throw ("unknown add-on " ++ quote name)
      | some ca => pure ca.version
  let ad : Addon := { name := name, version := version, phase := .pending }
  match req.addonValues.lookup name with
  | none => pure ad
  | some ov =>
    if trimSpace ov = "" then pure ad
    else do
      (adm.validValues ov).mapError fun e => "add-on " ++ quote name ++ " values: " ++ e
      pure { ad with valuesOverride := ov }

def applyAddonSelection (a : App) (adm : Admission) (c : Cluster) (req : UpdateRequest)
    (requested : List String) : Except String (List Addon × Bool) := do
  let resolved ← requested.mapM (resolveAddon a adm c req)
  let want := resolved.foldl (fun m ad => m.insert ad.name ad) ∅
  pure (reconcileAddonSet c.addons want requested fun ad => !ad.custom)

/-- The loop of `resolveCustomAddons`; `seen` holds the names already resolved. -/
def resolveCustomAddonsFrom (adm : Admission) (taken seen : List String) :
    List CustomAddonRef → Except String (List Addon)
  | [] => pure []
  | ref :: rest => do
    let cc ← adm.authorizeCatalog ref.catalogID
    match cc.addons.find? (·.name == ref.name) with
    | none => throw ("add-on " ++ quote ref.name ++ " is not in catalog " ++ quote cc.name)
    | some d =>
      if d.name ∈ seen then resolveCustomAddonsFrom adm taken seen rest
      else if d.name ∈ taken then
        throw ("add-on name " ++ quote d.name ++
          " collides with a built-in add-on already on the cluster")
      else do
        let more ← resolveCustomAddonsFrom adm taken (d.name :: seen) rest
        pure ({ name := d.name, version := d.version, phase := .pending, catalogID := cc.id,
                chart := d.chart, repo := d.repo, namespaceName := d.namespaceName,
                description := d.description, valuesOverride := d.values } :: more)

def applyCustomAddonSelection (adm : Admission) (addons : List Addon)
    (refs : List CustomAddonRef) : Except String (List Addon × Bool) := do
  let taken := (addons.filter (!·.custom)).map (·.name)
  let resolved ← resolveCustomAddonsFrom adm taken [] refs
  let want := resolved.foldl (fun m ad => m.insert ad.name ad) ∅
  pure (reconcileAddonSet addons want (resolved.map (·.name)) (·.custom))

/-! ### The calls -/

def updatePools (a : App) (adm : Admission) (c : Cluster) :
    Option (List NodePool) → Except String (Cluster × List PendingOp)
  | none => pure (c, [])
  | some want => applyNodePools a adm c want

def updateAddons (a : App) (adm : Admission) (c : Cluster) (req : UpdateRequest) :
    Except String (Cluster × List PendingOp) :=
  match req.addons with
  | none => pure (c, [])
  | some requested => do
    let summary := addonSelectionSummary c.addons requested fun ad => !ad.custom
    let next ← applyAddonSelection a adm c req requested
    pure ({ c with addons := next.1 }, if next.2 then [⟨.addons, summary⟩] else [])

def updateCustomAddons (adm : Admission) (c : Cluster) :
    Option (List CustomAddonRef) → Except String (Cluster × List PendingOp)
  | none => pure (c, [])
  | some refs => do
    let summary := addonSelectionSummary c.addons (refs.map (·.name)) (·.custom)
    let next ← applyCustomAddonSelection adm c.addons refs
    pure ({ c with addons := next.1 }, if next.2 then [⟨.addons, summary⟩] else [])

def applyUpdate (a : App) (adm : Admission) (c : Cluster) (req : UpdateRequest) :
    Except String (Cluster × List PendingOp) := do
  let pools ← updatePools a adm c req.nodePools
  let addons ← updateAddons a adm pools.1 req
  let custom ← updateCustomAddons adm addons.1 req.customAddons
  pure (custom.1, pools.2 ++ addons.2 ++ custom.2)

namespace App

variable (a : App) (adm : Admission)

/-- A cluster on its way out, or gone, takes no edits. -/
def refuseUneditable (c : Cluster) : Except String Unit :=
  refuseIf (c.phase = .deleting ∨ c.phase.terminal)
    ("cluster " ++ quote c.name ++ " is not editable (phase " ++ c.phase.text ++ ")")

def updateCluster (req : UpdateRequest) (c : Cluster) : Except String (Option Cluster) := do
  refuseUneditable c
  let updated ← applyUpdate a adm c req
  pure (if updated.2.isEmpty then none
    else some { updated.1 with generation := updated.1.generation + 1 })

def addNodeDisk (req : AddNodeDiskRequest) (c : Cluster) : Except String (Option Cluster) := do
  let fsType := if req.fsType = "" then fsExt4 else req.fsType
  validateUserDiskName req.name
  let mountPath := if req.mountPath = "" then longhornMountPath req.name else req.mountPath
  refuseIf (c.phase ≠ .ready) ("cluster " ++ quote c.name ++
    " must be Ready to add a disk (phase " ++ c.phase.text ++ ")")
  let disk : NodeDisk :=
    { vmName := req.vmName, name := req.name, sizeGB := req.sizeGB, mountPath := mountPath,
      fsType := fsType, phase := .pending, wwn := newDiskWWN a.md5 c.id req.vmName req.name }
  let candidate := { c with nodeDisks := c.nodeDisks ++ [disk] }
  validateNodeDisks candidate candidate.nodeDisks
  adm.ownerBudget candidate
  adm.providerCapacity candidate
  pure (some { c with nodeDisks := candidate.nodeDisks, generation := c.generation + 1 })

def removeNodeDisk (vmName name : String) (c : Cluster) : Except String (Option Cluster) := do
  refuseUneditable c
  match c.nodeDisks.findIdx? fun d => d.vmName == vmName && d.name == name with
  | none => throw "not found"
  | some i =>
    let d := c.nodeDisks.getD i {}
    refuseIf d.isPlatformStorage ("disk " ++ quote name ++
      " is the platform's per-worker storage disk and cannot be removed")
    if d.phase = .removing then pure none
    else
      pure (some { c with
        nodeDisks := c.nodeDisks.modify i fun d => { d with phase := .removing }
        generation := c.generation + 1 })

def promoteCluster (targetBundle : String) (c : Cluster) : Except String (Option Cluster) := do
  refuseIf (c.phase ≠ .ready) ("cluster " ++ quote c.name ++ " is not Ready (phase " ++
    c.phase.text ++ ") - wait before upgrading")
  refuseIf (targetBundle = "") "target bundle is required"
  refuseIf (targetBundle = c.bundle)
    ("cluster " ++ quote c.name ++ " already runs bundle " ++ quote c.bundle)
  refuseIf (targetBundle ∉ (a.catalog.upgradesFor c.bundle).map (·.name))
    ("bundle " ++ quote targetBundle ++ " is not an available upgrade from " ++ quote c.bundle)
  pure (some { c with targetBundle := targetBundle, generation := c.generation + 1 })

def setClusterAddonValues (addonName override : String) (c : Cluster) :
    Except String (Option Cluster) := do
  refuseIf (c.phase ≠ .ready) ("cluster " ++ quote c.name ++ " is not Ready (phase " ++
    c.phase.text ++ ") - wait before editing add-on values")
  (adm.validValues override).mapError fun e => "add-on " ++ quote addonName ++ " values: " ++ e
  match c.addons.findIdx? fun ad => ad.name == addonName && ad.phase != .removing with
  | none => throw ("add-on " ++ quote addonName ++ " is not installed on cluster " ++ quote c.name)
  | some i =>
    if trimSpace (c.addons.getD i {}).valuesOverride = trimSpace override then pure none
    else
      pure (some { c with
        addons := c.addons.modify i fun ad =>
          { ad with valuesOverride := override, phase := .updating }
        generation := c.generation + 1 })

/-- A cluster on its way out is left alone, successfully. -/
def deleteCluster (c : Cluster) : Except String (Option Cluster) :=
  pure (if c.phase = .deleting ∨ c.phase = .deleted then none
    else some { c with phase := .deleting, generation := c.generation + 1 })

/-- The row a mutation stores when it read `c`: `.ok none` is success without a write. -/
def apply (m : Mutation) (c : Cluster) : Except String (Option Cluster) := do
  adm.authorized
  match m with
  | .updateCluster req => a.updateCluster adm req c
  | .addNodeDisk req => a.addNodeDisk adm req c
  | .removeNodeDisk vmName name => removeNodeDisk vmName name c
  | .promoteCluster target => a.promoteCluster target c
  | .setClusterAddonValues addonName override => setClusterAddonValues adm addonName override c
  | .deleteCluster => deleteCluster c

end App

/-! ### The disks of an admitted row -/

theorem mem_syncStorageDisks {md5 : String → String} {c : Cluster} {d : NodeDisk}
    (h : d ∈ syncStorageDisks md5 c) :
    d ∈ c.nodeDisks ∨ d.phase = .pending ∧ d.deviceID = "" :=
  (List.mem_append.mp h).imp_right fun hd =>
    pending_of_mem_desiredStorageDisks (List.mem_filter.mp hd).1

theorem DiskKeys.sync {c : Cluster} (md5 : String → String) (hpools : PoolNames c.nodePools)
    (h : DiskKeys c) : DiskKeys { c with nodeDisks := syncStorageDisks md5 c } := by
  have hnew : ((desiredStorageDisks md5 c).map (·.key)).Nodup := by
    refine (map_key_desiredStorageDisks_sublist md5 c).nodup ?_
    exact (nodup_workerNames hpools).map fun _ _ h => (Prod.mk.inj h).1
  constructor
  · rw [syncStorageDisks, List.map_append]
    refine List.nodup_append.mpr ⟨h.nodup, (List.filter_sublist.map _).nodup hnew, ?_⟩
    rintro k hk _ hk' rfl
    obtain ⟨e, he, rfl⟩ := List.mem_map.mp hk
    obtain ⟨d, hd, hde⟩ := List.mem_map.mp hk'
    obtain ⟨hvm, hname⟩ := Prod.mk.inj hde
    have hfresh := (List.mem_filter.mp hd).2
    rw [Bool.not_eq_true', ← Bool.not_eq_true, List.contains_iff_mem] at hfresh
    exact hfresh (List.mem_map.mpr ⟨e, he, by rw [hvm, hname]⟩)
  · intro d hd
    rcases List.mem_append.mp hd with hd | hd
    · exact h.on_worker d hd
    · have hkey := (map_key_desiredStorageDisks_sublist md5 c).subset
        (List.mem_map_of_mem (List.mem_filter.mp hd).1)
      obtain ⟨vm, hvm, heq⟩ := List.mem_map.mp hkey
      exact (Prod.mk.inj heq).1 ▸ hvm

theorem DiskKeys.onDesiredNodes {c : Cluster} (want : List NodePool)
    (hpools : PoolNames c.nodePools) (h : DiskKeys c) :
    DiskKeys { c with
      nodePools := want
      nodeDisks := disksOnDesiredNodes { c with nodePools := want } } := by
  constructor
  · exact (List.filter_sublist.map _).nodup h.nodup
  · intro d hd
    obtain ⟨hd, hdesired⟩ := List.mem_filter.mp hd
    obtain ⟨p, hp, i, -, hvm⟩ := mem_workerNames.mp (h.on_worker d hd)
    rw [List.contains_iff_mem] at hdesired
    obtain ⟨n, hn, hname⟩ := List.mem_map.mp hdesired
    rcases List.mem_append.mp hn with hcp | hworker
    · -- a control plane's name is no worker's
      obtain ⟨j, -, rfl⟩ := List.mem_map.mp hcp
      exact absurd (vmName_inj (hname.trans hvm)).1.symm (hpools.ne_infix p hp)
    · obtain ⟨q, hq, hn⟩ := List.mem_flatMap.mp hworker
      obtain ⟨j, hj, rfl⟩ := mem_desired.mp hn
      exact mem_workerNames.mpr ⟨q, hq, j, hj, hname.symm⟩

end KaaS
