import KaaS.App.Mutations
import KaaS.Library.Keyed

/-!
# What an accepted mutation changes

`Edit a c m c'` lists, mutation by mutation, how the row `c'` a call stores differs from the
row `c` it read, together with what admission established. `edit_of_apply` is the inversion
lemma of `App.apply`, and everything about the API in later modules is read off it.
-/

namespace KaaS

open Guard

/-- The pools `want` are admissible in place of those of `c`: valid, and with the size and
root disk of every pool that stays. -/
structure PoolsAdmitted (c : Cluster) (want : List NodePool) : Prop where
  valid : validateNodePools c.name want = .ok ()
  immutable : ∀ w ∈ want, ∀ cur, c.pool w.name = some cur →
    cur.size = w.size ∧ cur.diskGB = w.diskGB

theorem PoolsAdmitted.exists_old {c : Cluster} {want : List NodePool} (h : PoolsAdmitted c want)
    {w : NodePool} (hw : w ∈ want) (hold : w.name ∈ c.nodePools.map (·.name)) :
    ∃ cur ∈ c.nodePools, cur.name = w.name ∧ cur.size = w.size ∧ cur.diskGB = w.diskGB := by
  obtain ⟨q, hq, hqw⟩ := List.mem_map.mp hold
  have hsome : (c.pool w.name).isSome := by
    rw [Cluster.pool, List.find?_isSome]
    exact ⟨q, hq, by simpa using hqw⟩
  obtain ⟨cur, hcur⟩ := Option.isSome_iff_exists.mp hsome
  exact ⟨cur, List.mem_of_find?_eq_some hcur, by simpa using List.find?_some hcur,
    h.immutable w hw cur hcur⟩

/-- The disks of `c` under the pools `want`: those on machines still desired, and the
platform disk of every new worker. -/
def disksAfterPools (md5 : String → String) (c : Cluster) (want : List NodePool) :
    List NodeDisk :=
  syncStorageDisks md5 { c with
    nodePools := want
    nodeDisks := disksOnDesiredNodes { c with nodePools := want } }

/-- How the pools, disks and addresses of a row may change together. -/
inductive PoolEdit (a : App) (c : Cluster) (requested : Option (List NodePool)) :
    List NodePool → List NodeDisk → (AList fun _ : String => String) → Prop
  | keep : PoolEdit a c requested c.nodePools c.nodeDisks c.staticIPs
  | change {want : List NodePool} (ips : AList fun _ : String => String)
      (hwant : requested = some want) (h : PoolsAdmitted c want) :
      PoolEdit a c requested want (disksAfterPools a.md5 c want) ips

/-- **The effect of a mutation**: `c'` is stored by `m` having read `c`. -/
inductive Edit (a : App) (c : Cluster) : Mutation → Cluster → Prop
  | update {req : UpdateRequest} {pools : List NodePool} {disks : List NodeDisk}
      {ips : AList fun _ : String => String} (addons : List Addon)
      (hphase : c.phase ≠ .deleting ∧ c.phase.terminal = false)
      (haddons : req.addons = none → req.customAddons = none → addons = c.addons)
      (hpools : PoolEdit a c req.nodePools pools disks ips) :
      Edit a c (.updateCluster req) { c with
        nodePools := pools
        nodeDisks := disks
        staticIPs := ips
        addons := addons
        generation := c.generation + 1 }
  | addDisk {req : AddNodeDiskRequest} (disk : NodeDisk) (hphase : c.phase = .ready)
      (hnew : disk.phase = .pending ∧ disk.deviceID = "")
      (hkey : disk.key = (req.vmName, req.name))
      (hvalid : DiskKeys { c with nodeDisks := c.nodeDisks ++ [disk] }) :
      Edit a c (.addNodeDisk req) { c with
        nodeDisks := c.nodeDisks ++ [disk]
        generation := c.generation + 1 }
  | removeDisk {vmName name : String} (i : Nat)
      (hphase : c.phase ≠ .deleting ∧ c.phase.terminal = false)
      (hi : c.nodeDisks.findIdx? (fun d => d.vmName == vmName && d.name == name) = some i) :
      Edit a c (.removeNodeDisk vmName name) { c with
        nodeDisks := c.nodeDisks.modify i fun d => { d with phase := .removing }
        generation := c.generation + 1 }
  | promote {target : String} (hphase : c.phase = .ready) (hne : target ≠ "")
      (hne' : target ≠ c.bundle)
      (hopen : target ∈ (a.catalog.upgradesFor c.bundle).map (·.name)) :
      Edit a c (.promoteCluster target) { c with
        targetBundle := target
        generation := c.generation + 1 }
  | values {addonName override : String} (i : Nat) (hphase : c.phase = .ready)
      (hi : c.addons.findIdx? (fun ad => ad.name == addonName && ad.phase != .removing) =
        some i) :
      Edit a c (.setClusterAddonValues addonName override) { c with
        addons := c.addons.modify i fun ad =>
          { ad with valuesOverride := override, phase := .updating }
        generation := c.generation + 1 }
  | delete (hphase : c.phase ≠ .deleting ∧ c.phase ≠ .deleted) :
      Edit a c .deleteCluster { c with phase := .deleting, generation := c.generation + 1 }

/-! ### Inversion -/

section Inversion

variable {a : App} {adm : Admission} {c c' : Cluster}

private theorem poolsAdmitted_of_checks {want : List NodePool}
    (hvalid : validateNodePools c.name want = .ok ())
    (himm : want.forM (checkImmutable c) = .ok ()) : PoolsAdmitted c want := by
  refine ⟨hvalid, fun w hw cur hcur => ?_⟩
  have hcheck := forM_eq_ok himm w hw
  simp only [checkImmutable, hcur, bind_eq_ok, refuseIf_eq_ok, not_not] at hcheck
  obtain ⟨-, hsize, hdisk⟩ := hcheck
  exact ⟨hsize, hdisk⟩

private theorem applyNodePools_ok {want : List NodePool} {ops : List PendingOp}
    (h : applyNodePools a adm c want = .ok (c', ops)) :
    ∃ pools disks ips, PoolEdit a c (some want) pools disks ips ∧
      c' = { c with nodePools := pools, nodeDisks := disks, staticIPs := ips } := by
  simp only [applyNodePools, bind_eq_ok] at h
  obtain ⟨⟨⟩, hvalid, ⟨⟩, himm, h⟩ := h
  split at h
  · simp only [pure_eq_ok, Prod.mk.injEq] at h
    exact ⟨_, _, _, .keep, h.1.symm⟩
  · simp only [bind_eq_ok, pure_eq_ok, Prod.mk.injEq] at h
    obtain ⟨-, -, -, -, ips, -, rfl, -⟩ := h
    exact ⟨_, _, _, .change ips rfl (poolsAdmitted_of_checks hvalid himm), rfl⟩

private theorem updateAddons_ok {req : UpdateRequest} {ops : List PendingOp}
    (h : updateAddons a adm c req = .ok (c', ops)) :
    ∃ addons, (req.addons = none → addons = c.addons) ∧ c' = { c with addons := addons } := by
  simp only [updateAddons] at h
  split at h
  · simp only [pure_eq_ok, Prod.mk.injEq] at h
    exact ⟨_, fun _ => rfl, h.1.symm⟩
  · rename_i requested hsome
    simp only [bind_eq_ok, pure_eq_ok, Prod.mk.injEq] at h
    obtain ⟨_, -, rfl, -⟩ := h
    exact ⟨_, fun hnone => by simp [hsome] at hnone, rfl⟩

private theorem updateCustomAddons_ok {refs : Option (List CustomAddonRef)}
    {ops : List PendingOp} (h : updateCustomAddons adm c refs = .ok (c', ops)) :
    ∃ addons, (refs = none → addons = c.addons) ∧ c' = { c with addons := addons } := by
  cases refs with
  | none =>
    simp only [updateCustomAddons, pure_eq_ok, Prod.mk.injEq] at h
    exact ⟨_, fun _ => rfl, h.1.symm⟩
  | some refs =>
    simp only [updateCustomAddons, bind_eq_ok, pure_eq_ok, Prod.mk.injEq] at h
    obtain ⟨_, -, rfl, -⟩ := h
    exact ⟨_, by simp, rfl⟩

private theorem updatePools_ok {pools : Option (List NodePool)} {ops : List PendingOp}
    (h : updatePools a adm c pools = .ok (c', ops)) :
    ∃ pools' disks ips, PoolEdit a c pools pools' disks ips ∧
      c' = { c with nodePools := pools', nodeDisks := disks, staticIPs := ips } := by
  cases pools with
  | none =>
    simp only [updatePools, pure_eq_ok, Prod.mk.injEq] at h
    exact ⟨_, _, _, .keep, h.1.symm⟩
  | some want => exact applyNodePools_ok h

private theorem applyUpdate_ok {req : UpdateRequest} {ops : List PendingOp}
    (h : applyUpdate a adm c req = .ok (c', ops)) :
    ∃ pools disks ips addons, PoolEdit a c req.nodePools pools disks ips ∧
      (req.addons = none → req.customAddons = none → addons = c.addons) ∧
      c' = { c with nodePools := pools, nodeDisks := disks, staticIPs := ips,
                    addons := addons } := by
  simp only [applyUpdate, bind_eq_ok, Prod.exists, pure_eq_ok, Prod.mk.injEq] at h
  obtain ⟨c₁, _, h₁, c₂, _, h₂, c₃, _, h₃, rfl, -⟩ := h
  obtain ⟨pools, disks, ips, hedit, rfl⟩ := updatePools_ok h₁
  obtain ⟨_, hkeep, rfl⟩ := updateAddons_ok h₂
  obtain ⟨addons, hkeep', rfl⟩ := updateCustomAddons_ok h₃
  exact ⟨pools, disks, ips, addons, hedit, fun ha hc => (hkeep' hc).trans (hkeep ha), rfl⟩

private theorem refuseUneditable_ok (h : App.refuseUneditable c = .ok ()) :
    c.phase ≠ .deleting ∧ c.phase.terminal = false := by
  simpa [App.refuseUneditable] using h

/-- **Inversion of `App.apply`.** -/
theorem edit_of_apply {m : Mutation} (h : a.apply adm m c = .ok (some c')) : Edit a c m c' := by
  simp only [App.apply, bind_eq_ok] at h
  obtain ⟨-, -, h⟩ := h
  cases m with
  | updateCluster req =>
    simp only [App.updateCluster, bind_eq_ok, Prod.exists, pure_eq_ok] at h
    obtain ⟨⟨⟩, hphase, c₁, ops, hupdate, h⟩ := h
    obtain ⟨pools, disks, ips, addons, hpools, haddons, rfl⟩ := applyUpdate_ok hupdate
    split at h
    · simp at h
    · obtain rfl := Option.some.inj h
      exact .update addons (refuseUneditable_ok hphase) haddons hpools
  | addNodeDisk req =>
    simp only [App.addNodeDisk, bind_eq_ok, refuseIf_eq_ok, pure_eq_ok, not_not,
      Option.some.injEq] at h
    obtain ⟨-, -, -, hphase, ⟨⟩, hvalid, -, -, -, -, rfl⟩ := h
    exact .addDisk _ hphase ⟨rfl, rfl⟩ rfl (diskKeys_of_validateNodeDisks hvalid)
  | removeNodeDisk vmName name =>
    simp only [App.removeNodeDisk, bind_eq_ok] at h
    obtain ⟨⟨⟩, hphase, h⟩ := h
    split at h
    · simp at h
    · rename_i i hi
      simp only [bind_eq_ok, refuseIf_eq_ok] at h
      obtain ⟨-, -, h⟩ := h
      split at h
      · simp at h
      · simp only [pure_eq_ok, Option.some.injEq] at h
        subst h
        exact .removeDisk i (refuseUneditable_ok hphase) hi
  | promoteCluster target =>
    simp only [App.promoteCluster, bind_eq_ok, refuseIf_eq_ok, pure_eq_ok, not_not,
      Option.some.injEq] at h
    obtain ⟨-, hphase, -, hne, -, hne', -, hopen, rfl⟩ := h
    exact .promote hphase hne hne' hopen
  | setClusterAddonValues addonName override =>
    simp only [App.setClusterAddonValues, bind_eq_ok, refuseIf_eq_ok, not_not] at h
    obtain ⟨-, hphase, -, -, h⟩ := h
    split at h
    · simp at h
    · rename_i i hi
      split at h
      · simp at h
      · simp only [pure_eq_ok, Option.some.injEq] at h
        subst h
        exact .values i hphase hi
  | deleteCluster =>
    simp only [App.deleteCluster, pure_eq_ok] at h
    split at h
    · simp at h
    · obtain rfl := Option.some.inj h
      exact .delete (not_or.mp ‹_›)

end Inversion

/-! ### What admission decided -/

/-- The row an edit puts to admission: the pools and disks it is to have. -/
def Cluster.candidate (c c' : Cluster) : Cluster :=
  { c with nodePools := c'.nodePools, nodeDisks := c'.nodeDisks }

/-- **What an accepted mutation was charged for**: nothing, or the pools and disks of the row it
stores, on which both capacity checks passed. -/
inductive Charge (adm : Admission) (c c' : Cluster) : Prop
  | nothing (hpools : c'.nodePools = c.nodePools) (hips : c'.staticIPs = c.staticIPs)
      (hdisks : c'.nodeDisks.map (·.sizeGB) = c.nodeDisks.map (·.sizeGB))
  | pools (h : PoolsAdmitted c c'.nodePools)
      (howner : adm.ownerBudget (c.candidate c') = .ok ())
      (hcapacity : adm.providerCapacity (c.candidate c') = .ok ())
      (hips : scaleSharedStaticIPs adm (c.candidate c') = .ok c'.staticIPs)
  | disks (hpools : c'.nodePools = c.nodePools) (hips : c'.staticIPs = c.staticIPs)
      (howner : adm.ownerBudget (c.candidate c') = .ok ())
      (hcapacity : adm.providerCapacity (c.candidate c') = .ok ())

section Charge

variable {a : App} {adm : Admission} {c c' : Cluster}

private theorem charge_of_applyNodePools {want : List NodePool} {ops : List PendingOp}
    (h : applyNodePools a adm c want = .ok (c', ops)) : Charge adm c c' := by
  simp only [applyNodePools, bind_eq_ok] at h
  obtain ⟨⟨⟩, hvalid, ⟨⟩, himm, h⟩ := h
  split at h
  · simp only [pure_eq_ok, Prod.mk.injEq] at h
    obtain ⟨rfl, -⟩ := h
    exact .nothing rfl rfl rfl
  · simp only [bind_eq_ok, pure_eq_ok, Prod.mk.injEq] at h
    obtain ⟨⟨⟩, howner, ⟨⟩, hcapacity, ips, hips, rfl, -⟩ := h
    exact .pools (poolsAdmitted_of_checks hvalid himm) howner hcapacity hips

private theorem Charge.withAddons {c₁ : Cluster} (h : Charge adm c c₁) (addons : List Addon)
    (n : Nat) : Charge adm c { c₁ with addons := addons, generation := n } := by
  cases h with
  | nothing hpools hips hdisks => exact .nothing hpools hips hdisks
  | pools h howner hcapacity hips => exact .pools h howner hcapacity hips
  | disks hpools hips howner hcapacity => exact .disks hpools hips howner hcapacity

theorem charge_of_apply {m : Mutation} (happly : a.apply adm m c = .ok (some c')) :
    Charge adm c c' := by
  have h := happly
  simp only [App.apply, bind_eq_ok] at h
  obtain ⟨-, -, h⟩ := h
  cases m with
  | updateCluster req =>
    simp only [App.updateCluster, bind_eq_ok, Prod.exists, pure_eq_ok] at h
    obtain ⟨-, -, c₃, ops, hupdate, h⟩ := h
    simp only [applyUpdate, bind_eq_ok, Prod.exists, pure_eq_ok, Prod.mk.injEq] at hupdate
    obtain ⟨c₁, _, h₁, c₂, _, h₂, c₃, _, h₃, rfl, -⟩ := hupdate
    obtain ⟨_, -, rfl⟩ := updateAddons_ok h₂
    obtain ⟨addons, -, rfl⟩ := updateCustomAddons_ok h₃
    have hpools : Charge adm c c₁ := by
      cases hreq : req.nodePools with
      | none =>
        rw [hreq] at h₁
        simp only [updatePools, pure_eq_ok, Prod.mk.injEq] at h₁
        obtain ⟨rfl, -⟩ := h₁
        exact .nothing rfl rfl rfl
      | some want =>
        rw [hreq] at h₁
        exact charge_of_applyNodePools h₁
    split at h
    · simp at h
    · obtain rfl := Option.some.inj h
      exact hpools.withAddons addons _
  | addNodeDisk req =>
    simp only [App.addNodeDisk, bind_eq_ok, pure_eq_ok, Option.some.injEq] at h
    obtain ⟨-, -, -, -, -, -, ⟨⟩, howner, ⟨⟩, hcapacity, rfl⟩ := h
    exact .disks rfl rfl howner hcapacity
  | removeNodeDisk vmName name =>
    cases edit_of_apply (m := .removeNodeDisk vmName name) happly with
    | removeDisk i hphase hi =>
      refine .nothing rfl rfl (Keyed.map_modify_eq ?_ c.nodeDisks i)
      exact fun _ => rfl
  | promoteCluster target =>
    cases edit_of_apply (m := .promoteCluster target) happly
    exact .nothing rfl rfl rfl
  | setClusterAddonValues addonName override =>
    cases edit_of_apply (m := .setClusterAddonValues addonName override) happly
    exact .nothing rfl rfl rfl
  | deleteCluster =>
    cases edit_of_apply (m := .deleteCluster) happly
    exact .nothing rfl rfl rfl

end Charge

/-! ### The disks of the row it stores -/

private theorem map_key_modify_removing (disks : List NodeDisk) (i : Nat) :
    (disks.modify i fun d => { d with phase := .removing }).map (·.key) =
      disks.map (·.key) := by
  refine Keyed.map_modify_eq ?_ disks i
  exact fun _ => rfl

section Disks

variable {a : App} {c c' : Cluster} {m : Mutation}

theorem Edit.nodes (h : Edit a c m c') : c'.nodes = c.nodes := by
  cases h <;> rfl

theorem Edit.poolNames (h : Edit a c m c') (hpools : PoolNames c.nodePools) :
    PoolNames c'.nodePools := by
  cases h with
  | update addons hphase haddons hedit =>
    cases hedit with
    | keep => exact hpools
    | change ips hwant hadmitted => exact poolNames_of_validateNodePools hadmitted.valid
  | _ => exact hpools

private theorem mem_disksAfterPools {md5 : String → String} {want : List NodePool} {d : NodeDisk}
    (h : d ∈ disksAfterPools md5 c want) :
    d ∈ c.nodeDisks ∨ d.phase = .pending ∧ d.deviceID = "" ∧ d.key ∉ c.nodeDisks.map (·.key) := by
  rcases List.mem_append.mp h with hd | hd
  · exact .inl (List.mem_filter.mp hd).1
  · obtain ⟨hd, hfresh⟩ := List.mem_filter.mp hd
    obtain ⟨hpending, hdevice⟩ := pending_of_mem_desiredStorageDisks hd
    refine .inr ⟨hpending, hdevice, fun hkey => ?_⟩
    rw [Bool.not_eq_true', ← Bool.not_eq_true, List.contains_iff_mem] at hfresh
    obtain ⟨e, he, hkey⟩ := List.mem_map.mp hkey
    obtain ⟨hvm, hname⟩ := Prod.mk.inj hkey
    -- its worker is desired, so a disk of that key would have been kept
    have hworker := (map_key_desiredStorageDisks_sublist md5 _).subset (List.mem_map_of_mem hd)
    obtain ⟨vm, hvm', heq⟩ := List.mem_map.mp hworker
    have hdesired : e.vmName ∈ nodeVMNames { c with nodePools := want } := by
      rw [hvm, ← (Prod.mk.inj heq).1]
      exact (List.filter_sublist.map _).subset hvm'
    refine hfresh (List.mem_map.mpr ⟨e, List.mem_filter.mpr ⟨he, ?_⟩, by rw [hvm, hname]⟩)
    rw [List.contains_iff_mem]
    exact hdesired

/-- Where storage is enabled, every worker has a platform disk after a pool edit. -/
theorem platform_mem_disksAfterPools {md5 : String → String} {want : List NodePool} {vm : String}
    (hvalid : validateNodePools c.name want = .ok ()) (hstorage : 0 < c.storageDiskGB)
    (hvm : vm ∈ workerNames { c with nodePools := want }) :
    (vm, platformStorageDiskName) ∈ (disksAfterPools md5 c want).map (·.key) := by
  have hdesired : vm ∈ nodeVMNames { c with nodePools := want } :=
    (List.filter_sublist.map _).subset hvm
  by_cases htaken : vm ++ "/" ++ platformStorageDiskName ∈
      (disksOnDesiredNodes { c with nodePools := want }).map fun e => e.vmName ++ "/" ++ e.name
  · -- only a disk of that very key takes the text
    obtain ⟨e, he, htext⟩ := List.mem_map.mp htaken
    have hon := (List.mem_filter.mp he).2
    rw [List.contains_iff_mem] at hon
    obtain ⟨hname, hdisk⟩ := nodeVMNames_slash_inj hvalid hon hdesired htext
    refine List.mem_map.mpr ⟨e, List.mem_append_left _ he, ?_⟩
    rw [NodeDisk.key, hname, hdisk]
  · obtain ⟨d, hd, hkey⟩ := exists_desiredStorageDisk md5 { c with
      nodePools := want
      nodeDisks := disksOnDesiredNodes { c with nodePools := want } } hstorage hvm
    obtain ⟨hname, hdisk⟩ := Prod.mk.inj hkey
    refine List.mem_map.mpr ⟨d, List.mem_append_right _ (List.mem_filter.mpr ⟨hd, ?_⟩), hkey⟩
    rw [Bool.not_eq_true', ← Bool.not_eq_true, List.contains_iff_mem, hname, hdisk]
    exact htaken

/-- **A disk in the row a mutation stores** was there, was there and is being removed now, or is
new: pending, and under a name the row did not have. -/
theorem Edit.mem_nodeDisks (h : Edit a c m c') {d : NodeDisk} (hd : d ∈ c'.nodeDisks) :
    d ∈ c.nodeDisks ∨ (∃ e ∈ c.nodeDisks, d = { e with phase := .removing }) ∨
      d.phase = .pending ∧ d.deviceID = "" ∧ d.key ∉ c.nodeDisks.map (·.key) := by
  cases h with
  | update addons hphase haddons hedit =>
    cases hedit with
    | keep => exact .inl hd
    | change ips hwant hadmitted => exact (mem_disksAfterPools hd).imp_right .inr
  | addDisk disk hphase hnew hkey hvalid =>
    rcases List.mem_append.mp hd with hd | hd
    · exact .inl hd
    · obtain rfl := List.mem_singleton.mp hd
      have hnodup := hvalid.nodup
      rw [List.map_append, List.map_singleton, List.nodup_append] at hnodup
      exact .inr (.inr ⟨hnew.1, hnew.2, fun hold =>
        hnodup.2.2 _ hold _ List.mem_cons_self rfl⟩)
  | removeDisk i hphase hi =>
    exact (Keyed.mem_modify hd).imp_right fun ⟨e, he, heq⟩ =>
      .inl ⟨e, List.mem_of_getElem? he, heq⟩
  | promote | values | delete => exact .inl hd

/-- **A disk of the row stays** in the row a mutation stores, unless its machine is not desired
there. -/
theorem Edit.key_mem_nodeDisks (h : Edit a c m c') {d : NodeDisk} (hd : d ∈ c.nodeDisks) :
    d.key ∈ c'.nodeDisks.map (·.key) ∨ d.vmName ∉ nodeVMNames c' := by
  cases h with
  | update addons hphase haddons hedit =>
    cases hedit with
    | keep => exact .inl (List.mem_map_of_mem hd)
    | change ips hwant hadmitted =>
      refine or_iff_not_imp_right.mpr fun hdesired => ?_
      rw [not_not] at hdesired
      refine List.mem_map_of_mem (List.mem_append_left _ (List.mem_filter.mpr ⟨hd, ?_⟩))
      rw [List.contains_iff_mem]
      exact hdesired
  | addDisk disk hphase hnew hkey hvalid =>
    exact .inl (List.mem_map_of_mem (List.mem_append_left _ hd))
  | removeDisk i hphase hi =>
    refine .inl ?_
    rw [map_key_modify_removing]
    exact List.mem_map_of_mem hd
  | promote | values | delete => exact .inl (List.mem_map_of_mem hd)

/-- **An edit keeps the disks distinct and on workers.** -/
theorem Edit.diskKeys (h : Edit a c m c') (hpools : PoolNames c.nodePools) (hkeys : DiskKeys c) :
    DiskKeys c' := by
  cases h with
  | update addons hphase haddons hedit =>
    cases hedit with
    | keep => exact ⟨hkeys.nodup, hkeys.on_worker⟩
    | change ips hwant hadmitted =>
      have hsync := (hkeys.onDesiredNodes _ hpools).sync a.md5
        (poolNames_of_validateNodePools hadmitted.valid)
      exact ⟨hsync.nodup, hsync.on_worker⟩
  | addDisk disk hphase hnew hkey hvalid => exact ⟨hvalid.nodup, hvalid.on_worker⟩
  | removeDisk i hphase hi =>
    refine ⟨(map_key_modify_removing c.nodeDisks i).symm ▸ hkeys.nodup, fun d hd => ?_⟩
    rcases Keyed.mem_modify hd with hold | ⟨e, he, rfl⟩
    · exact hkeys.on_worker d hold
    · exact hkeys.on_worker e (List.mem_of_getElem? he)
  | promote | values | delete => exact ⟨hkeys.nodup, hkeys.on_worker⟩

end Disks

end KaaS
