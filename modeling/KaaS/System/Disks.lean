import KaaS.Domain.DiskChecks
import KaaS.System.Changes
import KaaS.System.Watch

/-!
# The disks of a cluster

A user's disk is checked once, when it is added, against the row of that moment. After that pools
are scaled and removed, which drops disks and mints new ones, and the reconciler releases, observes
and mounts, none of which checks anything. `WellDisked` is what carries the check's verdict through
all of it: the pools are valid, and so are the disks, and every worker has its platform disk, which
nothing removes.

The **volume** of a disk is named after cluster, machine and disk, with dashes between them, and
dashes may occur in the names themselves. Two disks have the same volume only if one pool is named
after a machine of another, as `a-1` is after the second machine of `a`. Nothing refuses such pools;
where they are not asked for (`KeepsPoolsApart`), volumes are told apart.
-/

namespace KaaS

open Text Guard

/-! ### What a tick does to disks -/

/-- A function that observes or mounts: nothing but phase and device changes, and no disk becomes
one to be removed. -/
def Refreshes (f : NodeDisk → NodeDisk) : Prop :=
  ∀ d, f d = { d with phase := (f d).phase, deviceID := (f d).deviceID } ∧
    ((f d).phase = .removing → d.phase = .removing)

namespace Refreshes

variable {f g : NodeDisk → NodeDisk}

theorem observe (reports : List ProvisionedNode) : Refreshes (·.observe reports) := by
  intro d
  unfold NodeDisk.observe
  dsimp only
  split
  · exact ⟨rfl, fun h => h⟩
  · exact ⟨rfl, fun h => h⟩

theorem mount : Refreshes (·.mount) := by
  intro d
  unfold NodeDisk.mount
  dsimp only
  split
  · exact ⟨rfl, by simp⟩
  · exact ⟨rfl, fun h => h⟩

theorem comp (hg : Refreshes g) (hf : Refreshes f) : Refreshes (g ∘ f) := by
  intro d
  constructor
  · rw [Function.comp_apply, (hg (f d)).1]
    dsimp only
    rw [(hf d).1]
  · exact fun h => (hf d).2 ((hg (f d)).2 h)

theorem shape (hf : Refreshes f) (d : NodeDisk) : (f d).shape = d.shape := by
  rw [(hf d).1]
  rfl

theorem key (hf : Refreshes f) (d : NodeDisk) : (f d).key = d.key := by
  rw [(hf d).1]
  rfl

theorem isPlatformStorage (hf : Refreshes f) (d : NodeDisk) :
    (f d).isPlatformStorage = d.isPlatformStorage := by
  rw [(hf d).1]
  rfl

end Refreshes

/-- The disks `new` are `old` without some of those to be removed, observed and mounted. -/
def Refreshed (old new : List NodeDisk) : Prop :=
  ∃ (left : List NodeDisk) (f : NodeDisk → NodeDisk), left.Sublist old ∧
    (∀ d ∈ old, d.phase ≠ .removing → d ∈ left) ∧ Refreshes f ∧ new = left.map f

/-- The disks `new` are `old`, observed and mounted. -/
def Observed (old new : List NodeDisk) : Prop := ∃ f, Refreshes f ∧ new = old.map f

theorem Observed.of_refreshes {f : NodeDisk → NodeDisk} (hf : Refreshes f)
    (disks : List NodeDisk) : Observed disks (disks.map f) := ⟨f, hf, rfl⟩

theorem Observed.refl (disks : List NodeDisk) : Observed disks disks := by
  have hid : Refreshes fun d => d := fun _ => ⟨rfl, fun h => h⟩
  simpa using Observed.of_refreshes hid disks

theorem Refreshed.of_observed {old new : List NodeDisk} (h : Observed old new) :
    Refreshed old new := by
  obtain ⟨f, hf, hnew⟩ := h
  exact ⟨old, f, .refl _, fun _ hd _ => hd, hf, hnew⟩

theorem Refreshed.refl (disks : List NodeDisk) : Refreshed disks disks :=
  .of_observed (.refl disks)

section Steps

variable {r : Reconciler} {a : App} {adm : Admission} {c c' : Cluster} {m : Mutation}

private theorem Replaced.observed {node : Node} {image : String} {ok : Bool} {evs : List Event}
    (h : Replaced c node image ok c' evs) : Observed c.nodeDisks c'.nodeDisks := by
  cases h with
  | mounted wired ok reports hrole =>
    cases ok with
    | true =>
      simpa [observeDisks] using
        Observed.of_refreshes (.comp .mount (.observe reports)) c.nodeDisks
    | false => exact .of_refreshes (.observe reports) _
  | _ => exact .refl _

/-- **A tick** observes and mounts disks, and only an update releases those to be removed. -/
theorem TickStep.observed {evs : List Event} (h : TickStep r c (some c') evs) :
    Observed c.nodeDisks c'.nodeDisks ∨
      c.phase = .updating ∧
        Observed (c.nodeDisks.filter (·.phase != DiskPhase.removing)) c'.nodeDisks := by
  generalize hres : some c' = res at h
  cases h with
  | failed | provisionFailed | mountFailed | updateFailed => simp at hres
  | provisioned h reports =>
    obtain rfl := Option.some.inj hres
    exact .inl (.of_refreshes (.observe reports) _)
  | mounted =>
    obtain rfl := Option.some.inj hres
    exact .inl (.of_refreshes .mount _)
  | broughtUp h addons w ha =>
    obtain rfl := Option.some.inj hres
    unfold finishBringUp
    split <;> exact .inl (.refl _)
  | repaired h hr =>
    obtain rfl := Option.some.inj hres
    cases hr with
    | replaced hnode hact hr => exact .inl hr.observed
    | _ => exact .inl (.refl _)
  | rolled h hhop hsrc hdst hos hleft hnode hr =>
    split at hres
    · obtain rfl := Option.some.inj hres
      exact .inl hr.observed
    · simp at hres
  | hopped =>
    obtain rfl := Option.some.inj hres
    unfold finishHop
    split
    · exact .inl (.refl _)
    · exact .inl (.refl _)
  | updated h wired reports addons ha w =>
    obtain rfl := Option.some.inj hres
    have hdisks : Observed (c.nodeDisks.filter (·.phase != DiskPhase.removing))
        ((c.released wired).provisioned (nodeSpecs (c.released wired)) reports).mounted.nodeDisks :=
      ⟨_, .comp .mount (.observe reports), List.map_map ..⟩
    refine .inr ⟨h, ?_⟩
    unfold finishUpdate
    split <;> exact hdisks
  | _ =>
    obtain rfl := Option.some.inj hres
    exact .inl (.refl _)

theorem TickStep.refreshed {evs : List Event} (h : TickStep r c (some c') evs) :
    Refreshed c.nodeDisks c'.nodeDisks := by
  rcases h.observed with hall | ⟨-, f, hf, hnew⟩
  · exact .of_observed hall
  · exact ⟨_, f, List.filter_sublist,
      fun d hd hphase => List.mem_filter.mpr ⟨hd, by simpa using hphase⟩, hf, hnew⟩

/-! ### What a mutation does to disks -/

private theorem valid_of_addNodeDisk {req : AddNodeDiskRequest}
    (h : a.apply adm (.addNodeDisk req) c = .ok (some c')) :
    validateNodeDisks c c'.nodeDisks = .ok () := by
  simp only [App.apply, App.addNodeDisk, bind_eq_ok, pure_eq_ok, Option.some.injEq] at h
  obtain ⟨-, -, -, -, -, -, ⟨⟩, hvalid, -, -, -, -, rfl⟩ := h
  exact hvalid

private theorem notPlatform_of_removeNodeDisk {vmName name : String} {i : ℕ} {d : NodeDisk}
    (h : a.apply adm (.removeNodeDisk vmName name) c = .ok (some c'))
    (hi : c.nodeDisks.findIdx? (fun d => d.vmName == vmName && d.name == name) = some i)
    (hd : c.nodeDisks[i]? = some d) : d.name ≠ platformStorageDiskName := by
  simp only [App.apply, App.removeNodeDisk, bind_eq_ok, hi, refuseIf_eq_ok] at h
  obtain ⟨-, -, ⟨⟩, -, -, hplatform, -⟩ := h
  rw [List.getD_eq_getElem?_getD, hd] at hplatform
  simpa [NodeDisk.isPlatformStorage] using hplatform

/-! ### The invariant -/

/-- **The disks are in order**: valid under valid pools, and a platform disk on every worker, none
of them being removed. -/
structure WellDisked (c : Cluster) : Prop where
  pools : validateNodePools c.name c.nodePools = .ok ()
  valid : ValidDisks (workerNames c) c.nodeDisks
  size : c.storageDiskGB ≤ maxDiskGB
  kept : ∀ d ∈ c.nodeDisks, d.isPlatformStorage = true → d.phase ≠ .removing
  provided : Provided c

namespace WellDisked

private theorem of_refreshed (h : WellDisked c) (hname : c'.name = c.name)
    (hpools : c'.nodePools = c.nodePools) (hstorage : c'.storageDiskGB = c.storageDiskGB)
    (hworkers : workerNames c' = workerNames c) (hdisks : Refreshed c.nodeDisks c'.nodeDisks) :
    WellDisked c' := by
  obtain ⟨left, f, hsub, hleft, hf, hnew⟩ := hdisks
  refine ⟨hname ▸ hpools ▸ h.pools, ?_, hstorage ▸ h.size, ?_, ?_⟩
  · rw [hworkers, hnew]
    refine (h.valid.sublist hsub).congr ?_
    rw [List.map_map]
    exact List.map_congr_left fun d _ => hf.shape d
  · rw [hnew]
    intro e he hplatform hphase
    obtain ⟨d, hd, rfl⟩ := List.mem_map.mp he
    exact h.kept d (hsub.subset hd) (hf.isPlatformStorage d ▸ hplatform) ((hf d).2 hphase)
  · intro hpos vm hvm
    rw [hstorage] at hpos
    obtain ⟨d, hd, hkey⟩ := h.provided hpos vm (hworkers ▸ hvm)
    have hplatform : d.isPlatformStorage = true := beq_iff_eq.mpr (Prod.mk.inj hkey).2
    refine ⟨f d, ?_, (hf.key d).trans hkey⟩
    rw [hnew]
    exact List.mem_map_of_mem (hleft d hd (h.kept d hd hplatform))

theorem tick {evs : List Event} (h : WellDisked c) (hstep : TickStep r c (some c') evs) :
    WellDisked c' := by
  have hsame := hstep.sameDesire
  exact h.of_refreshed hsame.name hsame.nodePools (hstep.staysAsked.eq fun _ => rfl)
    hsame.workerNames hstep.refreshed

private theorem equipped_onDesiredNodes (h : WellDisked c) (want : List NodePool) :
    Equipped { c with
      nodePools := want
      nodeDisks := disksOnDesiredNodes { c with nodePools := want } } := by
  have hsub : (disksOnDesiredNodes { c with nodePools := want }).Sublist c.nodeDisks :=
    List.filter_sublist
  refine ⟨h.size, fun d hd => h.kept d (hsub.subset hd), fun hpos d hd => ?_⟩
  obtain ⟨hold, hdesired⟩ := List.mem_filter.mp hd
  obtain ⟨e, he, hkey⟩ := h.provided hpos d.vmName (h.valid.on_worker d hold)
  refine ⟨e, List.mem_filter.mpr ⟨he, ?_⟩, hkey⟩
  rw [(Prod.mk.inj hkey).1]
  exact hdesired

private theorem poolsChanged (h : WellDisked c) (md5 : String → String) {want : List NodePool}
    (hwant : PoolsAdmitted c want) :
    WellDisked { c with nodePools := want, nodeDisks := disksAfterPools md5 c want } := by
  have hnames := poolNames_of_validateNodePools h.pools
  have hkeys : DiskKeys c := diskKeys_of_validateNodeDisks (validateNodeDisks_iff.mpr h.valid)
  have hsub : (disksOnDesiredNodes { c with nodePools := want }).Sublist c.nodeDisks :=
    List.filter_sublist
  have hvalid : ValidDisks (workerNames { c with nodePools := want })
      (disksOnDesiredNodes { c with nodePools := want }) :=
    { h.valid.sublist hsub with on_worker := (hkeys.onDesiredNodes want hnames).on_worker }
  obtain ⟨hvalid', hequipped', hprovided⟩ :=
    (h.equipped_onDesiredNodes want).sync md5 hwant.valid hvalid
  exact ⟨hwant.valid, hvalid', h.size, hequipped'.kept, hprovided⟩

theorem filter_disksAfterPools (h : WellDisked c) (md5 : String → String) {want : List NodePool}
    {d : NodeDisk} (hd : d ∈ c.nodeDisks)
    (hstays : d.vmName ∈ nodeVMNames { c with nodePools := want }) :
    (disksAfterPools md5 c want).filter (·.vmName == d.vmName) =
      c.nodeDisks.filter (·.vmName == d.vmName) := by
  have hkept : d ∈ disksOnDesiredNodes { c with nodePools := want } :=
    List.mem_filter.mpr ⟨hd, List.contains_iff_mem.mpr hstays⟩
  rw [disksAfterPools, (h.equipped_onDesiredNodes want).filter_sync md5 hkept, disksOnDesiredNodes,
    List.filter_filter]
  refine List.filter_congr fun e _ => ?_
  by_cases he : e.vmName = d.vmName
  · simp [he, hstays]
  · simp [he]

theorem edit (h : WellDisked c) (happly : a.apply adm m c = .ok (some c')) : WellDisked c' := by
  cases edit_of_apply happly with
  | update addons hphase haddons hpools =>
    cases hpools with
    | keep => exact h.of_refreshed rfl rfl rfl rfl (.refl _)
    | change ips hreq hwant =>
      exact (h.poolsChanged a.md5 hwant).of_refreshed rfl rfl rfl rfl (.refl _)
  | addDisk disk hphase hnew =>
    have hvalid := validateNodeDisks_iff.mp (valid_of_addNodeDisk happly)
    refine ⟨h.pools, hvalid, h.size, ?_, fun hpos vm hvm => ?_⟩
    · refine List.forall_mem_append.mpr ⟨h.kept, fun d hd _ => ?_⟩
      rw [List.mem_singleton.mp hd, hnew.1]
      simp
    · obtain ⟨d, hd, hkey⟩ := h.provided hpos vm hvm
      exact ⟨d, List.mem_append_left _ hd, hkey⟩
  | removeDisk i hphase hi =>
    refine ⟨h.pools, h.valid.congr ?_, h.size, ?_, ?_⟩
    · refine Keyed.map_modify_eq ?_ c.nodeDisks i
      exact fun _ => rfl
    · intro d hd hplatform
      rcases Keyed.mem_modify hd with hd | ⟨e, he, rfl⟩
      · exact h.kept d hd hplatform
      · exact absurd (beq_iff_eq.mp hplatform) (notPlatform_of_removeNodeDisk (d := e) happly hi he)
    · intro hpos vm hvm
      have hkeys : (c.nodeDisks.modify i fun d => { d with phase := .removing }).map (·.key) =
          c.nodeDisks.map (·.key) := by
        refine Keyed.map_modify_eq ?_ c.nodeDisks i
        exact fun _ => rfl
      rw [← List.mem_map, hkeys, List.mem_map]
      exact h.provided hpos vm hvm
  | promote => exact h.of_refreshed rfl rfl rfl rfl (.refl _)
  | values => exact h.of_refreshed rfl rfl rfl rfl (.refl _)
  | delete => exact h.of_refreshed rfl rfl rfl rfl (.refl _)

private theorem storageDiskGB_le {req : CreateRequest} {addons : List Addon} {size : Int}
    (h : storageDiskGB req addons = .ok size) : size ≤ maxDiskGB := by
  unfold storageDiskGB at h
  dsimp only at h
  split at h
  · rw [pure_eq_ok] at h
    exact h ▸ by decide
  · simp only [bind_eq_ok, refuseIf_eq_ok, pure_eq_ok] at h
    obtain ⟨-, hrange, rfl⟩ := h
    split
    · omega
    · decide

/-- **Every new cluster** has its disks in order. -/
theorem create {adm : CreateAdmission} {req : CreateRequest}
    (h : a.createCluster adm req = .ok c) : WellDisked c := by
  simp only [App.createCluster, bind_eq_ok, pure_eq_ok] at h
  obtain ⟨-, -, -, -, ⟨⟩, hpools, provider, -, rb, -, -, -, addons, -, custom, -, storageGB,
    hstorage, -, -, -, -, net, -, rfl⟩ := h
  have hempty : Equipped { a.newCluster adm req provider rb (addons ++ custom) storageGB with
      nodeDisks := [] } := ⟨storageDiskGB_le hstorage, by simp, by simp⟩
  obtain ⟨hvalid, hequipped, hprovided⟩ := hempty.sync a.md5 hpools .nil
  exact ⟨hpools, hvalid, hempty.size, hequipped.kept, hprovided⟩

/-- **One platform disk each.** -/
theorem platform_unique (h : WellDisked c) (hpos : 0 < c.storageDiskGB) {vm : String}
    (hvm : vm ∈ workerNames c) :
    (c.nodeDisks.filter fun d => d.vmName == vm && d.isPlatformStorage).length = 1 := by
  have hkeys := (diskKeys_of_validateNodeDisks (validateNodeDisks_iff.mpr h.valid)).nodup
  have hcount := List.count_eq_one_of_mem hkeys (List.mem_map.mpr (h.provided hpos vm hvm))
  rw [List.count_eq_countP, List.countP_map, List.countP_eq_length_filter] at hcount
  rw [← hcount]
  refine congrArg List.length (List.filter_congr fun d _ => ?_)
  rw [Bool.eq_iff_iff]
  simp [NodeDisk.key, NodeDisk.isPlatformStorage]

end WellDisked

end Steps

/-! ### Volumes -/

/-- The name of the volume `libvirt_volume.extra` of a disk. -/
def extraVolume (clusterName : String) (d : NodeDisk) : String :=
  clusterName ++ "-" ++ d.vmName ++ "-" ++ d.name ++ ".qcow2"

/-- **No pool is named after a machine** of any of them: neither `<pool>-<i>` nor that and more
after a dash. -/
def PoolsApart (pools : List NodePool) : Prop :=
  ∀ p ∈ pools, ∀ i < p.desiredWorkers.toNat, ∀ q ∈ pools,
    continues q.name (p.name ++ "-" ++ toString i) = false

instance (pools : List NodePool) : Decidable (PoolsApart pools) := by
  unfold PoolsApart
  infer_instance

theorem WellDisked.nodup_extraVolume {c : Cluster} (h : WellDisked c)
    (hapart : PoolsApart c.nodePools) : (c.nodeDisks.map (extraVolume c.name)).Nodup := by
  refine List.pairwise_map.mpr ((List.pairwise_map.mp h.valid.names).imp_of_mem ?_)
  intro d e hd he hne hvolume
  obtain ⟨p, hp, i, hi, hdvm⟩ := mem_workerNames.mp (h.valid.on_worker d hd)
  obtain ⟨q, hq, j, hj, hevm⟩ := mem_workerNames.mp (h.valid.on_worker e he)
  have hrest : p.name ++ "-" ++ toString i ++ "-" ++ d.name =
      q.name ++ "-" ++ toString j ++ "-" ++ e.name := by
    have hstem := String.append_left_inj _ |>.mp hvolume
    simp only [hdvm, hevm, vmName, String.append_assoc, String.append_right_inj] at hstem ⊢
    exact hstem
  rcases append_dash_append_dash hrest with ⟨hpq, hij, hname⟩ | hcont | hcont
  · exact hne (by rw [NodeDisk.diskText, NodeDisk.diskText, hdvm, hevm, hpq, hij, hname])
  · rw [hapart p hp i hi q hq] at hcont
    exact absurd hcont Bool.false_ne_true
  · rw [hapart q hq j hj p hp] at hcont
    exact absurd hcont Bool.false_ne_true

/-! ### Runs -/

/-- An update that asks for other pools asks for pools apart. -/
def KeepsPoolsApart (_ : RowState) (f : RowFlight) : Prop :=
  match f.party with
  | .caller (_, .updateCluster req) => ∀ want ∈ req.nodePools, PoolsApart want
  | _ => True

instance (s : RowState) (f : RowFlight) : Decidable (KeepsPoolsApart s f) := by
  unfold KeepsPoolsApart
  rcases f.party with _ | ⟨_, _ | _ | _ | _ | _ | _⟩ <;> infer_instance

private theorem PoolsApart.edit {a : App} {c c' : Cluster} {m : Mutation}
    (h : PoolsApart c.nodePools) (hedit : Edit a c m c')
    (hm : ∀ req, m = .updateCluster req → ∀ want ∈ req.nodePools, PoolsApart want) :
    PoolsApart c'.nodePools := by
  cases hedit with
  | update addons hphase haddons hpools =>
    cases hpools with
    | keep => exact h
    | change ips hreq hwant => exact hm _ rfl _ hreq
  | _ => exact h

/-- **The disks of every cluster**, whatever is asked for and wherever the reconciler is in
between: they pass the check, every worker of a cluster with storage has one platform disk, and
volumes are told apart if the pools asked for are. -/
theorem disks_in_order (P : Platform) (adm : CreateAdmission) (req : CreateRequest) (c : Cluster)
    (hc : P.app.createCluster adm req = .ok c) (is : Platform.Schedule) :
    validateNodeDisks (P.overlap c is).row (P.overlap c is).row.nodeDisks = .ok () ∧
    (0 < (P.overlap c is).row.storageDiskGB → ∀ vm ∈ workerNames (P.overlap c is).row,
      ((P.overlap c is).row.nodeDisks.filter
        fun d => d.vmName == vm && d.isPlatformStorage).length = 1) ∧
    (PoolsApart c.nodePools → P.CommitsAlong KeepsPoolsApart c is →
      ((P.overlap c is).row.nodeDisks.map (extraVolume (P.overlap c is).row.name)).Nodup) := by
  have hdisks : WellDisked (P.overlap c is).row := by
    refine Overlap.Protocol.row_invariant (C := fun _ _ => True) ?_ (WellDisked.create hc)
      (Overlap.Protocol.along_of_commits (fun _ _ => trivial) _ _)
    intro s f c' hcopy _ hattempt
    cases wrote_of_attempt hattempt with
    | tick ρ evs hparty hversion hstep => exact hcopy.tick hstep
    | call k hparty hedit => exact hcopy.edit (apply_of_attempt hparty hattempt)
  refine ⟨validateNodeDisks_iff.mpr hdisks.valid, fun hpos vm => hdisks.platform_unique hpos,
    fun hapart his => hdisks.nodup_extraVolume ?_⟩
  refine Overlap.Protocol.row_invariant (J := fun c => PoolsApart c.nodePools) ?_ hapart his
  intro s f c' hcopy hcond hattempt
  cases wrote_of_attempt hattempt with
  | tick ρ evs hparty hversion hstep =>
    rw [hstep.sameDesire.nodePools]
    exact hcopy
  | call k hparty hedit =>
    refine hcopy.edit hedit fun req hreq => ?_
    obtain ⟨adm', m⟩ := k
    subst hreq
    simpa only [KeepsPoolsApart, hparty] using hcond

/-- A creation with Longhorn and these pools. -/
def pooledRequest (pools : List NodePool) : CreateRequest where
  name := "demo"
  bundle := "r1"
  addons := some ["longhorn"]
  nodePools := pools

def pooledRow (pools : List NodePool) : Cluster :=
  (((addonPlatform ["longhorn"]).app.createCluster { id := "1", ownerID := "alice" }
    (pooledRequest pools)).toOption).getD {}

private theorem createCluster_pooled {pools : List NodePool}
    (h : ((addonPlatform ["longhorn"]).app.createCluster { id := "1", ownerID := "alice" }
      (pooledRequest pools)).toOption.isSome = true) :
    (addonPlatform ["longhorn"]).app.createCluster { id := "1", ownerID := "alice" }
      (pooledRequest pools) = .ok (pooledRow pools) :=
  eq_ok_getD h {}

def smallPool (name : String) (workers : Int) : NodePool :=
  { name := name, size := "small", desiredWorkers := workers }

/-- A disk is added to a running cluster, and then a pool. -/
def diskThenPool : Platform.Schedule :=
  bringUpSchedule ++
    alone 1 (.caller ({}, .addNodeDisk { vmName := "demo-a-1", name := "0-d", sizeGB := 10 })) ++
    alone 2 (.caller ({}, .updateCluster
      { nodePools := some [smallPool "a" 2, smallPool "b" 1] })) ++ alone 3 (.worker {})

theorem disks_in_order_diskThenPool :
    ((addonPlatform ["longhorn"]).overlap (pooledRow [smallPool "a" 2])
      diskThenPool).row.nodeDisks.map (·.key) = [("demo-a-0", "storage"),
        ("demo-a-1", "storage"), ("demo-a-1", "0-d"), ("demo-b-0", "storage")] ∧
    (((addonPlatform ["longhorn"]).overlap (pooledRow [smallPool "a" 2])
      diskThenPool).row.nodeDisks.map (extraVolume ((addonPlatform ["longhorn"]).overlap
        (pooledRow [smallPool "a" 2]) diskThenPool).row.name)).Nodup :=
  ⟨by decide +kernel, (disks_in_order (addonPlatform ["longhorn"]) { id := "1", ownerID := "alice" }
    (pooledRequest [smallPool "a" 2]) (pooledRow [smallPool "a" 2])
    (createCluster_pooled (by decide +kernel)) diskThenPool).2.2 (by decide +kernel)
    (by decide +kernel)⟩

/-- Two disks are added, where one pool is named after a machine of the other. -/
def sharedVolumeRun : Platform.Schedule :=
  bringUpSchedule ++
    alone 1 (.caller ({}, .addNodeDisk { vmName := "demo-a-1", name := "0-d", sizeGB := 10 })) ++
    alone 2 (.caller ({}, .addNodeDisk { vmName := "demo-a-1-0", name := "d", sizeGB := 10 }))

/-- **They share a volume.** -/
theorem volume_shared :
    (addonPlatform ["longhorn"]).app.createCluster { id := "1", ownerID := "alice" }
      (pooledRequest [smallPool "a" 2, smallPool "a-1" 1]) =
        .ok (pooledRow [smallPool "a" 2, smallPool "a-1" 1]) ∧
    (((addonPlatform ["longhorn"]).overlap (pooledRow [smallPool "a" 2, smallPool "a-1" 1])
      sharedVolumeRun).row.nodeDisks.filter (!·.isPlatformStorage)).map
        (fun d => (d.key, extraVolume "demo" d)) =
      [(("demo-a-1", "0-d"), "demo-demo-a-1-0-d.qcow2"),
        (("demo-a-1-0", "d"), "demo-demo-a-1-0-d.qcow2")] ∧
    ¬(((addonPlatform ["longhorn"]).overlap (pooledRow [smallPool "a" 2, smallPool "a-1" 1])
      sharedVolumeRun).row.nodeDisks.map (extraVolume ((addonPlatform ["longhorn"]).overlap
        (pooledRow [smallPool "a" 2, smallPool "a-1" 1]) sharedVolumeRun).row.name)).Nodup :=
  ⟨createCluster_pooled (by decide +kernel), by decide +kernel, by decide +kernel⟩

end KaaS
