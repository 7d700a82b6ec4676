import KaaS.App.Mutations

/-!
# What the disk check decides

`validateNodeDisks` walks the disks of a cluster with the disks already passed in hand. What it
accepts does not depend on the order of the walk: `ValidDisks` says the same about the list as a
whole (`validateNodeDisks_iff`), and in that form it is inherited by every part of the list.

Users have their disks checked when they add one. The platform's own disks are minted without a
check, by `syncStorageDisks`, and that they pass too depends on the row they are minted for: every
machine that carries a disk already has to carry its platform disk (`Equipped.sync`).
-/

namespace KaaS

open Text Guard

/-! ### One disk, and all of them -/

structure NodeDisk.Sound (d : NodeDisk) : Prop where
  name : validateDiskName d.name = .ok ()
  size : minDiskGB ≤ d.sizeGB ∧ d.sizeGB ≤ maxDiskGB
  filesystem : d.fsType = fsExt4 ∨ d.fsType = fsXFS
  mount : validateMountPath d.mountPath = .ok ()

/-- The text by which the check tells disks apart. -/
def NodeDisk.diskText (d : NodeDisk) : String := d.vmName ++ "/" ++ d.name

/-- The text by which the check tells mounts apart. -/
def NodeDisk.mountText (d : NodeDisk) : String := d.vmName ++ "/" ++ d.mountPath

def NodeDisk.shape (d : NodeDisk) : NodeDisk := { d with phase := .pending, deviceID := "" }

/-- **A valid list of disks**: sound disks on the workers, told apart by name and by mount, and not
too many on one machine. -/
structure ValidDisks (workers : List String) (disks : List NodeDisk) : Prop where
  on_worker : ∀ d ∈ disks, d.vmName ∈ workers
  sound : ∀ d ∈ disks, d.Sound
  names : (disks.map (·.diskText)).Nodup
  mounts : (disks.map (·.mountText)).Nodup
  few : ∀ vm, (disks.filter (·.vmName == vm)).length ≤ maxDisksPerNode

namespace ValidDisks

variable {workers : List String} {disks disks' : List NodeDisk} {d : NodeDisk}

theorem nil : ValidDisks workers [] :=
  ⟨by simp, by simp, by simp, by simp, by simp⟩

theorem sublist (h : ValidDisks workers disks) (hsub : disks'.Sublist disks) :
    ValidDisks workers disks' where
  on_worker d hd := h.on_worker d (hsub.subset hd)
  sound d hd := h.sound d (hsub.subset hd)
  names := (hsub.map _).nodup h.names
  mounts := (hsub.map _).nodup h.mounts
  few vm := (hsub.filter _).length_le.trans (h.few vm)

theorem perm (h : ValidDisks workers disks) (hperm : disks.Perm disks') :
    ValidDisks workers disks' where
  on_worker d hd := h.on_worker d (hperm.mem_iff.mpr hd)
  sound d hd := h.sound d (hperm.mem_iff.mpr hd)
  names := (hperm.map _).nodup_iff.mp h.names
  mounts := (hperm.map _).nodup_iff.mp h.mounts
  few vm := (hperm.filter _).length_eq ▸ h.few vm

theorem congr (h : ValidDisks workers disks)
    (hshape : disks'.map (·.shape) = disks.map (·.shape)) : ValidDisks workers disks' := by
  have hmap {β : Type} {g : NodeDisk → β} (hg : ∀ d, g d.shape = g d) :
      disks'.map g = disks.map g := by
    have hg' := congrArg (List.map g) hshape
    simpa only [List.map_map, Function.comp_def, hg] using hg'
  have hfind {d : NodeDisk} (hd : d ∈ disks') : ∃ e ∈ disks, e.shape = d.shape := by
    rw [← List.mem_map, ← hshape]
    exact List.mem_map_of_mem hd
  refine ⟨fun d hd => ?_, fun d hd => ?_, ?_, ?_, fun vm => ?_⟩
  · obtain ⟨e, he, heq⟩ := hfind hd
    have hworker : e.shape.vmName ∈ workers := h.on_worker e he
    rw [heq] at hworker
    exact hworker
  · obtain ⟨e, he, heq⟩ := hfind hd
    obtain ⟨hname, hsize, hsystem, hmount⟩ := h.sound e he
    have hsound : e.shape.Sound := ⟨hname, hsize, hsystem, hmount⟩
    rw [heq] at hsound
    exact ⟨hsound.name, hsound.size, hsound.filesystem, hsound.mount⟩
  · rw [hmap fun _ => rfl]
    exact h.names
  · rw [hmap fun _ => rfl]
    exact h.mounts
  · have hcount (l : List NodeDisk) :
        (l.filter (·.vmName == vm)).length = (l.map (·.vmName)).count vm := by
      rw [List.count_eq_countP, List.countP_map, List.countP_eq_length_filter]
      rfl
    rw [hcount, hmap fun _ => rfl, ← hcount]
    exact h.few vm

/-- **One step of the walk.** -/
theorem cons_iff : ValidDisks workers (d :: disks) ↔
    validateNodeDisk workers disks d = .ok () ∧ ValidDisks workers disks := by
  constructor
  · intro h
    obtain ⟨hname, hsize, hsystem, hmount⟩ := h.sound d List.mem_cons_self
    have hnames := h.names
    have hmounts := h.mounts
    have hfew := h.few d.vmName
    rw [List.map_cons, List.nodup_cons] at hnames hmounts
    rw [List.filter_cons_of_pos (by simp), List.length_cons] at hfew
    refine ⟨?_, h.sublist (List.sublist_cons_self d disks)⟩
    simp only [validateNodeDisk, bind_eq_ok, refuseIf_eq_ok, mapError_eq_ok]
    refine ⟨(), not_not.mpr (h.on_worker d List.mem_cons_self), (), hname, (), hnames.1, (),
      not_lt.mpr hfew, (), ?_, (), ?_, (), hmount, hmounts.1⟩
    · omega
    · rintro ⟨hext4, hxfs⟩
      exact hsystem.elim hext4 hxfs
  · rintro ⟨hd, h⟩
    simp only [validateNodeDisk, bind_eq_ok, refuseIf_eq_ok, mapError_eq_ok] at hd
    obtain ⟨⟨⟩, hworker, ⟨⟩, hname, ⟨⟩, hnew, ⟨⟩, hfew, ⟨⟩, hsize, ⟨⟩, hsystem, ⟨⟩, hmount,
      hfree⟩ := hd
    refine ⟨?_, ?_, ?_, ?_, fun vm => ?_⟩
    · exact List.forall_mem_cons.mpr ⟨not_not.mp hworker, h.on_worker⟩
    · refine List.forall_mem_cons.mpr ⟨⟨hname, by omega, ?_, hmount⟩, h.sound⟩
      rcases not_and_or.mp hsystem with hext4 | hxfs
      · exact .inl (not_not.mp hext4)
      · exact .inr (not_not.mp hxfs)
    · exact List.nodup_cons.mpr ⟨hnew, h.names⟩
    · exact List.nodup_cons.mpr ⟨hfree, h.mounts⟩
    · by_cases hvm : d.vmName = vm
      · subst hvm
        rw [List.filter_cons_of_pos (by simp), List.length_cons]
        exact not_lt.mp hfew
      · rw [List.filter_cons_of_neg (by simpa using hvm)]
        exact h.few vm

end ValidDisks

private theorem validateNodeDisksFrom_iff {workers : List String} {passed disks : List NodeDisk}
    (h : ValidDisks workers passed) :
    validateNodeDisksFrom workers passed disks = .ok () ↔
      ValidDisks workers (disks.reverse ++ passed) := by
  induction disks generalizing passed with
  | nil => simp [validateNodeDisksFrom, h]
  | cons d rest ih =>
    simp only [validateNodeDisksFrom, bind_eq_ok, List.reverse_cons, List.append_assoc,
      List.singleton_append]
    constructor
    · rintro ⟨⟨⟩, hd, hrest⟩
      exact (ih (ValidDisks.cons_iff.mpr ⟨hd, h⟩)).mp hrest
    · intro hall
      have hcons := hall.sublist (List.sublist_append_right rest.reverse (d :: passed))
      exact ⟨(), (ValidDisks.cons_iff.mp hcons).1, (ih hcons).mpr hall⟩

/-- **What `validateNodeDisks` decides.** -/
theorem validateNodeDisks_iff {c : Cluster} {disks : List NodeDisk} :
    validateNodeDisks c disks = .ok () ↔ ValidDisks (workerNames c) disks := by
  rw [validateNodeDisks, validateNodeDisksFrom_iff .nil, List.append_nil]
  exact ⟨fun h => h.perm disks.reverse_perm, fun h => h.perm disks.reverse_perm.symm⟩

/-! ### The platform's disks -/

/-- **The platform disks of a row are in order**: their size is admissible, none is being removed,
and a machine that has any disk has its own. -/
structure Equipped (c : Cluster) : Prop where
  size : c.storageDiskGB ≤ maxDiskGB
  kept : ∀ d ∈ c.nodeDisks, d.isPlatformStorage = true → d.phase ≠ .removing
  own : 0 < c.storageDiskGB → ∀ d ∈ c.nodeDisks,
    ∃ e ∈ c.nodeDisks, e.key = (d.vmName, platformStorageDiskName)

/-- **Every worker has its platform disk.** -/
def Provided (c : Cluster) : Prop :=
  0 < c.storageDiskGB → ∀ vm ∈ workerNames c,
    ∃ d ∈ c.nodeDisks, d.key = (vm, platformStorageDiskName)

section Sync

variable {c : Cluster} {md5 : String → String} {d : NodeDisk}

private def minted (md5 : String → String) (c : Cluster) : List NodeDisk :=
  (desiredStorageDisks md5 c).filter fun d => !(c.nodeDisks.map (·.diskText)).contains d.diskText

private theorem eq_of_mem_minted (h : d ∈ minted md5 c) :
    0 < c.storageDiskGB ∧ d.vmName ∈ workerNames c ∧ d.name = platformStorageDiskName ∧
      d.sizeGB = c.storageDiskGB ∧ d.mountPath = longhornDataPath ∧ d.fsType = fsExt4 ∧
      d.phase = .pending := by
  have h := (List.mem_filter.mp h).1
  unfold desiredStorageDisks at h
  split at h
  · exact absurd h List.not_mem_nil
  · obtain ⟨n, hn, rfl⟩ := List.mem_map.mp h
    exact ⟨not_le.mp ‹_›, List.mem_map_of_mem hn, rfl, rfl, rfl, rfl, rfl⟩

private theorem minted_sound (hsize : c.storageDiskGB ≤ maxDiskGB) (h : d ∈ minted md5 c) :
    d.Sound := by
  obtain ⟨hpos, -, hname, hgb, hmount, hsystem, -⟩ := eq_of_mem_minted h
  refine ⟨hname ▸ rfl, hgb ▸ ⟨hpos, hsize⟩, .inl hsystem, ?_⟩
  rw [hmount]
  decide +kernel

private theorem nodup_vmName_minted (md5 : String → String) (hpools : PoolNames c.nodePools) :
    ((minted md5 c).map (·.vmName)).Nodup := by
  have hnodup := (map_key_desiredStorageDisks_sublist md5 c).nodup
    ((nodup_workerNames hpools).map fun _ _ h => (Prod.mk.inj h).1)
  refine List.Nodup.of_map (fun vm => (vm, platformStorageDiskName)) ?_
  rw [List.map_map]
  have hkey : (minted md5 c).map ((fun vm => (vm, platformStorageDiskName)) ∘ (·.vmName)) =
      (minted md5 c).map (·.key) := by
    refine List.map_congr_left fun d hd => ?_
    obtain ⟨-, -, hname, -⟩ := eq_of_mem_minted hd
    simp [NodeDisk.key, hname]
  rw [hkey]
  exact (List.filter_sublist.map _).nodup hnodup

private theorem vmName_ne_of_minted (heq : Equipped c) (h : d ∈ minted md5 c) {e : NodeDisk}
    (he : e ∈ c.nodeDisks) : e.vmName ≠ d.vmName := by
  intro hvm
  obtain ⟨hpos, -, hname, -⟩ := eq_of_mem_minted h
  obtain ⟨e', he', hkey⟩ := heq.own hpos e he
  obtain ⟨hvm', hname'⟩ := Prod.mk.inj hkey
  have hfresh := (List.mem_filter.mp h).2
  rw [Bool.not_eq_true', ← Bool.not_eq_true, List.contains_iff_mem] at hfresh
  refine hfresh (List.mem_map.mpr ⟨e', he', ?_⟩)
  rw [NodeDisk.diskText, NodeDisk.diskText, hvm', hname', hvm, hname]

private theorem nodup_map_minted (hpools : PoolNames c.nodePools) {f : NodeDisk → String}
    (s : String) (hf : ∀ d ∈ minted md5 c, f d = d.vmName ++ "/" ++ s) :
    ((minted md5 c).map f).Nodup := by
  have hinj : Function.Injective fun vm : String => vm ++ "/" ++ s := fun vm vm' heq => by
    simpa using heq
  rw [List.map_congr_left hf]
  simpa only [List.map_map, Function.comp_def] using (nodup_vmName_minted md5 hpools).map hinj

theorem nodeVMName_of_worker {vm : String} (h : vm ∈ workerNames c) : vm ∈ nodeVMNames c :=
  (List.filter_sublist.map _).subset h

private theorem validDisks_sync (md5 : String → String)
    (hpools : validateNodePools c.name c.nodePools = .ok ())
    (hvalid : ValidDisks (workerNames c) c.nodeDisks) (h : Equipped c) :
    ValidDisks (workerNames c) (c.nodeDisks ++ minted md5 c) := by
  have hnames := poolNames_of_validateNodePools hpools
  refine ⟨?_, ?_, ?_, ?_, fun vm => ?_⟩
  · exact List.forall_mem_append.mpr ⟨hvalid.on_worker, fun d hd => (eq_of_mem_minted hd).2.1⟩
  · exact List.forall_mem_append.mpr ⟨hvalid.sound, fun d hd => minted_sound h.size hd⟩
  · rw [List.map_append]
    refine List.nodup_append.mpr
      ⟨hvalid.names, nodup_map_minted hnames platformStorageDiskName fun d hd => ?_, ?_⟩
    · rw [NodeDisk.diskText, (eq_of_mem_minted hd).2.2.1]
    · rintro _ hold _ hnew rfl
      obtain ⟨d, hd, htext⟩ := List.mem_map.mp hnew
      have hfresh := (List.mem_filter.mp hd).2
      rw [Bool.not_eq_true', ← Bool.not_eq_true, List.contains_iff_mem, htext] at hfresh
      exact hfresh hold
  · rw [List.map_append]
    refine List.nodup_append.mpr
      ⟨hvalid.mounts, nodup_map_minted hnames longhornDataPath fun d hd => ?_, ?_⟩
    · rw [NodeDisk.mountText, (eq_of_mem_minted hd).2.2.2.2.1]
    · rintro _ hold _ hnew rfl
      obtain ⟨d, hd, htext⟩ := List.mem_map.mp hnew
      obtain ⟨e, he, rfl⟩ := List.mem_map.mp hold
      obtain ⟨hvm, -⟩ := nodeVMNames_slash_inj hpools (nodeVMName_of_worker (hvalid.on_worker e he))
        (nodeVMName_of_worker (eq_of_mem_minted hd).2.1) htext.symm
      exact vmName_ne_of_minted h hd he hvm
  · rw [List.filter_append, List.length_append]
    by_cases hnew : ∃ d ∈ minted md5 c, d.vmName = vm
    · -- a new worker has this disk only
      obtain ⟨d, hd, rfl⟩ := hnew
      have hnone : c.nodeDisks.filter (·.vmName == d.vmName) = [] :=
        List.filter_eq_nil_iff.mpr fun e he => by simpa using vmName_ne_of_minted h hd he
      have hone := List.nodup_iff_count_le_one.mp (nodup_vmName_minted md5 hnames) d.vmName
      rw [List.count_eq_countP, List.countP_map, List.countP_eq_length_filter] at hone
      rw [hnone, List.length_nil, Nat.zero_add]
      exact hone.trans (by decide)
    · have hnone : (minted md5 c).filter (·.vmName == vm) = [] :=
        List.filter_eq_nil_iff.mpr fun d hd => by simpa using fun heq => hnew ⟨d, hd, heq⟩
      rw [hnone, List.length_nil, Nat.add_zero]
      exact hvalid.few vm

private theorem provided_sync (md5 : String → String)
    (hpools : validateNodePools c.name c.nodePools = .ok ())
    (hvalid : ValidDisks (workerNames c) c.nodeDisks) :
    Provided { c with nodeDisks := c.nodeDisks ++ minted md5 c } := by
  intro hpos vm hworker
  obtain ⟨d, hd, hkey⟩ := exists_desiredStorageDisk md5 c hpos hworker
  obtain ⟨hvm, hname⟩ := Prod.mk.inj hkey
  by_cases hfresh : d.diskText ∈ c.nodeDisks.map (·.diskText)
  · obtain ⟨e, he, htext⟩ := List.mem_map.mp hfresh
    obtain ⟨hvm', hname'⟩ := nodeVMNames_slash_inj hpools
      (nodeVMName_of_worker (hvalid.on_worker e he)) (nodeVMName_of_worker (hvm ▸ hworker)) htext
    exact ⟨e, List.mem_append_left _ he, Prod.ext (hvm'.trans hvm) (hname'.trans hname)⟩
  · refine ⟨d, List.mem_append_right _ (List.mem_filter.mpr ⟨hd, ?_⟩), hkey⟩
    rw [Bool.not_eq_true', ← Bool.not_eq_true, List.contains_iff_mem]
    exact hfresh

/-- **The sync leaves every worker with its platform disk**, and the disks valid. -/
theorem Equipped.sync (md5 : String → String)
    (hpools : validateNodePools c.name c.nodePools = .ok ())
    (hvalid : ValidDisks (workerNames c) c.nodeDisks) (h : Equipped c) :
    ValidDisks (workerNames c) (syncStorageDisks md5 c) ∧
      Equipped { c with nodeDisks := syncStorageDisks md5 c } ∧
      Provided { c with nodeDisks := syncStorageDisks md5 c } := by
  have hvalid' := validDisks_sync md5 hpools hvalid h
  have hprovided := provided_sync md5 hpools hvalid
  refine ⟨hvalid', ⟨h.size, ?_, fun hpos d hd => ?_⟩, hprovided⟩
  · exact List.forall_mem_append.mpr
      ⟨h.kept, fun d hd _ => by simp [(eq_of_mem_minted hd).2.2.2.2.2.2]⟩
  · exact hprovided hpos d.vmName (hvalid'.on_worker d hd)

theorem Equipped.filter_sync (h : Equipped c) (md5 : String → String) (hd : d ∈ c.nodeDisks) :
    (syncStorageDisks md5 c).filter (·.vmName == d.vmName) =
      c.nodeDisks.filter (·.vmName == d.vmName) := by
  have hnone : (minted md5 c).filter (·.vmName == d.vmName) = [] :=
    List.filter_eq_nil_iff.mpr fun e he => by simpa using (vmName_ne_of_minted h he hd).symm
  have hsync : syncStorageDisks md5 c = c.nodeDisks ++ minted md5 c := rfl
  rw [hsync, List.filter_append, hnone, List.append_nil]

end Sync

end KaaS
