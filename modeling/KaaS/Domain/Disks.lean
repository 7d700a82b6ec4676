import KaaS.Domain.Desired

/-!
# Extra disks

Every worker may carry extra disks, known by `(vmName, name)`. With storage enabled each
worker has one platform disk, `storage`, that Longhorn takes over; further disks are added
and removed one by one. `validateNodeDisks` is the admission check, and what later proofs
use of it is `DiskKeys`: the disks are pairwise distinct and sit on desired workers.
-/

namespace KaaS

open Text Guard

def fsExt4 : String := "ext4"

def fsXFS : String := "xfs"

def minDiskGB : Int := 1

def maxDiskGB : Int := 2000

def maxDisksPerNode : Nat := 8

def maxDiskNameLen : Nat := 32

/-- The drive's world-wide name, from the digest `md5` of the disk's path. -/
def newDiskWWN (md5 : String → String) (clusterID vmName diskName : String) : String :=
  "0x5000c50" ++
    String.ofList ((md5 (clusterID ++ "/" ++ vmName ++ "/" ++ diskName)).toList.take 9)

def disksFor (c : Cluster) (vmName : String) : List NodeDisk :=
  (c.nodeDisks.filter (·.vmName == vmName)).insertionSort (fun a b => a.name ≤ b.name)

theorem mem_disksFor {c : Cluster} {vm : String} {d : NodeDisk} :
    d ∈ disksFor c vm ↔ d ∈ c.nodeDisks ∧ d.vmName = vm := by
  simp [disksFor, List.mem_insertionSort]

/-! ### Longhorn's share -/

def longhornDataPath : String := "/var/lib/longhorn"

def platformStorageDiskName : String := "storage"

def longhornMountPath (diskName : String) : String :=
  if diskName = platformStorageDiskName then longhornDataPath
  else longhornDataPath ++ "-" ++ diskName

namespace NodeDisk

def feedsStoragePool (d : NodeDisk) : Bool :=
  d.mountPath == longhornDataPath || hasPrefix d.mountPath (longhornDataPath ++ "-")

def isPlatformStorage (d : NodeDisk) : Bool := d.name == platformStorageDiskName

def needsLonghornRegistration (d : NodeDisk) : Bool :=
  d.phase == .attached && d.feedsStoragePool && !d.isPlatformStorage

end NodeDisk

def desiredStorageDisks (md5 : String → String) (c : Cluster) : List NodeDisk :=
  if c.storageDiskGB ≤ 0 then []
  else ((desiredNodes c).filter (·.role == .worker)).map fun n =>
    { vmName := n.vmName
      name := platformStorageDiskName
      sizeGB := c.storageDiskGB
      mountPath := longhornMountPath platformStorageDiskName
      fsType := fsExt4
      phase := .pending
      wwn := newDiskWWN md5 c.id n.vmName platformStorageDiskName }

/-- What is registered with Longhorn, as one text that changes when it does. -/
def storageFingerprint (c : Cluster) : String :=
  join "," (sorted ((c.nodeDisks.filter (·.needsLonghornRegistration)).map fun d =>
    d.vmName ++ ":" ++ d.mountPath))

/-! ### Disk validation -/

def validateDiskName (name : String) : Except String Unit := do
  refuseIf (name = "") "disk name is required"
  refuseIf (!isLabel name) ("disk name " ++ quote name ++
    " must be lowercase alphanumeric or '-', and start and end with an alphanumeric")
  refuseIf (name.utf8ByteSize > maxDiskNameLen) ("disk name " ++ quote name ++
    " is too long (max " ++ toString maxDiskNameLen ++ " characters)")

def validateUserDiskName (name : String) : Except String Unit := do
  validateDiskName name
  refuseIf (name = platformStorageDiskName) ("disk name " ++ quote name ++
    " is reserved for the platform's per-worker storage disk")

def protectedMounts : List String :=
  ["/", "/boot", "/etc", "/usr", "/bin", "/sbin", "/lib", "/lib64", "/dev", "/proc", "/sys",
    "/run", "/var", "/var/lib", "/var/lib/kubelet", "/var/lib/containerd", "/var/lib/etcd",
    "/etc/kubernetes", "/home", "/root", "/tmp"]

/-- A rooted path without empty, `.` and `..` elements, the latter removing what precedes
them. -/
def cleanRooted (path : String) : String :=
  let parts := (split path '/').foldl (fun stack part =>
    if part = "" ∨ part = "." then stack
    else if part = ".." then stack.tail
    else part :: stack) []
  "/" ++ join "/" parts.reverse

def validateMountPath (path : String) : Except String Unit := do
  refuseIf (path = "") "mount path is required"
  refuseIf (!hasPrefix path "/") ("mount path " ++ quote path ++ " must be absolute")
  refuseIf (cleanRooted path ≠ path) ("mount path " ++ quote path ++
    " must be a clean path (no trailing slash, no '.' or '..')")
  refuseIf (path ∈ protectedMounts) ("mount path " ++ quote path ++
    " is a system directory and cannot be used for an extra disk")

/-- The checks on one disk, given the desired workers and the disks already passed. -/
def validateNodeDisk (workers : List String) (passed : List NodeDisk) (d : NodeDisk) :
    Except String Unit := do
  refuseIf (d.vmName ∉ workers) ("disk " ++ quote d.name ++ ": node " ++ quote d.vmName ++
    " is not a worker node of this cluster")
  validateDiskName d.name
  refuseIf (d.vmName ++ "/" ++ d.name ∈ passed.map fun e => e.vmName ++ "/" ++ e.name)
    ("duplicate disk " ++ quote d.name ++ " on node " ++ quote d.vmName)
  refuseIf ((passed.filter (·.vmName == d.vmName)).length + 1 > maxDisksPerNode)
    ("node " ++ quote d.vmName ++ ": at most " ++ toString maxDisksPerNode ++
      " extra disks per node")
  refuseIf (d.sizeGB < minDiskGB ∨ d.sizeGB > maxDiskGB) ("disk " ++ quote d.name ++
    ": size must be between " ++ toString minDiskGB ++ " and " ++ toString maxDiskGB ++
    " GB, got " ++ toString d.sizeGB)
  refuseIf (d.fsType ≠ fsExt4 ∧ d.fsType ≠ fsXFS) ("disk " ++ quote d.name ++
    ": filesystem must be " ++ quote fsExt4 ++ " or " ++ quote fsXFS ++ ", got " ++
    quote d.fsType)
  (validateMountPath d.mountPath).mapError fun e => "disk " ++ quote d.name ++ ": " ++ e
  refuseIf (d.vmName ++ "/" ++ d.mountPath ∈ passed.map fun e => e.vmName ++ "/" ++ e.mountPath)
    ("node " ++ quote d.vmName ++ ": two disks both mount " ++ quote d.mountPath)

def validateNodeDisksFrom (workers : List String) (passed : List NodeDisk) :
    List NodeDisk → Except String Unit
  | [] => pure ()
  | d :: rest => do
    validateNodeDisk workers passed d
    validateNodeDisksFrom workers (d :: passed) rest

def workerNames (c : Cluster) : List String :=
  ((desiredNodes c).filter (·.role == .worker)).map (·.vmName)

theorem mem_workerNames {c : Cluster} {vm : String} :
    vm ∈ workerNames c ↔ ∃ p ∈ c.nodePools, ∃ i < p.desiredWorkers.toNat,
      vm = vmName c.name p.name i := by
  simp only [workerNames, desiredNodes, List.filter_append, List.map_append, List.mem_append,
    List.mem_map, List.mem_filter, List.mem_flatMap, beq_iff_eq]
  constructor
  · rintro (⟨d, ⟨⟨i, -, rfl⟩, hrole⟩, rfl⟩ | ⟨d, ⟨⟨p, hp, hd⟩, -⟩, rfl⟩)
    · simp at hrole
    · obtain ⟨i, hi, rfl⟩ := mem_desired.mp hd
      exact ⟨p, hp, i, hi, rfl⟩
  · rintro ⟨p, hp, i, hi, rfl⟩
    exact .inr ⟨_, ⟨⟨p, hp, mem_desired.mpr ⟨i, hi, rfl⟩⟩, rfl⟩, rfl⟩

theorem nodup_workerNames {c : Cluster} (h : PoolNames c.nodePools) : (workerNames c).Nodup :=
  (List.filter_sublist.map _).nodup (nodup_nodeVMNames h)

def validateNodeDisks (c : Cluster) (disks : List NodeDisk) : Except String Unit :=
  validateNodeDisksFrom (workerNames c) [] disks

/-- What the disks of every stored cluster satisfy: they are pairwise distinct and sit on
desired workers. -/
structure DiskKeys (c : Cluster) : Prop where
  nodup : (c.nodeDisks.map (·.key)).Nodup
  on_worker : ∀ d ∈ c.nodeDisks, d.vmName ∈ workerNames c

private theorem validateNodeDisksFrom_ok {workers : List String} {passed disks : List NodeDisk}
    (h : validateNodeDisksFrom workers passed disks = .ok ()) :
    (disks.map (·.key)).Nodup ∧ (∀ d ∈ disks, d.key ∉ passed.map (·.key)) ∧
      ∀ d ∈ disks, d.vmName ∈ workers := by
  induction disks generalizing passed with
  | nil => simp
  | cons d rest ih =>
    simp only [validateNodeDisksFrom, validateNodeDisk, bind_eq_ok, refuseIf_eq_ok] at h
    obtain ⟨-, ⟨-, hworker, -, -, -, hnew, -⟩, hrest⟩ := h
    obtain ⟨hnodup, hpassed, hon⟩ := ih hrest
    simp only [List.map_cons, List.mem_cons, not_or] at hpassed
    have hkey : d.key ∉ passed.map (·.key) := by
      simp only [List.mem_map, not_exists, not_and] at hnew ⊢
      intro e he hed
      obtain ⟨hvm, hname⟩ := Prod.mk.inj hed
      exact hnew e he (by rw [hvm, hname])
    refine ⟨?_, ?_, ?_⟩
    · rw [List.map_cons, List.nodup_cons, List.mem_map]
      refine ⟨?_, hnodup⟩
      rintro ⟨e, he, hed⟩
      exact (hpassed e he).1 hed
    · exact List.forall_mem_cons.mpr ⟨hkey, fun e he => (hpassed e he).2⟩
    · exact List.forall_mem_cons.mpr ⟨not_not.mp hworker, hon⟩

theorem diskKeys_of_validateNodeDisks {c : Cluster}
    (h : validateNodeDisks c c.nodeDisks = .ok ()) : DiskKeys c := by
  obtain ⟨hnodup, -, hon⟩ := validateNodeDisksFrom_ok h
  exact ⟨hnodup, hon⟩

theorem map_key_desiredStorageDisks_sublist (md5 : String → String) (c : Cluster) :
    ((desiredStorageDisks md5 c).map (·.key)).Sublist
      ((workerNames c).map fun vm => (vm, platformStorageDiskName)) := by
  unfold desiredStorageDisks
  split
  · simp
  · simp [workerNames, NodeDisk.key, Function.comp_def]

theorem exists_desiredStorageDisk (md5 : String → String) (c : Cluster) {vm : String}
    (hstorage : 0 < c.storageDiskGB) (hvm : vm ∈ workerNames c) :
    ∃ d ∈ desiredStorageDisks md5 c, d.key = (vm, platformStorageDiskName) := by
  obtain ⟨n, hn, rfl⟩ := List.mem_map.mp hvm
  rw [desiredStorageDisks, if_neg (not_le.mpr hstorage)]
  exact ⟨_, List.mem_map_of_mem hn, rfl⟩

theorem pending_of_mem_desiredStorageDisks {md5 : String → String} {c : Cluster} {d : NodeDisk}
    (h : d ∈ desiredStorageDisks md5 c) : d.phase = .pending ∧ d.deviceID = "" := by
  unfold desiredStorageDisks at h
  split at h
  · exact absurd h List.not_mem_nil
  · obtain ⟨n, -, rfl⟩ := List.mem_map.mp h
    exact ⟨rfl, rfl⟩

end KaaS
