import KaaS.Domain.Cluster
import KaaS.Library.Guard
import Mathlib.Algebra.Ring.Int.Defs

/-!
# Desired nodes

`desiredNodes c` is the set of machines a cluster should have: its control planes, then
pool by pool its workers. A machine is known by its name `<cluster>-<pool>-<i>` only
(`vmName`), with the infix `cp` in the pool's place for a control plane; pool validation
reserves that infix and forbids repeated pools, which makes the names pairwise distinct
(`nodup_nodeVMNames`) and lets a name determine its pool (`vmName_inj`).
-/

namespace KaaS

open Text Guard

def providerKVM : String := "kvm"

def providerVSphere : String := "vsphere"

def providerProxmox : String := "proxmox"

def Cluster.infraProvider (c : Cluster) : String :=
  if c.provider = "" then providerKVM else c.provider

def clustersOnProvider (clusters : List Cluster) (provider : String) : List Cluster :=
  clusters.filter fun c => c.infraProvider == provider

/-! ### Pool validation -/

def maxRootDiskGB : Int := 2000

def controlPlaneInfix : String := "cp"

def maxHostnameLen : Nat := 63

def isLabelEnd (ch : Char) : Bool := ('a' ≤ ch && ch ≤ 'z') || ('0' ≤ ch && ch ≤ '9')

/-- The pattern `^[a-z0-9]([-a-z0-9]*[a-z0-9])?$` that pool and disk names match. -/
def isLabel (s : String) : Bool :=
  match s.toList with
  | [] => false
  | ch :: rest =>
    isLabelEnd ch && isLabelEnd ((ch :: rest).getLast (List.cons_ne_nil ch rest)) &&
      rest.all fun x => isLabelEnd x || x == '-'

theorem not_mem_of_isLabel {s : String} (h : isLabel s = true) {ch : Char}
    (hend : isLabelEnd ch = false) (hdash : ch ≠ '-') : ch ∉ s.toList := by
  unfold isLabel at h
  split at h
  · simp at h
  · rename_i first rest hs
    simp only [Bool.and_eq_true, List.all_eq_true, Bool.or_eq_true, beq_iff_eq] at h
    rw [hs]
    intro hmem
    rcases List.mem_cons.mp hmem with rfl | hmem
    · simp [hend] at h
    · rcases h.2 ch hmem with hch | hch
      · simp [hend] at hch
      · exact hdash hch

def validatePoolName (clusterName name : String) : Except String Unit := do
  refuseIf (name = "") "node pool name is required"
  refuseIf (!isLabel name) ("node pool name " ++ quote name ++
    " must be lowercase alphanumeric or '-', and start and end with an alphanumeric")
  refuseIf (name = controlPlaneInfix)
    ("node pool name " ++ quote name ++ " is reserved for control-plane nodes")
  let n := clusterName.utf8ByteSize + name.utf8ByteSize + "--999".utf8ByteSize
  refuseIf (n > maxHostnameLen) ("node pool name " ++ quote name ++
    " is too long for cluster " ++ quote clusterName ++ ": node hostnames would reach " ++
    toString n ++ " characters (max " ++ toString maxHostnameLen ++ ")")

/-- The checks on one pool beyond its name. -/
def validateNodePool (p : NodePool) : Except String Unit :=
  match sizes p.size with
  | none => throw ("node pool " ++ quote p.name ++ " has unknown size " ++ quote p.size)
  | some spec => do
    refuseIf (p.desiredWorkers < 0) ("node pool " ++ quote p.name ++
      ": workers must be >= 0, got " ++ toString p.desiredWorkers)
    refuseIf (p.diskGB ≠ 0 ∧ p.diskGB < spec.diskGB) ("node pool " ++ quote p.name ++
      ": disk size must be at least the " ++ quote p.size ++ " default of " ++
      toString spec.diskGB ++ " GB, got " ++ toString p.diskGB)
    refuseIf (p.diskGB ≠ 0 ∧ p.diskGB > maxRootDiskGB) ("node pool " ++ quote p.name ++
      ": disk size must be at most " ++ toString maxRootDiskGB ++ " GB, got " ++
      toString p.diskGB)

/-- The loop of `validateNodePools`; `seen` holds the names of the pools already passed. -/
def validateNodePoolsFrom (clusterName : String) (seen : List String) :
    List NodePool → Except String Unit
  | [] => pure ()
  | p :: rest => do
    validatePoolName clusterName p.name
    refuseIf (p.name ∈ seen) ("duplicate node pool " ++ quote p.name)
    validateNodePool p
    validateNodePoolsFrom clusterName (p.name :: seen) rest

def validateNodePools (clusterName : String) (pools : List NodePool) : Except String Unit :=
  validateNodePoolsFrom clusterName [] pools

/-- What the pools of every stored cluster satisfy: no pool is repeated and none takes the
control planes' infix. -/
structure PoolNames (pools : List NodePool) : Prop where
  nodup : (pools.map (·.name)).Nodup
  ne_infix : ∀ p ∈ pools, p.name ≠ controlPlaneInfix

private theorem validateNodePoolsFrom_ok {clusterName : String} {seen : List String}
    {pools : List NodePool} (h : validateNodePoolsFrom clusterName seen pools = .ok ()) :
    (pools.map (·.name)).Nodup ∧ (∀ p ∈ pools, p.name ∉ seen) ∧
      (∀ p ∈ pools, p.name ≠ controlPlaneInfix) ∧ ∀ p ∈ pools, isLabel p.name = true := by
  induction pools generalizing seen with
  | nil => simp
  | cons p rest ih =>
    simp only [validateNodePoolsFrom, validatePoolName, bind_eq_ok, refuseIf_eq_ok] at h
    obtain ⟨-, ⟨-, -, -, hlabel, -, hne, -⟩, -, hseen, -, -, hrest⟩ := h
    obtain ⟨hnodup, hnew, hnames, hlabels⟩ := ih hrest
    simp only [List.mem_cons, not_or] at hnew
    refine ⟨?_, ?_, ?_, ?_⟩
    · rw [List.map_cons, List.nodup_cons, List.mem_map]
      refine ⟨?_, hnodup⟩
      rintro ⟨q, hq, hqp⟩
      exact (hnew q hq).1 hqp
    · exact List.forall_mem_cons.mpr ⟨hseen, fun q hq => (hnew q hq).2⟩
    · exact List.forall_mem_cons.mpr ⟨hne, hnames⟩
    · exact List.forall_mem_cons.mpr ⟨by simpa using hlabel, hlabels⟩

theorem poolNames_of_validateNodePools {clusterName : String} {pools : List NodePool}
    (h : validateNodePools clusterName pools = .ok ()) : PoolNames pools := by
  obtain ⟨hnodup, -, hne, -⟩ := validateNodePoolsFrom_ok h
  exact ⟨hnodup, hne⟩

theorem isLabel_of_validateNodePools {clusterName : String} {pools : List NodePool}
    (h : validateNodePools clusterName pools = .ok ()) : ∀ p ∈ pools, isLabel p.name = true :=
  (validateNodePoolsFrom_ok h).2.2.2

/-! ### The machines a cluster should have -/

structure DesiredNode where
  vmName : String
  role : Role
  pool : String
  spec : SizeSpec
  deriving DecidableEq

/-- The name of the `i`-th machine of a pool, or of the control plane at its infix. -/
def vmName (clusterName pool : String) (i : Nat) : String :=
  clusterName ++ "-" ++ pool ++ "-" ++ toString i

theorem vmName_inj {clusterName p q : String} {i j : Nat}
    (h : vmName clusterName p i = vmName clusterName q j) : p = q ∧ i = j := by
  obtain ⟨hpq, hij⟩ := append_dash_inj h
  exact ⟨by simpa using hpq, hij⟩

/-- A name and what follows it after a slash are told apart, where pools have no slash in their
names. -/
theorem vmName_slash_inj {clusterName p q s t : String} {i j : Nat} (hp : '/' ∉ p.toList)
    (hq : '/' ∉ q.toList)
    (h : vmName clusterName p i ++ "/" ++ s = vmName clusterName q j ++ "/" ++ t) :
    vmName clusterName p i = vmName clusterName q j ∧ s = t := by
  have hl := congrArg String.toList h
  simp only [vmName, String.toList_append, List.append_assoc] at hl
  have hl := List.append_cancel_left (List.append_cancel_left hl)
  have hnumbered {r : String} (hr : '/' ∉ r.toList) (n : Nat) :
      '/' ∉ r.toList ++ ("-".toList ++ (toString n).toList) := by
    simp only [List.mem_append, not_or]
    exact ⟨hr, by decide, not_mem_toString (by decide) n⟩
  have hcut (r : String) (n : Nat) (u : List Char) :
      r.toList ++ ("-".toList ++ ((toString n).toList ++ ("/".toList ++ u))) =
        (r.toList ++ ("-".toList ++ (toString n).toList)) ++ '/' :: u := by
    simp only [List.append_assoc]
    rfl
  rw [hcut, hcut] at hl
  obtain ⟨hname, hrest⟩ := append_cons_inj_left (hnumbered hp i) (hnumbered hq j) hl
  refine ⟨String.toList_inj.mp ?_, String.toList_inj.mp hrest⟩
  simp only [vmName, String.toList_append, List.append_assoc, hname]

def Cluster.controlPlaneCount (c : Cluster) : Int :=
  if c.controlPlanes > 0 then c.controlPlanes else (sizeOf c.size).controlPlanes

def Cluster.ha (c : Cluster) : Bool := decide (c.controlPlaneCount > 1)

def Cluster.workerCount (c : Cluster) : Int := (c.nodePools.map (·.desiredWorkers)).sum

def Cluster.pool (c : Cluster) (name : String) : Option NodePool :=
  c.nodePools.find? (·.name == name)

/-- The workers of one pool. -/
def NodePool.desired (clusterName : String) (p : NodePool) : List DesiredNode :=
  (List.range p.desiredWorkers.toNat).map fun i =>
    { vmName := vmName clusterName p.name i
      role := .worker
      pool := p.name
      spec := { sizeOf p.size with diskGB := p.rootDiskGB } }

def desiredNodes (c : Cluster) : List DesiredNode :=
  (List.range c.controlPlaneCount.toNat).map (fun i =>
    { vmName := vmName c.name controlPlaneInfix i
      role := .controlPlane
      pool := ""
      spec := sizeOf c.size }) ++
  c.nodePools.flatMap (·.desired c.name)

def nodeVMNames (c : Cluster) : List String := (desiredNodes c).map (·.vmName)

theorem mem_desired {clusterName : String} {p : NodePool} {d : DesiredNode} :
    d ∈ p.desired clusterName ↔ ∃ i < p.desiredWorkers.toNat, d =
      { vmName := vmName clusterName p.name i, role := .worker, pool := p.name,
        spec := { sizeOf p.size with diskGB := p.rootDiskGB } } := by
  simp [NodePool.desired, eq_comm]

theorem exists_vmName {c : Cluster} {vm : String} (h : vm ∈ nodeVMNames c) :
    ∃ p i, vm = vmName c.name p i ∧ (p = controlPlaneInfix ∨ ∃ q ∈ c.nodePools, q.name = p) := by
  obtain ⟨d, hd, rfl⟩ := List.mem_map.mp h
  rcases List.mem_append.mp hd with hd | hd
  · obtain ⟨i, -, rfl⟩ := List.mem_map.mp hd
    exact ⟨_, i, rfl, .inl rfl⟩
  · obtain ⟨q, hq, hd⟩ := List.mem_flatMap.mp hd
    obtain ⟨i, -, rfl⟩ := mem_desired.mp hd
    exact ⟨_, i, rfl, .inr ⟨q, hq, rfl⟩⟩

/-- Under pools that passed validation, machine names and what follows after a slash are told
apart. -/
theorem nodeVMNames_slash_inj {c : Cluster} {vm vm' s t : String}
    (hvalid : validateNodePools c.name c.nodePools = .ok ()) (hvm : vm ∈ nodeVMNames c)
    (hvm' : vm' ∈ nodeVMNames c) (h : vm ++ "/" ++ s = vm' ++ "/" ++ t) : vm = vm' ∧ s = t := by
  have hslash {p : String} (hp : p = controlPlaneInfix ∨ ∃ q ∈ c.nodePools, q.name = p) :
      '/' ∉ p.toList := by
    rcases hp with rfl | ⟨q, hq, rfl⟩
    · decide
    · exact not_mem_of_isLabel (isLabel_of_validateNodePools hvalid q hq) (by decide) (by decide)
  obtain ⟨p, i, rfl, hp⟩ := exists_vmName hvm
  obtain ⟨q, j, rfl, hq⟩ := exists_vmName hvm'
  exact vmName_slash_inj (hslash hp) (hslash hq) h

private theorem nodup_desired (clusterName : String) (p : NodePool) :
    ((p.desired clusterName).map (·.vmName)).Nodup := by
  rw [NodePool.desired, List.map_map]
  exact List.nodup_range.map fun i j h => (vmName_inj h).2

/-- **Machine names are distinct** in every cluster whose pools passed validation. -/
theorem nodup_nodeVMNames {c : Cluster} (h : PoolNames c.nodePools) : (nodeVMNames c).Nodup := by
  simp only [nodeVMNames, desiredNodes, List.map_append, List.map_map, List.map_flatMap]
  refine List.nodup_append.mpr ⟨?_, ?_, ?_⟩
  · exact List.nodup_range.map fun i j h => (vmName_inj h).2
  · refine List.nodup_flatMap.mpr ⟨fun p _ => nodup_desired c.name p, ?_⟩
    refine (List.pairwise_map.mp h.nodup).imp ?_
    intro p q hpq
    simp only [Function.onFun, List.disjoint_left, List.mem_map]
    rintro _ ⟨d, hd, rfl⟩ ⟨e, he, hde⟩
    obtain ⟨i, -, rfl⟩ := mem_desired.mp hd
    obtain ⟨j, -, rfl⟩ := mem_desired.mp he
    exact hpq (vmName_inj hde).1.symm
  · simp only [List.mem_map, List.mem_flatMap]
    rintro _ ⟨i, -, rfl⟩ _ ⟨p, hp, d, hd, rfl⟩ heq
    obtain ⟨j, -, rfl⟩ := mem_desired.mp hd
    exact h.ne_infix p hp (vmName_inj heq).1.symm

end KaaS
