import KaaS.Domain.Desired

/-!
# Machine names as hostnames

A machine's name is its hostname, of at most `maxHostnameLen` characters. Pool validation leaves
room for **three digits** of an index and does not look at the number of workers, nor at the control
planes: the names of the first thousand workers of a pool fit, and what comes after may not. What
the names have to carry, the role and the pool, they always do.

`(i : Nat) < n` indices have at most `k` digits exactly if `n ≤ 10 ^ k`, so whether all names fit
can be read off the counts (`NamesFit`).
-/

namespace KaaS

open Text Guard

/-! ### What a name carries -/

theorem mem_desiredNodes {c : Cluster} {d : DesiredNode} (h : d ∈ desiredNodes c) :
    (∃ i < c.controlPlaneCount.toNat, d.vmName = vmName c.name controlPlaneInfix i ∧
      d.role = .controlPlane ∧ d.pool = "") ∨
    ∃ p ∈ c.nodePools, ∃ i < p.desiredWorkers.toNat, d.vmName = vmName c.name p.name i ∧
      d.role = .worker ∧ d.pool = p.name := by
  rcases List.mem_append.mp h with h | h
  · obtain ⟨i, hi, rfl⟩ := List.mem_map.mp h
    exact .inl ⟨i, List.mem_range.mp hi, rfl, rfl, rfl⟩
  · obtain ⟨p, hp, h⟩ := List.mem_flatMap.mp h
    obtain ⟨i, hi, rfl⟩ := mem_desired.mp h
    exact .inr ⟨p, hp, i, hi, rfl, rfl, rfl⟩

theorem mem_nodeVMNames {c : Cluster} {vm : String} :
    vm ∈ nodeVMNames c ↔
      (∃ i < c.controlPlaneCount.toNat, vm = vmName c.name controlPlaneInfix i) ∨
      ∃ p ∈ c.nodePools, ∃ i < p.desiredWorkers.toNat, vm = vmName c.name p.name i := by
  simp only [nodeVMNames, desiredNodes, NodePool.desired, List.map_append, List.map_map,
    List.map_flatMap, List.mem_append, List.mem_map, List.mem_flatMap, List.mem_range,
    Function.comp_apply, eq_comm]

/-- **A name determines role and pool**, whatever the pools of the two clusters of that name. -/
theorem role_pool_of_vmName {c c' : Cluster} (hname : c'.name = c.name)
    (h : PoolNames c.nodePools) (h' : PoolNames c'.nodePools) {d d' : DesiredNode}
    (hd : d ∈ desiredNodes c) (hd' : d' ∈ desiredNodes c') (heq : d.vmName = d'.vmName) :
    d.role = d'.role ∧ d.pool = d'.pool := by
  rcases mem_desiredNodes hd with ⟨i, -, hvm, hrole, hpool⟩ | ⟨p, hp, i, -, hvm, hrole, hpool⟩ <;>
  rcases mem_desiredNodes hd' with
    ⟨j, -, hvm', hrole', hpool'⟩ | ⟨q, hq, j, -, hvm', hrole', hpool'⟩ <;>
  rw [hvm, hvm', hname] at heq <;> have hinfix := (vmName_inj heq).1
  · exact ⟨hrole.trans hrole'.symm, hpool.trans hpool'.symm⟩
  · exact absurd hinfix.symm (h'.ne_infix q hq)
  · exact absurd hinfix (h.ne_infix p hp)
  · exact ⟨hrole.trans hrole'.symm, by rw [hpool, hpool', hinfix]⟩

/-! ### How long it is -/

/-- The first `n` names at an infix of this length fit: one digit at least, and enough digits for
the last index. -/
def IndicesFit (infixLen n : Nat) : Prop :=
  n = 0 ∨ infixLen + 3 ≤ maxHostnameLen ∧ n ≤ 10 ^ (maxHostnameLen - 2 - infixLen)

instance (infixLen n : Nat) : Decidable (IndicesFit infixLen n) :=
  inferInstanceAs (Decidable (_ ∨ _))

/-- **The names fit**: those of the control planes and those of every pool. -/
structure NamesFit (c : Cluster) : Prop where
  controlPlanes : IndicesFit (c.name.length + controlPlaneInfix.length) c.controlPlaneCount.toNat
  pools : ∀ p ∈ c.nodePools, IndicesFit (c.name.length + p.name.length) p.desiredWorkers.toNat

theorem length_vmName (clusterName pool : String) (i : Nat) :
    (vmName clusterName pool i).length =
      clusterName.length + pool.length + 2 + (Nat.toDigits 10 i).length := by
  have hnumeral : (toString i).length = (Nat.toDigits 10 i).length := by
    rw [Nat.toString_eq_repr, ← String.length_toList, Nat.toList_repr]
  have hdash : "-".length = 1 := rfl
  simp only [vmName, String.length_append, hnumeral, hdash]
  omega

theorem indicesFit_iff (clusterName pool : String) (n : Nat) :
    (∀ i < n, (vmName clusterName pool i).length ≤ maxHostnameLen) ↔
      IndicesFit (clusterName.length + pool.length) n := by
  simp only [length_vmName, IndicesFit, maxHostnameLen, Nat.reduceSub]
  rcases Nat.eq_zero_or_pos n with rfl | hn
  · simp
  · constructor
    · intro h
      have hlast := h (n - 1) (by omega)
      have hdigit := Nat.length_toDigits_pos (b := 10) (n := n - 1)
      have hroom : 0 < 61 - (clusterName.length + pool.length) := by omega
      have hbound := (Nat.length_toDigits_le_iff (b := 10) (n := n - 1) (by omega) hroom).mp
        (by omega)
      exact .inr ⟨by omega, by omega⟩
    · rintro (rfl | ⟨hshort, hcount⟩) i hi
      · omega
      · have hroom : 0 < 61 - (clusterName.length + pool.length) := by omega
        have hdigits := (Nat.length_toDigits_le_iff (b := 10) (n := i) (by omega) hroom).mpr
          (lt_of_lt_of_le hi hcount)
        omega

theorem namesFit_iff (c : Cluster) :
    (∀ vm ∈ nodeVMNames c, vm.length ≤ maxHostnameLen) ↔ NamesFit c := by
  constructor
  · intro h
    refine ⟨(indicesFit_iff _ _ _).mp fun i hi => ?_, fun p hp =>
      (indicesFit_iff _ _ _).mp fun i hi => ?_⟩
    · exact h _ (mem_nodeVMNames.mpr (.inl ⟨i, hi, rfl⟩))
    · exact h _ (mem_nodeVMNames.mpr (.inr ⟨p, hp, i, hi, rfl⟩))
  · intro h vm hvm
    rcases mem_nodeVMNames.mp hvm with ⟨i, hi, rfl⟩ | ⟨p, hp, i, hi, rfl⟩
    · exact (indicesFit_iff _ _ _).mpr h.controlPlanes i hi
    · exact (indicesFit_iff _ _ _).mpr (h.pools p hp) i hi

/-! ### What pool validation budgets -/

/-! ### The names of a cluster -/

/-- **Names as they should be**: distinct, short enough for a hostname, and each telling its role
and its pool. -/
structure WellNamed (c : Cluster) : Prop where
  distinct : (nodeVMNames c).Nodup
  short : ∀ vm ∈ nodeVMNames c, vm.length ≤ maxHostnameLen
  telling : ∀ c', c'.name = c.name → validateNodePools c'.name c'.nodePools = .ok () →
    ∀ d ∈ desiredNodes c, ∀ d' ∈ desiredNodes c', d.vmName = d'.vmName →
      d.role = d'.role ∧ d.pool = d'.pool

/-- A cluster with validated pools is well named exactly if the counts let its names fit. -/
theorem wellNamed_iff_namesFit (c : Cluster)
    (hvalid : validateNodePools c.name c.nodePools = .ok ()) : WellNamed c ↔ NamesFit c := by
  have hpools := poolNames_of_validateNodePools hvalid
  constructor
  · intro h
    exact (namesFit_iff c).mp h.short
  · intro h
    refine ⟨nodup_nodeVMNames hpools, (namesFit_iff c).mpr h, ?_⟩
    intro c' hname hvalid' d hd d' hd' heq
    exact role_pool_of_vmName hname hpools (poolNames_of_validateNodePools hvalid') hd hd' heq

/-- A cluster named with fifty-one characters, the most the default pool admits. -/
def longNamed (workers : Int) : Cluster :=
  { name := "a-cluster-whose-name-is-fifty-one-characters-long-1"
    size := "small"
    controlPlanes := 1
    nodePools := [{ name := "default", size := "small", desiredWorkers := workers }] }

theorem wellNamed_iff_namesFit_thousand : WellNamed (longNamed 1000) :=
  (wellNamed_iff_namesFit (longNamed 1000) (by decide)).mpr ⟨by decide, by decide⟩

/-- The thousand and first worker. -/
theorem not_wellNamed_longNamed :
    validateNodePools (longNamed 1001).name (longNamed 1001).nodePools = .ok () ∧
    vmName (longNamed 1001).name "default" 1000 ∈ nodeVMNames (longNamed 1001) ∧
    (vmName (longNamed 1001).name "default" 1000).length = 64 ∧ ¬WellNamed (longNamed 1001) := by
  have hmem : vmName (longNamed 1001).name "default" 1000 ∈ nodeVMNames (longNamed 1001) :=
    mem_nodeVMNames.mpr (.inr ⟨_, List.mem_singleton_self _, 1000, by decide, rfl⟩)
  have hlen : (vmName (longNamed 1001).name "default" 1000).length = 64 := by decide
  refine ⟨by decide, hmem, hlen, fun h => ?_⟩
  have hshort := h.short _ hmem
  rw [hlen] at hshort
  exact absurd hshort (by decide)

end KaaS
