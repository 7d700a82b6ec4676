import KaaS.System.Asking

/-!
# Machines are not resized

A pool's size and root disk cannot be changed: an edit that gives a pool of the row another one
is refused. The row is all that is compared, though, and a pool that an edit removes is gone from
it while its machines still run. An edit that brings the pool back, with another size, is
accepted, and the next call for machines resizes those that are still there.

`KeepsShape` says of one call for machines that it agrees with the call before it, and
`neverResized_of_fits` that all calls of a run do, if every pool that an edit adds **fits** the
machines of its name in the latest call.
-/

namespace KaaS

open Optimistic

/-! ### The property -/

structure Shape where
  cpus : Int
  memMB : Int
  diskGB : Int
  deriving DecidableEq

def NodeSpec.shape (m : NodeSpec) : Shape := ⟨m.cpus, m.memMB, m.diskGB⟩

def SizeSpec.shape (s : SizeSpec) : Shape := ⟨s.cpus, s.memMB, s.diskGB⟩

def NodePool.shape (p : NodePool) : Shape :=
  { (sizeOf p.size).shape with diskGB := p.rootDiskGB }

/-- The machines of the latest call that asks for machines. -/
def lastAsked : History → List NodeSpec
  | [] => []
  | .did _ e :: log => e.asked.getD (lastAsked log)
  | .stored _ _ :: log | .written _ _ :: log => lastAsked log

/-- A call for machines gives each machine what the call before gave it. -/
def KeepsShape : Entry Cluster Event → History → Prop
  | .did _ e, log => ∀ specs ∈ e.asked, ∀ m ∈ specs, ∀ p ∈ lastAsked log,
    p.vmName = m.vmName → m.shape = p.shape
  | _, _ => True

instance (e : Entry Cluster Event) (log : History) : Decidable (KeepsShape e log) :=
  match e with
  | .did .. | .stored .. | .written .. => by unfold KeepsShape; infer_instance

/-- **Never resized**: a machine in two consecutive calls has the same CPUs, memory and root disk
in both. -/
def NeverResized (log : History) : Prop := Each KeepsShape log

instance (log : History) : Decidable (NeverResized log) := Each.decidable KeepsShape log

/-- A pool that an edit adds to the row has the size and the root disk of the machines that the
latest call asked for under its name. -/
def NewPoolsFit (s : State Cluster Event) : Input Env (Admission × Mutation) → Prop
  | .write (_, .updateCluster req) => ∀ want ∈ req.nodePools, ∀ w ∈ want,
    w.name ∉ s.row.nodePools.map (·.name) →
    ∀ m ∈ lastAsked s.log, m.role = .worker → m.pool = w.name → m.shape = w.shape
  | _ => True

instance (s : State Cluster Event) (i) : Decidable (NewPoolsFit s i) := by
  rcases i with _ | _ | _ | ⟨_, _ | _ | _ | _ | _ | _⟩ <;> unfold NewPoolsFit <;> infer_instance

/-! ### What the machines of a row are given -/

/-- A machine that a row asks for: a control plane of the cluster's size, or a worker of one of
its pools. -/
inductive ShapedBy (c : Cluster) (m : NodeSpec) : Prop
  | controlPlane (i : Nat) (hrole : m.role = .controlPlane)
      (hname : m.vmName = vmName c.name controlPlaneInfix i)
      (hshape : m.shape = (sizeOf c.size).shape)
  | worker (q : NodePool) (i : Nat) (hq : q ∈ c.nodePools) (hrole : m.role = .worker)
      (hpool : m.pool = q.name) (hname : m.vmName = vmName c.name q.name i)
      (hshape : m.shape = q.shape)

theorem shapedBy_of_mem_nodeSpecs {c : Cluster} {m : NodeSpec} (h : m ∈ nodeSpecs c) :
    ShapedBy c m := by
  obtain ⟨d, hd, rfl⟩ := List.mem_map.mp h
  rcases List.mem_append.mp hd with hd | hd
  · obtain ⟨i, -, rfl⟩ := List.mem_map.mp hd
    exact .controlPlane i rfl rfl rfl
  · obtain ⟨q, hq, hd⟩ := List.mem_flatMap.mp hd
    obtain ⟨i, -, rfl⟩ := mem_desired.mp hd
    exact .worker q i hq rfl rfl rfl rfl

/-- A machine asked for before: a control plane of the cluster's size, or a worker whose pool,
**if the row has it**, is of its shape. -/
structure Fits (c : Cluster) (m : NodeSpec) : Prop where
  controlPlane : m.role = .controlPlane → (∃ i, m.vmName = vmName c.name controlPlaneInfix i) ∧
    m.shape = (sizeOf c.size).shape
  worker : m.role = .worker → m.pool ≠ controlPlaneInfix ∧
    (∃ i, m.vmName = vmName c.name m.pool i) ∧
    ∀ q ∈ c.nodePools, q.name = m.pool → m.shape = q.shape

section Fits

variable {c : Cluster} {m p : NodeSpec}

theorem ShapedBy.fits (hpools : PoolNames c.nodePools) (h : ShapedBy c m) : Fits c m := by
  cases h with
  | controlPlane i hrole hname hshape =>
    exact ⟨fun _ => ⟨⟨i, hname⟩, hshape⟩, fun hworker => by simp [hrole] at hworker⟩
  | worker q i hq hrole hpool hname hshape =>
    refine ⟨fun hcontrol => by simp [hrole] at hcontrol, fun _ => ?_⟩
    rw [hpool]
    refine ⟨hpools.ne_infix q hq, ⟨i, hname⟩, fun q' hq' heq => ?_⟩
    rw [List.inj_on_of_nodup_map hpools.nodup hq' hq heq]
    exact hshape

theorem ShapedBy.shape_eq (hpools : PoolNames c.nodePools) (h : ShapedBy c m) (hp : Fits c p)
    (hname : p.vmName = m.vmName) : m.shape = p.shape := by
  cases hrole : p.role with
  | controlPlane =>
    obtain ⟨⟨j, hj⟩, hshape⟩ := hp.controlPlane hrole
    cases h with
    | controlPlane i _ _ hm => exact hm.trans hshape.symm
    | worker q i hq _ _ hi _ =>
      exact absurd (vmName_inj (hj.symm.trans (hname.trans hi))).1.symm (hpools.ne_infix q hq)
  | worker =>
    obtain ⟨hnotControl, ⟨j, hj⟩, hshape⟩ := hp.worker hrole
    cases h with
    | controlPlane i _ hi _ =>
      exact absurd (vmName_inj (hj.symm.trans (hname.trans hi))).1 hnotControl
    | worker q i hq _ _ hi hm =>
      have hpool := (vmName_inj (hj.symm.trans (hname.trans hi))).1
      exact hm.trans (hshape q hq hpool.symm).symm

theorem Fits.congr {c' : Cluster} (h : Fits c m) (hname : c'.name = c.name)
    (hsize : c'.size = c.size)
    (hpools : ∀ q' ∈ c'.nodePools, m.role = .worker → q'.name = m.pool →
      m.shape = q'.shape) : Fits c' m := by
  refine ⟨fun hrole => ?_, fun hrole => ?_⟩
  · rw [hname, hsize]
    exact h.controlPlane hrole
  · rw [hname]
    obtain ⟨hnotControl, hi, -⟩ := h.worker hrole
    exact ⟨hnotControl, hi, fun q hq heq => hpools q hq hrole heq⟩

end Fits

/-! ### Whole runs -/

private theorem TickStep.shapedBy {r : Reconciler} {c : Cluster} {res : Option Cluster}
    {evs : List Event} (h : TickStep r c res evs) :
    ∀ e ∈ evs, ∀ specs ∈ e.asked, ∀ m ∈ specs, ShapedBy c m := by
  intro e he specs hasked m hm
  have hbare : m.bare ∈ (nodeSpecs (asksRow c)).map (·.bare) := by
    rw [← h.map_bare_asked e he specs hasked]
    exact List.mem_map_of_mem hm
  obtain ⟨t, ht, hbare⟩ := List.mem_map.mp hbare
  have hrole : m.role = t.role := (congrArg NodeSpec.role hbare).symm
  have hpool : m.pool = t.pool := (congrArg NodeSpec.pool hbare).symm
  have hvm : m.vmName = t.vmName := (congrArg NodeSpec.vmName hbare).symm
  have hshape : m.shape = t.shape := (congrArg NodeSpec.shape hbare).symm
  have hname : (asksRow c).name = c.name := by unfold asksRow; split <;> rfl
  have hsize : (asksRow c).size = c.size := by unfold asksRow; split <;> rfl
  have hpools : (asksRow c).nodePools = c.nodePools := by unfold asksRow; split <;> rfl
  cases shapedBy_of_mem_nodeSpecs ht with
  | controlPlane i htrole htname htshape =>
    exact .controlPlane i (hrole.trans htrole) (hvm.trans (hname ▸ htname))
      (hshape.trans (hsize ▸ htshape))
  | worker q i hq htrole htpool htname htshape =>
    exact .worker q i (hpools ▸ hq) (hrole.trans htrole) (hpool.trans htpool)
      (hvm.trans (hname ▸ htname)) (hshape.trans htshape)

/-- **The invariant**: pools are named apart, the machines of the latest call fit the row, and no
call has resized a machine. -/
private structure SizesInv (c : Cluster) (log : History) : Prop where
  pools : PoolNames c.nodePools
  fits : ∀ m ∈ lastAsked log, Fits c m
  kept : NeverResized log

private theorem SizesInv.push {c : Cluster} {evs : List Event} {log : History}
    (h : SizesInv c log) (hevs : ∀ e ∈ evs, ∀ specs ∈ e.asked, ∀ m ∈ specs, ShapedBy c m) :
    SizesInv c (push c evs log) := by
  induction evs generalizing log with
  | nil => exact h
  | cons e evs ih =>
    refine ih ⟨h.pools, ?_, ?_, h.kept⟩ fun e' he' => hevs e' (List.mem_cons_of_mem e he')
    · cases hasked : e.asked with
      | none => simpa [lastAsked, hasked] using h.fits
      | some specs =>
        intro m hm
        simp only [lastAsked, hasked, Option.getD_some] at hm
        exact (hevs e List.mem_cons_self specs hasked m hm).fits h.pools
    · intro specs hasked m hm p hp hname
      exact (hevs e List.mem_cons_self specs hasked m hm).shape_eq h.pools (h.fits p hp) hname

private theorem SizesInv.edit {a : App} {s : State Cluster Event} {k : Admission × Mutation}
    {c : Cluster} (h : SizesInv s.row s.log) (hfit : NewPoolsFit s (.write k))
    (hedit : Edit a s.row k.2 c) : SizesInv c (.written s.row c :: s.log) := by
  obtain ⟨adm, m⟩ := k
  cases hedit with
  | @update req pools disks ips addons hphase haddons hpools =>
    cases hpools with
    | keep => exact ⟨h.pools, fun m hm => ⟨(h.fits m hm).1, (h.fits m hm).2⟩, trivial, h.kept⟩
    | change _ hwant hadm =>
      refine ⟨poolNames_of_validateNodePools hadm.valid, fun m hm => ?_, trivial, h.kept⟩
      refine (h.fits m hm).congr rfl rfl fun w hw hrole hname => ?_
      by_cases hnew : w.name ∈ s.row.nodePools.map (·.name)
      · -- a pool of the row keeps its size and its root disk
        obtain ⟨cur, hcur, hsame, hsize, hdisk⟩ := hadm.exists_old hw hnew
        rw [((h.fits m hm).worker hrole).2.2 cur hcur (hsame.trans hname)]
        simp only [NodePool.shape, NodePool.rootDiskGB, hsize, hdisk]
      · exact hfit _ hwant w hw hnew m hm hrole hname.symm
  | _ => exact ⟨h.pools, fun m hm => ⟨(h.fits m hm).1, (h.fits m hm).2⟩, trivial, h.kept⟩

/-- **No machine is resized** in a run whose edits add only pools that fit the machines still
there. -/
theorem neverResized_of_fits (P : Platform) (c : Cluster) (is : Platform.Inputs)
    (hc : Created P.app.catalog c) (hfit : P.Along NewPoolsFit c is) :
    NeverResized (P.run c is).log := by
  refine (Platform.run_invariant SizesInv ?_ ?_ ⟨hc.pools, by simp [lastAsked], trivial⟩ hfit).kept
  · intro s ρ res evs h hidle _ hstep
    have hpush := h.push hstep.shapedBy
    refine ⟨hpush, fun c hc => ?_⟩
    subst hc
    have hsame := hstep.sameDesire
    refine ⟨hsame.nodePools ▸ h.pools, fun m hm => ?_, trivial, hpush.kept⟩
    refine (hpush.fits m hm).congr hsame.name hsame.size fun q hq hrole hname => ?_
    exact ((hpush.fits m hm).worker hrole).2.2 q (hsame.nodePools ▸ hq) hname
  · intro s k c h hcond hedit
    exact h.edit hcond hedit

/-- Two pools, the second of this size. -/
def twoPools (size : String) : List NodePool :=
  demoPools 2 ++ [{ name := "extra", size := size, desiredWorkers := 1 }]

/-- A pool is added to a running cluster, taken away, and brought back with this size before the
next tick. -/
def poolReadded (size : String) : Platform.Inputs :=
  bringUpRun ++ submit (.updateCluster { nodePools := some (twoPools "small") }) ++ pass {} ++
    pass {} ++ submit (.updateCluster { nodePools := some (demoPools 2) }) ++
    submit (.updateCluster { nodePools := some (twoPools size) }) ++ pass {} ++ pass {}

theorem neverResized_poolReadded :
    NeverResized (rollingPlatform.run demoCluster (poolReadded "small")).log :=
  neverResized_of_fits rollingPlatform demoCluster (poolReadded "small") (created_demoCluster _ _)
    (by decide +kernel)

/-- With another size, the worker that is still there is asked for with other CPUs and memory. -/
theorem resized_by_readded_pool :
    Created rollingPlatform.app.catalog demoCluster ∧
    ¬NeverResized (rollingPlatform.run demoCluster (poolReadded "medium")).log :=
  ⟨created_demoCluster _ _, by decide +kernel⟩

end KaaS
