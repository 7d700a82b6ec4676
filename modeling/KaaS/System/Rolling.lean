import KaaS.Reconcile.Addons
import KaaS.System.Row

/-!
# Rolling the machines of a cluster

A hop to another operating system replaces the machines, one in a tick: `rollOneNode` picks the
next one that is not on the target image, a worker while there is one, and `recreateNodeVM` writes
the node list anew from the desired machines, **each with the image recorded for it** and the one
picked with the target. The number of machines that are not on the target (`nodesLeft`) is then one
less, and when it is zero the tick that follows finishes the hop.

This takes a row that records its machines (`NodesRecorded`). A node without a recorded image is
given that of the cluster's current bundle as soon as any machine is replaced, and a node recorded
in another role than the desired one changes its turn.
-/

namespace KaaS

open Effect

/-! ### A tick in which no call fails -/

section Clean

variable {r : Reconciler} {ρ : Env} {α β : Type}

/-- Nothing but a call that fails ends `m`. -/
def Env.OnlyFails (ρ : Env) (m : Tick α) : Prop :=
  ∀ s, wp m (fun _ _ => True) (fun _ _ => ρ.Fails) s

namespace Env.OnlyFails

theorem bind {m : Tick α} {f : α → Tick β} (hm : ρ.OnlyFails m) (hf : ∀ a, ρ.OnlyFails (f a)) :
    ρ.OnlyFails (m >>= f) := by
  intro s
  rw [wp_bind]
  exact wp_mono (hm s) (fun a s' _ => hf a s') fun _ _ h => h

theorem pure (a : α) : ρ.OnlyFails (Pure.pure a : Tick α) := fun _ => trivial

theorem getCluster : ρ.OnlyFails getCluster := fun _ => trivial

theorem modifyCluster (f : Cluster → Cluster) : ρ.OnlyFails (modifyCluster f) := fun _ => trivial

theorem perform (k : Call) (context : String) : ρ.OnlyFails (perform ρ k context) := fun _ =>
  wp_perform_or trivial fun h _ => h

theorem ite {p : Prop} [Decidable p] {m n : Tick α} (hm : ρ.OnlyFails m) (hn : ρ.OnlyFails n) :
    ρ.OnlyFails (if p then m else n) := by
  split
  · exact hm
  · exact hn

theorem reconcileAddons : ρ.OnlyFails (reconcileAddons ρ) := fun s =>
  wp_mono (wp_reconcileAddons s) (fun _ _ _ => trivial) fun _ _ h => h.2

theorem takeDown (c : Cluster) (node : Node) : ρ.OnlyFails (takeDown ρ c node) := by
  unfold KaaS.takeDown
  split
  · exact perform _ _
  · exact ite (perform _ _) (perform _ _)

theorem mountNodeDisks : ρ.OnlyFails (mountNodeDisks ρ) :=
  getCluster.bind fun _ => (perform _ _).bind fun _ => modifyCluster _

theorem bringUp (node : Node) (nodes : List ProvisionedNode) :
    ρ.OnlyFails (bringUp ρ node nodes) := by
  refine getCluster.bind fun c => ?_
  split
  · exact (perform _ _).bind fun _ => (modifyCluster _).bind fun _ => mountNodeDisks
  · exact ite (perform _ _) (perform _ _)

theorem recreateNodeVM (node : Node) (image : String) :
    ρ.OnlyFails (recreateNodeVM r ρ node image false) :=
  getCluster.bind fun _ => (pure ()).bind fun _ => (perform _ _).bind fun _ =>
    (modifyCluster _).bind fun _ => pure _

theorem rollOneNode (image : String) : ρ.OnlyFails (rollOneNode r ρ image) := by
  refine getCluster.bind fun c => ?_
  split
  · exact pure ()
  · rename_i node _
    refine getCluster.bind fun c => (ite (pure ()) (perform _ _)).bind fun _ => ?_
    exact (modifyCluster _).bind fun _ => (takeDown c node).bind fun _ =>
      (recreateNodeVM node image).bind fun nodes => bringUp node nodes

theorem finalizeHop (bundleName : String) (dst : ResolvedBundle) (diff : BundleDiff) :
    ρ.OnlyFails (finalizeHop ρ bundleName dst diff) :=
  (modifyCluster _).bind fun _ =>
    (ite (pure ()) ((perform _ _).bind fun _ => modifyCluster _)).bind fun _ =>
      (modifyCluster _).bind fun _ => reconcileAddons

theorem reconcileMonitoringWiring : ρ.OnlyFails (reconcileMonitoringWiring ρ) :=
  getCluster.bind fun _ => ite (pure ()) <| (perform _ _).bind fun _ =>
    (perform _ _).bind fun _ => modifyCluster _

theorem upgradeHop (bundleName : String) (src dst : ResolvedBundle) :
    ρ.OnlyFails (upgradeHop r ρ bundleName src dst) := by
  refine getCluster.bind fun c => ite (rollOneNode _) ?_
  exact (ite (perform _ _) (pure ())).bind fun _ => (finalizeHop _ _ _).bind fun _ =>
    (modifyCluster _).bind fun _ => reconcileMonitoringWiring.bind fun _ => modifyCluster _

end Env.OnlyFails

end Clean

/-! ### The hop and the row -/

/-- The row `c` is in a hop from `src` to `dst` that changes the operating system. -/
structure OSHop (r : Reconciler) (hop : Bundle) (src dst : ResolvedBundle) (image : String)
    (c : Cluster) : Prop where
  phase : c.phase = .upgrading
  next : r.catalog.nextUpgrade c.bundle = some hop
  resolvedSrc : r.catalog.resolve c.bundle = .ok src
  resolvedDst : r.catalog.resolve hop.name = .ok dst
  changes : src.os.name ≠ dst.os.name
  image : image = goldenImageNameFor c.infraProvider dst.os.name dst.kubernetes

/-- **The row records its machines**: the desired ones and no others, each in its role and on some
image. -/
structure NodesRecorded (c : Cluster) : Prop where
  machines : (c.nodes.map fun n => (n.vmName, n.role)).Perm
    ((desiredNodes c).map fun d => (d.vmName, d.role))
  distinct : (c.nodes.map (·.vmName)).Nodup
  some : c.nodes ≠ []
  images : ∀ n ∈ c.nodes, n.image ≠ ""

def nodesLeft (image : String) (c : Cluster) : Nat := c.nodes.countP (·.image != image)

theorem allNodesOnImage_iff {image : String} {c : Cluster} (h : c.nodes ≠ []) :
    allNodesOnImage c.nodes image = true ↔ nodesLeft image c = 0 := by
  simp [allNodesOnImage, nodesLeft, h]

/-- What a hop reads and changes of a node. -/
def Node.standing (n : Node) : String × Role × String := (n.vmName, n.role, n.image)

/-- **One machine is replaced**: `node` gets the image and every other node keeps its own. -/
structure RollsOne (image : String) (node : Node) (c c' : Cluster) : Prop where
  mem : node ∈ c.nodes
  old : node.image ≠ image
  workersFirst : node.role = .controlPlane → ∀ n ∈ c.nodes, n.role = .worker → n.image = image
  nodes : (c'.nodes.map (·.standing)).Perm
    (c.nodes.map fun n => (n.vmName, n.role, if n.vmName = node.vmName then image else n.image))

/-! ### Replacing one -/

theorem recordedImage_of_mem {nodes : List Node} (h : (nodes.map (·.vmName)).Nodup) {n : Node}
    (hn : n ∈ nodes) : recordedImage nodes n.vmName = n.image := by
  have hlast : (nodes.filter (·.vmName == n.vmName)).getLast? = some n := by
    rw [← List.head?_reverse, ← List.filter_reverse, List.head?_filter]
    exact (Keyed.find?_reverse_eq_some h).mpr ⟨hn, rfl⟩
  rw [recordedImage, hlast]
  rfl

theorem role_of_nextNodeToRoll {nodes : List Node} {image : String} {node : Node}
    (h : nextNodeToRoll nodes image = some node) (hrole : node.role = .controlPlane) :
    ∀ n ∈ nodes, n.role = .worker → n.image = image := by
  intro n hn hworker
  rcases Option.or_eq_some_iff.mp h with h | ⟨h, -⟩
  · have := List.find?_some h
    simp [hrole] at this
  · simpa [hworker] using List.find?_eq_none.mp h n hn

/-- **The rewritten list** has the standing of the old one, but for the node replaced. -/
theorem NodesRecorded.rebuilt {c : Cluster} (h : NodesRecorded c) (node : Node) (image : String)
    (reports : List ProvisionedNode) :
    ((toDomainNodes (rebuildSpecs c node image) reports).map (·.standing)).Perm
      (c.nodes.map fun n =>
        (n.vmName, n.role, if n.vmName = node.vmName then image else n.image)) := by
  -- the image a machine is asked for depends on its name only
  let imageFor (vm : String) : String :=
    if vm = node.vmName then image
    else if recordedImage c.nodes vm ≠ "" then recordedImage c.nodes vm else currentImage c
  have hspecs : (toDomainNodes (rebuildSpecs c node image) reports).map (·.standing) =
      ((desiredNodes c).map fun d => (d.vmName, d.role)).map
        fun m => (m.1, m.2, imageFor m.1) := by
    simp only [toDomainNodes, rebuildSpecs, nodeSpecs, List.map_map]
    refine List.map_congr_left fun d _ => ?_
    simp only [Function.comp_apply, Node.standing, imageFor]
    split_ifs <;> rfl
  have hnodes : (c.nodes.map fun n => (n.vmName, n.role, if n.vmName = node.vmName then image
      else n.image)) = (c.nodes.map fun n => (n.vmName, n.role)).map
        fun m => (m.1, m.2, imageFor m.1) := by
    rw [List.map_map]
    refine List.map_congr_left fun n hn => ?_
    have hrecorded := recordedImage_of_mem h.distinct hn
    simp only [Function.comp_apply, imageFor, hrecorded, h.images n hn, ne_eq, not_false_eq_true,
      if_true]
  rw [hspecs, hnodes]
  exact (h.machines.map _).symm

section Step

variable {r : Reconciler} {ρ : Env} {c c' : Cluster} {hop : Bundle} {src dst : ResolvedBundle}
  {image : String} {node : Node}

private theorem Replaced.nodes_of_ok {evs : List Event} (h : Replaced c node image true c' evs) :
    ∃ wired reports disks, c' = { c with
      monitoringWired := wired
      nodes := toDomainNodes (rebuildSpecs c node image) reports
      nodeDisks := disks } := by
  cases h with
  | rebuilt wired _ reports => exact ⟨wired, reports, c.nodeDisks, rfl⟩
  | mounted wired _ reports => exact ⟨wired, reports, _, rfl⟩

theorem NodesRecorded.of_rollsOne (h : NodesRecorded c) (hroll : RollsOne image node c c')
    (himage : image ≠ "") (hdesired : desiredNodes c' = desiredNodes c) : NodesRecorded c' where
  machines := by
    have hmachines := hroll.nodes.map fun m => (m.1, m.2.1)
    simp only [List.map_map, Function.comp_def, Node.standing] at hmachines
    rw [hdesired]
    exact hmachines.trans h.machines
  distinct := by
    have hnames := hroll.nodes.map fun m => m.1
    simp only [List.map_map, Function.comp_def, Node.standing] at hnames
    exact hnames.nodup_iff.mpr h.distinct
  some := by
    intro hnil
    have hlength := hroll.nodes.length_eq
    simp only [hnil, List.length_map, List.length_nil] at hlength
    exact h.some (List.length_eq_zero_iff.mp hlength.symm)
  images := by
    intro n hn
    have hmem := hroll.nodes.mem_iff.mp (List.mem_map_of_mem hn)
    obtain ⟨m, hm, heq⟩ := List.mem_map.mp hmem
    simp only [Node.standing, Prod.mk.injEq] at heq
    rw [← heq.2.2]
    split_ifs
    · exact himage
    · exact h.images m hm

/-- **The measure**: one machine less is left. -/
theorem RollsOne.nodesLeft (hroll : RollsOne image node c c') (h : NodesRecorded c) :
    nodesLeft image c' + 1 = nodesLeft image c := by
  have hcount := hroll.nodes.countP_eq fun m => m.2.2 != image
  rw [List.countP_map, List.countP_map] at hcount
  rw [KaaS.nodesLeft, KaaS.nodesLeft, show c'.nodes.countP (·.image != image) = _ from hcount]
  refine Keyed.countP_succ_of_others h.distinct hroll.mem ?_ ?_ fun n _ hne => ?_
  · simpa using hroll.old
  · simp
  · simp [hne]

theorem OSHop.image_ne (h : OSHop r hop src dst image c) : image ≠ "" := by
  intro heq
  have hlength := congrArg String.length (h.image.symm.trans heq)
  unfold goldenImageNameFor at hlength
  split at hlength <;> simp [String.length_append] at hlength

/-- A tick in which no call fails has a result. -/
theorem OSHop.exists_result (h : OSHop r hop src dst image c) (hclean : ¬ρ.Fails) :
    ∃ c', tickResult r ρ c = some c' := by
  have hrun : wp (reconcileOne r ρ) (fun _ _ => True) (fun _ _ => ρ.Fails) { c := c } := by
    simp only [reconcileOne, wp_bind, wp_getCluster, h.phase, reconcileUpgrade, h.next,
      h.resolvedSrc, h.resolvedDst]
    exact Env.OnlyFails.upgradeHop hop.name src dst _
  obtain ⟨s, -, -, ⟨hres, -⟩ | ⟨-, hfails⟩⟩ := tick_of_wp hrun
  · exact ⟨s.c, hres⟩
  · exact absurd hfails hclean

/-- **A tick with machines left** replaces one of them. -/
theorem OSHop.rolls (h : OSHop r hop src dst image c) (hrec : NodesRecorded c)
    (hleft : nodesLeft image c ≠ 0) (hclean : ¬ρ.Fails) :
    ∃ c' node, tickResult r ρ c = some c' ∧ RollsOne image node c c' ∧
      OSHop r hop src dst image c' ∧ NodesRecorded c' := by
  obtain ⟨c', hres⟩ := h.exists_result hclean
  obtain ⟨hphase, hnext, hsrc, hdst, hos, himage⟩ := id h
  have hnot : ¬allNodesOnImage c.nodes image = true := fun hall =>
    hleft ((allNodesOnImage_iff hrec.some).mp hall)
  obtain ⟨evs, hstep⟩ : ∃ evs, TickStep r c (some c') evs := ⟨_, hres ▸ tickStep r ρ c⟩
  generalize hsome : some c' = res at hstep
  cases hstep with
  | rolled _ hhop' _ hdst' _ _ hnode hr =>
    obtain rfl := Option.some.inj (hhop'.symm.trans hnext)
    obtain rfl := Except.ok.inj (hdst'.symm.trans hdst)
    rw [← himage] at hnode hr
    rename_i node ok _
    cases ok with
    | false => simp at hsome
    | true =>
      obtain rfl := Option.some.inj hsome
      obtain ⟨wired, reports, disks, rfl⟩ := hr.nodes_of_ok
      obtain ⟨hmem, hold⟩ := mem_of_nextNodeToRoll hnode
      have hroll : RollsOne image node c { c with
          monitoringWired := wired
          nodes := toDomainNodes (rebuildSpecs c node image) reports
          nodeDisks := disks } :=
        ⟨hmem, hold, role_of_nextNodeToRoll hnode, hrec.rebuilt node image reports⟩
      exact ⟨_, node, hres, hroll, ⟨hphase, hnext, hsrc, hdst, hos, himage⟩,
        hrec.of_rollsOne hroll h.image_ne rfl⟩
  | hopped _ hhop' hsrc' hdst' hdone =>
    obtain rfl := Option.some.inj (hhop'.symm.trans hnext)
    obtain rfl := Except.ok.inj (hdst'.symm.trans hdst)
    obtain rfl := Except.ok.inj (hsrc'.symm.trans hsrc)
    rw [← himage] at hdone
    exact absurd hdone (by simp [hos, hnot])
  | noHop _ hnone => simp [hnone] at hnext
  | nothingToRoll _ hnil => exact absurd hnil hrec.some
  | _ => simp_all

/-- The hop has ended: the cluster has the bundle and its versions, and is at rest. -/
structure HopDone (hop : Bundle) (dst : ResolvedBundle) (c : Cluster) : Prop where
  bundle : c.bundle = hop.name
  os : c.osImage = dst.os.name
  kubernetes : c.k8sVersion = dst.kubernetes
  phase : c.phase = .ready

private theorem hopDone_finishHop (h : c.bundle = hop.name) (hos : c.osImage = dst.os.name)
    (hk8s : c.k8sVersion = dst.kubernetes) : HopDone hop dst (finishHop c) := by
  unfold finishHop
  split <;> exact ⟨h, hos, hk8s, rfl⟩

/-- **A tick with no machine left** finishes the hop. -/
theorem OSHop.finishes (h : OSHop r hop src dst image c)
    (hall : allNodesOnImage c.nodes image = true) (hclean : ¬ρ.Fails) :
    ∃ c', tickResult r ρ c = some c' ∧ HopDone hop dst c' := by
  obtain ⟨c', hres⟩ := h.exists_result hclean
  obtain ⟨hphase, hnext, hsrc, hdst, hos, himage⟩ := id h
  obtain ⟨evs, hstep⟩ : ∃ evs, TickStep r c (some c') evs := ⟨_, hres ▸ tickStep r ρ c⟩
  generalize hsome : some c' = res at hstep
  cases hstep with
  | rolled _ hhop' _ hdst' _ hleft =>
    obtain rfl := Option.some.inj (hhop'.symm.trans hnext)
    obtain rfl := Except.ok.inj (hdst'.symm.trans hdst)
    rw [← himage, hall] at hleft
    exact absurd hleft (by simp)
  | hopped _ hhop' _ hdst' =>
    obtain rfl := Option.some.inj (hhop'.symm.trans hnext)
    obtain rfl := Except.ok.inj (hdst'.symm.trans hdst)
    obtain rfl := Option.some.inj hsome
    exact ⟨_, hres, hopDone_finishHop rfl rfl rfl⟩
  | noHop _ hnone => simp [hnone] at hnext
  | nothingToRoll _ hnil => simp [allNodesOnImage, hnil] at hall
  | _ => simp_all

end Step

/-! ### A whole hop -/

/-- The row after `k` ticks with nothing else writing it: a tick that fails leaves it. -/
def rowAfter (r : Reconciler) (ρ : Nat → Env) (c : Cluster) : Nat → Cluster
  | 0 => c
  | k + 1 => (tickResult r (ρ k) (rowAfter r ρ c k)).getD (rowAfter r ρ c k)

theorem rowAfter_succ {r : Reconciler} {ρ : Nat → Env} {c c' : Cluster} {k : Nat}
    (h : tickResult r (ρ k) (rowAfter r ρ c k) = some c') : rowAfter r ρ c (k + 1) = c' := by
  rw [rowAfter, h, Option.getD_some]

section Run

variable {r : Reconciler} {hop : Bundle} {src dst : ResolvedBundle} {image : String} {c : Cluster}

/-- **Where a hop stands** after `k` ticks: `k` machines less are left. -/
theorem OSHop.rowAfter (h : OSHop r hop src dst image c) (hrec : NodesRecorded c) {ρ : Nat → Env}
    (hclean : ∀ k, ¬(ρ k).Fails) (k : Nat) (hk : k ≤ nodesLeft image c) :
    OSHop r hop src dst image (rowAfter r ρ c k) ∧ NodesRecorded (rowAfter r ρ c k) ∧
      nodesLeft image (rowAfter r ρ c k) + k = nodesLeft image c := by
  induction k with
  | zero => exact ⟨h, hrec, rfl⟩
  | succ k ih =>
    obtain ⟨hhop, hrec, hleft⟩ := ih (by omega)
    obtain ⟨c', node, hres, hroll, hhop', hrec'⟩ := hhop.rolls hrec (by omega) (hclean k)
    have hless := hroll.nodesLeft hrec
    rw [rowAfter_succ hres]
    exact ⟨hhop', hrec', by omega⟩

/-- **A hop to another operating system** replaces one machine in a tick, the workers before the
control planes, and ends in the tick after the last. -/
theorem osHop_rolls (h : OSHop r hop src dst image c) (hrec : NodesRecorded c) (ρ : Nat → Env)
    (hclean : ∀ k, ¬(ρ k).Fails) :
    (∀ k < nodesLeft image c, allNodesOnImage (rowAfter r ρ c k).nodes image = false ∧
      tickResult r (ρ k) (rowAfter r ρ c k) = some (rowAfter r ρ c (k + 1)) ∧
      (∃ node, RollsOne image node (rowAfter r ρ c k) (rowAfter r ρ c (k + 1))) ∧
      (rowAfter r ρ c (k + 1)).phase = .upgrading) ∧
    allNodesOnImage (rowAfter r ρ c (nodesLeft image c)).nodes image = true ∧
    tickResult r (ρ (nodesLeft image c)) (rowAfter r ρ c (nodesLeft image c)) =
      some (rowAfter r ρ c (nodesLeft image c + 1)) ∧
    HopDone hop dst (rowAfter r ρ c (nodesLeft image c + 1)) := by
  refine ⟨fun k hk => ?_, ?_⟩
  · obtain ⟨hhop, hrec', hleft⟩ := h.rowAfter hrec hclean k hk.le
    have hsome : nodesLeft image (rowAfter r ρ c k) ≠ 0 := by omega
    obtain ⟨c', node, hres, hroll, hhop', -⟩ := hhop.rolls hrec' hsome (hclean k)
    rw [rowAfter_succ hres]
    refine ⟨?_, hres, ⟨node, hroll⟩, hhop'.phase⟩
    rw [Bool.eq_false_iff]
    exact fun hall => hsome ((allNodesOnImage_iff hrec'.some).mp hall)
  · obtain ⟨hhop, hrec', hleft⟩ := h.rowAfter hrec hclean _ le_rfl
    have hall : allNodesOnImage (rowAfter r ρ c (nodesLeft image c)).nodes image = true :=
      (allNodesOnImage_iff hrec'.some).mpr (by omega)
    obtain ⟨c', hres, hdone⟩ := hhop.finishes hall (hclean _)
    rw [rowAfter_succ hres]
    exact ⟨hall, hres, hdone⟩

end Run

/-- The demo cluster with one worker, in the hop to the second bundle. -/
def rollingRow (images : String × String) : Cluster :=
  { demoCluster with
    nodePools := demoPools 1
    phase := .upgrading
    targetBundle := "r2"
    nodes := [
      { vmName := "demo-cp-0", role := .controlPlane, image := images.1 },
      { vmName := "demo-default-0", role := .worker, pool := "default", image := images.2 }] }

theorem osHop_rollingRow (images : String × String) :
    ∃ hop src dst, OSHop rollingPlatform.reconciler hop src dst "ubuntu-24.04-k8s-1.30.2.qcow2"
      (rollingRow images) ∧ hop.name = "r2" := by
  have hprovider : (rollingRow images).infraProvider = providerKVM := rfl
  refine ⟨_, _, _, ⟨rfl, rfl, rfl, rfl, by decide, ?_⟩, rfl⟩
  rw [hprovider]
  decide

theorem not_fails_empty : ¬({} : Env).Fails := by
  rintro ⟨n, k, h⟩
  exact h rfl

theorem osHop_rolls_demo :
    (rowAfter rollingPlatform.reconciler (fun _ => {}) (rollingRow ("old", "old")) 3).bundle =
      "r2" := by
  obtain ⟨hop, src, dst, hhop, hname⟩ := osHop_rollingRow ("old", "old")
  have hrec : NodesRecorded (rollingRow ("old", "old")) :=
    ⟨by decide, by decide, by decide, by decide⟩
  exact (osHop_rolls hhop hrec (fun _ => {}) fun _ => not_fails_empty).2.2.2.bundle.trans hname

/-- A control plane without a recorded image is given one when the worker is replaced. -/
theorem osHop_unrecorded :
    (rollingRow ("", "old")).nodes.map (·.vmName) = nodeVMNames (rollingRow ("", "old")) ∧
    (∃ hop src dst, OSHop rollingPlatform.reconciler hop src dst "ubuntu-24.04-k8s-1.30.2.qcow2"
      (rollingRow ("", "old"))) ∧ ¬({} : Env).Fails ∧
    (rowAfter rollingPlatform.reconciler (fun _ => {}) (rollingRow ("", "old")) 1).nodes.map
      (·.standing) = [
        ("demo-cp-0", .controlPlane, "ubuntu-22.04-k8s-1.30.1.qcow2"),
        ("demo-default-0", .worker, "ubuntu-24.04-k8s-1.30.2.qcow2")] ∧
    ¬∃ node, RollsOne "ubuntu-24.04-k8s-1.30.2.qcow2" node (rollingRow ("", "old"))
      (rowAfter rollingPlatform.reconciler (fun _ => {}) (rollingRow ("", "old")) 1) := by
  obtain ⟨hop, src, dst, hhop, -⟩ := osHop_rollingRow ("", "old")
  have hafter : (rowAfter rollingPlatform.reconciler (fun _ => {})
      (rollingRow ("", "old")) 1).nodes.map (·.standing) = [
        ("demo-cp-0", .controlPlane, "ubuntu-22.04-k8s-1.30.1.qcow2"),
        ("demo-default-0", .worker, "ubuntu-24.04-k8s-1.30.2.qcow2")] := by
    decide +kernel
  refine ⟨by decide, ⟨hop, src, dst, hhop⟩, not_fails_empty, hafter, ?_⟩
  rintro ⟨node, hroll⟩
  have hnodes := hroll.nodes
  rw [hafter] at hnodes
  obtain rfl | rfl := List.mem_pair.mp hroll.mem <;> revert hnodes <;> decide

end KaaS
