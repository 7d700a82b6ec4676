import KaaS.System.Rolling

/-!
# What ticks achieve when nothing fails

A tick ends with an error for two reasons only: **a call it makes fails**, or the catalog does not
know a bundle of the hop it is in (`exists_tickResult`). So a cluster that nobody edits makes its
way: one tick takes it from each phase to the next of a fixed graph (`Phase.next`), and every phase
but `Ready` and `Upgrading` is left for good, for another that is closer to rest. How many ticks a
hop takes depends on the machines and is counted where they are rolled.

Across any interleaving with mutations the graph has one more arrow, the one to `Deleting`, and a
cluster never gets younger.
-/

namespace KaaS

open Effect Optimistic

/-! ### Errors are those of calls -/

section Clean

variable {r : Reconciler} {ρ : Env} {α : Type}

namespace Env.OnlyFails

/-- What is caught does not end the tick. -/
theorem tryCatch (m : Tick α) {h : String → Tick α} (hh : ∀ e, ρ.OnlyFails (h e)) :
    ρ.OnlyFails (tryCatch m h) := by
  intro s
  have hany : wp m (fun _ _ => True) (fun _ _ => True) s := by
    unfold wp
    split <;> trivial
  rw [wp_tryCatch]
  exact wp_mono hany (fun _ _ _ => trivial) fun e s' _ => hh e s'

theorem guarded {p : Cluster → Prop} [DecidablePred p] {m : Cluster → Tick Unit}
    (hm : ∀ c, ρ.OnlyFails (m c)) :
    ρ.OnlyFails (KaaS.getCluster >>= fun c => if p c then Pure.pure () else m c) :=
  getCluster.bind fun _ => ite (pure ()) (hm _)

/-- A call, and what it changes on the row. -/
theorem marked {k : Call} {context : String} {f : Cluster → Cluster} :
    ρ.OnlyFails (KaaS.perform ρ k context >>= fun _ => KaaS.modifyCluster f) :=
  (perform _ _).bind fun _ => modifyCluster _

theorem saveSecret (kind : SecretKind) : ρ.OnlyFails (saveSecret ρ kind) :=
  (perform _ _).bind fun _ => perform _ _

theorem ensureNodes (specs : List NodeSpec) : ρ.OnlyFails (ensureNodes ρ specs) :=
  getCluster.bind fun _ => marked

theorem initControlPlane : ρ.OnlyFails (initControlPlane ρ) :=
  (perform _ _).bind fun _ => (saveSecret _).bind fun _ => (saveSecret _).bind fun _ =>
    modifyCluster _

theorem ensureViewerKubeconfig : ρ.OnlyFails (ensureViewerKubeconfig ρ) :=
  (perform _ _).bind fun _ => saveSecret _

theorem installCNI : ρ.OnlyFails (installCNI ρ) :=
  (perform _ _).bind fun _ => ensureViewerKubeconfig.bind fun _ => mountNodeDisks.bind fun _ =>
    modifyCluster _

theorem reconcileRegistryWiring : ρ.OnlyFails (reconcileRegistryWiring r ρ) := by
  have hcred : ρ.OnlyFails (registryCredential ρ) :=
    ite ((perform _ _).bind fun _ => pure _) ((saveSecret _).bind fun _ => pure _)
  exact guarded fun _ => (perform _ _).bind fun _ => hcred.bind fun _ =>
    (modifyCluster _).bind fun _ => marked

theorem reconcileWiring : ρ.OnlyFails (reconcileWiring r ρ) :=
  reconcileMonitoringWiring.bind fun _ => (guarded fun _ => marked).bind fun _ =>
    (guarded fun _ => marked).bind fun _ =>
      (guarded fun _ => (perform _ _).bind fun _ => (perform _ _).bind fun _ => marked).bind
        fun _ => reconcileRegistryWiring.bind fun _ => guarded fun _ => marked

theorem updateMachines : ρ.OnlyFails (updateMachines ρ) :=
  getCluster.bind fun _ => (ite (pure ()) (perform _ _)).bind fun _ =>
    (guarded fun _ => (perform _ _).bind fun _ => marked).bind fun _ => getCluster.bind fun _ =>
      (ensureNodes _).bind fun _ => (perform _ _).bind fun _ => mountNodeDisks

theorem reconcileSnapshot : ρ.OnlyFails (reconcileSnapshot r ρ) :=
  (perform _ _).bind fun _ => (perform _ _).bind fun _ => (perform _ _).bind fun _ =>
    (modifyCluster _).bind fun _ => (tryCatch _ fun _ => pure ()).bind fun _ => modifyCluster _

theorem reconcileRepair : ρ.OnlyFails (reconcileRepair r ρ) :=
  (perform _ _).bind fun _ => getCluster.bind fun _ =>
    (ite (pure _) (tryCatch _ fun _ => pure _)).bind fun _ => marked

theorem delete : ρ.OnlyFails (delete r ρ) :=
  (guarded fun _ => marked).bind fun _ => (ite (pure ()) marked).bind fun _ =>
    (ite (pure ()) marked).bind fun _ => marked

theorem reconcileReady : ρ.OnlyFails (reconcileReady r ρ) :=
  (ite ensureViewerKubeconfig (pure ())).bind fun _ => getCluster.bind fun _ =>
    ite (modifyCluster _) <| ite (modifyCluster _) <| ite reconcileRepair <|
      ite ((guarded fun _ => marked).bind fun _ => modifyCluster _) <|
        ite (modifyCluster _) <| ite marked (pure ())

end Env.OnlyFails

/-- The catalog knows the bundles of the hop that is next. -/
def Reconciler.KnowsHop (r : Reconciler) (c : Cluster) : Prop :=
  ∀ hop, r.catalog.nextUpgrade c.bundle = some hop →
    ∃ src dst, r.catalog.resolve c.bundle = .ok src ∧ r.catalog.resolve hop.name = .ok dst

theorem fails_of_reconcileOne {c : Cluster} (hhop : c.phase = .upgrading → r.KnowsHop c) :
    wp (reconcileOne r ρ) (fun _ _ => True) (fun _ _ => ρ.Fails) { c := c } := by
  simp only [reconcileOne, wp_bind, wp_getCluster]
  cases hphase : c.phase with
  | pending | deleted | failed => trivial
  | provisioningInfra =>
    exact (Env.OnlyFails.getCluster.bind fun _ => (Env.OnlyFails.ensureNodes _).bind fun _ =>
      .modifyCluster _) _
  | infraReady => exact Env.OnlyFails.initControlPlane _
  | controlPlaneReady | defragmentingEtcd => exact Env.OnlyFails.marked _
  | renewingCerts =>
    exact ((Env.OnlyFails.perform _ _).bind fun _ => (Env.OnlyFails.saveSecret _).bind fun _ =>
      .modifyCluster _) _
  | workersReady => exact Env.OnlyFails.installCNI _
  | installingAddons =>
    exact (Env.OnlyFails.reconcileAddons.bind fun _ => Env.OnlyFails.reconcileWiring.bind
      fun _ => .modifyCluster _) _
  | ready => exact Env.OnlyFails.reconcileReady _
  | snapshottingEtcd => exact Env.OnlyFails.reconcileSnapshot _
  | repairing =>
    exact ((Env.OnlyFails.tryCatch _ fun _ => .pure ()).bind fun _ => .modifyCluster _) _
  | upgrading =>
    simp only [reconcileUpgrade, wp_bind, wp_getCluster]
    cases hnext : r.catalog.nextUpgrade c.bundle with
    | none => trivial
    | some hop =>
      obtain ⟨src, dst, hsrc, hdst⟩ := hhop hphase hop hnext
      simp only [hsrc, hdst]
      exact Env.OnlyFails.upgradeHop hop.name src dst _
  | updating =>
    exact (Env.OnlyFails.updateMachines.bind fun _ => Env.OnlyFails.reconcileAddons.bind fun _ =>
      Env.OnlyFails.reconcileWiring.bind fun _ => .modifyCluster _) _
  | deleting => exact Env.OnlyFails.delete _

/-- **No tick fails by itself**: one in which no call fails wants to store a row. -/
theorem exists_tickResult {c : Cluster} (hclean : ¬ρ.Fails)
    (hhop : c.phase = .upgrading → r.KnowsHop c) : ∃ c', tickResult r ρ c = some c' := by
  obtain ⟨s, -, -, ⟨hres, -⟩ | ⟨-, hfails⟩⟩ := tick_of_wp (fails_of_reconcileOne hhop)
  · exact ⟨s.c, hres⟩
  · exact absurd hfails hclean

theorem exists_tickResult_rollingRow :
    ∃ c', tickResult rollingPlatform.reconciler {} (rollingRow ("old", "old")) = some c' := by
  obtain ⟨hop, src, dst, h, -⟩ := osHop_rollingRow ("old", "old")
  refine exists_tickResult not_fails_empty fun _ hop' hnext => ⟨src, dst, h.resolvedSrc, ?_⟩
  obtain rfl := Option.some.inj (h.next.symm.trans hnext)
  exact h.resolvedDst

end Clean

/-! ### The graph of phases -/

/-- Where a tick can take a cluster. -/
def Phase.next : Phase → List Phase
  | .pending => [.provisioningInfra]
  | .provisioningInfra => [.infraReady]
  | .infraReady => [.controlPlaneReady]
  | .controlPlaneReady => [.workersReady]
  | .workersReady => [.installingAddons]
  | .ready => [.ready, .updating, .upgrading, .repairing, .renewingCerts, .snapshottingEtcd,
      .defragmentingEtcd]
  | .upgrading => [.upgrading, .ready]
  | .installingAddons | .updating | .renewingCerts | .defragmentingEtcd | .snapshottingEtcd
  | .repairing => [.ready]
  | .deleting | .deleted => [.deleted]
  | .failed => [.failed]

/-- How far its life has gone: bring-up, then work, then removal. -/
def Phase.age : Phase → ℕ
  | .pending => 0
  | .provisioningInfra => 1
  | .infraReady => 2
  | .controlPlaneReady => 3
  | .workersReady => 4
  | .installingAddons => 5
  | .deleting => 7
  | .deleted => 8
  | _ => 6

theorem Phase.age_le {p q : Phase} (h : q ∈ p.next) : p.age ≤ q.age := by
  revert q
  cases p <;> decide

/-- Bring-up leaves out no phase. -/
private theorem Phase.age_succ {p q : Phase} (h : q ∈ p.next) (hp : p.age < 6) :
    q.age = p.age + 1 := by
  revert q
  cases p <;> revert hp <;> decide

section Graph

variable {r : Reconciler} {c c' : Cluster} {evs : List Event}

private theorem phase_finishBringUp (c : Cluster) : (finishBringUp c).phase = .ready := by
  unfold finishBringUp
  split <;> rfl

private theorem phase_finishUpdate (c : Cluster) : (finishUpdate c).phase = .ready := by
  unfold finishUpdate
  split <;> rfl

private theorem phase_finishHop (c : Cluster) : (finishHop c).phase = .ready := by
  unfold finishHop
  split <;> rfl

/-- **A tick goes along the graph.** -/
theorem TickStep.phase_mem_next (h : TickStep r c (some c') evs) : c'.phase ∈ c.phase.next := by
  generalize hres : some c' = res at h
  cases h with
  | failed | provisionFailed | mountFailed | updateFailed => simp at hres
  | broughtUp h =>
    obtain rfl := Option.some.inj hres
    simp [h, Phase.next, phase_finishBringUp]
  | updated h =>
    obtain rfl := Option.some.inj hres
    simp [h, Phase.next, phase_finishUpdate]
  | hopped h =>
    obtain rfl := Option.some.inj hres
    simp [h, Phase.next, phase_finishHop]
  | rolled h _ _ _ _ _ _ hr =>
    split at hres
    · obtain rfl := Option.some.inj hres
      cases hr <;> simp [h, Phase.next]
    · simp at hres
  | advance h =>
    obtain rfl := Option.some.inj hres
    simp only [List.mem_cons, Prod.mk.injEq, List.not_mem_nil, or_false] at h
    rcases h with ⟨h, rfl⟩ | ⟨h, rfl⟩ | ⟨h, rfl⟩ | ⟨h, rfl⟩ | ⟨h, rfl⟩ <;> simp [h, Phase.next]
  | timed h hpending hobserved hp =>
    obtain rfl := Option.some.inj hres
    simp only [List.mem_cons, List.not_mem_nil, or_false] at hp
    rcases hp with rfl | rfl | rfl | rfl | rfl <;> simp [h, Phase.next]
  | maintained h =>
    obtain rfl := Option.some.inj hres
    simp only [List.mem_cons, List.not_mem_nil, or_false] at h
    rcases h with h | h | h <;> simp [h, Phase.next]
  | _ =>
    obtain rfl := Option.some.inj hres
    simp_all [Phase.next]

end Graph

/-- The entry goes along the graph; what is written keeps the phase, or marks for deletion what is
not being deleted yet. -/
def StaysOnGraph : Entry Cluster Event → Prop
  | .did .. => True
  | .stored old new => new.phase ∈ old.phase.next
  | .written old new =>
    new.phase = old.phase ∨ new.phase = .deleting ∧ old.phase ≠ .deleting ∧ old.phase ≠ .deleted

private theorem Edit.stays {a : App} {c c' : Cluster} {m : Mutation} (h : Edit a c m c') :
    c'.phase = c.phase ∨ c'.phase = .deleting ∧ c.phase ≠ .deleting ∧ c.phase ≠ .deleted := by
  cases h with
  | delete hphase => exact .inr ⟨rfl, hphase⟩
  | _ => exact .inl rfl

private theorem Phase.age_le_of_stays {p q : Phase}
    (h : q = p ∨ q = .deleting ∧ p ≠ .deleting ∧ p ≠ .deleted) : p.age ≤ q.age := by
  rcases h with rfl | ⟨rfl, -, hp⟩
  · exact le_rfl
  · cases p <;> simp_all [age]

/-- How many ticks take a cluster from this phase to rest. -/
def Phase.ticksLeft : Phase → ℕ
  | .ready | .upgrading | .deleted | .failed => 0
  | p => max 1 (6 - p.age)

/-- Where a phase leads to. -/
def Phase.rest : Phase → Phase
  | .deleting | .deleted => .deleted
  | _ => .ready

private theorem Phase.closer {p q : Phase} (h : q ∈ p.next) (hp : p.ticksLeft ≠ 0) :
    q.ticksLeft + 1 = p.ticksLeft ∧ q.rest = p.rest ∧ q ≠ .upgrading ∧ q ≠ .failed := by
  revert q
  cases p <;> revert hp <;> decide

section Rest

variable {r : Reconciler} {ρ : ℕ → Env} {c : Cluster}

private theorem rowAfter_step (hclean : ∀ k, ¬(ρ k).Fails) {k : ℕ}
    (hphase : (rowAfter r ρ c k).phase ≠ .upgrading) :
    ∃ evs, TickStep r (rowAfter r ρ c k) (some (rowAfter r ρ c (k + 1))) evs := by
  obtain ⟨s, -, -, ⟨hres, -⟩ | ⟨-, hfails⟩⟩ :=
    tick_of_wp (fails_of_reconcileOne (r := r) (ρ := ρ k) fun h => absurd h hphase)
  · rw [rowAfter_succ hres, ← hres]
    exact ⟨_, tickStep r (ρ k) _⟩
  · exact absurd hfails (hclean k)

private theorem rowAfter_closer (hclean : ∀ k, ¬(ρ k).Fails) (h : c.phase ∉ [.upgrading, .failed])
    {k : ℕ} (hk : k ≤ c.phase.ticksLeft) :
    (rowAfter r ρ c k).phase.ticksLeft + k = c.phase.ticksLeft ∧
      (rowAfter r ρ c k).phase.rest = c.phase.rest ∧
      (rowAfter r ρ c k).phase ∉ [.upgrading, .failed] := by
  -- each tick takes one off what is left, so none of them begins in a hop
  induction k with
  | zero => exact ⟨rfl, rfl, h⟩
  | succ k ih =>
    obtain ⟨hleft, hrest, hphase⟩ := ih (by omega)
    obtain ⟨evs, hstep⟩ := rowAfter_step (r := r) (c := c) hclean (k := k) (by simp_all)
    obtain ⟨hcloser, hsame, hup, hfailed⟩ := Phase.closer hstep.phase_mem_next (by omega)
    exact ⟨by omega, hsame.trans hrest, by simp [hup, hfailed]⟩

/-- **A cluster that is left alone comes to rest**: unless it is in a hop, as many ticks as its
phase is away from it make it `Ready`, or `Deleted` if it is being deleted. -/
theorem rowAfter_rests (hclean : ∀ k, ¬(ρ k).Fails) (h : c.phase ∉ [.upgrading, .failed]) :
    (rowAfter r ρ c c.phase.ticksLeft).phase = c.phase.rest := by
  obtain ⟨hleft, hrest, hphase⟩ := rowAfter_closer (r := r) hclean h le_rfl
  rw [← hrest]
  have hzero : (rowAfter r ρ c c.phase.ticksLeft).phase.ticksLeft = 0 := by omega
  revert hzero hphase
  cases (rowAfter r ρ c c.phase.ticksLeft).phase <;> decide

theorem rowAfter_rests_deleting :
    (rowAfter rollingPlatform.reconciler (fun _ => {}) { demoCluster with phase := .deleting }
      1).phase = .deleted :=
  rowAfter_rests (fun _ => not_fails_empty) (by decide)

end Rest

/-! ### Coming up, and catching up -/

/-- **Up to date**: ready for the generation asked for, with its machines and its add-ons. -/
structure UpToDate (c : Cluster) : Prop where
  phase : c.phase = .ready
  observed : c.observedGeneration = c.generation
  nodes : c.nodes.map (·.vmName) = nodeVMNames c
  addons : ∀ a ∈ c.addons, a.phase = .installed

section Work

variable {r : Reconciler} {ρ : ℕ → Env} {c c' : Cluster} {evs : List Event}

private theorem nodesConverged_of_names (h : c.nodes.map (·.vmName) = nodeVMNames c) :
    nodesConverged c = true := by
  have hnames := (map_vmName_nodeSpecs c).trans h.symm
  have hlen := congrArg List.length hnames
  simp only [List.length_map] at hlen
  simp only [nodesConverged, hlen, beq_self_eq_true, Bool.true_and, List.all_eq_true,
    List.contains_iff_mem, ← hnames]
  exact fun s hs => List.mem_map_of_mem hs

/-- Once machines were asked for, the row names them. -/
private def Raised (c : Cluster) : Prop :=
  2 ≤ c.phase.age → c.nodes.map (·.vmName) = nodeVMNames c

/-- **One tick of bring-up**; the last finds its machines as they were asked for. -/
private theorem TickStep.raised (h : TickStep r c (some c') evs) (hage : c.phase.age < 6)
    (hc : Raised c) : Raised c' ∧ (6 ≤ c'.phase.age → UpToDate c') := by
  generalize hres : some c' = res at h
  cases h with
  | failed | provisionFailed | mountFailed | updateFailed => simp at hres
  | advance h =>
    obtain rfl := Option.some.inj hres
    simp only [List.mem_cons, Prod.mk.injEq, List.not_mem_nil, or_false] at h
    rename_i p
    have hp : p.age < 6 ∧ (2 ≤ p.age → 2 ≤ c.phase.age) := by
      rcases h with ⟨h, rfl⟩ | ⟨h, rfl⟩ | ⟨h, rfl⟩ | ⟨h, rfl⟩ | ⟨h, rfl⟩ <;> simp_all [Phase.age]
    exact ⟨fun hage' => hc (hp.2 hage'), fun hold => absurd hp.1 (not_lt.mpr hold)⟩
  | provisioned h reports =>
    obtain rfl := Option.some.inj hres
    refine ⟨fun _ => ?_, fun hold => by simp [Phase.age] at hold⟩
    exact (map_vmName_toDomainNodes _ _).trans (map_vmName_nodeSpecs c)
  | mounted h =>
    obtain rfl := Option.some.inj hres
    exact ⟨fun _ => hc (by simp [h, Phase.age]), fun hold => by simp [Phase.age] at hold⟩
  | broughtUp h addons w ha =>
    obtain rfl := Option.some.inj hres
    -- the rows are those of the first call for machines: nothing was edited since
    have hnames := hc (by simp [h, Phase.age])
    have hall : nodesConverged ({ c with addons := addons }.setMarkers w) = true :=
      nodesConverged_of_names hnames
    rw [finishBringUp, if_pos hall]
    exact ⟨fun _ => hnames, fun _ => ⟨rfl, rfl, hnames, ha⟩⟩
  | maintained h =>
    simp only [List.mem_cons, List.not_mem_nil, or_false] at h
    rcases h with h | h | h <;> simp [h, Phase.age] at hage
  | rolled h => simp [h, Phase.age] at hage
  | _ => simp_all [Phase.age]

/-- **A new cluster comes up** in six ticks, if no call fails. -/
theorem rowAfter_comesUp (hclean : ∀ k, ¬(ρ k).Fails) (h : c.phase = .pending) :
    UpToDate (rowAfter r ρ c 6) := by
  have hup (k : ℕ) (hk : k ≤ 6) : (rowAfter r ρ c k).phase.age = k ∧ Raised (rowAfter r ρ c k) ∧
      (6 ≤ (rowAfter r ρ c k).phase.age → UpToDate (rowAfter r ρ c k)) := by
    induction k with
    | zero => simp [rowAfter, h, Raised, Phase.age]
    | succ k ih =>
      obtain ⟨hage, hraised, -⟩ := ih (by omega)
      have hphase : (rowAfter r ρ c k).phase ≠ .upgrading := by
        intro hup
        simp only [hup, Phase.age] at hage
        omega
      obtain ⟨evs, hstep⟩ := rowAfter_step (r := r) hclean hphase
      have hnext := Phase.age_succ hstep.phase_mem_next (by omega)
      exact ⟨by omega, hstep.raised (by omega) hraised⟩
  obtain ⟨hage, -, hup⟩ := hup 6 le_rfl
  exact hup hage.ge

theorem rowAfter_comesUp_demoCluster :
    UpToDate (rowAfter rollingPlatform.reconciler (fun _ => {}) demoCluster 6) :=
  rowAfter_comesUp (fun _ => not_fails_empty) rfl

/-- A disk with a device is attached by the mount run. -/
private theorem NodeDisk.phase_mount_observe {d : NodeDisk} (h : d.deviceID ≠ "")
    (reports : List ProvisionedNode) : (d.observe reports).mount.phase = .attached := by
  have hid : (d.observe reports).deviceID ≠ "" := by
    unfold observe
    dsimp only
    split <;> assumption
  unfold mount
  split
  · rfl
  · simp_all

private theorem TickStep.toUpdating_of_behind (hstep : TickStep r c (some c') evs)
    (h : c.phase = .ready) (hpending : c.upgradePending = false)
    (hbehind : c.observedGeneration ≠ c.generation) : c' = { c with phase := .updating } := by
  generalize hres : some c' = res at hstep
  cases hstep with
  | toUpdating => exact Option.some.inj hres
  | _ => simp_all

/-- The tick of an update, where every disk that stays has a device. -/
private theorem TickStep.upToDate_of_updating (hstep : TickStep r c (some c') evs)
    (h : c.phase = .updating)
    (hdisks : ∀ d ∈ c.nodeDisks, d.phase ≠ .removing → d.deviceID ≠ "") :
    UpToDate c' ∧ disksConverged c' = true := by
  generalize hres : some c' = res at hstep
  cases hstep with
  | updated _ wired reports addons ha w =>
    obtain rfl := Option.some.inj hres
    have hdone : disksConverged ({ ((c.released wired).provisioned (nodeSpecs (c.released wired))
        reports).mounted with addons := addons }.setMarkers w) = true := by
      refine disksConverged_iff.mpr fun d hd => ?_
      obtain ⟨d₁, hd₁, rfl⟩ := List.mem_map.mp hd
      obtain ⟨d₂, hd₂, rfl⟩ := List.mem_map.mp hd₁
      obtain ⟨hmem, hstays⟩ := List.mem_filter.mp hd₂
      exact d₂.phase_mount_observe (hdisks d₂ hmem (bne_iff_ne.mp hstays)) reports
    rw [finishUpdate, if_pos hdone]
    refine ⟨⟨rfl, rfl, ?_, ha⟩, hdone⟩
    exact (map_vmName_toDomainNodes _ _).trans (map_vmName_nodeSpecs (c.released wired))
  | _ => simp_all

/-- **A cluster catches up** with what was asked of it in two ticks, if no call fails and the
provider has given every disk that stays a device. -/
theorem rowAfter_catchesUp (hclean : ∀ k, ¬(ρ k).Fails) (h : c.phase = .ready)
    (hpending : c.upgradePending = false) (hbehind : c.observedGeneration ≠ c.generation)
    (hdisks : ∀ d ∈ c.nodeDisks, d.phase ≠ .removing → d.deviceID ≠ "") :
    UpToDate (rowAfter r ρ c 2) ∧ disksConverged (rowAfter r ρ c 2) = true := by
  obtain ⟨evs, hfirst⟩ := rowAfter_step (r := r) (c := c) hclean (k := 0) (by simp [rowAfter, h])
  have hrow : rowAfter r ρ c 1 = { c with phase := .updating } :=
    hfirst.toUpdating_of_behind h hpending hbehind
  obtain ⟨evs', hsecond⟩ := rowAfter_step (r := r) (c := c) hclean (k := 1) (by simp [hrow])
  exact hsecond.upToDate_of_updating (by rw [hrow]) (by rw [hrow]; exact hdisks)

theorem rowAfter_catchesUp_demoCluster :
    UpToDate (rowAfter rollingPlatform.reconciler (fun _ => {})
      { demoCluster with phase := .ready } 2) :=
  (rowAfter_catchesUp (fun _ => not_fails_empty) rfl rfl (by decide) (by decide)).1

end Work

/-! ### Going away -/

/-- What deleting the cluster asks of the platform services, and last of the infrastructure. -/
def releaseCalls (r : Reconciler) (c : Cluster) : List Call :=
  (if !r.dns || c.appsDomain == "" then [] else [.dnsReleaseCluster]) ++
    (if !r.vault then [] else [.vaultReleaseCluster]) ++
    (if !r.registry then [] else [.registryReleaseCluster]) ++ [.destroyCluster]

section Deletion

variable {r : Reconciler} {ρ : Env} {c c' : Cluster}

/-- The trace after these calls, if all succeed. -/
private def Made (ks : List Call) (s s' : TickState) : Prop :=
  s'.trace = s.trace ++ ks.map (⟨·, true⟩)

private theorem made_release {p : Prop} [Decidable p] {k : Call} {f : Cluster → Cluster}
    (s : TickState) :
    wp (if p then pure () else do perform ρ k; modifyCluster f)
      (fun _ => Made (if p then [] else [k]) s) (fun _ _ => True) s := by
  split
  · simp [Made]
  · simp only [wp_bind, wp_modifyCluster]
    exact wp_perform (fun _ => rfl) fun _ => trivial

/-- **Deleted means released**: a cluster is recorded as deleted by a tick that made exactly the
calls that release what it holds, and all of them succeeded. -/
theorem tickTrace_of_deleted (h : tickResult r ρ c = some c') (hgone : c'.phase = .deleted)
    (hnot : c.phase ≠ .deleted) : tickTrace r ρ c = (releaseCalls r c).map (⟨·, true⟩) := by
  have hphase : c.phase = .deleting := by
    have hnext := TickStep.phase_mem_next (h ▸ tickStep r ρ c)
    rw [hgone] at hnext
    revert hnext hnot
    cases c.phase <;> decide
  have hrun : wp (reconcileOne r ρ)
      (fun _ s => s.trace = (releaseCalls r c).map (⟨·, true⟩)) (fun _ _ => True) { c := c } := by
    simp only [reconcileOne, wp_bind, wp_getCluster, hphase, delete, releaseDNS, releaseVault,
      releaseRegistry]
    refine wp_mono (made_release _) (fun _ s₁ h₁ => ?_) fun _ _ => id
    refine wp_mono (made_release _) (fun _ s₂ h₂ => ?_) fun _ _ => id
    refine wp_mono (made_release _) (fun _ s₃ h₃ => ?_) fun _ _ => id
    refine wp_perform (fun _ => ?_) fun _ => trivial
    simp only [Made] at h₁ h₂ h₃
    simp [releaseCalls, h₁, h₂, h₃]
  obtain ⟨s, htrace, -, ⟨-, hs⟩ | ⟨hnone, -⟩⟩ := tick_of_wp hrun
  · rw [htrace, hs]
  · simp [h] at hnone

theorem tickTrace_of_deleted_demoCluster :
    tickTrace { rollingPlatform.reconciler with dns := true, registry := true } {}
        { demoCluster with phase := .deleting, appsDomain := "demo.apps" } =
      [⟨.dnsReleaseCluster, true⟩, ⟨.registryReleaseCluster, true⟩, ⟨.destroyCluster, true⟩] :=
  tickTrace_of_deleted rfl rfl (by decide)

end Deletion

end KaaS
