import KaaS.Reconcile.Loop

/-!
# What a tick can do

`TickStep r c result evs` lists, phase by phase, what a tick that read the row `c` can end
in: the copy it wants to store (`none` after an error) and the calls concerning machines,
drains and mounts it made on the way. `tickStep` is the inversion lemma of `reconcileOne`:
every invariant of the system is proved by cases on `TickStep`, never by unfolding the loop.
-/

namespace KaaS

open Effect

/-! ### The shapes of a step -/

/-- The drain of an update, once it succeeded. -/
def updateDrain (c : Cluster) : List Event :=
  if (removedWorkers c.nodes (nodeSpecs c)).isEmpty then []
  else [⟨.removeWorkers (removedWorkers c.nodes (nodeSpecs c)), true⟩]

/-- The row once the disks being removed are released. -/
def Cluster.released (c : Cluster) (wired : String) : Cluster :=
  { c with
    nodeDisks := c.nodeDisks.filter (·.phase != DiskPhase.removing)
    storageWired := wired }

/-- The row once `specs` were asked for and `reports` came back. -/
def Cluster.provisioned (c : Cluster) (specs : List NodeSpec) (reports : List ProvisionedNode) :
    Cluster :=
  { c with
    nodes := toDomainNodes specs reports
    nodeDisks := observeDisks c.nodeDisks reports }

def Cluster.mounted (c : Cluster) : Cluster :=
  { c with nodeDisks := c.nodeDisks.map (·.mount) }

def Call.ensure (c : Cluster) (specs : List NodeSpec) : Call := .ensureNodes (netSpec c) specs

def Call.mount (c : Cluster) : Call := .ensureNodeDisks (mountableDisks c)

/-- The calls an update that failed may have made, up to its mount run. -/
inductive UpdateFailed (c : Cluster) : List Event → Prop
  | drainFailed : UpdateFailed c [⟨.removeWorkers (removedWorkers c.nodes (nodeSpecs c)), false⟩]
  | drained : UpdateFailed c (updateDrain c)
  | ensureFailed (wired : String) :
      UpdateFailed c (updateDrain c ++
        [⟨.ensure (c.released wired) (nodeSpecs (c.released wired)), false⟩])
  | ensured (wired : String) :
      UpdateFailed c (updateDrain c ++
        [⟨.ensure (c.released wired) (nodeSpecs (c.released wired)), true⟩])
  | mountRun (wired : String) (reports : List ProvisionedNode) (ok : Bool) :
      UpdateFailed c (updateDrain c ++
        [⟨.ensure (c.released wired) (nodeSpecs (c.released wired)), true⟩] ++
        [⟨.mount ((c.released wired).provisioned (nodeSpecs (c.released wired)) reports), ok⟩])

/-- How carrying out a repair can leave the row, before the attempt is closed. -/
inductive Repaired (c : Cluster) : Cluster → List Event → Prop
  /-- Nothing was rebuilt. -/
  | untouched : Repaired c c []
  | replaced {node : Node} {ok : Bool} {c' : Cluster} {evs : List Event}
      (hnode : nodeByNameOK c.nodes c.repairState.target = some node)
      (hact : c.repairState.action = some .replace)
      (h : Replaced c node (repairImage c node) ok c' evs) : Repaired c c' evs
  | restoreFailed {node : Node} (hnode : nodeByNameOK c.nodes c.repairState.target = some node)
      (hact : c.repairState.action = some .restore) :
      Repaired c c [⟨.ensure c (rebuildSpecs c node (repairImage c node)), false⟩]
  | restored {node : Node} (reports : List ProvisionedNode) (cert : Option Time)
      (etcd : Option EtcdStatus) (hnode : nodeByNameOK c.nodes c.repairState.target = some node)
      (hact : c.repairState.action = some .restore) :
      Repaired c
        { c with
          nodes := toDomainNodes (rebuildSpecs c node (repairImage c node)) reports
          certNotAfter := cert
          etcd := etcd }
        [⟨.ensure c (rebuildSpecs c node (repairImage c node)), true⟩]

/-- **One tick** on the row `c`. -/
inductive TickStep (r : Reconciler) (c : Cluster) : Option Cluster → List Event → Prop
  /-- It failed without having touched machines, drains or mounts. -/
  | failed : TickStep r c none []
  | advance {p : Phase} (h : (c.phase, p) ∈ [(.pending, .provisioningInfra),
        (.infraReady, .controlPlaneReady), (.controlPlaneReady, .workersReady),
        (.deleted, .deleted), (.failed, .failed)]) :
      TickStep r c (some { c with phase := p }) []
  | provisionFailed (h : c.phase = .provisioningInfra) :
      TickStep r c none [⟨.ensure c (nodeSpecs c), false⟩]
  | provisioned (h : c.phase = .provisioningInfra) (reports : List ProvisionedNode) :
      TickStep r c (some { c.provisioned (nodeSpecs c) reports with phase := .infraReady })
        [⟨.ensure c (nodeSpecs c), true⟩]
  | mountFailed (h : c.phase = .workersReady) : TickStep r c none [⟨.mount c, false⟩]
  | mounted (h : c.phase = .workersReady) :
      TickStep r c (some { c.mounted with phase := .installingAddons }) [⟨.mount c, true⟩]
  | broughtUp (h : c.phase = .installingAddons) (addons : List Addon) (w : Markers)
      (ha : ∀ a ∈ addons, a.phase = .installed) :
      TickStep r c (some (finishBringUp ({ c with addons := addons }.setMarkers w))) []
  | toUpgrading (h : c.phase = .ready) (hpending : c.upgradePending = true) :
      TickStep r c (some { c with phase := .upgrading }) []
  | toUpdating (h : c.phase = .ready) (hpending : c.upgradePending = false)
      (hbehind : c.observedGeneration ≠ c.generation) :
      TickStep r c (some { c with phase := .updating }) []
  | timed (h : c.phase = .ready) (hpending : c.upgradePending = false)
      (hobserved : c.observedGeneration = c.generation) {p : Phase}
      (hp : p ∈ [.ready, .repairing, .renewingCerts, .snapshottingEtcd, .defragmentingEtcd])
      (cert : Option Time) (etcd : Option EtcdStatus) (repair : Option ClusterRepair) :
      TickStep r c (some { c with
        phase := p
        certNotAfter := cert
        etcd := etcd
        repair := repair }) []
  | maintained (h : c.phase ∈ [.renewingCerts, .defragmentingEtcd, .snapshottingEtcd])
      (cert : Option Time) (etcd : Option EtcdStatus) (snapshot : Option Time) :
      TickStep r c (some { c with
        phase := .ready
        certNotAfter := cert
        etcd := etcd
        etcdSnapshotAt := snapshot }) []
  | repaired (h : c.phase = .repairing) {c' : Cluster} {evs : List Event} (hr : Repaired c c' evs)
      (repair : Option ClusterRepair) :
      TickStep r c (some { c' with phase := .ready, repair := repair }) evs
  | noHop (h : c.phase = .upgrading) (hhop : r.catalog.nextUpgrade c.bundle = none) :
      TickStep r c (some { c with
        phase := .ready
        targetBundle := ""
        observedGeneration := c.generation }) []
  | rolled (h : c.phase = .upgrading) {hop : Bundle} {src dst : ResolvedBundle}
      (hhop : r.catalog.nextUpgrade c.bundle = some hop)
      (hsrc : r.catalog.resolve c.bundle = .ok src) (hdst : r.catalog.resolve hop.name = .ok dst)
      (hos : src.os.name ≠ dst.os.name)
      (hleft : allNodesOnImage c.nodes
        (goldenImageNameFor c.infraProvider dst.os.name dst.kubernetes) = false)
      {node : Node}
      (hnode : nextNodeToRoll c.nodes
        (goldenImageNameFor c.infraProvider dst.os.name dst.kubernetes) = some node)
      {ok : Bool} {c' : Cluster} {evs : List Event}
      (hr : Replaced c node (goldenImageNameFor c.infraProvider dst.os.name dst.kubernetes)
        ok c' evs) :
      TickStep r c (if ok then some c' else none) evs
  | nothingToRoll (h : c.phase = .upgrading) (hnodes : c.nodes = []) : TickStep r c (some c) []
  | hopped (h : c.phase = .upgrading) {hop : Bundle} {src dst : ResolvedBundle}
      (hhop : r.catalog.nextUpgrade c.bundle = some hop)
      (hsrc : r.catalog.resolve c.bundle = .ok src) (hdst : r.catalog.resolve hop.name = .ok dst)
      (himage : src.os.name = dst.os.name ∨ allNodesOnImage c.nodes
        (goldenImageNameFor c.infraProvider dst.os.name dst.kubernetes) = true)
      (addons : List Addon) (ha : ∀ a ∈ addons, a.phase = .installed) (w : Markers)
      (cert : Option Time) :
      TickStep r c (some (finishHop ({ c.setBundle hop.name dst with
        addons := addons
        certNotAfter := cert }.setMarkers w))) []
  | updateFailed (h : c.phase = .updating) {evs : List Event} (hevs : UpdateFailed c evs) :
      TickStep r c none evs
  | updated (h : c.phase = .updating) (wired : String) (reports : List ProvisionedNode)
      (addons : List Addon) (ha : ∀ a ∈ addons, a.phase = .installed) (w : Markers) :
      TickStep r c
        (some (finishUpdate ({ ((c.released wired).provisioned (nodeSpecs (c.released wired))
          reports).mounted with addons := addons }.setMarkers w)))
        (updateDrain c ++
          [⟨.ensure (c.released wired) (nodeSpecs (c.released wired)), true⟩] ++
          [⟨.mount ((c.released wired).provisioned (nodeSpecs (c.released wired)) reports), true⟩])
  | deleted (h : c.phase = .deleting) (w : Markers) (now : Time) :
      TickStep r c (some { c.setMarkers w with deletedAt := some now, phase := .deleted }) []

/-! ### Bring-up -/

section Inversion

variable {r : Reconciler} {ρ : Env}

/-- A tick that returned from `s` in `s'` has made one of the steps. -/
def Advanced (r : Reconciler) (s s' : TickState) : Prop :=
  ∃ c' evs, TickStep r s.c (some c') evs ∧ Leads s c' evs s'

/-- A tick that failed from `s` in `s'` has made one of the steps. -/
def Failed (r : Reconciler) (s s' : TickState) : Prop :=
  ∃ c' evs, TickStep r s.c none evs ∧ Leads s c' evs s'

theorem Failed.of_leads {s s' : TickState} {c' : Cluster} (h : Leads s c' [] s') :
    Failed r s s' :=
  ⟨c', [], .failed, h⟩

variable {α : Type} {s₀ s : TickState}

/-- A quiet part of a tick can only fail; what follows still sees the row that was read. -/
private theorem wp_quiet_bind {m : Tick α} {f : α → Tick Unit} (hs : Quiet s₀ s)
    (hm : Within Quiet m)
    (hf : ∀ a t, Quiet s₀ t → wp (f a) (fun _ => Advanced r s₀) (fun _ => Failed r s₀) t) :
    wp (m >>= f) (fun _ => Advanced r s₀) (fun _ => Failed r s₀) s := by
  rw [wp_bind]
  exact wp_mono (hm s) (fun a t h => hf a t (trans_of Quiet hs h))
    (fun _ _ h => .of_leads (trans_of Quiet hs h).leads)

private theorem wp_quiet_modify {f : Cluster → Cluster} (hs : Quiet s₀ s)
    (h : TickStep r s₀.c (some (f s₀.c)) []) :
    wp (modifyCluster f) (fun _ => Advanced r s₀) (fun _ => Failed r s₀) s := by
  refine ⟨_, [], h, ?_, ?_⟩
  · exact congrArg f hs.1
  · simpa using hs.2

theorem quiet_saveSecret (kind : SecretKind) : Within Quiet (saveSecret ρ kind) :=
  (quiet_perform rfl).bind fun _ => quiet_perform rfl

theorem quiet_ensureViewerKubeconfig : Within Quiet (ensureViewerKubeconfig ρ) :=
  (quiet_perform rfl).bind fun _ => quiet_saveSecret _

theorem ensureNodes_leads {specs : List NodeSpec} (s : TickState) :
    wp (ensureNodes ρ specs)
      (fun _ => Leads s (s.c.provisioned specs (ρ.provisioned specs)) [⟨.ensure s.c specs, true⟩])
      (fun _ => Leads s s.c [⟨.ensure s.c specs, false⟩]) s := by
  simp only [ensureNodes, wp_bind, wp_getCluster, wp_modifyCluster]
  refine wp_mono (leads_perform rfl s) (fun _ t h => ?_) (fun _ _ h => h)
  exact ⟨by rw [h.1]; rfl, h.2⟩

private theorem step_provisionInfra (s : TickState) (h : s.c.phase = .provisioningInfra) :
    wp (provisionInfra ρ) (fun _ => Advanced r s) (fun _ => Failed r s) s := by
  simp only [provisionInfra, setPhase, wp_bind, wp_getCluster, wp_modifyCluster]
  refine wp_mono (ensureNodes_leads s) (fun _ t ht => ?_)
    (fun _ t ht => ⟨_, _, .provisionFailed h, ht⟩)
  exact ⟨_, _, .provisioned h (ρ.provisioned (nodeSpecs s.c)), by rw [ht.1], ht.2⟩

private theorem step_initControlPlane (s : TickState) (h : s.c.phase = .infraReady) :
    wp (initControlPlane ρ) (fun _ => Advanced r s) (fun _ => Failed r s) s :=
  wp_quiet_bind (refl_of Quiet s) (quiet_perform rfl) fun _ _ h₁ =>
    wp_quiet_bind h₁ (quiet_saveSecret _) fun _ _ h₂ =>
      wp_quiet_bind h₂ (quiet_saveSecret _) fun _ _ h₃ =>
        wp_quiet_modify h₃ (.advance (by simp [h]))

private theorem step_joinWorkers (s : TickState) (h : s.c.phase = .controlPlaneReady) :
    wp (joinWorkers ρ) (fun _ => Advanced r s) (fun _ => Failed r s) s :=
  wp_quiet_bind (refl_of Quiet s) (quiet_perform rfl) fun _ _ h₁ =>
    wp_quiet_modify h₁ (.advance (by simp [h]))

private theorem step_installCNI (s : TickState) (h : s.c.phase = .workersReady) :
    wp (installCNI ρ) (fun _ => Advanced r s) (fun _ => Failed r s) s := by
  refine wp_quiet_bind (refl_of Quiet s) (quiet_perform rfl) fun _ _ h₁ =>
    wp_quiet_bind h₁ quiet_ensureViewerKubeconfig fun _ t ht => ?_
  simp only [setPhase, wp_bind, wp_modifyCluster]
  have hc : t.c = s.c := ht.1
  refine wp_mono (mountNodeDisks_leads t) (fun _ u hu => ?_) (fun _ u hu => ?_)
  · rw [hc] at hu
    have hsu := ht.leads.quiet_trans hu
    exact ⟨_, _, .mounted h, by rw [hsu.1]; rfl, hsu.2⟩
  · rw [hc] at hu
    exact ⟨_, _, .mountFailed h, ht.leads.quiet_trans hu⟩

theorem Installs.leads {s s' : TickState} (h : Installs s s') :
    Leads s { s.c with addons := s'.c.addons } [] s' := by
  obtain ⟨⟨as, hc⟩, ht⟩ := h
  exact ⟨by rw [hc], by simpa using ht⟩

theorem Wires.leads {s s' : TickState} (h : Wires s s') :
    Leads s (s.c.setMarkers s'.c.markers) [] s' := by
  obtain ⟨⟨w, hc⟩, ht⟩ := h
  exact ⟨by rw [hc]; rfl, by simpa using ht⟩

private theorem step_installAddons (s : TickState) (h : s.c.phase = .installingAddons) :
    wp (installAddons r ρ) (fun _ => Advanced r s) (fun _ => Failed r s) s := by
  simp only [installAddons, wp_bind, wp_modifyCluster]
  refine wp_mono (reconcileAddons_installed s) (fun _ t ht => ?_) (fun _ _ h' => .of_leads h'.leads)
  have hst := ht.1.leads
  refine wp_mono (wires_reconcileWiring t) (fun _ u hu => ?_)
    (fun _ _ h' => .of_leads (hst.quiet_trans h'.leads))
  have hsu := hst.quiet_trans hu.leads
  refine ⟨_, [], .broughtUp h t.c.addons u.c.markers ht.2, ?_, hsu.2⟩
  exact congrArg finishBringUp (hsu.1.trans (congrArg (·.setMarkers u.c.markers) hst.1))

/-! ### A ready cluster -/

theorem quiet_pollPower {c : Cluster} : Within Quiet (pollPower r ρ c) :=
  .ite (.pure _) (.tryCatch ((quiet_perform rfl).bind fun _ => .pure _) fun _ => .pure _)

theorem decideRepair_eq (r : Reconciler) (ρ : Env) (obs : RepairObservation)
    (c : Cluster) :
    ∃ p ∈ [c.phase, .repairing], ∃ rp, decideRepair r ρ obs c =
      { c with phase := p, repair := rp } := by
  unfold decideRepair
  dsimp only
  split
  · split
    · exact ⟨.repairing, by simp, _, rfl⟩
    · exact ⟨c.phase, by simp, _, rfl⟩
  · exact ⟨c.phase, by simp, _, rfl⟩

private theorem step_reconcileRepair (hs : Quiet s₀ s) (h : s₀.c.phase = .ready)
    (hpending : s₀.c.upgradePending = false)
    (hobserved : s₀.c.observedGeneration = s₀.c.generation) :
    wp (reconcileRepair r ρ) (fun _ => Advanced r s₀) (fun _ => Failed r s₀) s := by
  refine wp_quiet_bind hs (quiet_perform rfl) fun _ t ht => ?_
  rw [wp_bind, wp_getCluster]
  refine wp_quiet_bind ht quiet_pollPower fun powered _ h₁ =>
    wp_quiet_bind h₁ (quiet_perform rfl) fun _ _ h₂ => wp_quiet_modify h₂ ?_
  obtain ⟨p, hp, rp, heq⟩ := decideRepair_eq r ρ
    { health := ρ.health, powered := powered, fleetUnhealthy := (fleetUnhealthy ρ).1,
      fleetUnhealthyN := (fleetUnhealthy ρ).2, now := ρ.now } s₀.c
  rw [heq]
  refine .timed h hpending hobserved ?_ s₀.c.certNotAfter s₀.c.etcd rp
  rw [h] at hp
  simp only [List.mem_cons, List.not_mem_nil, or_false] at hp ⊢
  tauto

private theorem step_reconcileCerts (hs : Quiet s₀ s) (h : s₀.c.phase = .ready)
    (hpending : s₀.c.upgradePending = false)
    (hobserved : s₀.c.observedGeneration = s₀.c.generation) :
    wp (reconcileCerts r ρ) (fun _ => Advanced r s₀) (fun _ => Failed r s₀) s := by
  -- whether or not the expiry had to be looked up, only it can have changed
  have hobs : wp (observeCerts ρ)
      (fun _ t => ∃ cert, Leads s₀ { s₀.c with certNotAfter := cert } [] t)
      (fun _ t => Quiet s₀ t) s := by
    simp only [observeCerts, wp_bind, wp_getCluster]
    split
    · exact ⟨s₀.c.certNotAfter, hs.leads⟩
    · simp only [wp_bind, wp_modifyCluster]
      refine wp_mono (quiet_perform rfl s) (fun _ t ht => ?_) (fun _ _ ht => trans_of Quiet hs ht)
      have hst := (trans_of Quiet hs ht).leads
      exact ⟨some ρ.certExpiry, by rw [hst.1], hst.2⟩
  simp only [reconcileCerts, wp_bind, wp_modifyCluster]
  refine wp_mono hobs (fun _ t ht => ?_) (fun _ _ ht => .of_leads ht.leads)
  obtain ⟨cert, hc, hevs⟩ := ht
  split
  · exact ⟨_, [], .timed h hpending hobserved (p := .renewingCerts) (by simp) cert s₀.c.etcd
      s₀.c.repair, by rw [hc], hevs⟩
  · refine ⟨_, [], .timed h hpending hobserved (p := .ready) (by simp) cert s₀.c.etcd
      s₀.c.repair, ?_, hevs⟩
    rw [hc, ← h]

private theorem step_reconcileEtcd (hs : Quiet s₀ s) (h : s₀.c.phase = .ready)
    (hpending : s₀.c.upgradePending = false)
    (hobserved : s₀.c.observedGeneration = s₀.c.generation) :
    wp (reconcileEtcd r ρ) (fun _ => Advanced r s₀) (fun _ => Failed r s₀) s := by
  refine wp_quiet_bind hs (quiet_perform rfl) fun _ _ h₁ => wp_quiet_modify h₁ ?_
  refine .timed h hpending hobserved ?_ s₀.c.certNotAfter (some (observeEtcd ρ s₀.c)) s₀.c.repair
  split <;> simp [h]

private theorem step_reconcileReady (s : TickState) (h : s.c.phase = .ready) :
    wp (reconcileReady r ρ) (fun _ => Advanced r s) (fun _ => Failed r s) s := by
  have hviewer : Within Quiet (ensureViewer ρ) := .ite quiet_ensureViewerKubeconfig (.pure ())
  refine wp_quiet_bind (refl_of Quiet s) hviewer fun _ t ht => ?_
  rw [wp_bind, wp_getCluster, ht.1]
  split
  · rename_i hpending
    exact wp_quiet_modify ht (.toUpgrading h hpending)
  rename_i hpending
  rw [Bool.not_eq_true] at hpending
  split
  · rename_i hbehind
    exact wp_quiet_modify ht (.toUpdating h hpending hbehind)
  rename_i hobserved
  rw [not_not] at hobserved
  split
  · exact step_reconcileRepair ht h hpending hobserved
  split
  · exact step_reconcileCerts ht h hpending hobserved
  split
  · exact wp_quiet_modify ht (.timed h hpending hobserved (p := .snapshottingEtcd) (by simp)
      s.c.certNotAfter s.c.etcd s.c.repair)
  split
  · exact step_reconcileEtcd ht h hpending hobserved
  · refine ⟨_, [], .timed h hpending hobserved (p := .ready) (by simp) s.c.certNotAfter s.c.etcd
      s.c.repair, ?_, ht.leads.2⟩
    rw [ht.1, ← h]

/-! ### Maintenance and repair -/

private theorem step_reconcileCertRenewal (s : TickState) (h : s.c.phase = .renewingCerts) :
    wp (reconcileCertRenewal ρ) (fun _ => Advanced r s) (fun _ => Failed r s) s :=
  wp_quiet_bind (refl_of Quiet s) (quiet_perform rfl) fun _ _ h₁ =>
    wp_quiet_bind h₁ (quiet_saveSecret _) fun _ _ h₂ =>
      wp_quiet_modify h₂ (.maintained (by simp [h]) (some ρ.renewedUntil) s.c.etcd
        s.c.etcdSnapshotAt)

private theorem step_reconcileDefrag (s : TickState) (h : s.c.phase = .defragmentingEtcd) :
    wp (reconcileDefrag ρ) (fun _ => Advanced r s) (fun _ => Failed r s) s :=
  wp_quiet_bind (refl_of Quiet s) (quiet_perform rfl) fun _ _ h₁ =>
    wp_quiet_modify h₁ (.maintained (by simp [h]) s.c.certNotAfter (some ρ.defragged)
      s.c.etcdSnapshotAt)

private theorem quiet_deleteSnapshots (l : List EtcdSnapshot) :
    Within Quiet (deleteSnapshots ρ l) := by
  induction l with
  | nil => exact .pure ()
  | cons old rest ih => exact (quiet_perform rfl).bind fun _ => ih

theorem quiet_pruneSnapshots : Within Quiet (pruneSnapshots r ρ) :=
  .tryCatch ((quiet_perform rfl).bind fun _ => quiet_deleteSnapshots _) fun _ => .pure ()

private theorem step_reconcileSnapshot (s : TickState) (h : s.c.phase = .snapshottingEtcd) :
    wp (reconcileSnapshot r ρ) (fun _ => Advanced r s) (fun _ => Failed r s) s := by
  refine wp_quiet_bind (refl_of Quiet s) (quiet_perform rfl) fun _ _ h₁ =>
    wp_quiet_bind h₁ (quiet_perform rfl) fun _ _ h₂ =>
      wp_quiet_bind h₂ (quiet_perform rfl) fun _ t ht => ?_
  simp only [setPhase, wp_bind, wp_modifyCluster]
  obtain ⟨hc, hevs⟩ := ht.leads
  refine wp_mono (quiet_pruneSnapshots _) (fun _ u hu => ?_)
    (fun _ u hu => .of_leads ⟨hu.1, hu.2.trans hevs⟩)
  refine ⟨_, [], .maintained (by simp [h]) s.c.certNotAfter s.c.etcd (some ρ.snapshotTakenAt), ?_,
    hu.2.trans hevs⟩
  rw [hu.1, hc]

theorem quiet_restoreSnapshot_calls (node : Node) (s : TickState) :
    wp (restoreSnapshot r ρ node)
      (fun _ => Leads s { s.c with certNotAfter := none, etcd := none } [])
      (fun _ => Leads s s.c []) s := by
  simp only [restoreSnapshot, wp_bind, wp_getCluster]
  refine wp_mono (quiet_perform rfl s) (fun _ t ht => ?_) (fun _ _ h => h.leads)
  split
  · exact ht.leads
  · simp only [wp_bind, wp_modifyCluster]
    refine wp_mono (quiet_perform rfl t) (fun _ u hu => ?_)
      (fun _ _ h => (trans_of Quiet ht h).leads)
    have hsu := trans_of Quiet ht hu
    refine wp_mono (quiet_perform rfl u) (fun _ v hv => ?_)
      (fun _ _ h => (trans_of Quiet hsu h).leads)
    have hsv := trans_of Quiet hsu hv
    refine wp_mono (quiet_perform rfl v) (fun _ w hw => ?_)
      (fun _ _ h => (trans_of Quiet hsv h).leads)
    have hsw := (trans_of Quiet hsv hw).leads
    exact ⟨by rw [hsw.1], hsw.2⟩

/-- What a repair leaves behind, whether it succeeds or not. -/
private def LeavesRepaired (s s' : TickState) : Prop :=
  ∃ c' evs, Repaired s.c c' evs ∧ Leads s c' evs s'

private theorem Quiet.leavesRepaired {s s' : TickState} (h : Quiet s s') : LeavesRepaired s s' :=
  ⟨_, _, .untouched, h.leads⟩

private theorem leaves_repairByRestore {node : Node} (s : TickState)
    (hnode : nodeByNameOK s.c.nodes s.c.repairState.target = some node)
    (hact : s.c.repairState.action = some .restore) :
    wp (repairByRestore r ρ node) (fun _ => LeavesRepaired s) (fun _ => LeavesRepaired s) s := by
  simp only [repairByRestore, wp_bind, wp_getCluster]
  split
  · exact (refl_of Quiet s).leavesRepaired
  · simp only [wp_bind, wp_getCluster]
    refine wp_mono (recreateNodeVM_leads s) (fun reports t ht => ?_) (fun _ t ht => ?_)
    · refine wp_mono (quiet_restoreSnapshot_calls _ t) (fun _ u hu => ?_) (fun _ u hu => ?_)
      · rw [ht.1] at hu
        exact ⟨_, _, .restored reports none none hnode hact, ht.trans_quiet hu⟩
      · rw [ht.1] at hu
        exact ⟨_, _, .restored reports s.c.certNotAfter s.c.etcd hnode hact, ht.trans_quiet hu⟩
    · rcases ht with ht | ht
      · exact ⟨_, _, .untouched, ht⟩
      · exact ⟨_, _, .restoreFailed hnode hact, ht⟩

private theorem leaves_runRepairAction {node : Node} {action : RepairAction} (s : TickState)
    (hnode : nodeByNameOK s.c.nodes s.c.repairState.target = some node)
    (hact : s.c.repairState.action = some action) :
    wp (runRepairAction r ρ s.c node action) (fun _ => LeavesRepaired s)
      (fun _ => LeavesRepaired s) s := by
  have hquiet {m : Tick Unit} (hm : Within Quiet m) :
      wp m (fun _ => LeavesRepaired s) (fun _ => LeavesRepaired s) s :=
    wp_mono (hm s) (fun _ _ h => h.leavesRepaired) (fun _ _ h => h.leavesRepaired)
  cases action with
  | powerOn => exact hquiet (.ite (.throw _) (quiet_perform rfl))
  | restartKubelet => exact hquiet (quiet_perform rfl)
  | rejoin => exact hquiet (.ite (quiet_perform rfl) (quiet_perform rfl))
  | replace =>
    refine wp_mono (replaceNode_leads s) (fun _ t ht => ?_) (fun _ t ht => ?_) <;>
      obtain ⟨c', evs, hr, hl⟩ := ht <;> exact ⟨c', evs, .replaced hnode hact hr, hl⟩
  | restore => exact leaves_repairByRestore s hnode hact

private theorem leaves_executeRepair (s : TickState) :
    wp (executeRepair r ρ) (fun _ => LeavesRepaired s) (fun _ => LeavesRepaired s) s := by
  simp only [executeRepair, wp_bind, wp_getCluster]
  split
  · rename_i action node haction hfound
    split
    · exact leaves_runRepairAction s hfound haction
    · exact (refl_of Quiet s).leavesRepaired
  · exact (refl_of Quiet s).leavesRepaired

private theorem step_repair (s : TickState) (h : s.c.phase = .repairing) :
    wp (repair r ρ) (fun _ => Advanced r s) (fun _ => Failed r s) s := by
  have hclose (t : TickState) (ht : LeavesRepaired s t) : Advanced r s { t with
      c := { t.c with repair := some t.c.repairState.completeAttempt, phase := .ready } } := by
    obtain ⟨c', evs, hr, hl⟩ := ht
    exact ⟨_, evs, .repaired h hr (some t.c.repairState.completeAttempt), by rw [hl.1], hl.2⟩
  simp only [repair, wp_bind, wp_tryCatch, wp_pure, wp_modifyCluster]
  exact wp_mono (leaves_executeRepair s) (fun _ t ht => hclose t ht) (fun _ t ht => hclose t ht)

/-! ### Upgrades -/

theorem mem_of_nextNodeToRoll {nodes : List Node} {image : String} {node : Node}
    (h : nextNodeToRoll nodes image = some node) : node ∈ nodes ∧ node.image ≠ image := by
  unfold nextNodeToRoll at h
  rcases Option.or_eq_some_iff.mp h with h | ⟨-, h⟩ <;>
  · have himage := List.find?_some h
    simp only [Bool.and_eq_true, bne_iff_ne] at himage
    exact ⟨List.mem_of_find?_eq_some h, himage.2⟩

private theorem nodes_eq_nil_of_nextNodeToRoll {nodes : List Node} {image : String}
    (hnone : nextNodeToRoll nodes image = none) (hleft : allNodesOnImage nodes image = false) :
    nodes = [] := by
  unfold nextNodeToRoll at hnone
  obtain ⟨hw, hcp⟩ := Option.or_eq_none_iff.mp hnone
  have hall : nodes.all (·.image == image) = true := by
    rw [List.all_eq_true]
    intro n hn
    have h₁ := List.find?_eq_none.mp hw n hn
    have h₂ := List.find?_eq_none.mp hcp n hn
    cases hrole : n.role <;> simp_all
  simpa [allNodesOnImage, hall] using hleft

private theorem quiet_upgradeInPlace {diff : BundleDiff} {dst : ResolvedBundle} :
    Within Quiet (upgradeInPlace ρ diff dst) :=
  .ite (quiet_perform rfl) (.pure ())

private theorem upgradeCNI_leads {diff : BundleDiff} (s : TickState) :
    wp (upgradeCNI ρ diff)
      (fun _ t => ∃ wired, Leads s { s.c with monitoringWired := wired } [] t)
      (fun _ => Leads s s.c []) s := by
  unfold upgradeCNI
  split
  · exact ⟨s.c.monitoringWired, (refl_of Quiet s).leads⟩
  · simp only [wp_bind, wp_modifyCluster]
    refine wp_mono (quiet_perform rfl s) (fun _ t ht => ⟨false, ?_⟩) (fun _ _ h => h.leads)
    exact ⟨by rw [ht.1], by simpa using ht.2⟩

private theorem finalizeHop_leads {bundleName : String} {dst : ResolvedBundle} {diff : BundleDiff}
    (s : TickState) :
    wp (finalizeHop ρ bundleName dst diff)
      (fun _ t => ∃ addons wired, (∀ a ∈ addons, a.phase = .installed) ∧
        Leads s { s.c.setBundle bundleName dst with
          addons := addons
          monitoringWired := wired } [] t)
      (fun _ t => ∃ c', Leads s c' [] t) s := by
  simp only [finalizeHop, wp_bind, wp_modifyCluster]
  have hbundle : Leads s (s.c.setBundle bundleName dst) []
      { s with c := s.c.setBundle bundleName dst } := ⟨rfl, by simp⟩
  refine wp_mono (upgradeCNI_leads _) (fun _ t ht => ?_) (fun _ _ h => ⟨_, hbundle.quiet_trans h⟩)
  obtain ⟨wired, ht⟩ := ht
  have hst := hbundle.quiet_trans ht
  refine wp_mono (reconcileAddons_installed _) (fun _ u hu => ?_)
    (fun _ u hu => ⟨_, rfl, (hu.2.trans hst.2)⟩)
  refine ⟨u.c.addons, wired, hu.2, ?_, hu.1.2.trans hst.2⟩
  rw [hu.1.leads.1, hst.1]

private theorem step_upgradeHop {hop : Bundle} {src dst : ResolvedBundle} (s : TickState)
    (h : s.c.phase = .upgrading) (hhop : r.catalog.nextUpgrade s.c.bundle = some hop)
    (hsrc : r.catalog.resolve s.c.bundle = .ok src) (hdst : r.catalog.resolve hop.name = .ok dst) :
    wp (upgradeHop r ρ hop.name src dst) (fun _ => Advanced r s) (fun _ => Failed r s) s := by
  simp only [upgradeHop, wp_bind, wp_getCluster]
  split
  · rename_i hroll
    simp only [diffResolved, Bool.and_eq_true, bne_iff_ne, Bool.not_eq_true'] at hroll
    simp only [rollOneNode, wp_bind, wp_getCluster]
    split
    · rename_i hnone
      exact ⟨_, [], .nothingToRoll h (nodes_eq_nil_of_nextNodeToRoll hnone hroll.2),
        (refl_of Quiet s).leads⟩
    · rename_i node hnode
      refine wp_mono (replaceNode_leads s) (fun _ t ht => ?_) (fun _ t ht => ?_)
      · obtain ⟨c', evs, hr, hl⟩ := ht
        exact ⟨c', evs, .rolled h hhop hsrc hdst hroll.1 hroll.2 hnode hr, hl⟩
      · obtain ⟨c', evs, hr, hl⟩ := ht
        exact ⟨c', evs, .rolled h hhop hsrc hdst hroll.1 hroll.2 hnode hr, hl⟩
  · rename_i hstay
    have himage : src.os.name = dst.os.name ∨ allNodesOnImage s.c.nodes
        (goldenImageNameFor s.c.infraProvider dst.os.name dst.kubernetes) = true := by
      simp only [diffResolved, Bool.and_eq_true, bne_iff_ne, Bool.not_eq_true', not_and,
        Bool.not_eq_false] at hstay
      tauto
    simp only [wp_bind, wp_modifyCluster]
    refine wp_mono (quiet_upgradeInPlace s) (fun _ t ht => ?_) (fun _ _ h => .of_leads h.leads)
    refine wp_mono (finalizeHop_leads t) (fun _ u hu => ?_)
      (fun _ _ h => .of_leads (ht.leads.quiet_trans h.choose_spec))
    obtain ⟨addons, wired, ha, hu⟩ := hu
    rw [ht.1] at hu
    have hsu := ht.leads.quiet_trans hu
    refine wp_mono (wires_reconcileMonitoringWiring _) (fun _ v hv => ?_)
      (fun _ _ h => .of_leads ⟨rfl, h.2.trans hsu.2⟩)
    obtain ⟨⟨w, hc⟩, hevs⟩ := hv
    refine ⟨_, [], .hopped h hhop hsrc hdst himage addons ha w v.c.certNotAfter, ?_,
      hevs.trans hsu.2⟩
    rw [hc, hsu.1]
    rfl

private theorem step_reconcileUpgrade (s : TickState) (h : s.c.phase = .upgrading) :
    wp (reconcileUpgrade r ρ) (fun _ => Advanced r s) (fun _ => Failed r s) s := by
  simp only [reconcileUpgrade, wp_bind, wp_getCluster]
  split
  · rename_i hnone
    exact wp_quiet_modify (refl_of Quiet s) (.noHop h hnone)
  · rename_i hop hhop
    split
    · rename_i src dst hsrc hdst
      exact step_upgradeHop s h hhop hsrc hdst
    · exact .of_leads (refl_of Quiet s).leads
    · exact .of_leads (refl_of Quiet s).leads

/-! ### Updates and deletion -/

private theorem removeWorkers_leads (s : TickState) :
    wp (removeWorkers ρ s.c) (fun _ => Leads s s.c (updateDrain s.c))
      (fun _ => Leads s s.c [⟨.removeWorkers (removedWorkers s.c.nodes (nodeSpecs s.c)), false⟩])
      s := by
  unfold removeWorkers updateDrain
  split
  · exact (refl_of Quiet s).leads
  · exact leads_perform rfl s

/-- Converging the machines either runs through or stops at one of the failures. -/
private theorem updateMachines_leads (s : TickState) :
    wp (updateMachines ρ)
      (fun _ t => ∃ wired reports,
        Leads s ((s.c.released wired).provisioned (nodeSpecs (s.c.released wired)) reports).mounted
          (updateDrain s.c ++
            [⟨.ensure (s.c.released wired) (nodeSpecs (s.c.released wired)), true⟩] ++
            [⟨.mount ((s.c.released wired).provisioned (nodeSpecs (s.c.released wired)) reports),
              true⟩]) t)
      (fun _ t => ∃ c' evs, UpdateFailed s.c evs ∧ Leads s c' evs t) s := by
  simp only [updateMachines, wp_bind, wp_getCluster]
  refine wp_mono (removeWorkers_leads s) (fun _ s₁ h₁ => ?_) (fun _ _ h => ⟨_, _, .drainFailed, h⟩)
  refine wp_mono (releaseRemovedDisks_leads s₁) (fun _ s₂ h₂ => ?_)
    (fun _ _ h => ⟨_, _, .drained, h₁.trans_quiet h⟩)
  obtain ⟨wired, h₂⟩ := h₂
  rw [h₁.1] at h₂
  have hc₂ : s₂.c = s.c.released wired := h₂.1
  have hs₂ : Leads s (s.c.released wired) (updateDrain s.c) s₂ := h₁.trans_quiet h₂
  rw [hc₂]
  refine wp_mono (ensureNodes_leads s₂) (fun _ s₃ h₃ => ?_) (fun _ _ h => ?_)
  · rw [hc₂] at h₃
    have hs₃ := hs₂.trans h₃
    refine wp_mono (quiet_perform rfl s₃) (fun _ s₄ h₄ => ?_)
      (fun _ _ h => ⟨_, _, .ensured wired, hs₃.trans_quiet h.leads⟩)
    have hs₄ := hs₃.trans_quiet h₄.leads
    have hc₄ := h₄.1.trans h₃.1
    refine wp_mono (mountNodeDisks_leads s₄) (fun _ s₅ h₅ => ?_) (fun _ _ h => ?_)
    · rw [hc₄] at h₅
      exact ⟨wired, _, hs₄.trans h₅⟩
    · rw [hc₄] at h
      exact ⟨_, _, .mountRun wired _ false, hs₄.trans h⟩
  · rw [hc₂] at h
    exact ⟨_, _, .ensureFailed wired, hs₂.trans h⟩

private theorem step_update (s : TickState) (h : s.c.phase = .updating) :
    wp (update r ρ) (fun _ => Advanced r s) (fun _ => Failed r s) s := by
  simp only [update, wp_bind, wp_modifyCluster]
  refine wp_mono (updateMachines_leads s) (fun _ t ht => ?_) (fun _ t ht => ?_)
  · obtain ⟨wired, reports, ht⟩ := ht
    refine wp_mono (reconcileAddons_installed t) (fun _ u hu => ?_)
      (fun _ _ h' => ⟨_, _, .updateFailed h (.mountRun wired reports true),
        ht.trans_quiet h'.leads⟩)
    have hsu := ht.trans_quiet hu.1.leads
    refine wp_mono (wires_reconcileWiring u) (fun _ v hv => ?_)
      (fun _ _ h' => ⟨_, _, .updateFailed h (.mountRun wired reports true),
        hsu.trans_quiet h'.leads⟩)
    have hsv := hsu.trans_quiet hv.leads
    refine ⟨_, _, .updated h wired reports u.c.addons hu.2 v.c.markers, ?_, hsv.2⟩
    have hc : u.c = { t.c with addons := u.c.addons } := hu.1.leads.1
    rw [ht.1] at hc
    exact congrArg finishUpdate (hsv.1.trans (congrArg (·.setMarkers v.c.markers) hc))
  · obtain ⟨c', evs, hevs, hl⟩ := ht
    exact ⟨c', evs, .updateFailed h hevs, hl⟩

private theorem step_delete (s : TickState) (h : s.c.phase = .deleting) :
    wp (delete r ρ) (fun _ => Advanced r s) (fun _ => Failed r s) s := by
  simp only [delete, wp_bind, wp_modifyCluster]
  refine wp_mono (wires_releaseDNS s) (fun _ s₁ h₁ => ?_) (fun _ _ h' => .of_leads h'.leads)
  refine wp_mono (wires_releaseVault s₁) (fun _ s₂ h₂ => ?_)
    (fun _ _ h' => .of_leads (trans_of Wires h₁ h').leads)
  have h₁₂ := trans_of Wires h₁ h₂
  refine wp_mono (wires_releaseRegistry s₂) (fun _ s₃ h₃ => ?_)
    (fun _ _ h' => .of_leads (trans_of Wires h₁₂ h').leads)
  have h₁₃ := trans_of Wires h₁₂ h₃
  refine wp_mono (wires_perform rfl s₃) (fun _ s₄ h₄ => ?_)
    (fun _ _ h' => .of_leads (trans_of Wires h₁₃ h').leads)
  obtain ⟨hc, hevs⟩ := (trans_of Wires h₁₃ h₄).leads
  exact ⟨_, [], .deleted h s₄.c.markers ρ.now,
    congrArg (fun c : Cluster => { c with deletedAt := some ρ.now, phase := .deleted }) hc, hevs⟩

/-- **Inversion**: every tick is one of the steps. -/
theorem tickStep (r : Reconciler) (ρ : Env) (c : Cluster) :
    TickStep r c (tickResult r ρ c) (infraCalls (tickTrace r ρ c)) := by
  have hwp : wp (reconcileOne r ρ) (fun _ => Advanced r { c := c }) (fun _ => Failed r { c := c })
      { c := c } := by
    simp only [reconcileOne, wp_bind, wp_getCluster]
    cases h : c.phase
    case pending => exact wp_quiet_modify (refl_of Quiet _) (.advance (by simp [h]))
    case provisioningInfra => exact step_provisionInfra _ h
    case infraReady => exact step_initControlPlane _ h
    case controlPlaneReady => exact step_joinWorkers _ h
    case workersReady => exact step_installCNI _ h
    case installingAddons => exact step_installAddons _ h
    case ready => exact step_reconcileReady _ h
    case renewingCerts => exact step_reconcileCertRenewal _ h
    case defragmentingEtcd => exact step_reconcileDefrag _ h
    case snapshottingEtcd => exact step_reconcileSnapshot _ h
    case repairing => exact step_repair _ h
    case upgrading => exact step_reconcileUpgrade _ h
    case updating => exact step_update _ h
    case deleting => exact step_delete _ h
    case deleted =>
      exact ⟨{ c with phase := .deleted }, [], .advance (by simp [h]), by rw [← h], rfl⟩
    case failed =>
      exact ⟨{ c with phase := .failed }, [], .advance (by simp [h]), by rw [← h], rfl⟩
  unfold tickResult tickTrace
  unfold wp at hwp
  cases hrun : reconcileOne r ρ { c := c } with
  | ok u s' =>
    rw [hrun] at hwp
    obtain ⟨c', evs, hstep, hc, hevs⟩ := hwp
    have hevs' : infraCalls s'.trace = evs := hevs
    simpa only [hc, hevs'] using hstep
  | error e s' =>
    rw [hrun] at hwp
    obtain ⟨c', evs, hstep, -, hevs⟩ := hwp
    have hevs' : infraCalls s'.trace = evs := hevs
    simpa only [hevs'] using hstep

end Inversion

end KaaS
