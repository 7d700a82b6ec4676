import KaaS.Reconcile.Wiring

/-!
# Add-ons, disks and machines

The parts of a tick that change what runs: installing and removing add-ons, releasing and
mounting extra disks, and replacing a machine by a fresh one. The second half says what each
of them can leave behind, in success and in failure.
-/

namespace KaaS

open Effect Text

variable (r : Reconciler) (ρ : Env)

/-! ### Add-ons -/

/-- Fetch the kubeconfig the first time it is needed. -/
def ensureKubeconfig (fetched : Bool) : Tick Unit :=
  if fetched then pure ()
  else perform ρ (.getSecret .kubeconfig) "addons: kubeconfig unavailable: "

/-- Run `m`; if it fails, leave the add-ons as `rest`. -/
def orRestoreAddons (rest : List Addon) (m : Tick Unit) : Tick Unit :=
  tryCatch m fun e => do
    modifyCluster fun c => { c with addons := rest }
    throw e

/-- The loop of `reconcileAddons`: `next` is what the add-ons before this one became. -/
def reconcileAddonsFrom (fetched : Bool) (next : List Addon) : List Addon → Tick Unit
  | [] => modifyCluster fun c => { c with addons := next }
  | ad :: rest =>
    match ad.phase with
    | .removing => do
      orRestoreAddons (next ++ ad :: rest) do
        ensureKubeconfig ρ fetched
        perform ρ (.uninstallAddon ad)
      reconcileAddonsFrom true next rest
    | .installed => reconcileAddonsFrom fetched (next ++ [ad]) rest
    | _ => do
      orRestoreAddons (next ++ ad :: rest) do
        ensureKubeconfig ρ fetched
        perform ρ (.installAddon ad)
      reconcileAddonsFrom true (next ++ [{ ad with phase := .installed }]) rest

def reconcileAddons : Tick Unit := do
  let c ← getCluster
  reconcileAddonsFrom ρ false [] c.addons

/-! ### Disks -/

/-- Let the guests and Longhorn go of the disks marked for removal, then drop their rows. -/
def releaseRemovedDisks : Tick Unit := do
  let c ← getCluster
  if (removingDisks c).isEmpty then pure ()
  else do
    perform ρ (.evictLonghornDisks (removingDisks c))
    perform ρ (.removeNodeDisks (removingDisks c))
    modifyCluster fun c =>
      let kept := { c with nodeDisks := c.nodeDisks.filter (·.phase != DiskPhase.removing) }
      { kept with storageWired := storageFingerprint kept }

/-- The disks the mount run formats and mounts: per worker machine, those that are not being
removed and have been reported. -/
def mountableDisks (c : Cluster) : List NodeDisk :=
  (c.nodes.filter (·.role == .worker)).flatMap fun n =>
    (disksFor c n.vmName).filter fun d => d.phase != .removing && d.deviceID != ""

def mountNodeDisks : Tick Unit := do
  let c ← getCluster
  perform ρ (.ensureNodeDisks (mountableDisks c))
  modifyCluster fun c => { c with nodeDisks := c.nodeDisks.map (·.mount) }

/-! ### Replacing a machine -/

/-- Ask the infrastructure to rebuild this one machine even though its spec is the same. -/
def forceReplace (c : Cluster) (node : Node) (force : Bool) : Tick Unit :=
  if !force then pure ()
  else if !r.nodeReplacer c.infraProvider then
    throw ("provider " ++ c.infraProvider ++ " cannot rebuild a single node in place")
  else perform ρ (.replaceNode node.vmName) ("rebuild " ++ node.vmName ++ ": ")

/-- Rebuild `node` on `targetImage`, every other machine keeping the image recorded for it. -/
def recreateNodeVM (node : Node) (targetImage : String) (force : Bool) :
    Tick (List ProvisionedNode) := do
  let c ← getCluster
  forceReplace r ρ c node force
  perform ρ (.ensureNodes (netSpec c) (rebuildSpecs c node targetImage))
  let nodes := ρ.provisioned (rebuildSpecs c node targetImage)
  modifyCluster fun c => { c with nodes := toDomainNodes (rebuildSpecs c node targetImage) nodes }
  pure nodes

/-- The image to replace onto exists, where the provider can tell. -/
def checkImage (c : Cluster) (node : Node) (targetImage : String) : Tick Unit :=
  if !r.imageChecker c.infraProvider then pure ()
  else perform ρ (.imageAvailable targetImage)
    ("cannot replace " ++ node.vmName ++ " onto " ++ targetImage ++ ": ")

/-- Take the node out of the cluster; of a sole control plane the state is backed up. -/
def takeDown (c : Cluster) (node : Node) : Tick Unit :=
  match node.role with
  | .worker => perform ρ (.removeWorkers [node])
  | .controlPlane =>
    if c.ha then perform ρ (.removeControlPlane node) else perform ρ (.backupControlPlane node)

def bringUp (node : Node) (nodes : List ProvisionedNode) : Tick Unit := do
  let c ← getCluster
  match node.role with
  | .worker => do
    perform ρ .joinWorkers
    modifyCluster fun c => { c with nodeDisks := observeDisks c.nodeDisks nodes }
    mountNodeDisks ρ
  | .controlPlane =>
    if c.ha then perform ρ (.joinControlPlane (nodeByName c.nodes node.vmName))
    else perform ρ (.restoreControlPlane (nodeByName c.nodes node.vmName))

def replaceNode (node : Node) (targetImage : String) (force : Bool) : Tick Unit := do
  let c ← getCluster
  checkImage r ρ c node targetImage
  modifyCluster fun c =>
    { c with monitoringWired := c.monitoringWired && node.role != .controlPlane }
  takeDown ρ c node
  let nodes ← recreateNodeVM r ρ node targetImage force
  bringUp ρ node nodes

def rollOneNode (targetImage : String) : Tick Unit := do
  let c ← getCluster
  match nextNodeToRoll c.nodes targetImage with
  | none => pure ()
  | some node => replaceNode r ρ node targetImage false

/-! ### What they leave behind -/

variable {r ρ}

/-- Only the add-ons changed, and no machine, drain or mount was touched. -/
def Installs (s s' : TickState) : Prop :=
  (∃ addons, s'.c = { s.c with addons := addons }) ∧ infraCalls s'.trace = infraCalls s.trace

instance : IsPreorder TickState Installs where
  refl s := ⟨⟨s.c.addons, rfl⟩, rfl⟩
  trans := by
    rintro s t u ⟨⟨as, hs⟩, ht⟩ ⟨⟨bs, hb⟩, hu⟩
    exact ⟨⟨bs, by rw [hb, hs]⟩, hu.trans ht⟩

theorem installs_perform {k : Call} {context : String} (hk : k.infra = false) :
    Within Installs (perform ρ k context) :=
  fun s => wp_perform (fun _ => ⟨⟨s.c.addons, rfl⟩, by simp [infraCalls, hk]⟩)
    (fun _ => ⟨⟨s.c.addons, rfl⟩, by simp [infraCalls, hk]⟩)

private theorem installs_modify (addons : List Addon) :
    Within Installs (modifyCluster fun c => { c with addons := addons }) :=
  fun _ => ⟨⟨addons, rfl⟩, rfl⟩

private theorem installs_orRestoreAddons {rest : List Addon} {fetched : Bool} {k : Call}
    (hk : k.infra = false) :
    Within Installs (orRestoreAddons rest do ensureKubeconfig ρ fetched; perform ρ k) :=
  .tryCatch ((Within.ite (.pure ()) (installs_perform rfl)).bind fun _ => installs_perform hk)
    fun e => (installs_modify rest).bind fun _ => .throw e

private theorem installs_reconcileAddonsFrom (fetched : Bool) (next l : List Addon) :
    Within Installs (reconcileAddonsFrom ρ fetched next l) := by
  induction l generalizing fetched next with
  | nil => exact installs_modify next
  | cons ad rest ih =>
    unfold reconcileAddonsFrom
    split
    · exact (installs_orRestoreAddons rfl).bind fun _ => ih true next
    · exact ih fetched _
    · exact (installs_orRestoreAddons rfl).bind fun _ => ih true _

theorem installs_reconcileAddons : Within Installs (reconcileAddons ρ) := by
  intro s
  exact installs_reconcileAddonsFrom false [] s.c.addons s

private theorem reconcileAddonsFrom_installed (fetched : Bool) (next l : List Addon)
    (h : ∀ a ∈ next, a.phase = .installed) (s : TickState) :
    wp (reconcileAddonsFrom ρ fetched next l)
      (fun _ s' => ∀ a ∈ s'.c.addons, a.phase = .installed) (fun _ _ => True) s := by
  induction l generalizing fetched next s with
  | nil => exact h
  | cons ad rest ih =>
    unfold reconcileAddonsFrom
    split
    · rw [wp_bind]
      exact wp_mono (installs_orRestoreAddons rfl s) (fun _ s' _ => ih true next h s')
        (fun _ _ _ => trivial)
    · refine ih fetched _ ?_ s
      simp_all [or_imp]
    · rw [wp_bind]
      refine wp_mono (installs_orRestoreAddons rfl s) (fun _ s' _ => ?_) (fun _ _ _ => trivial)
      refine ih true _ ?_ s'
      simp_all [or_imp]

/-- **Add-ons**: a pass that succeeds leaves every add-on installed. -/
theorem reconcileAddons_installed (s : TickState) :
    wp (reconcileAddons ρ)
      (fun _ s' => Installs s s' ∧ ∀ a ∈ s'.c.addons, a.phase = .installed)
      (fun _ s' => Installs s s') s :=
  wp_mono (wp_and (installs_reconcileAddons s)
    (reconcileAddonsFrom_installed false [] s.c.addons (by simp) s))
    (fun _ _ h => h) (fun _ _ h => h.1)

/-- Nothing changed on the row, and no machine, drain or mount was touched. -/
def Quiet (s s' : TickState) : Prop :=
  s'.c = s.c ∧ infraCalls s'.trace = infraCalls s.trace

instance : IsPreorder TickState Quiet where
  refl _ := ⟨rfl, rfl⟩
  trans := by
    rintro s t u ⟨hc, ht⟩ ⟨hc', ht'⟩
    exact ⟨hc'.trans hc, ht'.trans ht⟩

theorem quiet_perform {k : Call} {context : String} (hk : k.infra = false) :
    Within Quiet (perform ρ k context) :=
  fun _ => wp_perform (fun _ => ⟨rfl, by simp [infraCalls, hk]⟩)
    (fun _ => ⟨rfl, by simp [infraCalls, hk]⟩)

/-- The row became `c'` and the calls `evs` concerning machines, drains and mounts were
made. -/
def Leads (s : TickState) (c' : Cluster) (evs : List Event) (s' : TickState) : Prop :=
  s'.c = c' ∧ infraCalls s'.trace = infraCalls s.trace ++ evs

theorem Leads.trans {s t u : TickState} {c' c'' : Cluster} {evs evs' : List Event}
    (h : Leads s c' evs t) (h' : Leads t c'' evs' u) : Leads s c'' (evs ++ evs') u :=
  ⟨h'.1, by rw [h'.2, h.2, List.append_assoc]⟩

theorem Leads.quiet_trans {s t u : TickState} {c' c'' : Cluster} {evs : List Event}
    (h : Leads s c' [] t) (h' : Leads t c'' evs u) : Leads s c'' evs u :=
  h.trans h'

theorem Leads.trans_quiet {s t u : TickState} {c' c'' : Cluster} {evs : List Event}
    (h : Leads s c' evs t) (h' : Leads t c'' [] u) : Leads s c'' evs u :=
  List.append_nil evs ▸ h.trans h'

theorem Quiet.leads {s s' : TickState} (h : Quiet s s') : Leads s s.c [] s' :=
  ⟨h.1, by rw [h.2, List.append_nil]⟩

theorem leads_perform {k : Call} {context : String} (hk : k.infra = true) (s : TickState) :
    wp (perform ρ k context) (fun _ => Leads s s.c [⟨k, true⟩])
      (fun _ => Leads s s.c [⟨k, false⟩]) s :=
  wp_perform (fun _ => ⟨rfl, by simp [infraCalls, hk]⟩) (fun _ => ⟨rfl, by simp [infraCalls, hk]⟩)

/-- **Mounting** runs over the mountable disks and marks every reported disk. -/
theorem mountNodeDisks_leads (s : TickState) :
    wp (mountNodeDisks ρ)
      (fun _ => Leads s { s.c with nodeDisks := s.c.nodeDisks.map (·.mount) }
        [⟨.ensureNodeDisks (mountableDisks s.c), true⟩])
      (fun _ => Leads s s.c [⟨.ensureNodeDisks (mountableDisks s.c), false⟩]) s := by
  simp only [mountNodeDisks, wp_bind, wp_getCluster, wp_modifyCluster]
  refine wp_mono (leads_perform rfl s) (fun _ s' h => ?_) (fun _ _ h => h)
  exact ⟨by rw [h.1], h.2⟩

/-- **Releasing** drops the rows of the disks being removed, or fails with all in place. -/
theorem releaseRemovedDisks_leads (s : TickState) :
    wp (releaseRemovedDisks ρ)
      (fun _ s' => ∃ wired, Leads s { s.c with
        nodeDisks := s.c.nodeDisks.filter (·.phase != DiskPhase.removing)
        storageWired := wired } [] s')
      (fun _ => Leads s s.c []) s := by
  simp only [releaseRemovedDisks, wp_bind, wp_getCluster]
  split
  · rename_i hnone
    refine ⟨s.c.storageWired, ?_, by simp⟩
    have hkeep : s.c.nodeDisks.filter (·.phase != DiskPhase.removing) = s.c.nodeDisks := by
      simp only [removingDisks, List.isEmpty_iff, List.filter_eq_nil_iff, beq_iff_eq] at hnone
      exact List.filter_eq_self.mpr fun d hd => bne_iff_ne.mpr (hnone d hd)
    rw [hkeep]
  · simp only [wp_bind, wp_modifyCluster]
    refine wp_mono (quiet_perform rfl s) (fun _ s₁ h₁ => ?_) (fun _ _ h => h.leads)
    refine wp_mono (quiet_perform rfl s₁) (fun _ s₂ h₂ => ?_)
      (fun _ _ h => (trans_of Quiet h₁ h).leads)
    obtain ⟨hc, ht⟩ := trans_of Quiet h₁ h₂
    exact ⟨_, by rw [hc], by simpa using ht⟩

/-! ### The effect of a replacement -/

/-- The drain that precedes a worker's replacement. -/
def drainCalls (node : Node) : List Event :=
  if node.role = .worker then [⟨.removeWorkers [node], true⟩] else []

/-- **What replacing a machine can leave behind**: the outcome, the row and the calls, from
the row `c`. -/
inductive Replaced (c : Cluster) (node : Node) (image : String) :
    Bool → Cluster → List Event → Prop
  /-- It stopped before the infrastructure was asked. -/
  | notReached (wired : Bool) {evs : List Event}
      (hevs : evs = [] ∨ evs = drainCalls node ∨ evs = [⟨.removeWorkers [node], false⟩]) :
      Replaced c node image false { c with monitoringWired := wired } evs
  /-- The infrastructure failed. -/
  | ensureFailed (wired : Bool) :
      Replaced c node image false { c with monitoringWired := wired }
        (drainCalls node ++ [⟨.ensureNodes (netSpec c) (rebuildSpecs c node image), false⟩])
  /-- The machine is rebuilt; a worker was not mounted. -/
  | rebuilt (wired ok : Bool) (reports : List ProvisionedNode)
      (hok : ok = true → node.role = .controlPlane) :
      Replaced c node image ok
        { c with
          monitoringWired := wired
          nodes := toDomainNodes (rebuildSpecs c node image) reports }
        (drainCalls node ++ [⟨.ensureNodes (netSpec c) (rebuildSpecs c node image), true⟩])
  /-- A worker is rebuilt, and its mount run was made. -/
  | mounted (wired ok : Bool) (reports : List ProvisionedNode) (hrole : node.role = .worker) :
      Replaced c node image ok
        { c with
          monitoringWired := wired
          nodes := toDomainNodes (rebuildSpecs c node image) reports
          nodeDisks := if ok then (observeDisks c.nodeDisks reports).map (·.mount)
            else observeDisks c.nodeDisks reports }
        (drainCalls node ++ [⟨.ensureNodes (netSpec c) (rebuildSpecs c node image), true⟩] ++
          [⟨.ensureNodeDisks (mountableDisks { c with
            nodes := toDomainNodes (rebuildSpecs c node image) reports
            nodeDisks := observeDisks c.nodeDisks reports }), ok⟩])

theorem quiet_forceReplace {c : Cluster} {node : Node} {force : Bool} :
    Within Quiet (forceReplace r ρ c node force) :=
  .ite (.pure ()) (.ite (.throw _) (quiet_perform rfl))

theorem quiet_checkImage {c : Cluster} {node : Node} {image : String} :
    Within Quiet (checkImage r ρ c node image) :=
  .ite (.pure ()) (quiet_perform rfl)

theorem takeDown_leads {c : Cluster} {node : Node} (s : TickState) :
    wp (takeDown ρ c node) (fun _ => Leads s s.c (drainCalls node))
      (fun _ s' => Leads s s.c [] s' ∨ Leads s s.c [⟨.removeWorkers [node], false⟩] s') s := by
  unfold takeDown drainCalls
  cases hrole : node.role with
  | worker => exact wp_mono (leads_perform rfl s) (fun _ _ h => h) (fun _ _ h => .inr h)
  | controlPlane =>
    have hquiet : Within Quiet (if c.ha then perform ρ (.removeControlPlane node)
        else perform ρ (.backupControlPlane node)) :=
      .ite (quiet_perform rfl) (quiet_perform rfl)
    exact wp_mono (hquiet s) (fun _ _ h => h.leads) (fun _ _ h => .inl h.leads)

theorem recreateNodeVM_leads {node : Node} {image : String} {force : Bool} (s : TickState) :
    wp (recreateNodeVM r ρ node image force)
      (fun reports => Leads s
        { s.c with nodes := toDomainNodes (rebuildSpecs s.c node image) reports }
        [⟨.ensureNodes (netSpec s.c) (rebuildSpecs s.c node image), true⟩])
      (fun _ s' => Leads s s.c [] s' ∨ Leads s s.c
        [⟨.ensureNodes (netSpec s.c) (rebuildSpecs s.c node image), false⟩] s') s := by
  simp only [recreateNodeVM, wp_bind, wp_getCluster, wp_modifyCluster, wp_pure]
  refine wp_mono (quiet_forceReplace s) (fun _ s₁ h₁ => ?_) (fun _ _ h => .inl h.leads)
  refine wp_mono (leads_perform rfl s₁) (fun _ s₂ h₂ => ?_) (fun _ _ h => .inr ?_)
  · obtain ⟨hc, ht⟩ := h₁.leads.trans h₂
    exact ⟨by rw [hc, h₁.1], ht⟩
  · obtain ⟨hc, ht⟩ := h₁.leads.trans h
    exact ⟨hc.trans h₁.1, ht⟩

theorem bringUp_leads {node : Node} {reports : List ProvisionedNode} (s : TickState) :
    wp (bringUp ρ node reports)
      (fun _ s' => node.role = .controlPlane ∧ Leads s s.c [] s' ∨ node.role = .worker ∧
        Leads s { s.c with nodeDisks := (observeDisks s.c.nodeDisks reports).map (·.mount) }
          [⟨.ensureNodeDisks (mountableDisks { s.c with
            nodeDisks := observeDisks s.c.nodeDisks reports }), true⟩] s')
      (fun _ s' => Leads s s.c [] s' ∨ node.role = .worker ∧
        Leads s { s.c with nodeDisks := observeDisks s.c.nodeDisks reports }
          [⟨.ensureNodeDisks (mountableDisks { s.c with
            nodeDisks := observeDisks s.c.nodeDisks reports }), false⟩] s') s := by
  simp only [bringUp, wp_bind, wp_getCluster]
  cases hrole : node.role with
  | worker =>
    simp only [wp_bind, wp_modifyCluster]
    refine wp_mono (quiet_perform rfl s) (fun _ s₁ h₁ => ?_) (fun _ _ h => .inl h.leads)
    have hmount := @mountNodeDisks_leads ρ
      { s₁ with c := { s₁.c with nodeDisks := observeDisks s₁.c.nodeDisks reports } }
    obtain ⟨hc, ht⟩ := h₁
    refine wp_mono hmount (fun _ _ h => .inr ⟨trivial, ?_⟩)
      (fun _ _ h => .inr ⟨trivial, ?_⟩)
    all_goals
      obtain ⟨hc', ht'⟩ := h
      simp only [hc] at hc' ht'
      exact ⟨hc', by rw [ht', ht]⟩
  | controlPlane =>
    have hquiet : Within Quiet (if s.c.ha then
          perform ρ (.joinControlPlane (nodeByName s.c.nodes node.vmName))
        else perform ρ (.restoreControlPlane (nodeByName s.c.nodes node.vmName))) :=
      .ite (quiet_perform rfl) (quiet_perform rfl)
    exact wp_mono (hquiet s) (fun _ _ h => .inl ⟨rfl, h.leads⟩) (fun _ _ h => .inl h.leads)

/-- **Replacing a machine.** -/
theorem replaceNode_leads {node : Node} {image : String} {force : Bool} (s : TickState) :
    wp (replaceNode r ρ node image force)
      (fun _ s' => ∃ c' evs, Replaced s.c node image true c' evs ∧ Leads s c' evs s')
      (fun _ s' => ∃ c' evs, Replaced s.c node image false c' evs ∧ Leads s c' evs s') s := by
  simp only [replaceNode, wp_bind, wp_getCluster, wp_modifyCluster]
  refine wp_mono (quiet_checkImage s) (fun _ s₁ h₁ => ?_)
    (fun _ _ h => ⟨_, _, .notReached s.c.monitoringWired (.inl rfl), h.leads⟩)
  set wired := s₁.c.monitoringWired && node.role != .controlPlane
  set s₂ : TickState := { s₁ with c := { s₁.c with monitoringWired := wired } }
  have h₂ : Leads s { s.c with monitoringWired := wired } [] s₂ :=
    ⟨by rw [← h₁.1], by simpa using h₁.2⟩
  refine wp_mono (takeDown_leads s₂) (fun _ s₃ h₃ => ?_) (fun _ s' h => ?_)
  · rw [h₂.1] at h₃
    have h₃' := h₂.quiet_trans h₃
    refine wp_mono (recreateNodeVM_leads s₃) (fun reports s₄ h₄ => ?_) (fun _ s' h => ?_)
    · rw [h₃.1] at h₄
      have h₄' := h₃'.trans h₄
      refine wp_mono (bringUp_leads s₄) (fun _ s' h => ?_) (fun _ s' h => ?_)
      · rw [h₄.1] at h
        rcases h with ⟨hrole, h⟩ | ⟨hrole, h⟩
        · exact ⟨_, _, .rebuilt wired true reports fun _ => hrole, h₄'.trans_quiet h⟩
        · exact ⟨_, _, .mounted wired true reports hrole, h₄'.trans h⟩
      · rw [h₄.1] at h
        rcases h with h | ⟨hrole, h⟩
        · exact ⟨_, _, .rebuilt wired false reports (by simp), h₄'.trans_quiet h⟩
        · exact ⟨_, _, .mounted wired false reports hrole, h₄'.trans h⟩
    · rw [h₃.1] at h
      rcases h with h | h
      · exact ⟨_, _, .notReached wired (.inr (.inl rfl)), h₃'.trans_quiet h⟩
      · exact ⟨_, _, .ensureFailed wired, h₃'.trans h⟩
  · rw [h₂.1] at h
    rcases h with h | h
    · exact ⟨_, _, .notReached wired (.inl rfl), h₂.quiet_trans h⟩
    · exact ⟨_, _, .notReached wired (.inr (.inr rfl)), h₂.quiet_trans h⟩

end KaaS
