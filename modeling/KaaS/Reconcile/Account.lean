import KaaS.Library.Account
import KaaS.Reconcile.Step

/-!
# What a tick does inside a cluster

`TickStep` says of a tick which machines it asked for, drained and mounted. Here are the accounts
of its parts in more detail: with the calls that install and remove add-ons, release and
register disks, expose metrics and open the gateway, and with the markers those calls set. The
account of a tick is put together from the parts in the order in which the loop runs them
(`tickAccount`); everything that leaves no trace inside the cluster is one part, `Rests`.
-/

namespace KaaS

open Effect Effect.Account

/-! ### Which node a tick rebuilds -/

/-- The node an upgrading tick replaces, if it replaces one. -/
def nodeToRoll (r : Reconciler) (c : Cluster) : Option Node :=
  match r.catalog.nextUpgrade c.bundle with
  | none => none
  | some hop =>
    match r.catalog.resolve c.bundle, r.catalog.resolve hop.name with
    | .ok src, .ok dst =>
      let image := goldenImageNameFor c.infraProvider dst.os.name dst.kubernetes
      if src.os.name ≠ dst.os.name ∧ allNodesOnImage c.nodes image = false then
        nextNodeToRoll c.nodes image
      else none
    | _, _ => none

/-- The node the repair decided on concerns, if it is this kind of repair. -/
def nodeToRepair (action : RepairAction) (c : Cluster) : Option Node :=
  if c.repairState.action = some action then nodeByNameOK c.nodes c.repairState.target else none

/-- The image the next hop of the cluster ends in. -/
def hopImage (r : Reconciler) (c : Cluster) : String :=
  match r.catalog.nextUpgrade c.bundle with
  | none => currentImage c
  | some hop =>
    match r.catalog.resolve hop.name with
    | .ok dst => goldenImageNameFor c.infraProvider dst.os.name dst.kubernetes
    | .error _ => currentImage c

theorem hopImage_eq {r : Reconciler} {c : Cluster} {hop : Bundle} {dst : ResolvedBundle}
    (hhop : r.catalog.nextUpgrade c.bundle = some hop)
    (hdst : r.catalog.resolve hop.name = .ok dst) :
    hopImage r c = goldenImageNameFor c.infraProvider dst.os.name dst.kubernetes := by
  simp only [hopImage, hhop, hdst]

theorem nodeToRoll_eq {r : Reconciler} {c : Cluster} {hop : Bundle}
    {src dst : ResolvedBundle} (hhop : r.catalog.nextUpgrade c.bundle = some hop)
    (hsrc : r.catalog.resolve c.bundle = .ok src) (hdst : r.catalog.resolve hop.name = .ok dst)
    (hos : src.os.name ≠ dst.os.name)
    (hleft : allNodesOnImage c.nodes
      (goldenImageNameFor c.infraProvider dst.os.name dst.kubernetes) = false) :
    nodeToRoll r c = nextNodeToRoll c.nodes
      (goldenImageNameFor c.infraProvider dst.os.name dst.kubernetes) := by
  simp only [nodeToRoll, hhop, hsrc, hdst, hos, hleft, ne_eq, not_false_eq_true, and_self,
    if_true]

/-! ### Calls inside the cluster -/

/-- The calls that change machines, disks, add-ons or the wiring inside a cluster. -/
def Call.inside : Call → Bool
  | ensureNodes _ _ | replaceNode _ | removeWorkers _ | ensureNodeDisks _ | removeNodeDisks _
  | evictLonghornDisks _ | ensureLonghornDisks | installCNI | ensureControlPlaneMetrics
  | ensureCNIMetrics | ensureDefaultGateway | installAddon _ | uninstallAddon _ => true
  | _ => false

def insideCalls (trace : List Event) : List Event := trace.filter (·.call.inside)

@[simp] theorem insideCalls_append (t u : List Event) :
    insideCalls (t ++ u) = insideCalls t ++ insideCalls u := List.filter_append t u

/-- What a part of a tick can do. -/
abbrev Part := Effect.Account Cluster Event

/-- Every run of `m` is as the account says. -/
abbrev Recounts {α : Type} (m : Tick α) (A : Part) : Prop :=
  Effect.Accounts TickState.c (fun s => insideCalls s.trace) m A

/-- The same, for the run from `s`. -/
abbrev RecountsAt {α : Type} (m : Tick α) (A : Part) (s : TickState) : Prop :=
  Effect.AccountsAt TickState.c (fun s => insideCalls s.trace) m A s

inductive Makes (k : Cluster → Call) (c : Cluster) : Bool → Cluster → List Event → Prop
  | made (ok : Bool) : Makes k c ok c [⟨k c, ok⟩]

/-- The row apart from its phase, from what the clock asks for and from what the platform's
services have been told. -/
def Cluster.core (c : Cluster) : Cluster :=
  { c with
    phase := .pending, certNotAfter := none, etcd := none, etcdSnapshotAt := none, repair := none,
    dnsWired := false, vaultWired := false, registryWired := false, registryRobotNotAfter := none,
    deletedAt := none }

theorem eq_of_core {δ : Type} {f : Cluster → δ} (hf : ∀ c, f c.core = f c) {c c' : Cluster}
    (h : c'.core = c.core) : f c' = f c := by
  rw [← hf c', h, hf c]

theorem nodeDisks_of_core {c c' : Cluster} (h : c'.core = c.core) : c'.nodeDisks = c.nodeDisks :=
  eq_of_core (fun _ => rfl) h

/-- Nothing happens inside the cluster. -/
inductive Rests (c : Cluster) : Bool → Cluster → List Event → Prop
  | rested {ok : Bool} {c' : Cluster} (h : c'.core = c.core) : Rests c ok c' []

section Rules

variable {α : Type} {r : Reconciler} {ρ : Env} {A B : Part}

theorem recounts_perform {k : Call} {context : String} (hk : k.inside = true) :
    Recounts (perform ρ k context) (Makes fun _ => k) :=
  fun _ => wp_perform (fun _ => ⟨_, .made true, by simp [insideCalls, hk]⟩)
    (fun _ => ⟨_, .made false, by simp [insideCalls, hk]⟩)

theorem recounts_quiet {k : Call} {context : String} (hk : k.inside = false) :
    Recounts (perform ρ k context) Idle :=
  fun _ => wp_perform (fun _ => ⟨_, .idle true, by simp [insideCalls, hk]⟩)
    (fun _ => ⟨_, .idle false, by simp [insideCalls, hk]⟩)

theorem recounts_pure (a : α) : Recounts (pure a : Tick α) Idle :=
  fun _ => ⟨[], .idle true, (List.append_nil _).symm⟩

theorem recounts_return (a : α) : Recounts (pure a : Tick α) (Sets id) :=
  fun _ => ⟨[], .set, (List.append_nil _).symm⟩

theorem recounts_throw (e : String) : Recounts (throw e : Tick α) Fails :=
  fun _ => ⟨[], .failed, (List.append_nil _).symm⟩

theorem recounts_ite {p : Prop} [Decidable p] {m n : Tick α} (hm : p → Recounts m A)
    (hn : ¬p → Recounts n A) : Recounts (if p then m else n) A := by
  split
  · exact hm ‹_›
  · exact hn ‹_›

theorem recounts_modify (f : Cluster → Cluster) : Recounts (modifyCluster f) (Sets f) :=
  fun _ => ⟨[], .set, (List.append_nil _).symm⟩

/-- A step that is skipped where there is nothing to do. -/
theorem recountsAt_unless {p : Prop} [Decidable p] {m : Tick Unit} {s : TickState}
    (hskip : p → A s.c true s.c []) (hgo : ¬p → RecountsAt m A s) :
    RecountsAt (if p then pure () else m) A s := by
  split
  · exact ⟨[], hskip ‹_›, (List.append_nil _).symm⟩
  · exact hgo ‹_›

theorem recountsAt_call {k : Call} {context : String} {f : Cluster → Cluster} {s : TickState}
    (hk : k.inside = true) (hfailed : A s.c false s.c [⟨k, false⟩])
    (hdone : A s.c true (f s.c) [⟨k, true⟩]) :
    RecountsAt (do perform ρ k context; modifyCluster f) A s := by
  refine AccountsAt.mono ((recounts_perform hk).bind (fun _ => recounts_modify _) s) ?_
  rintro _ _ _ (⟨⟨⟩⟩ | ⟨⟨⟩, ⟨⟩⟩)
  · exact hfailed
  · exact hdone

theorem recountsAt_calls {k k' : Call} {context context' : String} {f : Cluster → Cluster}
    {s : TickState} (hk : k.inside = true) (hk' : k'.inside = true)
    (hfailed : ∀ es, es = [⟨k, false⟩] ∨ es = [⟨k, true⟩, ⟨k', false⟩] → A s.c false s.c es)
    (hdone : A s.c true (f s.c) [⟨k, true⟩, ⟨k', true⟩]) :
    RecountsAt (do perform ρ k context; perform ρ k' context'; modifyCluster f) A s := by
  refine AccountsAt.mono ((recounts_perform hk).bind (fun _ =>
    (recounts_perform hk').bind fun _ => recounts_modify _) s) ?_
  rintro _ _ _ (⟨⟨⟩⟩ | ⟨⟨⟩, ⟨⟨⟩⟩ | ⟨⟨⟩, ⟨⟩⟩⟩)
  · exact hfailed _ (.inl rfl)
  · exact hfailed _ (.inr rfl)
  · exact hdone

theorem recountsAt_get {f : Cluster → Tick α} {s : TickState} (h : RecountsAt (f s.c) A s) :
    RecountsAt (getCluster >>= f) A s :=
  h

theorem recounts_get {f : Cluster → Tick α} (h : ∀ s : TickState, RecountsAt (f s.c) A s) :
    Recounts (getCluster >>= f) A :=
  fun s => h s

end Rules

/-! ### Resting -/

/-- Nothing happens inside the cluster between two states of a tick. -/
def Outside (s t : TickState) : Prop :=
  t.c.core = s.c.core ∧ insideCalls t.trace = insideCalls s.trace

instance : IsPreorder TickState Outside where
  refl _ := ⟨rfl, rfl⟩
  trans := by
    rintro s t u ⟨hc, ht⟩ ⟨hc', ht'⟩
    exact ⟨hc'.trans hc, ht'.trans ht⟩

section Resting

variable {α : Type} {r : Reconciler} {ρ : Env}

theorem rests_of_outside {m : Tick α} (h : Within Outside m) : Recounts m Rests :=
  fun s => wp_mono (h s) (fun _ _ ht => ⟨[], .rested ht.1, by simpa using ht.2⟩)
    (fun _ _ ht => ⟨[], .rested ht.1, by simpa using ht.2⟩)

theorem only_rests {p : Event → Prop} : Only p Rests := by
  rintro c ok c' es ⟨-⟩
  simp

theorem leaves_rests {δ : Type} {f : Cluster → δ} (h : ∀ c, f c.core = f c) : Leaves f Rests := by
  rintro c ok c' es ⟨hc⟩
  exact eq_of_core h hc

theorem outside_perform {k : Call} {context : String} (hk : k.inside = false) :
    Within Outside (perform ρ k context) :=
  fun _ => wp_perform (fun _ => ⟨rfl, by simp [insideCalls, hk]⟩)
    (fun _ => ⟨rfl, by simp [insideCalls, hk]⟩)

theorem outside_getCluster : Within Outside getCluster := fun s => refl_of Outside s

theorem outside_modify {f : Cluster → Cluster} (h : ∀ c, (f c).core = c.core) :
    Within Outside (modifyCluster f) :=
  fun s => ⟨h s.c, rfl⟩

theorem outside_setPhase (p : Phase) : Within Outside (setPhase p) := outside_modify fun _ => rfl

theorem outside_saveSecret (kind : SecretKind) : Within Outside (saveSecret ρ kind) :=
  (outside_perform rfl).bind fun _ => outside_perform rfl

theorem outside_ensureViewerKubeconfig : Within Outside (ensureViewerKubeconfig ρ) :=
  (outside_perform rfl).bind fun _ => outside_saveSecret _

theorem outside_guarded {p : Cluster → Prop} [DecidablePred p] {m : Tick Unit}
    (hm : Within Outside m) :
    Within Outside (getCluster >>= fun c => if p c then pure () else m) :=
  outside_getCluster.bind fun _ => .ite (.pure ()) hm

private theorem outside_reconcileDNSWiring : Within Outside (reconcileDNSWiring r ρ) :=
  outside_guarded <| (outside_perform rfl).bind fun _ => outside_modify fun _ => rfl

private theorem outside_reconcileVaultWiring : Within Outside (reconcileVaultWiring r ρ) :=
  outside_guarded <| (outside_perform rfl).bind fun _ => (outside_perform rfl).bind fun _ =>
    (outside_perform rfl).bind fun _ => outside_modify fun _ => rfl

private theorem outside_registryCredential : Within Outside (registryCredential ρ) :=
  .ite ((outside_perform rfl).bind fun _ => .pure _) ((outside_saveSecret _).bind fun _ => .pure _)

private theorem outside_reconcileRegistryWiring : Within Outside (reconcileRegistryWiring r ρ) :=
  outside_guarded <| (outside_perform rfl).bind fun _ => outside_registryCredential.bind fun _ =>
    .bind (outside_modify fun _ => rfl) fun _ => (outside_perform rfl).bind fun _ =>
      outside_modify fun _ => rfl

private theorem outside_initControlPlane : Within Outside (initControlPlane ρ) :=
  (outside_perform rfl).bind fun _ => (outside_saveSecret _).bind fun _ =>
    (outside_saveSecret _).bind fun _ => outside_setPhase _

private theorem outside_joinWorkers : Within Outside (joinWorkers ρ) :=
  (outside_perform rfl).bind fun _ => outside_setPhase _

private theorem outside_pollPower {c : Cluster} : Within Outside (pollPower r ρ c) :=
  .ite (.pure _) (.tryCatch ((outside_perform rfl).bind fun _ => .pure _) fun _ => .pure _)

private theorem core_decideRepair (obs : RepairObservation) (c : Cluster) :
    (decideRepair r ρ obs c).core = c.core := by
  unfold decideRepair
  dsimp only
  split
  · split <;> rfl
  · rfl

private theorem outside_reconcileRepair : Within Outside (reconcileRepair r ρ) :=
  (outside_perform rfl).bind fun _ => outside_getCluster.bind fun _ =>
    outside_pollPower.bind fun _ => (outside_perform rfl).bind fun _ =>
      outside_modify (core_decideRepair _)

private theorem outside_reconcileCerts : Within Outside (reconcileCerts r ρ) := by
  have hobserve : Within Outside (observeCerts ρ) :=
    outside_guarded <| (outside_perform rfl).bind fun _ => outside_modify fun _ => rfl
  refine hobserve.bind fun _ => outside_modify fun c => ?_
  split <;> rfl

private theorem outside_reconcileEtcd : Within Outside (reconcileEtcd r ρ) :=
  (outside_perform rfl).bind fun _ => outside_modify fun _ => rfl

private theorem outside_reconcileReady : Within Outside (reconcileReady r ρ) :=
  (Within.ite outside_ensureViewerKubeconfig (.pure ())).bind fun _ =>
    outside_getCluster.bind fun _ => .ite (outside_setPhase _) <| .ite (outside_setPhase _) <|
      .ite outside_reconcileRepair <| .ite outside_reconcileCerts <| .ite (outside_setPhase _) <|
        .ite outside_reconcileEtcd (.pure ())

private theorem outside_reconcileCertRenewal : Within Outside (reconcileCertRenewal ρ) :=
  (outside_perform rfl).bind fun _ => (outside_saveSecret _).bind fun _ =>
    outside_modify fun _ => rfl

private theorem outside_reconcileDefrag : Within Outside (reconcileDefrag ρ) :=
  (outside_perform rfl).bind fun _ => outside_modify fun _ => rfl

private theorem outside_deleteSnapshots (l : List EtcdSnapshot) :
    Within Outside (deleteSnapshots ρ l) := by
  induction l with
  | nil => exact .pure ()
  | cons old rest ih => exact (outside_perform rfl).bind fun _ => ih

private theorem outside_reconcileSnapshot : Within Outside (reconcileSnapshot r ρ) := by
  have hprune : Within Outside (pruneSnapshots r ρ) :=
    .tryCatch ((outside_perform rfl).bind fun _ => outside_deleteSnapshots _) fun _ => .pure ()
  exact (outside_perform rfl).bind fun _ => (outside_perform rfl).bind fun _ =>
    (outside_perform rfl).bind fun _ => .bind (outside_modify fun _ => rfl) fun _ =>
      hprune.bind fun _ => outside_setPhase _

private theorem outside_delete : Within Outside (delete r ρ) := by
  have hdns : Within Outside (releaseDNS r ρ) :=
    outside_guarded <| (outside_perform rfl).bind fun _ => outside_modify fun _ => rfl
  have hvault : Within Outside (releaseVault r ρ) :=
    .ite (.pure ()) ((outside_perform rfl).bind fun _ => outside_modify fun _ => rfl)
  have hregistry : Within Outside (releaseRegistry r ρ) :=
    .ite (.pure ()) ((outside_perform rfl).bind fun _ => outside_modify fun _ => rfl)
  exact hdns.bind fun _ => hvault.bind fun _ => hregistry.bind fun _ =>
    (outside_perform rfl).bind fun _ => outside_modify fun _ => rfl

end Resting

/-! ### Wiring -/

/-- The metrics of control plane and network are exposed, once, when monitoring is installed. -/
inductive Scrapes (c : Cluster) : Bool → Cluster → List Event → Prop
  | skipped (h : monitoringInstalled c = false ∨ c.monitoringWired = true) : Scrapes c true c []
  | failed {es : List Event} (h : monitoringInstalled c = true ∧ c.monitoringWired = false)
      (hes : es = [⟨.ensureControlPlaneMetrics, false⟩] ∨
        es = [⟨.ensureControlPlaneMetrics, true⟩, ⟨.ensureCNIMetrics, false⟩]) :
      Scrapes c false c es
  | wired (h : monitoringInstalled c = true ∧ c.monitoringWired = false) :
      Scrapes c true { c with monitoringWired := true }
        [⟨.ensureControlPlaneMetrics, true⟩, ⟨.ensureCNIMetrics, true⟩]

/-- The default gateway is set up, once, when its parts are installed. -/
inductive OpensGateway (c : Cluster) : Bool → Cluster → List Event → Prop
  | skipped (h : gatewayWiringReady c = false ∨ c.gatewayWired = true) : OpensGateway c true c []
  | failed : OpensGateway c false c [⟨.ensureDefaultGateway, false⟩]
  | wired (h : gatewayWiringReady c = true) :
      OpensGateway c true { c with gatewayWired := true } [⟨.ensureDefaultGateway, true⟩]

/-- The extra disks are registered with Longhorn, when it is installed and they have changed. -/
inductive RegistersDisks (c : Cluster) : Bool → Cluster → List Event → Prop
  | skipped (h : storageFingerprint c = c.storageWired ∨ addonInstalled c "longhorn" = false) :
      RegistersDisks c true c []
  | failed : RegistersDisks c false c [⟨.ensureLonghornDisks, false⟩]
  | registered (h : addonInstalled c "longhorn" = true) :
      RegistersDisks c true { c with storageWired := storageFingerprint c }
        [⟨.ensureLonghornDisks, true⟩]

def Wiring : Part :=
  Then Scrapes (Then OpensGateway (Then Rests (Then Rests (Then Rests RegistersDisks))))

section Wiring

variable {r : Reconciler} {ρ : Env}

theorem recounts_reconcileMonitoringWiring : Recounts (reconcileMonitoringWiring ρ) Scrapes := by
  refine recounts_get fun s => recountsAt_unless (fun hskip => .skipped (by simpa using hskip))
    fun hgo => ?_
  have hopen : monitoringInstalled s.c = true ∧ s.c.monitoringWired = false := by simpa using hgo
  exact recountsAt_calls rfl rfl (fun _ => .failed hopen) (.wired hopen)

theorem recounts_reconcileGatewayWiring : Recounts (reconcileGatewayWiring ρ) OpensGateway := by
  refine recounts_get fun s => recountsAt_unless (fun hskip => .skipped (by simpa using hskip))
    fun hgo => ?_
  simp only [Bool.or_eq_true, Bool.not_eq_true', not_or, Bool.not_eq_false] at hgo
  exact recountsAt_call rfl .failed (.wired hgo.1)

theorem recounts_reconcileStorageWiring :
    Recounts (reconcileStorageWiring ρ) RegistersDisks := by
  refine recounts_get fun s => recountsAt_unless (fun hskip => .skipped (by simpa using hskip))
    fun hgo => ?_
  exact recountsAt_call rfl .failed (.registered (by simpa using (not_or.mp hgo).2))

theorem only_scrapes {p : Event → Prop} (hcontrol : ∀ ok, p ⟨.ensureControlPlaneMetrics, ok⟩)
    (hcni : ∀ ok, p ⟨.ensureCNIMetrics, ok⟩) : Only p Scrapes := by
  rintro c ok c' es (- | ⟨-, rfl | rfl⟩ | -) <;> simp [hcontrol, hcni]

theorem leaves_scrapes {δ : Type} {f : Cluster → δ}
    (h : ∀ c : Cluster, f { c with monitoringWired := true } = f c) : Leaves f Scrapes := by
  rintro c ok c' es ⟨⟩
  exacts [rfl, rfl, h c]

theorem leaves_opensGateway {δ : Type} {f : Cluster → δ}
    (h : ∀ c : Cluster, f { c with gatewayWired := true } = f c) : Leaves f OpensGateway := by
  rintro c ok c' es ⟨⟩
  exacts [rfl, rfl, h c]

theorem leaves_registersDisks {δ : Type} {f : Cluster → δ}
    (h : ∀ c : Cluster, f { c with storageWired := storageFingerprint c } = f c) :
    Leaves f RegistersDisks := by
  rintro c ok c' es ⟨⟩
  exacts [rfl, rfl, h c]

/-- **A wiring that returns**, part by part. -/
theorem Wiring.parts {c c' : Cluster} {es : List Event} (h : Wiring c true c' es) :
    ∃ c₁ c₂ c₃ es₁ es₂ es₃, Scrapes c true c₁ es₁ ∧ OpensGateway c₁ true c₂ es₂ ∧
      c₃.core = c₂.core ∧ RegistersDisks c₃ true c' es₃ ∧ es = es₁ ++ (es₂ ++ es₃) := by
  obtain _ | ⟨hscrapes, _ | ⟨hopens, _ | ⟨⟨h₁⟩, _ | ⟨⟨h₂⟩, _ | ⟨⟨h₃⟩, hregisters⟩⟩⟩⟩⟩ := h
  exact ⟨_, _, _, _, _, _, hscrapes, hopens, h₃.trans (h₂.trans h₁), hregisters, rfl⟩

theorem only_wiring {p : Event → Prop} (hcontrol : ∀ ok, p ⟨.ensureControlPlaneMetrics, ok⟩)
    (hcni : ∀ ok, p ⟨.ensureCNIMetrics, ok⟩) (hgateway : ∀ ok, p ⟨.ensureDefaultGateway, ok⟩)
    (hdisks : ∀ ok, p ⟨.ensureLonghornDisks, ok⟩) : Only p Wiring := by
  have hopens : Only p OpensGateway := by
    rintro c ok c' es ⟨⟩ <;> simp [hgateway]
  have hregisters : Only p RegistersDisks := by
    rintro c ok c' es ⟨⟩ <;> simp [hdisks]
  exact (only_scrapes hcontrol hcni).after (hopens.after (only_rests.after (only_rests.after
    (only_rests.after hregisters))))

theorem leaves_wiring {δ : Type} {f : Cluster → δ}
    (hmonitoring : ∀ c : Cluster, f { c with monitoringWired := true } = f c)
    (hgateway : ∀ c : Cluster, f { c with gatewayWired := true } = f c)
    (hstorage : ∀ c : Cluster, f { c with storageWired := storageFingerprint c } = f c)
    (hcore : ∀ c, f c.core = f c) : Leaves f Wiring := by
  have hrests := leaves_rests hcore
  exact (leaves_scrapes hmonitoring).after ((leaves_opensGateway hgateway).after
    (hrests.after (hrests.after (hrests.after (leaves_registersDisks hstorage)))))

theorem recounts_reconcileWiring : Recounts (reconcileWiring r ρ) Wiring :=
  recounts_reconcileMonitoringWiring.bind fun _ => recounts_reconcileGatewayWiring.bind fun _ =>
    (rests_of_outside outside_reconcileDNSWiring).bind fun _ =>
      (rests_of_outside outside_reconcileVaultWiring).bind fun _ =>
        (rests_of_outside outside_reconcileRegistryWiring).bind fun _ =>
          recounts_reconcileStorageWiring

end Wiring

/-! ### Disks and machines -/

/-- The disks being removed are let go of, and their rows dropped once that succeeded. -/
inductive ReleasesDisks (c : Cluster) : Bool → Cluster → List Event → Prop
  | skipped (h : removingDisks c = []) : ReleasesDisks c true c []
  | failed {es : List Event} (h : removingDisks c ≠ [])
      (hes : es = [⟨.evictLonghornDisks (removingDisks c), false⟩] ∨
        es = [⟨.evictLonghornDisks (removingDisks c), true⟩,
          ⟨.removeNodeDisks (removingDisks c), false⟩]) :
      ReleasesDisks c false c es
  | released (h : removingDisks c ≠ []) :
      ReleasesDisks c true
        (c.released (storageFingerprint
          { c with nodeDisks := c.nodeDisks.filter (·.phase != DiskPhase.removing) }))
        [⟨.evictLonghornDisks (removingDisks c), true⟩, ⟨.removeNodeDisks (removingDisks c), true⟩]

/-- The machines of the row are asked for. -/
inductive Asks (ρ : Env) (c : Cluster) : Bool → Cluster → List Event → Prop
  | failed : Asks ρ c false c [⟨.ensure c (nodeSpecs c), false⟩]
  | provisioned : Asks ρ c true (c.provisioned (nodeSpecs c) (ρ.provisioned (nodeSpecs c)))
      [⟨.ensure c (nodeSpecs c), true⟩]

inductive Mounts (c : Cluster) : Bool → Cluster → List Event → Prop
  | failed : Mounts c false c [⟨.mount c, false⟩]
  | mounted : Mounts c true c.mounted [⟨.mount c, true⟩]

/-- The workers that are no longer desired are drained. -/
inductive Drains (c : Cluster) : Bool → Cluster → List Event → Prop
  | none : Drains c true c []
  | drained (ok : Bool) :
      Drains c ok c [⟨.removeWorkers (removedWorkers c.nodes (nodeSpecs c)), ok⟩]

theorem Drains.copy {c c' : Cluster} {ok : Bool} {es : List Event} (h : Drains c ok c' es) :
    c' = c := by
  cases h <;> rfl

section Machines

variable {r : Reconciler} {ρ : Env}

theorem recounts_releaseRemovedDisks : Recounts (releaseRemovedDisks ρ) ReleasesDisks := by
  refine recounts_get fun s => recountsAt_unless (fun hskip => .skipped (by simpa using hskip))
    fun hgo => ?_
  have hsome : removingDisks s.c ≠ [] := by simpa using hgo
  exact recountsAt_calls rfl rfl (fun _ => .failed hsome) (.released hsome)

theorem recountsAt_ensureNodes (s : TickState) :
    RecountsAt (ensureNodes ρ (nodeSpecs s.c)) (Asks ρ) s :=
  recountsAt_call rfl .failed .provisioned

theorem recounts_mountNodeDisks : Recounts (mountNodeDisks ρ) Mounts :=
  recounts_get fun _ => recountsAt_call rfl .failed .mounted

private theorem recountsAt_removeWorkers (s : TickState) :
    RecountsAt (removeWorkers ρ s.c) Drains s := by
  refine recountsAt_unless (fun _ => .none) fun _ => (recounts_perform rfl s).mono ?_
  rintro ok _ _ ⟨⟩
  exact .drained ok

end Machines

/-! ### Add-ons -/

/-- The call that settles an add-on: it is removed, or installed. -/
def Addon.settling (ad : Addon) : Call :=
  if ad.phase = .removing then .uninstallAddon ad else .installAddon ad

/-- What a pass over add-ons makes of them. -/
def settleAddons (addons : List Addon) : List Addon :=
  (addons.filter (·.phase != .removing)).map fun ad => { ad with phase := .installed }

theorem mem_settleAddons {addons : List Addon} {ad : Addon} :
    ad ∈ settleAddons addons ↔ ∃ was ∈ addons, was.phase ≠ .removing ∧
      ad = { was with phase := .installed } := by
  simp only [settleAddons, List.mem_map, List.mem_filter, bne_iff_ne, and_assoc, @eq_comm _ ad]

private theorem exists_settled {addons : List Addon} {name : String} {p : Addon → Prop}
    (hp : ∀ ad : Addon, p { ad with phase := .installed }) :
    (∃ ad ∈ settleAddons addons, ad.name = name ∧ p ad) ↔
      ∃ ad ∈ addons, ad.name = name ∧ ad.phase ≠ .removing := by
  constructor
  · rintro ⟨_, had, hname, -⟩
    obtain ⟨was, hwas, hphase, rfl⟩ := mem_settleAddons.mp had
    exact ⟨was, hwas, hname, hphase⟩
  · rintro ⟨was, hwas, hname, hphase⟩
    exact ⟨_, mem_settleAddons.mpr ⟨was, hwas, hphase, rfl⟩, hname, hp was⟩

theorem addonInstalled_settled {c c' : Cluster} (h : c'.addons = settleAddons c.addons)
    (name : String) : addonInstalled c' name = addonSelected c name := by
  rw [Bool.eq_iff_iff, addonSelected_iff, addonInstalled_iff, h]
  exact exists_settled fun _ => rfl

theorem addonSelected_settled {c c' : Cluster} (h : c'.addons = settleAddons c.addons)
    (name : String) : addonSelected c' name = addonSelected c name := by
  rw [Bool.eq_iff_iff, addonSelected_iff, addonSelected_iff, h]
  exact exists_settled (by simp)

theorem addonSelected_pinned {c c' : Cluster} {dst : ResolvedBundle}
    (h : c'.addons = c.addons.map (pinAddon dst)) (name : String) :
    addonSelected c' name = addonSelected c name := by
  have hpin (ad : Addon) : (pinAddon dst ad).name = ad.name ∧
      ((pinAddon dst ad).phase ≠ .removing ↔ ad.phase ≠ .removing) := by
    unfold pinAddon
    split
    · exact ⟨rfl, Iff.rfl⟩
    · rename_i hphase
      split
      · exact ⟨rfl, Iff.rfl⟩
      · split
        · exact ⟨rfl, by simp [hphase]⟩
        · exact ⟨rfl, Iff.rfl⟩
  rw [Bool.eq_iff_iff, addonSelected_iff, addonSelected_iff, h]
  simp only [List.mem_map, exists_exists_and_eq_and, hpin]

/-- Every add-on is installed, or gone if it was to be removed. -/
inductive Settles (c : Cluster) : Bool → Cluster → List Event → Prop
  | settled {es : List Event} (hes : ∀ e ∈ es, ∃ ad ∈ c.addons, e.call = ad.settling) :
      Settles c true { c with addons := settleAddons c.addons } es
  | stopped (addons : List Addon) {es : List Event}
      (hes : ∀ e ∈ es, ∃ ad ∈ c.addons, e.call = ad.settling) :
      Settles c false { c with addons := addons } es

/-- The network add-on is installed again when the hop changes it. -/
inductive UpgradesCNI (diff : BundleDiff) (c : Cluster) : Bool → Cluster → List Event → Prop
  | skipped (h : diff.cniChanged = false) : UpgradesCNI diff c true c []
  | failed (h : diff.cniChanged = true) : UpgradesCNI diff c false c [⟨.installCNI, false⟩]
  | upgraded (h : diff.cniChanged = true) :
      UpgradesCNI diff c true { c with monitoringWired := false } [⟨.installCNI, true⟩]

theorem only_settles {p : Event → Prop} (hinstall : ∀ ad ok, p ⟨.installAddon ad, ok⟩)
    (huninstall : ∀ ad ok, p ⟨.uninstallAddon ad, ok⟩) : Only p Settles := by
  have hsettling (c : Cluster) (es : List Event)
      (hes : ∀ e ∈ es, ∃ ad ∈ c.addons, e.call = ad.settling) : ∀ e ∈ es, p e := by
    rintro ⟨call, ok⟩ he
    obtain ⟨ad, -, rfl⟩ := hes _ he
    unfold Addon.settling
    split
    · exact huninstall ad ok
    · exact hinstall ad ok
  rintro c ok c' es (hes | ⟨-, hes⟩)
  · exact hsettling c es hes
  · exact hsettling c es hes

theorem leaves_settles {δ : Type} {f : Cluster → δ}
    (h : ∀ (c : Cluster) (addons : List Addon), f { c with addons := addons } = f c) :
    Leaves f Settles := by
  rintro c ok c' es ⟨⟩
  exacts [h c _, h c _]

section Addons

variable {ρ : Env}

theorem settleAddons_cons_removing {ad : Addon} (h : ad.phase = .removing)
    (rest : List Addon) : settleAddons (ad :: rest) = settleAddons rest := by
  simp [settleAddons, h]

theorem settleAddons_cons {ad : Addon} (h : ad.phase ≠ .removing) (rest : List Addon) :
    settleAddons (ad :: rest) = { ad with phase := .installed } :: settleAddons rest := by
  simp [settleAddons, h]

private theorem recounts_settle {ad : Addon} {rest : List Addon} {fetched : Bool} :
    Recounts (orRestoreAddons rest do ensureKubeconfig ρ fetched; perform ρ ad.settling)
      fun c ok c' es => (∃ addons, c' = { c with addons := addons }) ∧ (ok = true → c' = c) ∧
        ∀ e ∈ es, e.call = ad.settling := by
  have hinside : ad.settling.inside = true := by
    unfold Addon.settling
    split <;> rfl
  have hfetch : Recounts (ensureKubeconfig ρ fetched) Idle :=
    recounts_ite (fun _ => recounts_pure _) fun _ => recounts_quiet rfl
  have hrestore (e : String) : Recounts
      (do modifyCluster fun c => { c with addons := rest }; throw e : Tick Unit)
      (Then (Sets fun c => { c with addons := rest }) Fails) :=
    (recounts_modify _).bind fun _ => recounts_throw e
  refine fun s => ((hfetch.bind fun _ => recounts_perform hinside).tryCatch hrestore s).mono ?_
  rintro _ _ _ (⟨_ | ⟨⟨⟩, ⟨⟩⟩⟩ | ⟨⟨⟨⟩⟩ | ⟨⟨⟩, ⟨⟩⟩, ⟨⟨⟩⟩ | ⟨⟨⟩, ⟨⟩⟩⟩)
  · exact ⟨⟨_, rfl⟩, fun _ => rfl, by simp⟩
  · exact ⟨⟨rest, rfl⟩, nofun, by simp⟩
  · exact ⟨⟨rest, rfl⟩, nofun, by simp⟩

private theorem recounts_reconcileAddonsFrom (fetched : Bool) (next l : List Addon) :
    Recounts (reconcileAddonsFrom ρ fetched next l) fun c ok c' es =>
      (∃ addons, c' = { c with addons := addons } ∧
        (ok = true → addons = next ++ settleAddons l)) ∧
      ∀ e ∈ es, ∃ ad ∈ l, e.call = ad.settling := by
  induction l generalizing fetched next with
  | nil =>
    refine fun s => (recounts_modify _ s).mono ?_
    rintro _ _ _ ⟨⟩
    exact ⟨⟨next, rfl, fun _ => (List.append_nil _).symm⟩, by simp⟩
  | cons ad rest ih =>
    -- whichever call settles the add-on, the loop goes on with what it became
    have hnext {next' : List Addon}
        (hnext' : next ++ settleAddons (ad :: rest) = next' ++ settleAddons rest) :
        Recounts (do
          orRestoreAddons (next ++ ad :: rest) do
            ensureKubeconfig ρ fetched
            perform ρ ad.settling
          reconcileAddonsFrom ρ true next' rest) fun c ok c' es =>
        (∃ addons, c' = { c with addons := addons } ∧
          (ok = true → addons = next ++ settleAddons (ad :: rest))) ∧
        ∀ e ∈ es, ∃ ad' ∈ ad :: rest, e.call = ad'.settling := by
      refine fun s => (recounts_settle.bind (fun _ => ih true next') s).mono ?_
      rintro _ _ _ (⟨⟨addons, hc⟩, -, hes⟩ | ⟨⟨-, hsame, hes⟩, ⟨addons, hc, hadd⟩, hfs⟩)
      · refine ⟨⟨addons, hc, nofun⟩, fun e he => ⟨ad, List.mem_cons_self, hes e he⟩⟩
      · rw [hsame rfl] at hc
        refine ⟨⟨addons, hc, fun hok => (hadd hok).trans hnext'.symm⟩, fun e he => ?_⟩
        rcases List.mem_append.mp he with he | he
        · exact ⟨ad, List.mem_cons_self, hes e he⟩
        · obtain ⟨ad', had', hcall⟩ := hfs e he
          exact ⟨ad', List.mem_cons_of_mem ad had', hcall⟩
    unfold reconcileAddonsFrom
    split
    · rename_i hphase
      have hcall : ad.settling = .uninstallAddon ad := if_pos hphase
      rw [← hcall]
      exact hnext (by rw [settleAddons_cons_removing hphase])
    · rename_i hphase
      have hkept : { ad with phase := .installed } = ad := by rw [← hphase]
      refine fun s => (ih fetched (next ++ [ad]) s).mono ?_
      rintro _ _ _ ⟨⟨addons, hc, hadd⟩, hes⟩
      refine ⟨⟨addons, hc, fun hok => ?_⟩, fun e he => ?_⟩
      · rw [hadd hok, settleAddons_cons (by simp [hphase]), hkept, List.append_assoc]
        rfl
      · obtain ⟨ad', had', hcall⟩ := hes e he
        exact ⟨ad', List.mem_cons_of_mem ad had', hcall⟩
    · rename_i hremoving _
      have hcall : ad.settling = .installAddon ad := if_neg hremoving
      rw [← hcall]
      exact hnext (by rw [settleAddons_cons hremoving, List.append_assoc]; rfl)

/-- **A pass over the add-ons.** -/
theorem recounts_reconcileAddons : Recounts (reconcileAddons ρ) Settles := by
  refine recounts_get fun s => (recounts_reconcileAddonsFrom false [] s.c.addons s).mono ?_
  rintro ok _ es ⟨⟨addons, rfl, hadd⟩, hes⟩
  cases ok with
  | true =>
    rw [hadd rfl]
    exact .settled hes
  | false => exact .stopped addons hes

theorem recounts_upgradeCNI {diff : BundleDiff} :
    Recounts (upgradeCNI ρ diff) (UpgradesCNI diff) := by
  refine fun s => recountsAt_unless (fun hskip => .skipped (by simpa using hskip)) fun hgo => ?_
  have hchanged : diff.cniChanged = true := by simpa using hgo
  exact recountsAt_call rfl (.failed hchanged) (.upgraded hchanged)

end Addons

/-! ### Rebuilding a machine -/

/-- The call that has a machine rebuilt although its spec is the same. -/
def forceCalls (force : Bool) (node : Node) : List Event :=
  if force then [⟨.replaceNode node.vmName, true⟩] else []

/-- The machine of `node` is built anew on `image`. -/
inductive Recreates (node : Node) (image : String) (force : Bool) (c : Cluster) :
    Bool → Cluster → List Event → Prop
  | refused : Recreates node image force c false c []
  | notReplaced (h : force = true) :
      Recreates node image force c false c [⟨.replaceNode node.vmName, false⟩]
  | ensureFailed : Recreates node image force c false c
      (forceCalls force node ++ [⟨.ensure c (rebuildSpecs c node image), false⟩])
  | recreated (reports : List ProvisionedNode) : Recreates node image force c true
      { c with nodes := toDomainNodes (rebuildSpecs c node image) reports }
      (forceCalls force node ++ [⟨.ensure c (rebuildSpecs c node image), true⟩])

/-- The row once the metrics of a control plane to be rebuilt count as gone. -/
def Cluster.unscraped (c : Cluster) (node : Node) : Cluster :=
  { c with monitoringWired := c.monitoringWired && node.role != .controlPlane }

/-- A worker is drained; a control plane leaves without a call that counts. -/
inductive TakesDown (node : Node) (c : Cluster) : Bool → Cluster → List Event → Prop
  | drained (ok : Bool) (h : node.role = .worker) :
      TakesDown node c ok c [⟨.removeWorkers [node], ok⟩]
  | left (ok : Bool) (h : node.role = .controlPlane) : TakesDown node c ok c []

theorem TakesDown.copy {node : Node} {c c' : Cluster} {ok : Bool} {es : List Event}
    (h : TakesDown node c ok c' es) : c' = c := by
  cases h <;> rfl

/-- A rebuilt worker has its disks mounted again. -/
inductive BringsUp (node : Node) (c : Cluster) : Bool → Cluster → List Event → Prop
  | failed : BringsUp node c false c []
  | joined (h : node.role = .controlPlane) : BringsUp node c true c []
  | mounted (h : node.role = .worker) (reports : List ProvisionedNode) {ok : Bool} {c' : Cluster}
      {es : List Event} (hm : Mounts { c with nodeDisks := observeDisks c.nodeDisks reports }
        ok c' es) : BringsUp node c ok c' es

/-- A node is replaced by a fresh one, from the check of the image on. -/
def Replaces (node : Node) (image : String) (force : Bool) : Part :=
  Then Idle (Then (Sets (·.unscraped node)) (Then (TakesDown node)
    (Then (Recreates node image force) (BringsUp node))))

/-- What a replacement leaves alone: everything but the nodes, the disks and the marker of the
metrics. -/
theorem leaves_replaces {δ : Type} {f : Cluster → δ} {node : Node} {image : String} {force : Bool}
    (hmonitoring : ∀ (c : Cluster) (b : Bool), f { c with monitoringWired := b } = f c)
    (hnodes : ∀ (c : Cluster) (nodes : List Node), f { c with nodes := nodes } = f c)
    (hdisks : ∀ (c : Cluster) (disks : List NodeDisk), f { c with nodeDisks := disks } = f c) :
    Leaves f (Replaces node image force) := by
  have hdown : Leaves f (TakesDown node) := fun c ok c' es h => by rw [h.copy]
  have hrecreates : Leaves f (Recreates node image force) := by
    rintro c ok c' es ⟨⟩
    exacts [rfl, rfl, rfl, hnodes c _]
  have hmounts : Leaves f Mounts := by
    rintro c ok c' es ⟨⟩
    exacts [rfl, hdisks c _]
  have hup : Leaves f (BringsUp node) := by
    rintro c ok c' es (_ | _ | ⟨hrole, reports, hm⟩)
    exacts [rfl, rfl, (hmounts hm).trans (hdisks c _)]
  exact Leaves.idle.after ((Leaves.sets fun c => hmonitoring c _).after (hdown.after
    (hrecreates.after hup)))

section Rebuilding

variable {r : Reconciler} {ρ : Env} {node : Node} {image : String} {force : Bool}

theorem recounts_recreateNodeVM :
    Recounts (recreateNodeVM r ρ node image force) (Recreates node image force) := by
  refine recounts_get fun s => ?_
  have hforce : Recounts (forceReplace r ρ s.c node force) fun c ok c' es =>
      c' = c ∧ (ok = true → es = forceCalls force node) ∧ (ok = false → es = [] ∨
        force = true ∧ es = [⟨.replaceNode node.vmName, false⟩]) := by
    unfold forceReplace
    refine recounts_ite (fun hskip => ?_) fun hforced => recounts_ite (fun _ => ?_) fun _ => ?_
    · have hfalse : force = false := by simpa using hskip
      intro t
      exact ⟨[], ⟨rfl, fun _ => by simp [forceCalls, hfalse], nofun⟩, (List.append_nil _).symm⟩
    · intro t
      exact ⟨[], ⟨rfl, nofun, fun _ => .inl rfl⟩, (List.append_nil _).symm⟩
    · have htrue : force = true := by simpa using hforced
      refine fun t => (recounts_perform rfl t).mono ?_
      rintro ok _ _ ⟨⟩
      refine ⟨rfl, ?_, ?_⟩
      · rintro rfl
        simp [forceCalls, htrue]
      · rintro rfl
        exact .inr ⟨htrue, rfl⟩
  refine (hforce.bind (fun _ => (recounts_perform rfl).bind fun _ => (recounts_modify _).bind
    fun _ => recounts_return _) s).mono ?_
  rintro _ _ _ (⟨rfl, -, hes⟩ | ⟨⟨rfl, hes, -⟩, ⟨⟨⟩⟩ | ⟨⟨⟩, ⟨⟨⟩⟩ | ⟨⟨⟩, ⟨⟩⟩⟩⟩)
  · rcases hes rfl with rfl | ⟨hforced, rfl⟩
    · exact .refused
    · exact .notReplaced hforced
  · rw [hes rfl]
    exact .ensureFailed
  · rw [hes rfl]
    exact .recreated _

private theorem recounts_takeDown {c : Cluster} :
    Recounts (takeDown ρ c node) (TakesDown node) := by
  unfold takeDown
  cases hrole : node.role with
  | worker =>
    refine fun s => (recounts_perform rfl s).mono ?_
    rintro ok _ _ ⟨⟩
    exact .drained ok hrole
  | controlPlane =>
    have hquiet : Recounts (if c.ha then perform ρ (.removeControlPlane node)
        else perform ρ (.backupControlPlane node)) Idle :=
      recounts_ite (fun _ => recounts_quiet rfl) fun _ => recounts_quiet rfl
    refine fun s => (hquiet s).mono ?_
    rintro ok _ _ ⟨⟩
    exact .left ok hrole

private theorem recounts_bringUp (reports : List ProvisionedNode) :
    Recounts (bringUp ρ node reports) (BringsUp node) := by
  refine recounts_get fun s => ?_
  cases hrole : node.role with
  | worker =>
    refine ((recounts_quiet rfl).bind (fun _ => (recounts_modify _).bind fun _ =>
      recounts_mountNodeDisks) s).mono ?_
    rintro _ _ _ (⟨⟨⟩⟩ | ⟨⟨⟩, ⟨⟨⟩⟩ | ⟨⟨⟩, hm⟩⟩)
    · exact .failed
    · exact .mounted hrole reports hm
  | controlPlane =>
    have hquiet : Recounts (if s.c.ha then
          perform ρ (.joinControlPlane (nodeByName s.c.nodes node.vmName))
        else perform ρ (.restoreControlPlane (nodeByName s.c.nodes node.vmName))) Idle :=
      recounts_ite (fun _ => recounts_quiet rfl) fun _ => recounts_quiet rfl
    refine (hquiet s).mono ?_
    rintro ok _ _ ⟨⟩
    cases ok with
    | true => exact .joined hrole
    | false => exact .failed

theorem recounts_replaceNode :
    Recounts (replaceNode r ρ node image force) (Replaces node image force) := by
  refine recounts_get fun s => ?_
  have hcheck : Recounts (checkImage r ρ s.c node image) Idle :=
    recounts_ite (fun _ => recounts_pure _) fun _ => recounts_quiet rfl
  exact hcheck.bind (fun _ => (recounts_modify _).bind fun _ => recounts_takeDown.bind fun _ =>
    recounts_recreateNodeVM.bind fun reports => recounts_bringUp reports) s

end Rebuilding

/-! ### A tick -/

/-- The machines and disks of an update. -/
def UpdatesMachines (ρ : Env) : Part :=
  Then Drains (Then ReleasesDisks (Then (Asks ρ) (Then Idle Mounts)))

/-- An update: machines and disks, add-ons, wiring. -/
def Updates (ρ : Env) : Part :=
  Then (UpdatesMachines ρ) (Then Settles (Then Wiring (Sets finishUpdate)))

/-- What the machines of an update leave alone: everything but the nodes, the disks and the marker
of the disks. -/
theorem leaves_updatesMachines {δ : Type} {f : Cluster → δ} {ρ : Env}
    (hreleased : ∀ (c : Cluster) (wired : String), f (c.released wired) = f c)
    (hprovisioned : ∀ (c : Cluster) (specs : List NodeSpec) (reports : List ProvisionedNode),
      f (c.provisioned specs reports) = f c)
    (hmounted : ∀ c : Cluster, f c.mounted = f c) : Leaves f (UpdatesMachines ρ) := by
  have hdrains : Leaves f Drains := fun c ok c' es h => by rw [h.copy]
  have hreleases : Leaves f ReleasesDisks := by
    rintro c ok c' es ⟨⟩
    exacts [rfl, rfl, hreleased c _]
  have hasks : Leaves f (Asks ρ) := by
    rintro c ok c' es ⟨⟩
    exacts [rfl, hprovisioned c _ _]
  have hmounts : Leaves f Mounts := by
    rintro c ok c' es ⟨⟩
    exacts [rfl, hmounted c]
  exact hdrains.after (hreleases.after (hasks.after (Leaves.idle.after hmounts)))

def EndsHop (bundleName : String) (dst : ResolvedBundle) (diff : BundleDiff) : Part :=
  Then Idle (Then
    (Then (Sets (·.setBundle bundleName dst)) (Then (UpgradesCNI diff)
      (Then (Sets fun c => { c with addons := c.addons.map (pinAddon dst) }) Settles)))
    (Then Rests (Then Scrapes (Sets finishHop))))

theorem only_endsHop {p : Event → Prop} {bundleName : String} {dst : ResolvedBundle}
    {diff : BundleDiff} (hcni : ∀ ok, p ⟨.installCNI, ok⟩) (hsettles : Only p Settles)
    (hscrapes : Only p Scrapes) : Only p (EndsHop bundleName dst diff) := by
  have hupgrades : Only p (UpgradesCNI diff) := by
    rintro c ok c' es ⟨⟩ <;> simp [hcni]
  exact Only.idle.after ((Only.sets.after (hupgrades.after (Only.sets.after hsettles))).after
    (only_rests.after (hscrapes.after Only.sets)))

/-- What the end of a hop leaves alone: everything but the versions, the add-ons, the marker of
the metrics and what is set at the very end. -/
theorem leaves_endsHop {δ : Type} {f : Cluster → δ} {bundleName : String} {dst : ResolvedBundle}
    {diff : BundleDiff} (hbundle : ∀ c : Cluster, f (c.setBundle bundleName dst) = f c)
    (hmonitoring : ∀ (c : Cluster) (b : Bool), f { c with monitoringWired := b } = f c)
    (haddons : ∀ (c : Cluster) (addons : List Addon), f { c with addons := addons } = f c)
    (hcore : ∀ c, f c.core = f c) (hfinish : ∀ c, f (finishHop c) = f c) :
    Leaves f (EndsHop bundleName dst diff) := by
  have hupgrades : Leaves f (UpgradesCNI diff) := by
    rintro c ok c' es ⟨⟩
    exacts [rfl, rfl, hmonitoring c false]
  exact Leaves.idle.after (((Leaves.sets hbundle).after (hupgrades.after ((Leaves.sets fun c =>
    haddons c _).after (leaves_settles haddons)))).after ((leaves_rests hcore).after
      ((leaves_scrapes fun c => hmonitoring c true).after (Leaves.sets hfinish))))

theorem EndsHop.addons {bundleName : String} {dst : ResolvedBundle} {diff : BundleDiff}
    {c c' : Cluster} {es : List Event} (h : EndsHop bundleName dst diff c true c' es) :
    c'.addons = settleAddons (c.addons.map (pinAddon dst)) := by
  obtain _ | ⟨⟨⟩, _ | ⟨_ | ⟨⟨⟩, _ | ⟨hcni, _ | ⟨⟨⟩, ⟨-⟩⟩⟩⟩, _ | ⟨⟨hc⟩, _ | ⟨hscrapes, ⟨⟩⟩⟩⟩⟩ := h
  have hfinish (c : Cluster) : (finishHop c).addons = c.addons := by
    unfold finishHop
    split <;> rfl
  rw [hfinish, leaves_scrapes (f := Cluster.addons) (fun _ => rfl) hscrapes,
    eq_of_core (f := Cluster.addons) (fun _ => rfl) hc]
  cases hcni <;> rfl

inductive Mends (c : Cluster) : Bool → Cluster → List Event → Prop
  | rested {ok : Bool} {c' : Cluster} (h : c'.core = c.core) : Mends c ok c' []
  | replaced {node : Node} (hnode : nodeToRepair .replace c = some node) {ok : Bool} {c' : Cluster}
      {es : List Event} (h : Replaces node (repairImage c node) true c ok c' es) : Mends c ok c' es
  | restored {node : Node} (hnode : nodeToRepair .restore c = some node) {ok : Bool} {c' : Cluster}
      {es : List Event} (h : Then (Recreates node (repairImage c node) true) Rests c ok c' es) :
      Mends c ok c' es

/-- **The account of a tick** on the row `c`. -/
inductive TickAccount (r : Reconciler) (ρ : Env) (c : Cluster) :
    Bool → Cluster → List Event → Prop
  | rested {ok : Bool} {c' : Cluster} (hc : c'.core = c.core) : TickAccount r ρ c ok c' []
  | provisioning (h : c.phase = .provisioningInfra) {ok : Bool} {c' : Cluster} {es : List Event}
      (ha : Then (Asks ρ) Rests c ok c' es) : TickAccount r ρ c ok c' es
  | networking (h : c.phase = .workersReady) {ok : Bool} {c' : Cluster} {es : List Event}
      (ha : Then (Makes fun _ => .installCNI) (Then Rests (Then Mounts Rests)) c ok c' es) :
      TickAccount r ρ c ok c' es
  | bringingUp (h : c.phase = .installingAddons) {ok : Bool} {c' : Cluster} {es : List Event}
      (ha : Then Settles (Then Wiring (Sets finishBringUp)) c ok c' es) :
      TickAccount r ρ c ok c' es
  | mended (h : c.phase = .repairing) {ok : Bool} {c₁ c' : Cluster} {es : List Event}
      (ha : Mends c ok c₁ es) (hc : c'.core = c₁.core) : TickAccount r ρ c true c' es
  | noHop (h : c.phase = .upgrading) (hhop : r.catalog.nextUpgrade c.bundle = none) :
      TickAccount r ρ c true
        { c with phase := .ready, targetBundle := "", observedGeneration := c.generation } []
  | rolled (h : c.phase = .upgrading) {node : Node} (hnode : nodeToRoll r c = some node)
      {ok : Bool} {c' : Cluster} {es : List Event}
      (ha : Replaces node (hopImage r c) false c ok c' es) : TickAccount r ρ c ok c' es
  | hopped (h : c.phase = .upgrading) {hop : Bundle} {src dst : ResolvedBundle}
      (hhop : r.catalog.nextUpgrade c.bundle = some hop)
      (hsrc : r.catalog.resolve c.bundle = .ok src) (hdst : r.catalog.resolve hop.name = .ok dst)
      (hroll : nodeToRoll r c = none) {ok : Bool} {c' : Cluster} {es : List Event}
      (ha : EndsHop hop.name dst (diffResolved src dst) c ok c' es) : TickAccount r ρ c ok c' es
  | updated (h : c.phase = .updating) {ok : Bool} {c' : Cluster} {es : List Event}
      (ha : Updates ρ c ok c' es) : TickAccount r ρ c ok c' es

section Tick

variable {r : Reconciler} {ρ : Env}

private theorem recounts_update : Recounts (update r ρ) (Updates ρ) := by
  have hmachines : Recounts (updateMachines ρ) (UpdatesMachines ρ) :=
    recounts_get fun s => (recountsAt_removeWorkers s).bind fun _ =>
      recounts_releaseRemovedDisks.bind fun _ => recounts_get fun t =>
        (recountsAt_ensureNodes t).bind fun _ => (recounts_quiet rfl).bind fun _ =>
          recounts_mountNodeDisks
  exact hmachines.bind fun _ => recounts_reconcileAddons.bind fun _ =>
    recounts_reconcileWiring.bind fun _ => recounts_modify _

private theorem recounts_endHop {bundleName : String} {dst : ResolvedBundle} {diff : BundleDiff} :
    Recounts (do
      upgradeInPlace ρ diff dst
      finalizeHop ρ bundleName dst diff
      modifyCluster fun c =>
        { c with
          certNotAfter := if diff.k8sChanged || diff.osChanged then none else c.certNotAfter }
      reconcileMonitoringWiring ρ
      modifyCluster finishHop) (EndsHop bundleName dst diff) := by
  have hinPlace : Recounts (upgradeInPlace ρ diff dst) Idle :=
    recounts_ite (fun _ => recounts_quiet rfl) fun _ => recounts_pure _
  have hfinalize : Recounts (finalizeHop ρ bundleName dst diff)
      (Then (Sets (·.setBundle bundleName dst)) (Then (UpgradesCNI diff)
        (Then (Sets fun c => { c with addons := c.addons.map (pinAddon dst) }) Settles))) :=
    (recounts_modify _).bind fun _ => recounts_upgradeCNI.bind fun _ =>
      (recounts_modify _).bind fun _ => recounts_reconcileAddons
  exact hinPlace.bind fun _ => hfinalize.bind fun _ =>
    .bind (rests_of_outside (outside_modify fun _ => rfl)) fun _ =>
      recounts_reconcileMonitoringWiring.bind fun _ => recounts_modify _

private theorem recountsAt_rollOneNode {s : TickState} (h : s.c.phase = .upgrading)
    (hroll : nodeToRoll r s.c = nextNodeToRoll s.c.nodes (hopImage r s.c)) :
    RecountsAt (rollOneNode r ρ (hopImage r s.c)) (TickAccount r ρ) s := by
  refine recountsAt_get ?_
  split
  · exact ⟨[], .rested rfl, (List.append_nil _).symm⟩
  · rename_i node hnode
    exact (recounts_replaceNode s).mono fun _ _ _ ha => .rolled h (hroll.trans hnode) ha

private theorem recountsAt_reconcileUpgrade {s : TickState} (h : s.c.phase = .upgrading) :
    RecountsAt (reconcileUpgrade r ρ) (TickAccount r ρ) s := by
  refine recountsAt_get ?_
  split
  · rename_i hnone
    refine (recounts_modify _ s).mono ?_
    rintro _ _ _ ⟨⟩
    exact .noHop h hnone
  · rename_i hop hhop
    split
    · rename_i src dst hsrc hdst
      refine recountsAt_get ?_
      have himage := hopImage_eq hhop hdst
      dsimp only
      split
      · rename_i hroll
        simp only [diffResolved, Bool.and_eq_true, bne_iff_ne, Bool.not_eq_true'] at hroll
        rw [← himage]
        exact recountsAt_rollOneNode h (himage ▸ nodeToRoll_eq hhop hsrc hdst hroll.1 hroll.2)
      · rename_i hstay
        have hroll : nodeToRoll r s.c = none := by
          simp only [diffResolved, Bool.and_eq_true, bne_iff_ne, Bool.not_eq_true'] at hstay
          simp only [nodeToRoll, hhop, hsrc, hdst]
          exact if_neg hstay
        exact (recounts_endHop s).mono fun _ _ _ ha => .hopped h hhop hsrc hdst hroll ha
    · exact ⟨[], .rested rfl, (List.append_nil _).symm⟩
    · exact ⟨[], .rested rfl, (List.append_nil _).symm⟩

private theorem recountsAt_runRepairAction {s : TickState} {node : Node} {action : RepairAction}
    (haction : s.c.repairState.action = some action)
    (hnode : nodeByNameOK s.c.nodes s.c.repairState.target = some node) :
    RecountsAt (runRepairAction r ρ s.c node action) Mends s := by
  have htarget : nodeToRepair action s.c = some node := by rw [nodeToRepair, if_pos haction, hnode]
  have hrest {m : Tick Unit} (hm : Within Outside m) : RecountsAt m Mends s :=
    (rests_of_outside hm s).mono fun _ _ _ ⟨hc⟩ => .rested hc
  cases action with
  | powerOn => exact hrest (.ite (.throw _) (outside_perform rfl))
  | restartKubelet => exact hrest (outside_perform rfl)
  | rejoin => exact hrest (.ite (outside_perform rfl) (outside_perform rfl))
  | replace => exact (recounts_replaceNode s).mono fun _ _ _ ha => .replaced htarget ha
  | restore =>
    refine recountsAt_get ?_
    split
    · exact ⟨[], .rested rfl, (List.append_nil _).symm⟩
    · have hrestore (n : Node) : Within Outside (restoreSnapshot r ρ n) := by
        refine (outside_perform rfl).bind fun _ => outside_getCluster.bind fun _ => ?_
        split
        · exact .throw _
        · exact (outside_perform rfl).bind fun _ => (outside_perform rfl).bind fun _ =>
            (outside_perform rfl).bind fun _ => outside_modify fun _ => rfl
      refine ((recounts_recreateNodeVM s).bind fun _ => recounts_get fun t =>
        rests_of_outside (hrestore _) t).mono fun _ _ _ ha => .restored htarget ha

/-- Whatever a repair comes to, the tick returns. -/
private theorem recountsAt_repair {s : TickState} (h : s.c.phase = .repairing) :
    RecountsAt (repair r ρ) (TickAccount r ρ) s := by
  have hexecute : Recounts (executeRepair r ρ) Mends := by
    refine recounts_get fun t => ?_
    split
    · rename_i action node haction hnode
      split
      · exact recountsAt_runRepairAction haction hnode
      · exact ⟨[], .rested rfl, (List.append_nil _).symm⟩
    · exact ⟨[], .rested rfl, (List.append_nil _).symm⟩
  refine ((hexecute.tryCatch fun _ => recounts_return ()).bind (fun _ => recounts_modify _)
    s).mono ?_
  rintro _ _ _ (⟨_ | ⟨_, ⟨⟩⟩⟩ | ⟨ha | ⟨ha, ⟨⟩⟩, ⟨⟩⟩)
  · rw [List.append_nil]
    exact .mended h ha rfl
  · rw [List.append_nil, List.append_nil]
    exact .mended h ha rfl

/-- **Every tick is as its account says.** -/
theorem tickAccount (r : Reconciler) (ρ : Env) (c : Cluster) :
    ∃ ok, TickAccount r ρ c ok (tickCopy r ρ c) (insideCalls (tickTrace r ρ c)) ∧
      tickResult r ρ c = if ok then some (tickCopy r ρ c) else none := by
  have hone : RecountsAt (reconcileOne r ρ) (TickAccount r ρ) { c := c } := by
    refine recountsAt_get ?_
    have hrest {m : Tick Unit} (hm : Within Outside m) :
        RecountsAt m (TickAccount r ρ) { c := c } :=
      (rests_of_outside hm _).mono fun _ _ _ ⟨hc⟩ => .rested hc
    cases h : c.phase
    case pending => exact hrest (outside_setPhase _)
    case provisioningInfra =>
      exact ((recountsAt_ensureNodes _).bind fun _ =>
        rests_of_outside (outside_setPhase _)).mono fun _ _ _ ha => .provisioning h ha
    case infraReady => exact hrest outside_initControlPlane
    case controlPlaneReady => exact hrest outside_joinWorkers
    case workersReady =>
      exact ((recounts_perform rfl).bind (fun _ =>
        (rests_of_outside outside_ensureViewerKubeconfig).bind fun _ =>
          recounts_mountNodeDisks.bind fun _ => rests_of_outside (outside_setPhase _)) _).mono
        fun _ _ _ ha => .networking h ha
    case installingAddons =>
      exact (recounts_reconcileAddons.bind (fun _ => recounts_reconcileWiring.bind fun _ =>
        recounts_modify _) _).mono fun _ _ _ ha => .bringingUp h ha
    case ready => exact hrest outside_reconcileReady
    case renewingCerts => exact hrest outside_reconcileCertRenewal
    case defragmentingEtcd => exact hrest outside_reconcileDefrag
    case snapshottingEtcd => exact hrest outside_reconcileSnapshot
    case repairing => exact recountsAt_repair h
    case upgrading => exact recountsAt_reconcileUpgrade h
    case updating => exact (recounts_update _).mono fun _ _ _ ha => .updated h ha
    case deleting => exact hrest outside_delete
    case deleted => exact hrest (.pure ())
    case failed => exact hrest (.pure ())
  obtain ⟨s, htrace, hcopy, ⟨hres, es, ha, hes⟩ | ⟨hres, es, ha, hes⟩⟩ :=
    tick_of_wp (Q := fun t => ∃ es, TickAccount r ρ c true t.c es ∧ insideCalls t.trace = [] ++ es)
      (E := fun t => ∃ es, TickAccount r ρ c false t.c es ∧ insideCalls t.trace = [] ++ es) hone
  · refine ⟨true, ?_, by rw [hres, hcopy]; rfl⟩
    rw [hcopy, htrace, hes]
    exact ha
  · refine ⟨false, ?_, hres⟩
    rw [hcopy, htrace, hes]
    exact ha

end Tick

end KaaS
