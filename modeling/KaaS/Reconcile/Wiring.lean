import KaaS.Reconcile.Seam

/-!
# Wiring

Once its add-ons run, a cluster is wired to the platform: metrics, the default gateway, DNS,
Vault, the image registry and Longhorn's extra disks. Each wiring is guarded by a marker on
the row, so it runs once; the storage marker is a fingerprint and runs again when the disks
change. Deleting a cluster releases what it holds outside.
-/

namespace KaaS

open Effect

def addonInstalled (c : Cluster) (name : String) : Bool :=
  c.addons.any fun a => a.name == name && a.phase == .installed

/-- The cluster carries the add-on, and it is not being removed. -/
def addonSelected (c : Cluster) (name : String) : Bool :=
  c.addons.any fun ad => ad.name == name && ad.phase != .removing

theorem addonSelected_iff {c : Cluster} {name : String} :
    addonSelected c name = true ↔ ∃ ad ∈ c.addons, ad.name = name ∧ ad.phase ≠ .removing := by
  simp [addonSelected]

theorem addonInstalled_iff {c : Cluster} {name : String} :
    addonInstalled c name = true ↔ ∃ ad ∈ c.addons, ad.name = name ∧ ad.phase = .installed := by
  simp [addonInstalled]

theorem selected_of_installed {c : Cluster} {name : String} (h : addonInstalled c name = true) :
    addonSelected c name = true := by
  obtain ⟨ad, had, hname, hphase⟩ := addonInstalled_iff.mp h
  exact addonSelected_iff.mpr ⟨ad, had, hname, by simp [hphase]⟩

def monitoringInstalled (c : Cluster) : Bool := addonInstalled c "kube-prometheus-stack"

/-- The gateway's parts are installed, and cert-manager too if it is selected at all. -/
def gatewayWiringReady (c : Cluster) : Bool :=
  c.loadBalancerIP != "" &&
    !((c.addons.any fun a => a.name == "cert-manager" && a.phase != .removing) &&
      !addonInstalled c "cert-manager") &&
    addonInstalled c "metallb" && addonInstalled c "envoy-gateway"

theorem gatewayWiringReady_iff {c : Cluster} : gatewayWiringReady c = true ↔
    c.loadBalancerIP ≠ "" ∧
      (addonSelected c "cert-manager" = true → addonInstalled c "cert-manager" = true) ∧
      addonInstalled c "metallb" = true ∧ addonInstalled c "envoy-gateway" = true := by
  simp only [gatewayWiringReady, addonSelected, Bool.and_eq_true, bne_iff_ne,
    Bool.and_eq_false_iff, and_assoc, Bool.not_eq_eq_eq_not, Bool.not_true, Bool.not_false,
    imp_iff_not_or, Bool.not_eq_true]

def vaultWiringReady (c : Cluster) : Bool := addonInstalled c "external-secrets"

variable (r : Reconciler) (ρ : Env)

def reconcileMonitoringWiring : Tick Unit := do
  let c ← getCluster
  if !monitoringInstalled c || c.monitoringWired then pure ()
  else do
    perform ρ .ensureControlPlaneMetrics
    perform ρ .ensureCNIMetrics
    modifyCluster fun c => { c with monitoringWired := true }

def reconcileGatewayWiring : Tick Unit := do
  let c ← getCluster
  if !gatewayWiringReady c || c.gatewayWired then pure ()
  else do
    perform ρ .ensureDefaultGateway
    modifyCluster fun c => { c with gatewayWired := true }

def reconcileStorageWiring : Tick Unit := do
  let c ← getCluster
  if storageFingerprint c = c.storageWired ∨ !addonInstalled c "longhorn" then pure ()
  else do
    perform ρ .ensureLonghornDisks
    modifyCluster fun c => { c with storageWired := storageFingerprint c }

def reconcileDNSWiring : Tick Unit := do
  let c ← getCluster
  if !r.dns || c.appsDomain == "" || !c.gatewayWired || c.dnsWired then pure ()
  else do
    perform ρ .dnsEnsureCluster
    modifyCluster fun c => { c with dnsWired := true }

def reconcileVaultWiring : Tick Unit := do
  let c ← getCluster
  if !r.vault || c.vaultWired || !vaultWiringReady c then pure ()
  else do
    perform ρ .clusterOIDC
    perform ρ .vaultEnsureCluster
    perform ρ .ensureExternalSecrets
    modifyCluster fun c => { c with vaultWired := true }

def saveSecret (kind : SecretKind) : Tick Unit := do
  perform ρ .seal
  perform ρ (.saveSecret kind)

/-- The credential comes from the registry when it has just made the robot, and from the
sealed secret otherwise. -/
def registryCredential : Tick (Option Time) :=
  if !ρ.robotCreated then do
    perform ρ (.getSecret .registryPull)
      "registry: robot already exists but no stored credential for it: "
    pure ρ.storedRobotExpires
  else do
    saveSecret ρ .registryPull
    pure ρ.robotExpires

def reconcileRegistryWiring : Tick Unit := do
  let c ← getCluster
  if !r.registry || c.registryWired then pure ()
  else do
    perform ρ .registryEnsureCluster
    let expires ← registryCredential ρ
    modifyCluster fun c =>
      { c with registryRobotNotAfter := expires.or c.registryRobotNotAfter }
    perform ρ .ensureRegistryPullSecret
    modifyCluster fun c => { c with registryWired := true }

/-- All wirings, in the order in which add-on installation and updates run them. -/
def reconcileWiring : Tick Unit := do
  reconcileMonitoringWiring ρ
  reconcileGatewayWiring ρ
  reconcileDNSWiring r ρ
  reconcileVaultWiring r ρ
  reconcileRegistryWiring r ρ
  reconcileStorageWiring ρ

def releaseDNS : Tick Unit := do
  let c ← getCluster
  if !r.dns || c.appsDomain == "" then pure ()
  else do
    perform ρ .dnsReleaseCluster
    modifyCluster fun c => { c with dnsWired := false }

def releaseVault : Tick Unit :=
  if !r.vault then pure ()
  else do
    perform ρ .vaultReleaseCluster
    modifyCluster fun c => { c with vaultWired := false }

def releaseRegistry : Tick Unit :=
  if !r.registry then pure ()
  else do
    perform ρ .registryReleaseCluster
    modifyCluster fun c => { c with registryWired := false }

/-! ### The footprint of a wiring -/

/-- The calls the theorems about machines, drains and disks speak of. -/
def Call.infra : Call → Bool
  | ensureNodes _ _ | removeWorkers _ | ensureNodeDisks _ => true
  | _ => false

/-- The calls of a trace that concern machines, drains and mounts. -/
def infraCalls (trace : List Event) : List Event := trace.filter (·.call.infra)

@[simp] theorem infraCalls_append (t u : List Event) :
    infraCalls (t ++ u) = infraCalls t ++ infraCalls u := List.filter_append t u

structure Markers where
  monitoringWired : Bool
  gatewayWired : Bool
  dnsWired : Bool
  vaultWired : Bool
  registryWired : Bool
  registryRobotNotAfter : Option Time
  storageWired : String

def Cluster.setMarkers (c : Cluster) (w : Markers) : Cluster :=
  { c with
    monitoringWired := w.monitoringWired
    gatewayWired := w.gatewayWired
    dnsWired := w.dnsWired
    vaultWired := w.vaultWired
    registryWired := w.registryWired
    registryRobotNotAfter := w.registryRobotNotAfter
    storageWired := w.storageWired }

def Cluster.markers (c : Cluster) : Markers :=
  ⟨c.monitoringWired, c.gatewayWired, c.dnsWired, c.vaultWired, c.registryWired,
    c.registryRobotNotAfter, c.storageWired⟩

/-- **Only markers change**, and no machine, drain or mount is touched. -/
def Wires (s s' : TickState) : Prop :=
  (∃ w, s'.c = s.c.setMarkers w) ∧ infraCalls s'.trace = infraCalls s.trace

instance : IsPreorder TickState Wires where
  refl s := ⟨⟨s.c.markers, rfl⟩, rfl⟩
  trans := by
    rintro s t u ⟨⟨w, hw⟩, ht⟩ ⟨⟨v, hv⟩, hu⟩
    exact ⟨⟨v, by rw [hv, hw]; rfl⟩, hu.trans ht⟩

theorem wires_log {s : TickState} {k : Call} {ok : Bool} (hk : k.infra = false) :
    Wires s (s.log k ok) :=
  ⟨⟨s.c.markers, rfl⟩, by simp [infraCalls, hk]⟩

theorem wires_perform {ρ : Env} {k : Call} {context : String} (hk : k.infra = false) :
    Within Wires (perform ρ k context) :=
  fun _ => wp_perform (fun _ => wires_log hk) (fun _ => wires_log hk)

theorem wires_getCluster : Within Wires getCluster := fun s => refl_of Wires s

theorem wires_modify {f : Cluster → Cluster} (h : ∀ c, ∃ w, f c = c.setMarkers w) :
    Within Wires (modifyCluster f) :=
  fun s => ⟨h s.c, rfl⟩

variable {r ρ}

theorem wires_saveSecret (kind : SecretKind) : Within Wires (saveSecret ρ kind) :=
  (wires_perform rfl).bind fun _ => wires_perform rfl

/-- The common shape: a guard on the copy, calls, and the marker. -/
theorem wires_guarded {p : Cluster → Prop} [DecidablePred p] {m : Tick Unit}
    (hm : Within Wires m) : Within Wires (getCluster >>= fun c => if p c then pure () else m) :=
  wires_getCluster.bind fun _ => .ite (.pure ()) hm

theorem wires_reconcileMonitoringWiring : Within Wires (reconcileMonitoringWiring ρ) :=
  wires_guarded <| (wires_perform rfl).bind fun _ => (wires_perform rfl).bind fun _ =>
    wires_modify fun c => ⟨{ c.markers with monitoringWired := true }, rfl⟩

theorem wires_reconcileGatewayWiring : Within Wires (reconcileGatewayWiring ρ) :=
  wires_guarded <| (wires_perform rfl).bind fun _ =>
    wires_modify fun c => ⟨{ c.markers with gatewayWired := true }, rfl⟩

theorem wires_reconcileStorageWiring : Within Wires (reconcileStorageWiring ρ) :=
  wires_guarded <| (wires_perform rfl).bind fun _ =>
    wires_modify fun c => ⟨{ c.markers with storageWired := storageFingerprint c }, rfl⟩

theorem wires_reconcileDNSWiring : Within Wires (reconcileDNSWiring r ρ) :=
  wires_guarded <| (wires_perform rfl).bind fun _ =>
    wires_modify fun c => ⟨{ c.markers with dnsWired := true }, rfl⟩

theorem wires_reconcileVaultWiring : Within Wires (reconcileVaultWiring r ρ) :=
  wires_guarded <| (wires_perform rfl).bind fun _ => (wires_perform rfl).bind fun _ =>
    (wires_perform rfl).bind fun _ =>
      wires_modify fun c => ⟨{ c.markers with vaultWired := true }, rfl⟩

theorem wires_registryCredential : Within Wires (registryCredential ρ) :=
  .ite ((wires_perform rfl).bind fun _ => .pure _)
    ((wires_saveSecret _).bind fun _ => .pure _)

theorem wires_reconcileRegistryWiring : Within Wires (reconcileRegistryWiring r ρ) :=
  wires_guarded <| (wires_perform rfl).bind fun _ => wires_registryCredential.bind fun expires =>
    (wires_modify fun c => ⟨{ c.markers with
      registryRobotNotAfter := expires.or c.registryRobotNotAfter }, rfl⟩).bind fun _ =>
        (wires_perform rfl).bind fun _ =>
          wires_modify fun c => ⟨{ c.markers with registryWired := true }, rfl⟩

/-- **Wiring touches markers only.** -/
theorem wires_reconcileWiring : Within Wires (reconcileWiring r ρ) :=
  wires_reconcileMonitoringWiring.bind fun _ => wires_reconcileGatewayWiring.bind fun _ =>
    wires_reconcileDNSWiring.bind fun _ => wires_reconcileVaultWiring.bind fun _ =>
      wires_reconcileRegistryWiring.bind fun _ => wires_reconcileStorageWiring

theorem wires_releaseDNS : Within Wires (releaseDNS r ρ) :=
  wires_guarded <| (wires_perform rfl).bind fun _ =>
    wires_modify fun c => ⟨{ c.markers with dnsWired := false }, rfl⟩

theorem wires_releaseVault : Within Wires (releaseVault r ρ) :=
  .ite (.pure ()) ((wires_perform rfl).bind fun _ =>
    wires_modify fun c => ⟨{ c.markers with vaultWired := false }, rfl⟩)

theorem wires_releaseRegistry : Within Wires (releaseRegistry r ρ) :=
  .ite (.pure ()) ((wires_perform rfl).bind fun _ =>
    wires_modify fun c => ⟨{ c.markers with registryWired := false }, rfl⟩)

end KaaS
