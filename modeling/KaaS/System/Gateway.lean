import KaaS.System.Watch

/-!
# The gateway serves HTTPS

The default gateway is set up by one call (`EnsureDefaultGateway`), which opens its HTTPS half only
if cert-manager is part of the cluster at that time. The marker `gatewayWired` keeps the call from
being made again, and nothing clears the marker. But cert-manager may be selected later,
when the gateway is already set up without it. And the tick that ends an upgrade hop installs
add-ons without setting up the gateway.

`gatewaySecured_of_latch` says that these are the only two ways: in every run that selects
cert-manager only before the latch closes, and whose hops end with the gateway set up or without
its parts selected, a cluster in which all parts are installed has had its gateway set up with
cert-manager in place.
-/

namespace KaaS

open Optimistic Effect Effect.Account

/-! ### The property -/

/-- A history in which each call stands with the copy its tick ended with. Between the setting up
of the gateway and the end of its tick nothing changes the add-ons. -/
abbrev CopyHistory := List (Entry Cluster (Event × Cluster))

/-- The call set up the gateway with cert-manager installed. -/
def setsUpHTTPS : Entry Cluster (Event × Cluster) → Bool
  | .did _ (e, c) => e == ⟨.ensureDefaultGateway, true⟩ && addonInstalled c "cert-manager"
  | .stored _ _ | .written _ _ => false

/-- The gateway was set up at a time when cert-manager was installed. -/
def secured (log : CopyHistory) : Bool := log.any setsUpHTTPS

def gatewayInstalled (c : Cluster) : Bool :=
  addonInstalled c "metallb" && addonInstalled c "envoy-gateway" && addonInstalled c "cert-manager"

def gatewaySelected (c : Cluster) : Bool :=
  addonSelected c "metallb" && addonSelected c "envoy-gateway" && addonSelected c "cert-manager"

/-- **HTTPS is not skipped**: a ready cluster that has observed its latest generation, with an
address and a domain and with all parts installed, has had its gateway set up for HTTPS. -/
def GatewaySecured (c : Cluster) (log : CopyHistory) : Prop :=
  c.phase = .ready → c.observedGeneration = c.generation → c.loadBalancerIP ≠ "" →
    c.appsDomain ≠ "" → gatewayInstalled c = true → secured log = true

instance (c : Cluster) (log : CopyHistory) : Decidable (GatewaySecured c log) :=
  inferInstanceAs (Decidable (_ → _ → _ → _ → _ → _))

/-- **The latch closes late**: cert-manager is selected only while the gateway is not set up, and
a tick that ends an upgrade hop finds the gateway set up, or one of its parts not selected. -/
def LatchesLate (r : Reconciler) (s : State Cluster (Event × Cluster)) :
    Input Env (Admission × Mutation) → Prop
  | .tick _ => s.copy = none → s.row.phase = .upgrading → nodeToRoll r s.row = none →
    s.row.loadBalancerIP ≠ "" → gatewaySelected s.row = true → s.row.gatewayWired = true
  | .write (_, m) => m.selects "cert-manager" = true →
    addonSelected s.row "cert-manager" = true ∨ s.row.gatewayWired = false
  | _ => True

instance (r : Reconciler) (s : State Cluster (Event × Cluster)) (i) :
    Decidable (LatchesLate r s i) :=
  match i with
  | .tick _ | .finish | .abandon | .write _ => by unfold LatchesLate; infer_instance

/-! ### The invariant -/

/-- A gateway that is set up was so with cert-manager in place, if that is selected; and where all
parts are installed, the gateway is set up. -/
structure GatewayInv (c : Cluster) (log : CopyHistory) : Prop where
  wired : c.gatewayWired = true → addonSelected c "cert-manager" = true → secured log = true
  installed : c.loadBalancerIP ≠ "" → gatewayInstalled c = true → c.gatewayWired = true

section Invariant

variable {r : Reconciler} {ρ : Env} {c c' : Cluster} {log : CopyHistory} {es : List Event}

private theorem secured_push {row : Cluster} (h : secured log = true)
    (es : List (Event × Cluster)) : secured (push row es log) = true := by
  obtain ⟨entry, hentry, hsets⟩ := List.any_eq_true.mp h
  exact List.any_eq_true.mpr ⟨entry, mem_push.mpr (.inr hentry), hsets⟩

/-- What decides about the gateway. -/
private def gatewayView (c : Cluster) : List Addon × Bool × String :=
  (c.addons, c.gatewayWired, c.loadBalancerIP)

private theorem GatewayInv.keep (h : GatewayInv c log) (hview : gatewayView c' = gatewayView c) :
    GatewayInv c' log := by
  obtain ⟨haddons, hwired, haddress⟩ : c'.addons = c.addons ∧ c'.gatewayWired = c.gatewayWired ∧
      c'.loadBalancerIP = c.loadBalancerIP := by
    simpa only [gatewayView, Prod.mk.injEq] using hview
  refine ⟨fun hw hselected => h.wired (hwired ▸ hw) ?_, fun hip hinstalled => ?_⟩
  · simpa only [addonSelected, haddons] using hselected
  · rw [hwired]
    refine h.installed (haddress ▸ hip) ?_
    simpa only [gatewayInstalled, addonInstalled, haddons] using hinstalled

/-- **The wiring** opens the gateway if its parts are there and it is not open yet. -/
private theorem gateway_of_wiring (h : Wiring c true c' es) :
    gatewayView c' = gatewayView c ∧ (gatewayWiringReady c = false ∨ c.gatewayWired = true) ∨
      gatewayView c' = gatewayView { c with gatewayWired := true } ∧
        gatewayWiringReady c = true ∧ ⟨.ensureDefaultGateway, true⟩ ∈ es := by
  obtain ⟨c₁, c₂, c₃, es₁, es₂, es₃, hscrapes, hopens, hcore, hregisters, rfl⟩ := h.parts
  have hfirst : gatewayView c₁ = gatewayView c ∧ gatewayWiringReady c₁ = gatewayWiringReady c :=
    ⟨leaves_scrapes (fun _ => rfl) hscrapes, leaves_scrapes (fun _ => rfl) hscrapes⟩
  have hlast : gatewayView c' = gatewayView c₂ :=
    (leaves_registersDisks (fun _ => rfl) hregisters).trans (eq_of_core (fun _ => rfl) hcore)
  have hwired : c₁.gatewayWired = c.gatewayWired := congrArg (·.2.1) hfirst.1
  cases hopens with
  | skipped hskip =>
    rw [hfirst.2, hwired] at hskip
    exact .inl ⟨hlast.trans hfirst.1, hskip⟩
  | wired hready =>
    refine .inr ⟨hlast.trans ?_, hfirst.2 ▸ hready, by simp⟩
    have hview := hfirst.1
    simp only [gatewayView, Prod.mk.injEq] at hview ⊢
    exact ⟨hview.1, trivial, hview.2.2⟩

/-- **Add-ons, then wiring**: the invariant comes out of it. -/
private theorem GatewayInv.settle {row : Cluster} (h : GatewayInv c log) {g : Cluster → Cluster}
    (hg : ∀ c, gatewayView (g c) = gatewayView c)
    (ha : Then Settles (Then Wiring (Sets g)) c true c' es) :
    GatewayInv c' (push row (es.map fun e => (e, c')) log) := by
  obtain _ | ⟨⟨hes⟩, _ | ⟨hwiring, ⟨⟩⟩⟩ := ha
  rename_i settling c₂ wiring
  let cs : Cluster := { c with addons := settleAddons c.addons }
  have hinstalled (name : String) : addonInstalled cs name = addonSelected c name :=
    addonInstalled_settled rfl name
  have hselected (name : String) : addonSelected cs name = addonSelected c name :=
    addonSelected_settled rfl name
  rcases gateway_of_wiring hwiring with ⟨hview, hskip⟩ | ⟨hview, hready, hcall⟩
  · refine GatewayInv.keep (c := cs) ⟨fun hwired hcert => ?_, fun hip hparts => ?_⟩
      ((hg c₂).trans hview)
    · exact secured_push (h.wired hwired (hselected _ ▸ hcert)) _
    · refine hskip.resolve_left (Bool.not_eq_false _ |>.mpr ?_)
      simp only [gatewayInstalled, Bool.and_eq_true] at hparts
      exact gatewayWiringReady_iff.mpr ⟨hip, fun _ => hparts.2, hparts.1.1, hparts.1.2⟩
  · refine GatewayInv.keep (c := { cs with gatewayWired := true })
      ⟨fun _ hcert => ?_, fun _ _ => rfl⟩ ((hg c₂).trans hview)
    have hcert' : addonInstalled cs "cert-manager" = true :=
      (gatewayWiringReady_iff.mp hready).2.1 hcert
    have haddons : (g c₂).addons = cs.addons := congrArg (·.1) ((hg c₂).trans hview)
    refine List.any_eq_true.mpr ⟨.did row (⟨.ensureDefaultGateway, true⟩, g c₂), ?_, ?_⟩
    · refine mem_push.mpr (.inl ⟨_, List.mem_map_of_mem (List.mem_append_right _ ?_), rfl⟩)
      exact List.mem_append_left _ hcall
    · rw [setsUpHTTPS, Bool.and_eq_true]
      refine ⟨by decide, ?_⟩
      simpa only [addonInstalled, haddons] using hcert'

/-- **A tick keeps the invariant**, with the row as it is and with its copy stored. -/
private theorem GatewayInv.tick {row : Cluster} (h : GatewayInv row log)
    (hhop : row.phase = .upgrading → nodeToRoll r row = none → row.loadBalancerIP ≠ "" →
      gatewaySelected row = true → row.gatewayWired = true)
    (ha : TickAccount r ρ row true c' es) :
    GatewayInv c' (push row (es.map fun e => (e, c')) log) := by
  have hpush : GatewayInv row (push row (es.map fun e => (e, c')) log) :=
    ⟨fun hw hs => secured_push (h.wired hw hs) _, h.installed⟩
  cases ha with
  | rested hc => exact hpush.keep (eq_of_core (fun _ => rfl) hc)
  | provisioning hphase ha =>
    obtain _ | ⟨⟨⟩, ⟨hc⟩⟩ := ha
    exact hpush.keep ((eq_of_core (f := gatewayView) (fun _ => rfl) hc).trans rfl)
  | networking hphase ha =>
    obtain _ | ⟨⟨⟩, _ | ⟨⟨hc⟩, _ | ⟨⟨⟩, ⟨hc'⟩⟩⟩⟩ := ha
    rename_i c₁
    have hkept : gatewayView c₁ = gatewayView row := eq_of_core (fun _ => rfl) hc
    exact hpush.keep ((eq_of_core (f := gatewayView) (fun _ => rfl) hc').trans hkept)
  | bringingUp hphase ha =>
    refine h.settle (fun c => ?_) ha
    unfold finishBringUp
    split <;> rfl
  | mended hphase ha hc =>
    refine hpush.keep ((eq_of_core (f := gatewayView) (fun _ => rfl) hc).trans ?_)
    cases ha with
    | rested hc' => exact eq_of_core (fun _ => rfl) hc'
    | replaced hnode ha =>
      exact leaves_replaces (fun _ _ => rfl) (fun _ _ => rfl) (fun _ _ => rfl) ha
    | restored hnode ha =>
      obtain ha | ⟨ha, ⟨hc'⟩⟩ := ha
      · cases ha <;> rfl
      · refine (eq_of_core (f := gatewayView) (fun _ => rfl) hc').trans ?_
        cases ha
        rfl
  | noHop hphase hnone => exact hpush.keep rfl
  | rolled hphase hnode ha =>
    exact hpush.keep (leaves_replaces (fun _ _ => rfl) (fun _ _ => rfl) (fun _ _ => rfl) ha)
  | hopped hphase hnext hsrc hdst hroll ha =>
    rename_i hop src dst
    have hfinish (c : Cluster) : ((finishHop c).gatewayWired, (finishHop c).loadBalancerIP) =
        (c.gatewayWired, c.loadBalancerIP) := by
      unfold finishHop
      split <;> rfl
    have hkept : (c'.gatewayWired, c'.loadBalancerIP) = (row.gatewayWired, row.loadBalancerIP) :=
      leaves_endsHop (f := fun c => (c.gatewayWired, c.loadBalancerIP)) (fun _ => rfl)
        (fun _ _ => rfl) (fun _ _ => rfl) (fun _ => rfl) hfinish ha
    obtain ⟨hwired, haddress⟩ := Prod.mk.inj hkept
    let pinned : Cluster := { row with addons := row.addons.map (pinAddon dst) }
    have hinstalled (name : String) : addonInstalled c' name = addonSelected row name :=
      (addonInstalled_settled (c := pinned) ha.addons name).trans (addonSelected_pinned rfl name)
    have hselected (name : String) : addonSelected c' name = addonSelected row name :=
      (addonSelected_settled (c := pinned) ha.addons name).trans (addonSelected_pinned rfl name)
    refine ⟨fun hw hcert => hpush.wired (hwired ▸ hw) (hselected _ ▸ hcert), fun hip hparts => ?_⟩
    rw [hwired]
    refine hhop hphase hroll (haddress ▸ hip) ?_
    simpa only [gatewayInstalled, gatewaySelected, hinstalled] using hparts
  | updated hphase ha =>
    obtain _ | ⟨hmachines, ha⟩ := ha
    rename_i c₁ machines rest
    have hkept : gatewayView c₁ = gatewayView row :=
      leaves_updatesMachines (fun _ _ => rfl) (fun _ _ _ => rfl) (fun _ => rfl) hmachines
    rw [List.map_append, push_append]
    refine GatewayInv.settle ⟨fun hw hs => ?_, (h.keep hkept).installed⟩ (fun c => ?_) ha
    · exact secured_push ((h.keep hkept).wired hw hs) _
    · unfold finishUpdate
      split <;> rfl

private theorem GatewayInv.edit {a : App} {adm : Admission} {m : Mutation} (h : GatewayInv c log)
    (hselects : m.selects "cert-manager" = true →
      addonSelected c "cert-manager" = true ∨ c.gatewayWired = false)
    (happly : a.apply adm m c = .ok (some c')) : GatewayInv c' log := by
  have hfrom := addons_of_apply happly
  have hinstalled {name : String} (hname : addonInstalled c' name = true) :
      addonInstalled c name = true := by
    obtain ⟨ad, had, rfl, hphase⟩ := addonInstalled_iff.mp hname
    obtain ⟨was, hwas, hsame, hphase⟩ := (hfrom ad had).installed hphase
    exact addonInstalled_iff.mpr ⟨was, hwas, hsame, hphase⟩
  obtain ⟨hwired, haddress⟩ : c'.gatewayWired = c.gatewayWired ∧
      c'.loadBalancerIP = c.loadBalancerIP := by
    cases edit_of_apply happly <;> exact ⟨rfl, rfl⟩
  refine ⟨fun hw hcert => ?_, fun hip hparts => ?_⟩
  · rw [hwired] at hw
    refine h.wired hw ?_
    obtain ⟨ad, had, hname, hphase⟩ := addonSelected_iff.mp hcert
    rcases (hfrom ad had).selected hphase with ⟨was, hwas, hsame, hphase⟩ | hasked
    · exact addonSelected_iff.mpr ⟨was, hwas, hsame.trans hname, hphase⟩
    · refine (hselects (hname ▸ hasked)).resolve_right ?_
      simp [hw]
  · rw [hwired]
    refine h.installed (haddress ▸ hip) ?_
    simp only [gatewayInstalled, Bool.and_eq_true] at hparts ⊢
    exact ⟨⟨hinstalled hparts.1.1, hinstalled hparts.1.2⟩, hinstalled hparts.2⟩

end Invariant

/-- **HTTPS is not skipped** in a run whose latch closes late. -/
theorem gatewaySecured_of_latch (P : Platform) (c : Cluster) (is : Platform.Inputs)
    (hc : Pristine P.app.catalog c)
    (hlate : P.WatchedAlong Prod.mk (LatchesLate P.reconciler) c is) :
    GatewaySecured (P.watched Prod.mk c is).row (P.watched Prod.mk c is).log := by
  have hinit : GatewayInv c [] := by
    refine ⟨by simp [hc.gateway], fun _ hparts => ?_⟩
    simp only [gatewayInstalled, Bool.and_eq_true] at hparts
    obtain ⟨ad, had, -, hphase⟩ := addonInstalled_iff.mp hparts.2
    simp [hc.addons ad had] at hphase
  have hinv := Platform.watched_invariant GatewayInv ?_ ?_ hinit hlate
  · intro _ _ hip _ hparts
    refine hinv.wired (hinv.installed hip hparts) ?_
    simp only [gatewayInstalled, Bool.and_eq_true] at hparts
    exact selected_of_installed hparts.2
  · intro s ρ ok c' es h hidle hcond hticked
    refine ⟨⟨fun hw hs => secured_push (h.wired hw hs) _, h.installed⟩, ?_⟩
    rintro rfl
    have htick := h.tick (hcond hidle) hticked.account
    exact ⟨fun hw hs => htick.wired hw hs, htick.installed⟩
  · intro s k c' h hcond happly
    have hedit := h.edit hcond happly
    exact ⟨fun hw hs => hedit.wired hw hs, hedit.installed⟩

def gatewayParts : List String := ["metallb", "envoy-gateway", "cert-manager"]

/-- All parts are selected from the beginning. -/
theorem gatewaySecured_bringUp :
    gatewayInstalled ((addonPlatform gatewayParts).watched Prod.mk (addonCluster gatewayParts)
      bringUpRun).row = true ∧
    GatewaySecured ((addonPlatform gatewayParts).watched Prod.mk (addonCluster gatewayParts)
        bringUpRun).row
      ((addonPlatform gatewayParts).watched Prod.mk (addonCluster gatewayParts) bringUpRun).log :=
  ⟨by decide +kernel, gatewaySecured_of_latch (addonPlatform gatewayParts)
    (addonCluster gatewayParts) bringUpRun (pristine_addonCluster _ _) (by decide +kernel)⟩

/-- A cluster is brought up without cert-manager, which is then selected. -/
def certManagerLater : Platform.Inputs :=
  bringUpRun ++ submit (.updateCluster { addons := some gatewayParts }) ++ pass {} ++ pass {}

theorem https_skipped :
    Pristine (addonCatalog gatewayParts) (addonCluster ["metallb", "envoy-gateway"]) ∧
    ¬GatewaySecured ((addonPlatform gatewayParts).watched Prod.mk
        (addonCluster ["metallb", "envoy-gateway"]) certManagerLater).row
      ((addonPlatform gatewayParts).watched Prod.mk (addonCluster ["metallb", "envoy-gateway"])
        certManagerLater).log :=
  ⟨pristine_addonCluster _ _, by decide +kernel⟩

end KaaS
