import KaaS.System.Watch

/-!
# Two add-ons of one name

An add-on of a row drives the Helm release of its name, and the bundle's CNI is installed as a
release of its own. So the names on a row should be different, and none should be the CNI's.

Nothing enforces that. A creation takes a **repeated** name for two add-ons, both a creation and an
update take the CNI's name for an add-on like any other, and an update that selects a **built-in**
does not look whether an add-on from a tenant's catalog has the name already (the check is made
only the other way around). Where the requests avoid the three, the names stay apart: an update
adds names the row does not have (`addonNames_of_apply`), and a tick only drops some
(`addonNames_of_tick`).
-/

namespace KaaS

open Optimistic Effect.Account

def Catalog.cniOf (cat : Catalog) (bundleName : String) : Option String :=
  (cat.bundle bundleName).map (·.cni)

/-- **No two add-ons drive one release**: their names are different, and none is the CNI's. -/
structure AddonsApart (cat : Catalog) (c : Cluster) : Prop where
  nodup : (c.addons.map (·.name)).Nodup
  cni : ∀ cni ∈ cat.cniOf c.bundle, cni ∉ c.addons.map (·.name)

instance (cat : Catalog) (c : Cluster) : Decidable (AddonsApart cat c) :=
  decidable_of_iff ((c.addons.map (·.name)).Nodup ∧
    ∀ cni ∈ cat.cniOf c.bundle, cni ∉ c.addons.map (·.name))
    ⟨fun h => ⟨h.1, h.2⟩, fun h => ⟨h.1, h.2⟩⟩

/-! ### Requests -/

/-- A creation asks for no built-in twice, and not for the CNI of the bundle it chooses. -/
structure CreateRequest.AsksApart (a : App) (req : CreateRequest) : Prop where
  nodup : ∀ names ∈ req.addons, names.Nodup
  cni : ∀ rb ∈ (a.chooseBundle req).toOption, ∀ cni ∈ a.catalog.cniOf rb.name,
    (∀ names ∈ req.addons, cni ∉ names) ∧ cni ∉ req.customAddons.map (·.name)

/-- A mutation asks neither for the CNI of the row's bundle nor for a built-in whose name an add-on
from a tenant's catalog has on the row. -/
def Mutation.AsksApart (cat : Catalog) (c : Cluster) (m : Mutation) : Prop :=
  (∀ cni ∈ cat.cniOf c.bundle, m.selects cni = false) ∧
    ∀ ad ∈ c.addons, ad.custom = true → m.selectsBuiltIn ad.name = false

instance (cat : Catalog) (c : Cluster) (m : Mutation) : Decidable (m.AsksApart cat c) :=
  inferInstanceAs (Decidable (_ ∧ _))

/-- The mutations of a run, none of them a promotion to another bundle, ask so where they are
made. -/
def MutatesApart (cat : Catalog) (s : State Cluster Event) :
    Input Env (Admission × Mutation) → Prop
  | .write (_, .promoteCluster _) => False
  | .write (_, m) => m.AsksApart cat s.row
  | _ => True

instance (cat : Catalog) (s : State Cluster Event) (i) : Decidable (MutatesApart cat s i) := by
  rcases i with _ | _ | _ | ⟨_, _ | _ | _ | _ | _ | _⟩ <;> unfold MutatesApart <;> infer_instance

/-! ### Steps -/

section Steps

variable {a : App} {r : Reconciler} {ρ : Env} {c c' : Cluster}

private theorem AddonsApart.create {adm : CreateAdmission} {req : CreateRequest}
    (hcat : a.catalog.validate = .ok ()) (hreq : req.AsksApart a)
    (h : a.createCluster adm req = .ok c) : AddonsApart a.catalog c := by
  obtain ⟨rb, builtIn, custom, hrb, hbundle, hnames, hperm, hnodup, hcustom⟩ :=
    addonNames_of_createCluster h
  obtain ⟨b, hb, hshipped⟩ := Catalog.names_of_resolve hcat (chooseBundle_ok hrb)
  have hcni := hreq.cni rb (by rw [hrb]; rfl)
  -- what is shipped with the bundle comes from a map without the CNI
  have hbuiltIn : builtIn.Nodup ∧ ∀ cni ∈ a.catalog.cniOf rb.name, cni ∉ builtIn := by
    rw [hperm.nodup_iff]
    simp only [hperm.mem_iff]
    cases hasked : req.addons with
    | some names =>
      exact ⟨hreq.nodup names hasked, fun cni hin => (hcni cni hin).1 names hasked⟩
    | none =>
      rw [Option.getD_none, hshipped.nodup_iff]
      refine ⟨b.addons.keys_nodup.filter _, fun cni hin hmem => ?_⟩
      rw [Catalog.cniOf, hb, Option.map_some, Option.mem_some_iff] at hin
      have hne := (List.mem_filter.mp (hshipped.mem_iff.mp hmem)).2
      simp [hin] at hne
  refine ⟨?_, fun cni hin => ?_⟩
  · rw [hnames]
    exact hbuiltIn.1.append hnodup fun n hn hn' => (hcustom n hn').1 hn
  · rw [hbundle] at hin
    rw [hnames, List.mem_append, not_or]
    exact ⟨hbuiltIn.2 cni hin, fun hmem => (hcni cni hin).2 (hcustom cni hmem).2⟩

/-- **An edit** adds names the row does not have. -/
private theorem AddonsApart.edit {adm : Admission} {m : Mutation} (h : AddonsApart a.catalog c)
    (hm : m.AsksApart a.catalog c) (happly : a.apply adm m c = .ok (some c')) :
    AddonsApart a.catalog c' := by
  obtain ⟨added, hnames, hnodup, hadded⟩ := addonNames_of_apply happly
  have hbundle : c'.bundle = c.bundle := by
    cases edit_of_apply happly <;> rfl
  refine ⟨?_, fun cni hin => ?_⟩
  · rw [hnames]
    refine h.nodup.append hnodup fun n hn hn' => ?_
    obtain ⟨hbuiltIn, ad, had, hcustom, rfl⟩ := (hadded n hn').2 hn
    rw [hm.2 ad had hcustom] at hbuiltIn
    exact absurd hbuiltIn Bool.false_ne_true
  · rw [hbundle] at hin
    rw [hnames, List.mem_append, not_or]
    refine ⟨h.cni cni hin, fun hmem => ?_⟩
    have hselects := (hadded cni hmem).1
    rw [hm.1 cni hin] at hselects
    exact absurd hselects Bool.false_ne_true

private theorem names_settleAddons_sublist (addons : List Addon) :
    ((settleAddons addons).map (·.name)).Sublist (addons.map (·.name)) := by
  rw [settleAddons, List.map_map]
  exact List.filter_sublist.map _

/-- **A tick outside an upgrade** only drops names. -/
theorem addonNames_of_tick {es : List Event} (h : TickAccount r ρ c true c' es)
    (hphase : c.phase ≠ .upgrading) :
    (c'.addons.map (·.name)).Sublist (c.addons.map (·.name)) := by
  -- add-ons are dropped where they are settled, and only there
  have hsettle {c₁ c₂ : Cluster} {g : Cluster → Cluster} {es : List Event}
      (hg : ∀ c, (g c).addons = c.addons)
      (ha : Then Settles (Then Wiring (Sets g)) c₁ true c₂ es) :
      (c₂.addons.map (·.name)).Sublist (c₁.addons.map (·.name)) := by
    obtain _ | ⟨⟨hes⟩, _ | ⟨hwiring, ⟨⟩⟩⟩ := ha
    rw [hg, leaves_wiring (f := Cluster.addons) (fun _ => rfl) (fun _ => rfl) (fun _ => rfl)
      (fun _ => rfl) hwiring]
    exact names_settleAddons_sublist _
  have hkept (h : c'.addons = c.addons) :
      (c'.addons.map (·.name)).Sublist (c.addons.map (·.name)) := by
    rw [h]
  cases h with
  | rested hc => exact hkept (eq_of_core (fun _ => rfl) hc)
  | provisioning _ ha =>
    obtain _ | ⟨⟨⟩, ⟨hc⟩⟩ := ha
    exact hkept ((eq_of_core (f := Cluster.addons) (fun _ => rfl) hc).trans rfl)
  | networking _ ha =>
    obtain _ | ⟨⟨⟩, _ | ⟨⟨hc⟩, _ | ⟨⟨⟩, ⟨hc'⟩⟩⟩⟩ := ha
    rename_i c₁
    have hsame : c₁.addons = c.addons := eq_of_core (fun _ => rfl) hc
    exact hkept ((eq_of_core (f := Cluster.addons) (fun _ => rfl) hc').trans hsame)
  | bringingUp _ ha =>
    refine hsettle (fun c => ?_) ha
    unfold finishBringUp
    split <;> rfl
  | mended _ ha hc =>
    refine hkept ((eq_of_core (f := Cluster.addons) (fun _ => rfl) hc).trans ?_)
    cases ha with
    | rested hc' => exact eq_of_core (fun _ => rfl) hc'
    | replaced _ ha =>
      exact leaves_replaces (fun _ _ => rfl) (fun _ _ => rfl) (fun _ _ => rfl) ha
    | restored _ ha =>
      obtain ha | ⟨ha, ⟨hc'⟩⟩ := ha
      · cases ha <;> rfl
      · refine (eq_of_core (f := Cluster.addons) (fun _ => rfl) hc').trans ?_
        cases ha
        rfl
  | noHop h _ | rolled h _ _ | hopped h _ _ _ _ _ => exact absurd h hphase
  | updated _ ha =>
    obtain _ | ⟨hmachines, ha⟩ := ha
    have hsame := leaves_updatesMachines (f := Cluster.addons) (fun _ _ => rfl)
      (fun _ _ _ => rfl) (fun _ => rfl) hmachines
    rw [← hsame]
    refine hsettle (fun c => ?_) ha
    unfold finishUpdate
    split <;> rfl

/-- No upgrade is under way or asked for. -/
private def NoUpgrade (c : Cluster) : Prop := c.targetBundle = "" ∧ c.phase ≠ .upgrading

private theorem NoUpgrade.tick {es : List Event} (hc : NoUpgrade c)
    (h : TickStep r c (some c') es) : NoUpgrade c' ∧ c'.bundle = c.bundle := by
  have hnotPending : c.upgradePending = false := by simp [Cluster.upgradePending, hc.1]
  generalize hres : some c' = res at h
  cases h with
  | failed | provisionFailed | mountFailed | updateFailed => simp at hres
  | noHop h | rolled h | nothingToRoll h | hopped h => exact absurd h hc.2
  | toUpgrading _ hpending => simp [hnotPending] at hpending
  | advance h =>
    obtain rfl := Option.some.inj hres
    refine ⟨⟨hc.1, ?_⟩, rfl⟩
    rintro rfl
    simp at h
  | broughtUp =>
    obtain rfl := Option.some.inj hres
    unfold finishBringUp
    split <;> exact ⟨⟨hc.1, by simp⟩, rfl⟩
  | timed _ _ _ hp =>
    obtain rfl := Option.some.inj hres
    refine ⟨⟨hc.1, ?_⟩, rfl⟩
    rintro rfl
    simp at hp
  | repaired _ hr =>
    obtain rfl := Option.some.inj hres
    cases hr with
    | replaced _ _ hr => cases hr <;> exact ⟨⟨hc.1, by simp⟩, rfl⟩
    | _ => exact ⟨⟨hc.1, by simp⟩, rfl⟩
  | updated =>
    obtain rfl := Option.some.inj hres
    unfold finishUpdate
    split <;> exact ⟨⟨hc.1, by simp⟩, rfl⟩
  | _ =>
    obtain rfl := Option.some.inj hres
    exact ⟨⟨hc.1, by simp⟩, rfl⟩

private theorem NoUpgrade.edit {adm : Admission} {m : Mutation} (hc : NoUpgrade c)
    (hm : ∀ target, m ≠ .promoteCluster target) (happly : a.apply adm m c = .ok (some c')) :
    NoUpgrade c' := by
  cases edit_of_apply happly with
  | promote => exact absurd rfl (hm _)
  | delete => exact ⟨hc.1, by simp⟩
  | _ => exact hc

end Steps

/-! ### Runs -/

/-- **The add-ons of a cluster stay apart** if the requests ask so: whatever is selected and
deselected, and wherever the reconciler is in between. -/
theorem addons_apart (P : Platform) (hcat : P.app.catalog.validate = .ok ())
    (adm : CreateAdmission) (req : CreateRequest) (c : Cluster)
    (hc : P.app.createCluster adm req = .ok c) (hreq : req.AsksApart P.app)
    (is : Platform.Inputs)
    (his : P.WatchedAlong Platform.eventOnly (MutatesApart P.app.catalog) c is) :
    AddonsApart P.app.catalog (P.watched Platform.eventOnly c is).row := by
  refine (Platform.watched_invariant
    (fun c _ => AddonsApart P.app.catalog c ∧ NoUpgrade c) ?_ ?_ ⟨.create hcat hreq hc, ?_⟩ his).1
  · rintro s ρ ok c' es ⟨hapart, hsettled⟩ - - hticked
    refine ⟨⟨hapart, hsettled⟩, ?_⟩
    rintro rfl
    obtain ⟨hsettled', hbundle⟩ := hsettled.tick hticked.step
    have hnames := addonNames_of_tick hticked.account hsettled.2
    refine ⟨⟨hnames.nodup hapart.nodup, fun cni hcni hin => ?_⟩, hsettled'⟩
    rw [hbundle] at hcni
    exact hapart.cni cni hcni (hnames.subset hin)
  · rintro s ⟨adm, m⟩ c' ⟨hapart, hsettled⟩ hm happly
    have hasks : m.AsksApart P.app.catalog s.row ∧ ∀ target, m ≠ .promoteCluster target := by
      cases m <;> first | exact ⟨hm, by simp⟩ | exact hm.elim
    exact ⟨hapart.edit hasks.1 happly, hsettled.edit hasks.2 happly⟩
  · simp only [App.createCluster, Guard.bind_eq_ok, Guard.pure_eq_ok] at hc
    obtain ⟨-, -, -, -, ⟨⟩, -, provider, -, rb, -, -, -, addons, -, custom, -, storageGB, -, -, -,
      -, -, net, -, rfl⟩ := hc
    exact ⟨rfl, by simp [App.newCluster]⟩

/-- A creation that selects add-ons by name. -/
def selectingRequest (names : List String) : CreateRequest where
  name := "demo"
  bundle := "r1"
  addons := some names

/-- The row it stores on a platform that knows two add-ons besides the CNI. -/
def selectingRow (names : List String) : Cluster :=
  (((addonPlatform ["metallb", "longhorn"]).app.createCluster { id := "1", ownerID := "alice" }
    (selectingRequest names)).toOption).getD {}

private theorem createCluster_selecting {names : List String}
    (h : ((addonPlatform ["metallb", "longhorn"]).app.createCluster
      { id := "1", ownerID := "alice" } (selectingRequest names)).toOption.isSome = true) :
    (addonPlatform ["metallb", "longhorn"]).app.createCluster { id := "1", ownerID := "alice" }
      (selectingRequest names) = .ok (selectingRow names) :=
  Guard.eq_ok_getD h {}

/-- One add-on is selected, then another, then the first is dropped. -/
def reselecting : Platform.Inputs :=
  bringUpRun ++ submit (.updateCluster { addons := some ["longhorn", "metallb", "longhorn"] }) ++
    submit (.updateCluster { addons := some ["longhorn"] }) ++ pass {} ++ pass {}

theorem addons_apart_reselecting :
    ((addonPlatform ["metallb", "longhorn"]).watched Platform.eventOnly (selectingRow ["metallb"])
      reselecting).row.addons.map (·.name) = ["longhorn"] ∧
    AddonsApart (addonCatalog ["metallb", "longhorn"])
      ((addonPlatform ["metallb", "longhorn"]).watched Platform.eventOnly
        (selectingRow ["metallb"]) reselecting).row :=
  ⟨by decide +kernel, addons_apart (addonPlatform ["metallb", "longhorn"]) (by decide +kernel)
    { id := "1", ownerID := "alice" } (selectingRequest ["metallb"]) (selectingRow ["metallb"])
    (createCluster_selecting (by decide +kernel)) ⟨by decide +kernel, by decide +kernel⟩
    reselecting (by decide +kernel)⟩

/-- A creation that names an add-on twice stores it twice. -/
theorem addon_twice :
    (addonPlatform ["metallb", "longhorn"]).app.createCluster { id := "1", ownerID := "alice" }
      (selectingRequest ["metallb", "metallb"]) = .ok (selectingRow ["metallb", "metallb"]) ∧
    ¬AddonsApart (addonCatalog ["metallb", "longhorn"]) (selectingRow ["metallb", "metallb"]) :=
  ⟨createCluster_selecting (by decide +kernel), by decide +kernel⟩

end KaaS
