import KaaS.App.Selection

/-!
# Creating a cluster

`App.createCluster` is the row a cluster begins with: pools and versions from the request and
the catalog, the platform disk of every worker, generation one, and nothing provisioned yet.
Addresses and the DNS domain are allocated against the other clusters and come in as answers
(`CreateAdmission`). What runs of the system start from is `Created`.
-/

namespace KaaS

open Text Guard

structure CreateRequest where
  name : String := ""
  size : String := ""
  nodePools : List NodePool := []
  ha : Bool := false
  bundle : String := ""
  addons : Option (List String) := none
  addonValues : AList (fun _ : String => String) := ∅
  customAddons : List CustomAddonRef := []
  networkCIDR : String := ""
  provider : String := ""
  apiVIP : String := ""
  loadBalancerIP : String := ""
  storageDiskGB : Option Int := none

structure Addressing where
  networkCIDR : String := ""
  networkName : String := ""
  ipMode : String := ""
  netGateway : String := ""
  netDNS : String := ""
  staticIPs : AList (fun _ : String => String) := ∅
  apiVIP : String := ""
  loadBalancerIP : String := ""
  appsDomain : String := ""

/-- What creating a cluster depends on besides the request and the catalog. -/
structure CreateAdmission extends Admission where
  id : String := ""
  ownerID : String := ""
  nameTaken : Bool := false
  bundleAddonsOptional : Bool := false
  infraProviders : List String := [providerKVM]
  addressing : Cluster → Except String Addressing := fun _ => .ok {}

def defaultPoolName : String := "default"

def defaultStorageDiskGB : Int := 10

def haControlPlanes : Int := 3

def longhornAddon : String := "longhorn"

/-- Every cluster is born with a pool named `default`. -/
def ensureDefaultPool (pools : List NodePool) (size : String) : List NodePool :=
  if pools.any (·.name == defaultPoolName) then pools
  else { name := defaultPoolName, size := size } :: pools

/-- A supported bundle that no other supersedes. -/
def Catalog.latestSupportedBundle (cat : Catalog) : Option Bundle :=
  cat.bundles.find? fun b =>
    b.status == .supported &&
      !((cat.bundles.filter (·.supersedes != "")).map (·.supersedes)).contains b.name

def resolveProvider (enabled : List String) (requested : String) : Except String String :=
  let p := (trimSpace requested).toLower
  if p = "" then pure (enabled.headD "")
  else if enabled.contains p then pure p
  else throw ("infrastructure provider " ++ quote requested ++ " is not enabled (available: " ++
    join ", " enabled ++ ")")

/-- The size of the platform disks; without Longhorn there are none. -/
def storageDiskGB (req : CreateRequest) (addons : List Addon) : Except String Int :=
  let size := req.storageDiskGB.getD defaultStorageDiskGB
  if size = 0 then pure 0
  else do
    refuseIf (size < minDiskGB ∨ size > maxDiskGB) ("storage disk size must be 0 or between " ++
      toString minDiskGB ++ " and " ++ toString maxDiskGB ++ " GB, got " ++ toString size)
    pure (if addons.any (·.name == longhornAddon) then size else 0)

namespace App

variable (a : App) (adm : CreateAdmission)

def addonPriority (name : String) : Int := ((a.catalog.addon name).map (·.priority)).getD 0

/-- Bundled add-ons before optional ones, then by priority and name. -/
def sortForInstall (rb : ResolvedBundle) (l : List Addon) : List Addon :=
  let bundled (ad : Addon) : Bool :=
    ((a.catalog.bundle rb.name).map fun b => decide (ad.name ∈ b.addons)).getD false
  l.insertionSort fun x y =>
    if bundled x ≠ bundled y then bundled x
    else a.addonPriority x.name < a.addonPriority y.name ∨
      a.addonPriority x.name = a.addonPriority y.name ∧ x.name ≤ y.name

def requestedAddon (rb : ResolvedBundle) (name : String) : Except String Addon :=
  match (a.catalog.bundle rb.name).bind (·.addons.lookup name), a.catalog.addon name with
  | some version, _ => pure { name := name, version := version, phase := .pending }
  | none, some ca => pure { name := name, version := ca.version, phase := .pending }
  | none, none => throw ("unknown add-on " ++ quote name)

def overrideValues (overrides : AList fun _ : String => String) (ad : Addon) :
    Except String Addon :=
  match overrides.lookup ad.name with
  | none => pure ad
  | some ov =>
    if trimSpace ov = "" then pure ad
    else do
      (adm.validValues ov).mapError fun e => "add-on " ++ quote ad.name ++ " values: " ++ e
      pure { ad with valuesOverride := ov }

/-- A present selection may drop the bundle's own add-ons only where that is allowed. -/
def checkBundled (rb : ResolvedBundle) (requested : List String) : Except String Unit :=
  let missing := (rb.addons.filter fun ad => !requested.contains ad.name).map (·.name)
  refuseIf (!adm.bundleAddonsOptional ∧ missing ≠ []) ("add-ons " ++ join ", " missing ++
    " ship with bundle " ++ rb.name ++ " and cannot be deselected at create time (they can be " ++
    "removed once the cluster is Ready; a deployment may set KAAS_BUNDLE_ADDONS_OPTIONAL=true " ++
    "to allow it here)")

def resolveAddons (rb : ResolvedBundle) (requested : Option (List String))
    (overrides : AList fun _ : String => String) : Except String (List Addon) := do
  let chosen ← match requested with
    | none => pure (rb.addons.map fun ad =>
        { name := ad.name, version := ad.version, phase := .pending })
    | some names => do
      checkBundled adm rb names
      names.mapM (a.requestedAddon rb)
  let out ← chosen.mapM (overrideValues adm overrides)
  pure (a.sortForInstall rb out)

def newCluster (req : CreateRequest) (provider : String) (rb : ResolvedBundle)
    (addons : List Addon) (storageGB : Int) : Cluster :=
  let size := if req.size = "" then "small" else req.size
  let c : Cluster :=
    { id := adm.id
      name := req.name
      ownerID := adm.ownerID
      size := size
      nodePools := ensureDefaultPool req.nodePools size
      controlPlanes := if req.ha then haControlPlanes else 1
      provider := provider
      bundle := rb.name
      osImage := rb.os.name
      k8sVersion := rb.kubernetes
      cni := rb.cni.name
      cniVersion := rb.cni.version
      phase := .pending
      generation := 1
      addons := addons
      storageDiskGB := storageGB }
  { c with nodeDisks := syncStorageDisks a.md5 c }

/-- The bundle a request names, or the latest supported one. -/
def chooseBundle (req : CreateRequest) : Except String ResolvedBundle :=
  if req.bundle ≠ "" then a.catalog.resolve req.bundle
  else match a.catalog.latestSupportedBundle with
    | none => throw "no supported release bundle in catalog"
    | some b => a.catalog.resolve b.name

def createCluster (req : CreateRequest) : Except String Cluster := do
  refuseIf (req.name = "") "name is required"
  let size := if req.size = "" then "small" else req.size
  refuseIf (sizes size = none) ("unknown size " ++ quote size)
  validateNodePools req.name (ensureDefaultPool req.nodePools size)
  let provider ← resolveProvider adm.infraProviders req.provider
  let rb ← a.chooseBundle req
  refuseIf adm.nameTaken ("cluster " ++ quote req.name ++ " already exists")
  let addons ← a.resolveAddons adm rb req.addons req.addonValues
  let custom ← resolveCustomAddonsFrom adm.toAdmission (addons.map (·.name)) [] req.customAddons
  let storageGB ← storageDiskGB req (addons ++ custom)
  let c := a.newCluster adm req provider rb (addons ++ custom) storageGB
  adm.ownerBudget c
  adm.providerCapacity c
  let net ← adm.addressing c
  pure { c with
    networkCIDR := net.networkCIDR
    networkName := net.networkName
    ipMode := net.ipMode
    netGateway := net.netGateway
    netDNS := net.netDNS
    staticIPs := net.staticIPs
    apiVIP := net.apiVIP
    loadBalancerIP := net.loadBalancerIP
    appsDomain := net.appsDomain }

end App

/-! ### The first row -/

/-- **What a cluster begins with**: nothing provisioned, nothing observed, pools and disks that
passed validation, and the versions of its bundle. -/
structure Created (cat : Catalog) (c : Cluster) : Prop where
  phase : c.phase = .pending
  nodes : c.nodes = []
  behind : c.observedGeneration < c.generation
  target : c.targetBundle = ""
  pools : PoolNames c.nodePools
  disks : DiskKeys c
  fresh : ∀ d ∈ c.nodeDisks, d.phase = .pending ∧ d.deviceID = ""
  versions : ∃ rb, cat.resolve c.bundle = .ok rb ∧ c.osImage = rb.os.name ∧
    c.k8sVersion = rb.kubernetes

private theorem resolve_name {cat : Catalog} {n : String} {rb : ResolvedBundle}
    (h : cat.resolve n = .ok rb) : rb.name = n := by
  unfold Catalog.resolve at h
  split at h
  · simp at h
  · rename_i b hb
    obtain rfl := Except.ok.inj h
    simpa using List.find?_some hb

theorem chooseBundle_ok {a : App} {req : CreateRequest} {rb : ResolvedBundle}
    (h : a.chooseBundle req = .ok rb) : a.catalog.resolve rb.name = .ok rb := by
  unfold App.chooseBundle at h
  split at h
  · rw [resolve_name h, h]
  · split at h
    · simp at h
    · rw [resolve_name h, h]

/-- **Every new cluster** begins so. -/
theorem created_of_createCluster {a : App} {adm : CreateAdmission} {req : CreateRequest}
    {c : Cluster} (h : a.createCluster adm req = .ok c) : Created a.catalog c := by
  simp only [App.createCluster, bind_eq_ok, pure_eq_ok] at h
  obtain ⟨-, -, -, -, ⟨⟩, hpools, provider, -, rb, hrb, -, -, addons, -, custom, -, storageGB, -,
    -, -, -, -, net, -, rfl⟩ := h
  have hnames := poolNames_of_validateNodePools hpools
  refine ⟨rfl, rfl, Nat.one_pos, rfl, hnames, ?_, ?_, rb, chooseBundle_ok hrb, rfl, rfl⟩
  · have hnone : DiskKeys { a.newCluster adm req provider rb (addons ++ custom) storageGB with
        nodeDisks := [] } := ⟨by simp, by simp⟩
    exact ⟨(hnone.sync a.md5 hnames).nodup, (hnone.sync a.md5 hnames).on_worker⟩
  · intro d hd
    exact (mem_syncStorageDisks hd).resolve_left List.not_mem_nil

/-- **What a cluster begins without**, besides: no add-on is installed yet, nothing is wired, and
the only disks are the platform's. -/
structure Pristine (cat : Catalog) (c : Cluster) : Prop extends Created cat c where
  addons : ∀ ad ∈ c.addons, ad.phase = .pending
  monitoring : c.monitoringWired = false
  gateway : c.gatewayWired = false
  storage : c.storageWired = ""
  platform : ∀ d ∈ c.nodeDisks, d.isPlatformStorage = true

private theorem requestedAddon_ok {a : App} {rb : ResolvedBundle} {name : String} {ad : Addon}
    (h : a.requestedAddon rb name = .ok ad) : ad.name = name ∧ ad.phase = .pending := by
  unfold App.requestedAddon at h
  split at h
  · rw [pure_eq_ok] at h
    exact h ▸ ⟨rfl, rfl⟩
  · rw [pure_eq_ok] at h
    exact h ▸ ⟨rfl, rfl⟩
  · simp at h

private theorem overrideValues_ok {adm : CreateAdmission}
    {overrides : AList fun _ : String => String} {ad ad' : Addon}
    (h : App.overrideValues adm overrides ad = .ok ad') :
    ad'.name = ad.name ∧ ad'.phase = ad.phase := by
  unfold App.overrideValues at h
  split at h
  · rw [pure_eq_ok] at h
    exact h ▸ ⟨rfl, rfl⟩
  · split at h
    · rw [pure_eq_ok] at h
      exact h ▸ ⟨rfl, rfl⟩
    · simp only [bind_eq_ok, pure_eq_ok] at h
      obtain ⟨-, -, rfl⟩ := h
      exact ⟨rfl, rfl⟩

/-- **The resolved selection**: pending add-ons of the requested names, each as often as it is
requested, or those of the bundle. -/
private theorem resolveAddons_ok {a : App} {adm : CreateAdmission} {rb : ResolvedBundle}
    {requested : Option (List String)} {overrides : AList fun _ : String => String}
    {addons : List Addon} (h : a.resolveAddons adm rb requested overrides = .ok addons) :
    (∀ ad ∈ addons, ad.phase = .pending) ∧
      (addons.map (·.name)).Perm (requested.getD (rb.addons.map (·.name))) := by
  -- the chosen ones are pending, and overriding values and sorting do not change that
  have hchosen {chosen : List Addon} (hpending : ∀ ad ∈ chosen, ad.phase = .pending)
      (h : (do
        let out ← chosen.mapM (App.overrideValues adm overrides)
        pure (a.sortForInstall rb out)) = .ok addons) :
      (∀ ad ∈ addons, ad.phase = .pending) ∧
        (addons.map (·.name)).Perm (chosen.map (·.name)) := by
    simp only [bind_eq_ok, pure_eq_ok] at h
    obtain ⟨out, hout, rfl⟩ := h
    constructor
    · intro ad had
      obtain ⟨was, hwas, hok⟩ := exists_of_mapM_eq_ok hout (List.mem_insertionSort _ |>.mp had)
      exact (overrideValues_ok hok).2.trans (hpending was hwas)
    · rw [← map_eq_of_mapM_eq_ok (fun _ _ h => (overrideValues_ok h).1) hout]
      exact (List.perm_insertionSort _ _).map _
  unfold App.resolveAddons at h
  split at h
  · refine (hchosen (fun ad had => ?_) h).imp_right fun hnames => ?_
    · obtain ⟨was, -, rfl⟩ := List.mem_map.mp had
      rfl
    · rw [List.map_map] at hnames
      exact hnames
  · simp only [bind_eq_ok] at h
    obtain ⟨-, -, chosen, hmap, h⟩ := h
    rw [Option.getD_some, ← map_of_mapM_eq_ok (fun _ _ h => (requestedAddon_ok h).1) hmap]
    refine hchosen (fun ad had => ?_) (by simpa only [bind_eq_ok] using h)
    obtain ⟨name, -, hok⟩ := exists_of_mapM_eq_ok hmap had
    exact (requestedAddon_ok hok).2

/-- **The add-ons a new cluster is given**: those asked for by name, or those of the bundle, and
then others from tenants' catalogs. -/
theorem addonNames_of_createCluster {a : App} {adm : CreateAdmission} {req : CreateRequest}
    {c : Cluster} (h : a.createCluster adm req = .ok c) :
    ∃ rb builtIn custom, a.chooseBundle req = .ok rb ∧ c.bundle = rb.name ∧
      c.addons.map (·.name) = builtIn ++ custom ∧
      builtIn.Perm (req.addons.getD (rb.addons.map (·.name))) ∧ custom.Nodup ∧
      ∀ n ∈ custom, n ∉ builtIn ∧ n ∈ req.customAddons.map (·.name) := by
  simp only [App.createCluster, bind_eq_ok, pure_eq_ok] at h
  obtain ⟨-, -, -, -, ⟨⟩, -, provider, -, rb, hrb, -, -, addons, haddons, custom, hcustom,
    storageGB, -, -, -, -, -, net, -, rfl⟩ := h
  obtain ⟨hnodup, hfresh⟩ := nodup_resolveCustomAddonsFrom hcustom
  refine ⟨rb, _, _, hrb, rfl, List.map_append, (resolveAddons_ok haddons).2, hnodup, ?_⟩
  rintro n hn
  obtain ⟨ad, had, rfl⟩ := List.mem_map.mp hn
  exact ⟨(hfresh ad had).1, (resolveCustomAddonsFrom_ok hcustom ad had).2⟩

/-- **Who and what** a new cluster is: its id and owner are the call's, its name was not taken,
and its addresses are those it was given. -/
theorem identity_of_createCluster {a : App} {adm : CreateAdmission} {req : CreateRequest}
    {c : Cluster} (h : a.createCluster adm req = .ok c) :
    c.id = adm.id ∧ c.ownerID = adm.ownerID ∧ c.name = req.name ∧ adm.nameTaken = false ∧
      ∃ c₀ net, c₀.name = req.name ∧ adm.addressing c₀ = .ok net ∧
        c.appsDomain = net.appsDomain ∧ c.loadBalancerIP = net.loadBalancerIP := by
  simp only [App.createCluster, bind_eq_ok, pure_eq_ok, refuseIf_eq_ok] at h
  obtain ⟨-, -, -, -, ⟨⟩, -, provider, -, rb, -, -, htaken, addons, -, custom, -, storageGB, -,
    -, -, -, -, net, hnet, rfl⟩ := h
  exact ⟨rfl, rfl, rfl, by simpa using htaken, _, net, rfl, hnet, rfl, rfl⟩

def Cluster.addressed (c : Cluster) (net : Addressing) : Cluster :=
  { c with
    networkCIDR := net.networkCIDR
    networkName := net.networkName
    ipMode := net.ipMode
    netGateway := net.netGateway
    netDNS := net.netDNS
    staticIPs := net.staticIPs
    apiVIP := net.apiVIP
    loadBalancerIP := net.loadBalancerIP
    appsDomain := net.appsDomain }

/-- **The addresses of a new cluster** were given to it after everything else was decided. -/
theorem addressed_of_createCluster {a : App} {adm : CreateAdmission} {req : CreateRequest}
    {c : Cluster} (h : a.createCluster adm req = .ok c) :
    ∃ c₀ net, adm.addressing c₀ = .ok net ∧ c = c₀.addressed net ∧ c₀.id = adm.id ∧
      c₀.deletedAt = none ∧ c₀.ha = req.ha ∧ PoolNames c₀.nodePools := by
  simp only [App.createCluster, bind_eq_ok, pure_eq_ok] at h
  obtain ⟨-, -, -, -, ⟨⟩, hpools, provider, -, rb, -, -, -, addons, -, custom, -, storageGB, -,
    -, -, -, -, net, hnet, rfl⟩ := h
  refine ⟨_, net, hnet, rfl, rfl, rfl, ?_, poolNames_of_validateNodePools hpools⟩
  cases hha : req.ha <;> simp [App.newCluster, Cluster.ha, Cluster.controlPlaneCount,
    haControlPlanes, hha]

end KaaS
