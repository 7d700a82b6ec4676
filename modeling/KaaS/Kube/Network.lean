import KaaS.Library.Distinct
import KaaS.Library.Keyed
import KaaS.Library.Text

/-!
# What a cluster exposes

The networking page lists the applications that can be reached from outside a cluster:
`exposedApps` derives them from its routes and its gateways. A route is walked reference by
reference; each hostname at a gateway that can be seen gives an entry, unless one with the same
**key** was made before. The key is a text of the hostname, the route and the gateway.

An entry says of which route, hostname and gateway it is, whether the application answers with TLS,
and whether the route is accepted; the last two depend on the **reference** it was made for, and the
key on neither the reference nor the kind of the route. So the first of several references to a
gateway decides, and of two routes of one name and different kinds one is left out. `Unambiguous`
says that neither matters, and it is exactly what makes the list right (`exposesExactly_iff`).
-/

namespace KaaS

open Distinct Text

/-! ### Gateways and routes -/

structure ObjectRef where
  namespaceName : String
  name : String
  deriving DecidableEq

inductive RouteKind where
  | httpRoute
  | grpcRoute
  | tcpRoute
  | tlsRoute
  | udpRoute
  deriving DecidableEq

structure GatewayListener where
  name : String
  protocol : String
  hostname : String := ""
  tlsMode : String := ""
  deriving DecidableEq

structure GatewaySummary where
  namespaceName : String
  name : String
  addresses : List String := []
  listeners : List GatewayListener := []
  deriving DecidableEq

structure ParentRef where
  namespaceName : String
  name : String
  sectionName : String := ""
  accepted : Bool := true
  status : String := ""
  deriving DecidableEq

structure RouteBackend where
  namespaceName : String
  name : String
  kind : String := "Service"
  port : ℤ := 0
  weight : ℤ := 0
  deriving DecidableEq

structure RouteRule where
  backends : List RouteBackend
  deriving DecidableEq

structure RouteSummary where
  kind : RouteKind
  namespaceName : String
  name : String
  hostnames : List String := []
  parentRefs : List ParentRef := []
  rules : List RouteRule := []
  accepted : Bool := true
  deriving DecidableEq

structure ExposedApp where
  hostname : String
  url : String
  tls : Bool
  route : ObjectRef
  routeKind : RouteKind
  gateway : ObjectRef
  address : String
  backends : List RouteBackend
  platformDomain : Bool
  accepted : Bool
  status : String
  deriving DecidableEq

def GatewaySummary.ref (g : GatewaySummary) : ObjectRef := ⟨g.namespaceName, g.name⟩

def ParentRef.ref (p : ParentRef) : ObjectRef := ⟨p.namespaceName, p.name⟩

def RouteSummary.ref (r : RouteSummary) : ObjectRef := ⟨r.namespaceName, r.name⟩

/-! ### Listeners and hostnames -/

/-- A reference selects the listener it pins, or all of them. -/
def GatewayListener.selectedBy (l : GatewayListener) (sectionName : String) : Bool :=
  sectionName == "" || l.name == sectionName

/-- Equality without regard to case, with a text of ASCII letters: apart from the letters of the
other case, the long s and the Kelvin sign fold to one. -/
def equalFold (s ascii : String) : Bool :=
  s.toList.map foldChar == ascii.toList.map foldChar
where
  foldChar (ch : Char) : Char :=
    if ch.toNat = 0x17f then 's' else if ch.toNat = 0x212a then 'k' else ch.toLower

def hasSuffix (s suffix : String) : Bool := suffix.toList.isSuffixOf s.toList

/-- A wildcard of a listener covers the names below it, and the one it is about. -/
def hostnameMatches (listener host : String) : Bool :=
  listener == host ||
    if hasPrefix listener "*." then
      let suffix := String.ofList (listener.toList.drop 2)
      hasSuffix host ("." ++ suffix) || host == suffix || host == "*." ++ suffix
    else false

/-- The listener terminates TLS for the hostname. -/
def GatewayListener.terminates (l : GatewayListener) (hostname : String) : Bool :=
  !(l.tlsMode == "" && !equalFold l.protocol "HTTPS") &&
    (l.hostname == "" || hostnameMatches l.hostname hostname)

def gatewayTerminatesTLS (g : GatewaySummary) (hostname sectionName : String) : Bool :=
  g.listeners.any fun l => l.selectedBy sectionName && l.terminates hostname

def listenerHostnames (g : GatewaySummary) (sectionName : String) : List String :=
  ((g.listeners.filter (·.selectedBy sectionName)).map (·.hostname)).filter (· != "")

def underDomain (host domain : String) : Bool :=
  if domain == "" || host == "" then false
  else host == domain || host == "*." ++ domain || hasSuffix host ("." ++ domain)

def firstAddress (g : GatewaySummary) : String := g.addresses.headD ""

/-- `h` without the wildcard. -/
def trimWildcard (h : String) : String :=
  if hasPrefix h "*." then String.ofList (h.toList.drop 2) else h

/-! ### The list -/

/-- The hostnames of the route at a gateway it refers to: its own, or those of the listeners. -/
def RouteSummary.hostsAt (r : RouteSummary) (g : GatewaySummary) (p : ParentRef) : List String :=
  if r.hostnames.isEmpty then listenerHostnames g p.sectionName else r.hostnames

/-- The entry made for a hostname of a route through one of its references. -/
def exposedApp (appsDomain : String) (r : RouteSummary) (p : ParentRef) (g : GatewaySummary)
    (h : String) : ExposedApp :=
  let tls := gatewayTerminatesTLS g h p.sectionName
  { hostname := h
    url := (if tls then "https://" else "http://") ++ trimWildcard h
    tls
    route := r.ref
    routeKind := r.kind
    gateway := p.ref
    address := firstAddress g
    backends := r.rules.flatMap (·.backends)
    platformDomain := underDomain h appsDomain
    accepted := p.accepted && r.accepted
    status := p.status }

/-- The key of a hostname, a route and a gateway. -/
def appKey (h : String) (route gateway : ObjectRef) : String :=
  h ++ ("|" ++ route.namespaceName ++ "/" ++ route.name ++ "|" ++ gateway.namespaceName ++ "/" ++
    gateway.name)

def ExposedApp.key (e : ExposedApp) : String := appKey e.hostname e.route e.gateway

/-- The keys seen and the entries made so far. -/
structure Exposing where
  seen : List String := []
  out : List ExposedApp := []

def Exposing.add (s : Exposing) (e : ExposedApp) : Exposing :=
  if e.key ∈ s.seen then s else ⟨e.key :: s.seen, s.out ++ [e]⟩

/-- The gateway of a reference: the last one of that name. -/
def gatewayByRef (gateways : List GatewaySummary) (ref : ObjectRef) : Option GatewaySummary :=
  gateways.reverse.find? (·.ref == ref)

def ExposedApp.le (a b : ExposedApp) : Bool :=
  if a.hostname = b.hostname then a.route.name ≤ b.route.name else a.hostname ≤ b.hostname

def Exposing.addRef (gateways : List GatewaySummary) (appsDomain : String) (r : RouteSummary)
    (s : Exposing) (p : ParentRef) : Exposing :=
  match gatewayByRef gateways p.ref with
  -- A parent that cannot be seen has no address and no listeners to tell of.
  | none => s
  | some g => (r.hostsAt g p).foldl (fun s h => s.add (exposedApp appsDomain r p g h)) s

def exposedApps (routes : List RouteSummary) (gateways : List GatewaySummary)
    (appsDomain : String) : List ExposedApp :=
  let made : Exposing := routes.foldl (fun s r =>
    r.parentRefs.foldl (Exposing.addRef gateways appsDomain r) s) {}
  made.out.insertionSort fun a b => a.le b

/-! ### The list as the first of each key -/

def offeredAt (gateways : List GatewaySummary) (appsDomain : String) (r : RouteSummary)
    (p : ParentRef) : List ExposedApp :=
  match gatewayByRef gateways p.ref with
  | none => []
  | some g => (r.hostsAt g p).map (exposedApp appsDomain r p g)

/-- All that is offered, in the order of the walk. -/
def offered (routes : List RouteSummary) (gateways : List GatewaySummary) (appsDomain : String) :
    List ExposedApp :=
  routes.flatMap fun r => r.parentRefs.flatMap (offeredAt gateways appsDomain r)

def kept (l : List ExposedApp) : List ExposedApp := keepFirst (some ∘ ExposedApp.key) [] l

private theorem out_foldl_add (l : List ExposedApp) (s : Exposing) :
    (l.foldl Exposing.add s).out = s.out ++ keepFirst (some ∘ ExposedApp.key) s.seen l := by
  induction l generalizing s with
  | nil => simp [keepFirst]
  | cons e l ih =>
    have hkey : (some ∘ ExposedApp.key) e = some e.key := rfl
    rw [List.foldl_cons, ih]
    by_cases hseen : e.key ∈ s.seen
    · rw [keepFirst_cons_of_seen hkey hseen, Exposing.add, if_pos hseen]
    · rw [keepFirst_cons_of_new hkey hseen, Exposing.add, if_neg hseen, List.append_assoc,
        List.singleton_append]

variable {routes routes' : List RouteSummary} {gateways gateways' : List GatewaySummary}
  {appsDomain : String} {r r' : RouteSummary} {p p' : ParentRef} {g g' : GatewaySummary}
  {h h' : String} {e : ExposedApp}

private theorem exposedApps_eq :
    exposedApps routes gateways appsDomain =
      (kept (offered routes gateways appsDomain)).insertionSort fun a b => a.le b := by
  have hat (r : RouteSummary) : Exposing.addRef gateways appsDomain r =
      fun s p => (offeredAt gateways appsDomain r p).foldl Exposing.add s := by
    funext s p
    rw [Exposing.addRef, offeredAt]
    split
    · rfl
    · rw [List.foldl_map]
  have hwalk : routes.foldl (fun s r =>
        r.parentRefs.foldl (Exposing.addRef gateways appsDomain r) s) ({} : Exposing) =
      (offered routes gateways appsDomain).foldl Exposing.add {} := by
    simp only [offered, List.foldl_flatMap, hat]
  rw [exposedApps, hwalk, out_foldl_add]
  rfl

theorem exposedApps_perm :
    (exposedApps routes gateways appsDomain).Perm (kept (offered routes gateways appsDomain)) := by
  rw [exposedApps_eq]
  exact List.perm_insertionSort _ _

theorem nodup_key : ((exposedApps routes gateways appsDomain).map ExposedApp.key).Nodup := by
  rw [(exposedApps_perm.map _).nodup_iff, kept, ← List.filterMap_eq_map]
  exact nodup_keepFirst _ _

/-! ### What the list is for -/

/-- **The route has the hostname at the gateway**, through one of its references. -/
structure Offers (routes : List RouteSummary) (gateways : List GatewaySummary) (r : RouteSummary)
    (p : ParentRef) (g : GatewaySummary) (h : String) : Prop where
  route : r ∈ routes
  ref : p ∈ r.parentRefs
  gateway : g ∈ gateways
  target : p.ref = g.ref
  host : h ∈ r.hostsAt g p

/-- What an entry is about: the route, the hostname and the gateway. -/
def ExposedApp.subject (e : ExposedApp) : RouteKind × ObjectRef × String × ObjectRef :=
  (e.routeKind, e.route, e.hostname, e.gateway)

/-- The route with its references in another order. -/
def SameRoute (r r' : RouteSummary) : Prop :=
  ∃ refs, r.parentRefs.Perm refs ∧ r' = { r with parentRefs := refs }

/-- The routes in another order, and so the references of each. -/
def Reordered (routes routes' : List RouteSummary) : Prop :=
  ∃ between, routes.Perm between ∧ List.Forall₂ SameRoute between routes'

/-- **The list is right**: one entry for each route, hostname and gateway; with TLS when a listener
that one of the references selects terminates it; the same set of entries in every order. -/
structure ExposesExactly (routes : List RouteSummary) (gateways : List GatewaySummary)
    (appsDomain : String) : Prop where
  once : ((exposedApps routes gateways appsDomain).map ExposedApp.subject).Nodup
  each : ∀ s, s ∈ (exposedApps routes gateways appsDomain).map ExposedApp.subject ↔
    ∃ r p g h, Offers routes gateways r p g h ∧ s = (r.kind, r.ref, h, g.ref)
  tls : ∀ e ∈ exposedApps routes gateways appsDomain, e.tls = true ↔
    ∃ r ∈ routes, r.kind = e.routeKind ∧ r.ref = e.route ∧
      ∃ g ∈ gateways, g.ref = e.gateway ∧ ∃ p ∈ r.parentRefs, p.ref = g.ref ∧
        ∃ l ∈ g.listeners, l.selectedBy p.sectionName = true ∧ l.terminates e.hostname = true
  order : ∀ routes' gateways', Reordered routes routes' → gateways.Perm gateways' →
    ∀ e, e ∈ exposedApps routes' gateways' appsDomain ↔ e ∈ exposedApps routes gateways appsDomain

/-- **It does not matter which entry of a key is first.** -/
structure Unambiguous (routes : List RouteSummary) (gateways : List GatewaySummary) : Prop where
  /-- A key belongs to one route, hostname and gateway. -/
  apart : ∀ {r p g h r' p' g' h'}, Offers routes gateways r p g h →
    Offers routes gateways r' p' g' h' → appKey h r.ref g.ref = appKey h' r'.ref g'.ref →
    (r.kind, r.ref, h, g.ref) = (r'.kind, r'.ref, h', g'.ref)
  /-- Two references of a route to a gateway through which it has the hostname are in one state. -/
  agree : ∀ {r p p' g h}, Offers routes gateways r p g h → Offers routes gateways r p' g h →
    (p.accepted && r.accepted) = (p'.accepted && r.accepted) ∧ p.status = p'.status
  /-- If TLS is terminated at any reference, then at those through which it has the hostname. -/
  tls : ∀ {r p p' g h}, Offers routes gateways r p g h → p' ∈ r.parentRefs → p'.ref = g.ref →
    gatewayTerminatesTLS g h p'.sectionName = true → gatewayTerminatesTLS g h p.sectionName = true

theorem gatewayByRef_eq_some (hg : (gateways.map GatewaySummary.ref).Nodup) {ref : ObjectRef} :
    gatewayByRef gateways ref = some g ↔ g ∈ gateways ∧ g.ref = ref :=
  Keyed.find?_reverse_eq_some hg

theorem mem_offered (hg : (gateways.map GatewaySummary.ref).Nodup) :
    e ∈ offered routes gateways appsDomain ↔
      ∃ r p g h, Offers routes gateways r p g h ∧ e = exposedApp appsDomain r p g h := by
  simp only [offered, List.mem_flatMap]
  constructor
  · rintro ⟨r, hr, p, hp, he⟩
    rw [offeredAt] at he
    split at he
    · exact absurd he List.not_mem_nil
    · rename_i g hfind
      obtain ⟨hmem, href⟩ := (gatewayByRef_eq_some hg).mp hfind
      obtain ⟨h, hh, rfl⟩ := List.mem_map.mp he
      exact ⟨r, p, g, h, ⟨hr, hp, hmem, href.symm, hh⟩, rfl⟩
  · rintro ⟨r, p, g, h, o, rfl⟩
    refine ⟨r, o.route, p, o.ref, ?_⟩
    rw [offeredAt, (gatewayByRef_eq_some hg).mpr ⟨o.gateway, o.target.symm⟩]
    exact List.mem_map_of_mem o.host

private theorem key_exposedApp :
    (exposedApp appsDomain r p g h).key = appKey h r.ref p.ref := rfl

private theorem subject_exposedApp (o : Offers routes gateways r p g h) :
    (exposedApp appsDomain r p g h).subject = (r.kind, r.ref, h, g.ref) := by
  rw [ExposedApp.subject, ← o.target]
  rfl

private theorem appKey_hostname_inj {route gateway : ObjectRef}
    (hkey : appKey h route gateway = appKey h' route gateway) : h = h' := by
  have hlist := congrArg String.toList hkey
  simp only [appKey, String.toList_append, List.append_left_inj] at hlist
  exact String.toList_injective hlist

/-! ### Another order -/

theorem SameRoute.refl (r : RouteSummary) : SameRoute r r := ⟨r.parentRefs, .refl _, rfl⟩

theorem SameRoute.symm (hsame : SameRoute r r') : SameRoute r' r := by
  obtain ⟨refs, hperm, rfl⟩ := hsame
  exact ⟨r.parentRefs, hperm.symm, rfl⟩

private theorem mem_of_forall₂ (hsame : List.Forall₂ SameRoute routes routes') :
    (∀ r ∈ routes, ∃ r' ∈ routes', SameRoute r r') ∧
      ∀ r' ∈ routes', ∃ r ∈ routes, SameRoute r r' := by
  induction hsame with
  | nil => exact ⟨fun _ hr => absurd hr List.not_mem_nil, fun _ hr => absurd hr List.not_mem_nil⟩
  | cons hhead _ ih =>
    refine ⟨List.forall_mem_cons.mpr ⟨⟨_, List.mem_cons_self, hhead⟩, fun r hr => ?_⟩,
      List.forall_mem_cons.mpr ⟨⟨_, List.mem_cons_self, hhead⟩, fun r' hr' => ?_⟩⟩
    · obtain ⟨r', hr', h⟩ := ih.1 r hr
      exact ⟨r', List.mem_cons_of_mem _ hr', h⟩
    · obtain ⟨r, hr, h⟩ := ih.2 r' hr'
      exact ⟨r, List.mem_cons_of_mem _ hr, h⟩

private theorem Offers.reordered (o : Offers routes gateways r p g h) (hsame : SameRoute r r')
    (hr' : r' ∈ routes') (hgateways : gateways.Perm gateways') :
    Offers routes' gateways' r' p g h := by
  obtain ⟨refs, hperm, rfl⟩ := hsame
  exact ⟨hr', hperm.mem_iff.mp o.ref, hgateways.mem_iff.mp o.gateway, o.target, o.host⟩

private theorem SameRoute.exposedApp_eq (hsame : SameRoute r r') :
    exposedApp appsDomain r' p g h = exposedApp appsDomain r p g h := by
  obtain ⟨refs, -, rfl⟩ := hsame
  rfl

private theorem mem_offered_reordered (hg : (gateways.map GatewaySummary.ref).Nodup)
    (hroutes : Reordered routes routes') (hgateways : gateways.Perm gateways') :
    e ∈ offered routes' gateways' appsDomain ↔ e ∈ offered routes gateways appsDomain := by
  obtain ⟨between, hperm, hsame⟩ := hroutes
  obtain ⟨hleft, hright⟩ := mem_of_forall₂ hsame
  rw [mem_offered hg, mem_offered ((hgateways.map _).nodup_iff.mp hg)]
  constructor
  · rintro ⟨r', p, g, h, o, rfl⟩
    obtain ⟨r, hr, hsame⟩ := hright r' o.route
    exact ⟨r, p, g, h, o.reordered hsame.symm (hperm.mem_iff.mpr hr) hgateways.symm,
      hsame.exposedApp_eq⟩
  · rintro ⟨r, p, g, h, o, rfl⟩
    obtain ⟨r', hr', hsame⟩ := hleft r (hperm.mem_iff.mp o.route)
    exact ⟨r', p, g, h, o.reordered hsame hr' hgateways, hsame.exposedApp_eq.symm⟩

/-- The routes with one of them first, and with one of its references first. -/
private def front (r : RouteSummary) (p : ParentRef) (routes : List RouteSummary) :
    List RouteSummary :=
  { r with parentRefs := p :: r.parentRefs.erase p } :: routes.erase r

private theorem reordered_front (o : Offers routes gateways r p g h) :
    Reordered routes (front r p routes) :=
  ⟨r :: routes.erase r, List.perm_cons_erase o.route,
    .cons ⟨_, List.perm_cons_erase o.ref, rfl⟩ (List.forall₂_same.mpr fun x _ => .refl x)⟩

/-- **What comes first is in the list.** -/
private theorem mem_exposedApps_front (hg : (gateways.map GatewaySummary.ref).Nodup)
    (o : Offers routes gateways r p g h) :
    exposedApp appsDomain r p g h ∈ exposedApps (front r p routes) gateways appsDomain := by
  have hat : offeredAt gateways appsDomain { r with parentRefs := p :: r.parentRefs.erase p } p =
      (r.hostsAt g p).map (exposedApp appsDomain r p g) := by
    rw [offeredAt, (gatewayByRef_eq_some hg).mpr ⟨o.gateway, o.target.symm⟩]
    rfl
  rw [exposedApps_perm.mem_iff, kept, offered, front, List.flatMap_cons, List.flatMap_cons, hat,
    List.append_assoc]
  refine keepFirst_subset_append _ _ _ ?_
  have hkey : (some ∘ ExposedApp.key) (exposedApp appsDomain r p g h) =
      some (appKey h r.ref p.ref) := rfl
  obtain ⟨e, he, hkey⟩ :=
    exists_mem_keepFirst (List.mem_map_of_mem o.host) hkey List.not_mem_nil
  obtain ⟨h', -, rfl⟩ := List.mem_map.mp (mem_of_mem_keepFirst he)
  have hhost : h' = h := appKey_hostname_inj (Option.some.inj hkey)
  rwa [hhost] at he

/-! ### A list that is right -/

section Exact

variable (hg : (gateways.map GatewaySummary.ref).Nodup)
  (hr : (routes.map fun r => (r.kind, r.ref)).Nodup)

include hg hr

private theorem offered_inj (U : Unambiguous routes gateways) {a b : ExposedApp}
    (ha : a ∈ offered routes gateways appsDomain) (hb : b ∈ offered routes gateways appsDomain)
    (hkey : a.key = b.key) : a = b := by
  obtain ⟨r, p, g, h, o, rfl⟩ := (mem_offered hg).mp ha
  obtain ⟨r', p', g', h', o', rfl⟩ := (mem_offered hg).mp hb
  rw [key_exposedApp, key_exposedApp, o.target, o'.target] at hkey
  have hsame := U.apart o o' hkey
  simp only [Prod.mk.injEq] at hsame
  obtain ⟨hkind, href, rfl, hgref⟩ := hsame
  obtain rfl := List.inj_on_of_nodup_map hr o.route o'.route (Prod.ext hkind href)
  obtain rfl := List.inj_on_of_nodup_map hg o.gateway o'.gateway hgref
  obtain ⟨haccepted, hstatus⟩ := U.agree o o'
  have htls : gatewayTerminatesTLS g h p.sectionName = gatewayTerminatesTLS g h p'.sectionName :=
    Bool.eq_iff_iff.mpr ⟨U.tls o' o.ref o.target, U.tls o o'.ref o'.target⟩
  have hgateway : p.ref = p'.ref := o.target.trans o'.target.symm
  simp only [exposedApp, haccepted, hstatus, htls, hgateway]

/-- Then nothing that is offered is left out. -/
private theorem mem_exposedApps (U : Unambiguous routes gateways) :
    e ∈ exposedApps routes gateways appsDomain ↔ e ∈ offered routes gateways appsDomain := by
  rw [exposedApps_perm.mem_iff]
  exact mem_keepFirst_iff (fun a ha b hb _ hkey =>
    offered_inj hg hr U ha hb (Option.some.inj hkey)) rfl

theorem Unambiguous.exposesExactly (U : Unambiguous routes gateways) :
    ExposesExactly routes gateways appsDomain where
  once := by
    have hkeys : (((exposedApps routes gateways appsDomain).map ExposedApp.subject).map
        fun s => appKey s.2.2.1 s.2.1 s.2.2.2).Nodup := by
      rw [List.map_map]
      exact nodup_key
    exact hkeys.of_map
  each s := by
    simp only [List.mem_map, mem_exposedApps hg hr U, mem_offered hg]
    constructor
    · rintro ⟨_, ⟨r, p, g, h, o, rfl⟩, rfl⟩
      exact ⟨r, p, g, h, o, subject_exposedApp o⟩
    · rintro ⟨r, p, g, h, o, rfl⟩
      exact ⟨_, ⟨r, p, g, h, o, rfl⟩, subject_exposedApp o⟩
  tls e he := by
    obtain ⟨r, p, g, h, o, rfl⟩ := (mem_offered hg).mp ((mem_exposedApps hg hr U).mp he)
    constructor
    · intro htls
      obtain ⟨l, hl, hsome⟩ := List.any_eq_true.mp htls
      exact ⟨r, o.route, rfl, rfl, g, o.gateway, o.target.symm, p, o.ref, o.target, l, hl,
        Bool.and_eq_true_iff.mp hsome⟩
    · rintro ⟨r', hr', hkind, href, g', hg', hgref, p', hp', hp'ref, l, hl, hsome⟩
      obtain rfl := List.inj_on_of_nodup_map hr hr' o.route (Prod.ext hkind href)
      obtain rfl := List.inj_on_of_nodup_map hg hg' o.gateway (hgref.trans o.target)
      exact U.tls o hp' hp'ref (List.any_eq_true.mpr ⟨l, hl, Bool.and_eq_true_iff.mpr hsome⟩)
  order routes' gateways' hroutes hgateways e := by
    -- In another order the same entries are offered, and again none is left out.
    have hsame {e : ExposedApp} :
        e ∈ offered routes' gateways' appsDomain ↔ e ∈ offered routes gateways appsDomain :=
      mem_offered_reordered hg hroutes hgateways
    rw [mem_exposedApps hg hr U, ← hsame, exposedApps_perm.mem_iff]
    refine mem_keepFirst_iff (fun a ha b hb _ hkey => ?_) rfl
    exact offered_inj hg hr U (hsame.mp ha) (hsame.mp hb) (Option.some.inj hkey)

end Exact

/-! ### Only then -/

/-- A list that is right has nothing ambiguous behind it: each entry that is offered is in the list
of some order, so it is in this one, which has one entry for what it is about. -/
theorem ExposesExactly.unambiguous (hg : (gateways.map GatewaySummary.ref).Nodup)
    (X : ExposesExactly routes gateways appsDomain) : Unambiguous routes gateways := by
  have hentry {r p g h} (o : Offers routes gateways r p g h) :
      exposedApp appsDomain r p g h ∈ exposedApps routes gateways appsDomain :=
    (X.order _ _ (reordered_front o) (.refl _) _).mp (mem_exposedApps_front hg o)
  have hone {a b : ExposedApp} (ha : a ∈ exposedApps routes gateways appsDomain)
      (hb : b ∈ exposedApps routes gateways appsDomain) (hsubject : a.subject = b.subject) :
      a = b := List.inj_on_of_nodup_map X.once ha hb hsubject
  constructor
  · intro r p g h r' p' g' h' o o' hkey
    rw [← o.target, ← o'.target, ← key_exposedApp, ← key_exposedApp] at hkey
    have hsame := List.inj_on_of_nodup_map nodup_key (hentry o) (hentry o') hkey
    rw [← subject_exposedApp o, ← subject_exposedApp o', hsame]
  · intro r p p' g h o o'
    have hsame := hone (hentry o) (hentry o')
      ((subject_exposedApp o).trans (subject_exposedApp o').symm)
    exact ⟨congrArg ExposedApp.accepted hsame, congrArg ExposedApp.status hsame⟩
  · intro r p p' g h o hp' href htls
    obtain ⟨l, hl, hsome⟩ := List.any_eq_true.mp htls
    exact (X.tls _ (hentry o)).mpr ⟨r, o.route, rfl, rfl, g, o.gateway, o.target.symm, p', hp',
      href, l, hl, Bool.and_eq_true_iff.mp hsome⟩

/-- **When the list is right**: with different gateways and routes, exactly when nothing is
ambiguous. -/
theorem exposesExactly_iff (routes : List RouteSummary) (gateways : List GatewaySummary)
    (appsDomain : String) (hg : (gateways.map GatewaySummary.ref).Nodup)
    (hr : (routes.map fun r => (r.kind, r.ref)).Nodup) :
    ExposesExactly routes gateways appsDomain ↔ Unambiguous routes gateways :=
  ⟨fun X => X.unambiguous hg, fun U => U.exposesExactly hg hr⟩

/-- A gateway as the platform makes it: a listener without TLS and one with. -/
def sharedGateway : GatewaySummary where
  namespaceName := "envoy-gateway-system"
  name := "eg"
  addresses := ["192.168.1.240"]
  listeners := [⟨"http", "HTTP", "*.apps.example", ""⟩,
    ⟨"https", "HTTPS", "*.apps.example", "Terminate"⟩]

/-- A route to the listeners of that gateway with the given names. -/
def webRoute (kind : RouteKind) (sections : List String) : RouteSummary where
  kind := kind
  namespaceName := "shop"
  name := "web"
  hostnames := ["web.apps.example"]
  parentRefs := sections.map fun pinned => ⟨"envoy-gateway-system", "eg", pinned, true, ""⟩
  rules := [⟨[⟨"shop", "web", "Service", 80, 0⟩]⟩]

theorem exposesExactly_webRoute :
    ExposesExactly [webRoute .httpRoute ["https"]] [sharedGateway] "apps.example" := by
  refine (exposesExactly_iff _ _ _ (by decide) (by decide)).mpr ?_
  have honly {r p g h}
      (o : Offers [webRoute .httpRoute ["https"]] [sharedGateway] r p g h) :
      r = webRoute .httpRoute ["https"] ∧ g = sharedGateway ∧ h = "web.apps.example" ∧
        p = ⟨"envoy-gateway-system", "eg", "https", true, ""⟩ := by
    obtain ⟨hr, hp, hg, -, hh⟩ := o
    obtain rfl := List.mem_singleton.mp hr
    obtain rfl := List.mem_singleton.mp hg
    exact ⟨rfl, rfl, List.mem_singleton.mp hh, List.mem_singleton.mp hp⟩
  constructor
  · intro r p g h r' p' g' h' o o' _
    obtain ⟨rfl, rfl, rfl, -⟩ := honly o
    obtain ⟨rfl, rfl, rfl, -⟩ := honly o'
    rfl
  · intro r p p' g h o o'
    obtain ⟨-, -, -, rfl⟩ := honly o
    obtain ⟨-, -, -, rfl⟩ := honly o'
    exact ⟨rfl, rfl⟩
  · intro r p p' g h o hp' _ htls
    obtain ⟨rfl, -, -, rfl⟩ := honly o
    obtain rfl := List.mem_singleton.mp hp'
    exact htls

/-- **The first reference decides**: attached to both listeners the route answers with TLS, and the
list says that it does not. -/
theorem first_reference_decides :
    ((exposedApps [webRoute .httpRoute ["http", "https"]] [sharedGateway] "apps.example").map
        fun e => (e.url, e.tls)) = [("http://web.apps.example", false)] ∧
      ¬ExposesExactly [webRoute .httpRoute ["http", "https"]] [sharedGateway] "apps.example" := by
  refine ⟨by decide +kernel, fun X => ?_⟩
  have hlisted : exposedApp "apps.example" (webRoute .httpRoute ["http", "https"])
      ⟨"envoy-gateway-system", "eg", "http", true, ""⟩ sharedGateway "web.apps.example" ∈
        exposedApps [webRoute .httpRoute ["http", "https"]] [sharedGateway] "apps.example" := by
    decide +kernel
  have htls := (X.tls _ hlisted).mpr ⟨_, List.mem_singleton_self _, rfl, rfl, _,
    List.mem_singleton_self _, rfl, ⟨"envoy-gateway-system", "eg", "https", true, ""⟩,
    by decide, rfl, ⟨"https", "HTTPS", "*.apps.example", "Terminate"⟩, by decide, by decide,
    by decide +kernel⟩
  exact absurd htls (by decide +kernel)

end KaaS
