import KaaS.API.Access
import KaaS.Library.Headers
import KaaS.Library.UrlPath

/-!
# The tunnel

A request of a browser reaches an in-cluster UI through **two reverse proxies**. The portal
routes it, resolves the session cookie, checks the access and forwards it to an agent, with the
kubeconfig and the coordinates of the service in headers. The agent checks its bearer token,
builds the path of the service at the API server, and forwards the request there with the
credential of the cluster.

Each hop decodes the path, puts something before it and escapes it again; each lets the proxy
library remove the headers of the connection **after** it has set its own. Everything else in the
header passes both.
-/

namespace KaaS

open Guard Text UrlPath Http

/-- The secrets: the session token of the user, the token that portal and agents share, and the
kubeconfig of each cluster, as it is encoded in a header. -/
inductive Credential
  | session
  | agentToken
  | kubeconfig (clusterID : String)
  deriving DecidableEq

/-- A request on the wire: the method, the escaped path, and the header. -/
structure Request where
  method : String
  target : Bytes
  header : Header Credential

/-- A request that a browser can send: of the secrets it has the session token only, and the names
in its header arrive in canonical case. -/
structure BrowserRequest extends Request where
  knows : ∀ e ∈ header.entries, ∀ v ∈ e.2, ∀ k, Value.Carries k v → k = .session
  canonical : header.Canonical

/-! ### The portal -/

def sessionCookie : String := "kaas_session"

/-- The text around the first occurrence of a character. -/
def cut (s : String) (ch : Char) : String × String :=
  (String.ofList (s.toList.takeWhile (· ≠ ch)),
    String.ofList ((s.toList.dropWhile (· ≠ ch)).drop 1))

def isCookieChar (ch : Char) : Bool :=
  ' ' ≤ ch && ch ≤ '~' && ch != '"' && ch != ';' && ch != '\\'

/-- The value without quotes around it. -/
def unquoted (s : String) : String :=
  match s.toList with
  | '"' :: rest => if rest.getLast? = some '"' then String.ofList rest.dropLast else s
  | _ => s

def cookie (lines : List String) (name : String) : Option String :=
  let parts := (lines.flatMap fun line => (split line ';').map trimString).filter (· ≠ "")
  ((parts.map fun part => cut part '=').filter fun c => trimString c.1 == name).findSome? fun c =>
    let value := unquoted c.2
    if value.toList.all isCookieChar then some value else none

structure Portal where
  credentials : Credential → String
  resolveSession : String → Option User
  users : List User := []
  clusters : List Cluster := []
  /-- the clusters with a stored kubeconfig -/
  kubeconfigs : List String := []

def internalHeaders : List String :=
  ["X-Kaas-Kubeconfig", "X-Kaas-Namespace", "X-Kaas-Service", "X-Kaas-Port",
    "X-Kaas-Route-Prefix"]

def grafanaRotatePath : String := "/api/user/auth-tokens/rotate"

def headerProxyUser : String := "X-Webauth-User"

def headerProxyRole : String := "X-Webauth-Role"

/-- The headers that tell an app who its user is. -/
def identityHeaders : List String := [headerProxyUser, headerProxyRole]

/-- The route `/clusters/{id}/proxy/{app}/{rest...}`. No wildcard but the last stands for a
separator. -/
def matchTunnel (u : URL) : Option (Bytes × Bytes) :=
  match u.decodedSegments with
  | clusters :: id :: proxy :: app :: _ :: _ =>
    if clusters = bytes "clusters" ∧ proxy = bytes "proxy" ∧ id ≠ [slash] ∧ app ≠ [slash] then
      some (id, app)
    else none
  | _ => none

namespace Portal

variable (P : Portal)

def resolveActor (h : Header Credential) : Option User :=
  (cookie ((h.values "Cookie").map (Value.render P.credentials)) sessionCookie).bind
    P.resolveSession

/-- Each app is gated on the add-on that deploys it. -/
def gate (c : Cluster) : Surface → Except TunnelError Unit
  | .storage => refuseIf (addonInstalled c "longhorn" = false) .storageUINotEnabled
  | .monitoring => refuseIf (monitoringInstalled c = false) .monitoringNotEnabled

def serveTunnel (actor : User) (id appID : Bytes) : Except TunnelError (TunnelApp × Cluster) := do
  let some app := tunnelApps.find? (bytes ·.id == appID) | throw .unknownTunnelApp
  let some c := P.clusters.find? (bytes ·.id == id) | throw .notFound
  let authorize := if app.writeScoped then authorizeClusterWrite else authorizeCluster
  authorize P.users actor c
  refuseIf (c.phase ≠ .ready) .clusterNotReady
  gate c app.surface
  refuseIf (c.id ∉ P.kubeconfigs) .kubeconfig
  pure (app, c)

/-- What the portal sets before the proxy library runs. -/
def direct (app : TunnelApp) (clusterID : String) (id : TunnelIdentity)
    (h : Header Credential) : Header Credential :=
  let h := if P.credentials .agentToken = "" then h
    else h.set "Authorization" [.text "Bearer ", .secret .agentToken]
  let h := h.set "X-Kaas-Kubeconfig" [.secret (.kubeconfig clusterID)]
  let h := h.set "X-Kaas-Namespace" (.ofText app.namespaceName)
  let h := h.set "X-Kaas-Service" (.ofText app.service)
  let h := h.set "X-Kaas-Port" (.ofText app.port)
  let h := if app.selfPrefixed then h.del "X-Kaas-Route-Prefix"
    else h.set "X-Kaas-Route-Prefix" (.ofText (routePrefix clusterID app.id))
  let h := (h.del headerProxyUser).del headerProxyRole
  if app.authProxy then
    (h.set headerProxyUser (.ofText id.user)).set headerProxyRole (.ofText id.role.name)
  else h

/-- The portal answers the rotation of a session token of Grafana itself. -/
def answersItself (app : TunnelApp) (method : String) (path : Bytes) : Bool :=
  app.authProxy && method == "POST" && (bytes grafanaRotatePath).isSuffixOf path

/-- The request that the portal sends to an agent, for the app and the identity it has resolved.
`remote` is the address of the browser. -/
def forward (remote : String) (r : Request) : Option (TunnelApp × TunnelIdentity × Request) := do
  let u ← parse r.target
  let actor ← P.resolveActor r.header
  guard (passes r.method u)
  let (id, appID) ← matchTunnel u
  let (app, c) ← (P.serveTunnel actor id appID).toOption
  guard (!answersItself app r.method u.path)
  let identity := tunnelIdentity P.users actor c
  let header ← reverseProxy P.credentials remote (P.direct app c.id identity) r.header
  pure (app, identity, { r with
    target := escape (bytes "/http-proxy" ++ (bytes publicPrefix ++ u.path)), header })

section Lemmas

variable {P : Portal} {remote : String} {r out : Request} {actor : User} {id appID : Bytes}
  {app : TunnelApp} {c : Cluster} {identity : TunnelIdentity}

theorem of_serveTunnel (h : P.serveTunnel actor id appID = .ok (app, c)) :
    (app ∈ tunnelApps ∧ bytes app.id = appID) ∧ c ∈ P.clusters ∧ bytes c.id = id := by
  simp only [serveTunnel] at h
  split at h
  · rename_i app' happ
    split at h
    · rename_i c' hc
      simp only [bind_eq_ok, pure_eq_ok, Prod.mk.injEq] at h
      obtain ⟨-, -, -, -, -, -, -, -, rfl, rfl⟩ := h
      have hid : bytes app'.id = appID := by simpa using List.find?_some happ
      have hcid : bytes c'.id = id := by simpa using List.find?_some hc
      exact ⟨⟨List.mem_of_find?_eq_some happ, hid⟩, List.mem_of_find?_eq_some hc, hcid⟩
    · cases h
  · cases h

/-- What it takes for the portal to send a request to an agent. -/
structure Sends (P : Portal) (remote : String) (r out : Request) (u : URL) (actor : User)
    (c : Cluster) (app : TunnelApp) : Prop where
  parsed : parse r.target = some u
  resolved : P.resolveActor r.header = some actor
  routed : matchTunnel u = some (bytes c.id, bytes app.id)
  known : app ∈ tunnelApps
  stored : c ∈ P.clusters
  method : out.method = r.method
  target : out.target = escape (bytes "/http-proxy" ++ (bytes publicPrefix ++ u.path))
  header : reverseProxy P.credentials remote
    (P.direct app c.id (tunnelIdentity P.users actor c)) r.header = some out.header

theorem sends_of_forward (h : P.forward remote r = some (app, identity, out)) :
    ∃ u actor c, P.Sends remote r out u actor c app ∧
      identity = tunnelIdentity P.users actor c := by
  simp only [forward, Option.bind_eq_bind, Option.bind_eq_some_iff, Option.pure_def,
    Option.some.injEq, Prod.mk.injEq, Prod.exists] at h
  obtain ⟨u, hu, actor, hactor, -, -, id, appID, hroute, app', c, hserve, -, -, header, hheader,
    rfl, rfl, rfl⟩ := h
  obtain ⟨⟨hknown, rfl⟩, hstored, rfl⟩ := of_serveTunnel (toOption_eq_some.mp hserve)
  exact ⟨u, actor, c, ⟨hu, hactor, hroute, hknown, hstored, rfl, rfl, hheader⟩, rfl⟩

/-! What `direct` does to a header. -/

section Direct

variable {name : String} (P : Portal) (app : TunnelApp) (clusterID : String)
  (identity : TunnelIdentity) (h : Header Credential)

def directed : List String :=
  "Authorization" :: internalHeaders ++ identityHeaders

theorem lookup_direct_of_not_mem (hname : name ∉ directed) :
    (P.direct app clusterID identity h).lookup name = h.lookup name := by
  simp only [directed, internalHeaders, identityHeaders, List.cons_append, List.nil_append,
    List.mem_cons, List.not_mem_nil, or_false, not_or] at hname
  obtain ⟨hauth, hkube, hns, hsvc, hport, hroute, huser, hrole⟩ := hname
  simp only [direct, apply_ite (AList.lookup name), Header.lookup_set_of_ne,
    Header.lookup_del_of_ne, ne_eq, *, not_false_eq_true, ite_self]

theorem lookup_direct_service :
    (P.direct app clusterID identity h).lookup "X-Kaas-Namespace" =
        some [.ofText app.namespaceName] ∧
      (P.direct app clusterID identity h).lookup "X-Kaas-Service" = some [.ofText app.service] ∧
      (P.direct app clusterID identity h).lookup "X-Kaas-Port" = some [.ofText app.port] := by
  simp [direct, apply_ite (AList.lookup _), Header.lookup_set_of_ne, Header.lookup_del_of_ne,
    headerProxyUser, headerProxyRole]

theorem lookup_direct_routePrefix :
    (P.direct app clusterID identity h).lookup "X-Kaas-Route-Prefix" =
      if app.selfPrefixed then none else some [.ofText (routePrefix clusterID app.id)] := by
  simp [direct, apply_ite (AList.lookup _), Header.lookup_set_of_ne, Header.lookup_del_of_ne,
    headerProxyUser, headerProxyRole]

theorem lookup_direct_identity :
    (P.direct app clusterID identity h).lookup headerProxyUser =
        (if app.authProxy then some [.ofText identity.user] else none) ∧
      (P.direct app clusterID identity h).lookup headerProxyRole =
        if app.authProxy then some [.ofText identity.role.name] else none := by
  simp [direct, apply_ite (AList.lookup _), Header.lookup_set_of_ne, Header.lookup_del_of_ne,
    headerProxyUser, headerProxyRole]

end Direct

end Lemmas

end Portal

/-! ### The agent -/

/-- The credential a kubeconfig has for its API server, if it is not a certificate. -/
structure Endpoint where
  token : String := ""

/-- An agent: its bearer token, and the endpoint it makes of an encoded kubeconfig, if that can be
decoded and used. -/
structure Agent where
  credentials : Credential → String
  endpoint : String → Option Endpoint

/-- A text without what it starts with, if it does. -/
def trimStart {α : Type*} [BEq α] (p l : List α) : List α :=
  if p.isPrefixOf l then l.drop p.length else l

theorem trimStart_append {α : Type*} [BEq α] [LawfulBEq α] (p l : List α) :
    trimStart p (p ++ l) = l := by
  simp [trimStart]

namespace Agent

variable (A : Agent)

/-- The first value of a header, as text. -/
def text (h : Header Credential) (name : String) : String := (h.get name).render A.credentials

def authorized (h : Header Credential) : Bool :=
  A.credentials .agentToken == "" ||
    trimStart "Bearer ".toList (A.text h "Authorization").toList ==
      (A.credentials .agentToken).toList

def matchHTTPProxy (u : URL) : Bool :=
  match u.decodedSegments with
  | first :: _ :: _ => first == bytes "http-proxy"
  | _ => false

/-- What the agent removes and replaces before the proxy library runs. -/
def direct (ep : Endpoint) (h : Header Credential) : Header Credential :=
  let h := (h.del "Accept-Encoding").del "Origin"
  let h := if ep.token = "" then h.del "Authorization"
    else h.set "Authorization" (.ofText ("Bearer " ++ ep.token))
  internalHeaders.foldl Header.del h

/-- The path the app is to see: an app that does not serve itself under the path of the tunnel
gets it without. -/
def appPath (routePrefix path : Bytes) : Bytes :=
  let path := trimStart (bytes "/http-proxy") path
  if routePrefix = [] then path
  else
    let path := trimStart routePrefix path
    if path = [] then [slash] else path

/-- The request that the agent sends to the API server of the cluster. -/
def forward (remote : String) (r : Request) : Option Request := do
  let u ← parse r.target
  guard (passes r.method u)
  guard (matchHTTPProxy u)
  guard (A.authorized r.header)
  let namespaceName := A.text r.header "X-Kaas-Namespace"
  let service := A.text r.header "X-Kaas-Service"
  let port := A.text r.header "X-Kaas-Port"
  guard (namespaceName ≠ "" ∧ service ≠ "" ∧ port ≠ "")
  let ep ← A.endpoint (A.text r.header "X-Kaas-Kubeconfig")
  let header ← reverseProxy A.credentials remote (direct ep) r.header
  pure { r with
    target := escape (bytes (servicePath namespaceName service port) ++
      appPath (bytes (A.text r.header "X-Kaas-Route-Prefix")) u.path)
    header }

section Lemmas

variable {A : Agent} {remote : String} {r out : Request} {ep : Endpoint} {h : Header Credential}
  {name : String}

/-- What it takes for an agent to send a request to an API server. -/
structure Sends (A : Agent) (remote : String) (r out : Request) (u : URL) (ep : Endpoint) :
    Prop where
  parsed : parse r.target = some u
  passed : passes r.method u = true
  named : A.text r.header "X-Kaas-Namespace" ≠ "" ∧ A.text r.header "X-Kaas-Service" ≠ "" ∧
    A.text r.header "X-Kaas-Port" ≠ ""
  target : out.target = escape (bytes (servicePath (A.text r.header "X-Kaas-Namespace")
    (A.text r.header "X-Kaas-Service") (A.text r.header "X-Kaas-Port")) ++
    appPath (bytes (A.text r.header "X-Kaas-Route-Prefix")) u.path)
  header : reverseProxy A.credentials remote (direct ep) r.header = some out.header

theorem sends_of_forward (h : A.forward remote r = some out) :
    ∃ u ep, A.Sends remote r out u ep := by
  simp only [forward, Option.bind_eq_bind, Option.bind_eq_some_iff, Option.pure_def,
    Option.some.injEq, Option.guard_eq_some'] at h
  obtain ⟨u, hu, -, hpass, -, -, -, -, -, hnamed, ep, -, header, hheader, rfl⟩ := h
  exact ⟨u, ep, hu, hpass, hnamed, rfl, hheader⟩

def directed : List String :=
  "Accept-Encoding" :: "Origin" :: "Authorization" :: internalHeaders

theorem lookup_direct_of_not_mem (hname : name ∉ directed) :
    (direct ep h).lookup name = h.lookup name := by
  simp only [directed, List.mem_cons, not_or] at hname
  obtain ⟨hencoding, horigin, hauth, hinternal⟩ := hname
  rw [direct, Header.lookup_foldl_del, if_neg hinternal]
  simp only [apply_ite (AList.lookup name), Header.lookup_set_of_ne,
    Header.lookup_del_of_ne, ne_eq, *, not_false_eq_true, ite_self]

theorem not_carries_direct {k : Credential} {v : Value Credential}
    (hv : v ∈ (direct ep h).values name) (hk : v.Carries k) : name ∉ directed := by
  intro hname
  rw [Header.values, direct, Header.lookup_foldl_del] at hv
  split at hv
  · cases hv
  · rename_i hinternal
    simp only [directed, List.mem_cons, hinternal, or_false] at hname
    rcases hname with rfl | rfl | rfl
    · simp [apply_ite (AList.lookup _), Header.lookup_set_of_ne, Header.lookup_del_of_ne] at hv
    · simp [apply_ite (AList.lookup _), Header.lookup_set_of_ne, Header.lookup_del_of_ne] at hv
    · split at hv
      · simp at hv
      · rw [Header.lookup_set_self, Option.getD_some, List.mem_singleton] at hv
        rw [hv] at hk
        exact Value.not_carries_ofText hk

end Lemmas

end Agent

/-! ### Both hops -/

/-- The tunnel: a portal, an agent with the same credentials, and the addresses of the browser
and of the portal. -/
structure Tunnel extends Portal where
  endpoint : String → Option Endpoint
  browser : String
  portal : String

def Tunnel.agent (T : Tunnel) : Agent := ⟨T.credentials, T.endpoint⟩

/-- **The request that leaves the agent**, with the app it is for and the identity that was
resolved. -/
def Tunnel.forward (T : Tunnel) (r : Request) : Option (TunnelApp × TunnelIdentity × Request) := do
  let (app, identity, r') ← T.toPortal.forward T.browser r
  let out ← T.agent.forward T.portal r'
  pure (app, identity, out)

theorem Tunnel.of_forward {T : Tunnel} {r out : Request} {app : TunnelApp}
    {identity : TunnelIdentity} (h : T.forward r = some (app, identity, out)) :
    ∃ r', T.toPortal.forward T.browser r = some (app, identity, r') ∧
      T.agent.forward T.portal r' = some out := by
  simp only [Tunnel.forward, Option.bind_eq_bind, Option.bind_eq_some_iff, Option.pure_def,
    Option.some.injEq, Prod.mk.injEq, Prod.exists] at h
  obtain ⟨app', identity', r', hportal, out', hagent, rfl, rfl, rfl⟩ := h
  exact ⟨r', hportal, hagent⟩

end KaaS
