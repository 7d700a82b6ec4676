import KaaS.App.Access
import KaaS.Reconcile.Wiring

/-!
# Who may open an in-cluster UI

The portal proxies a few web UIs that run in a cluster. Which of them there are is fixed. Seeing
the cluster is enough to open one, except for those that have no user model of their own and
change things: they need write access (`TunnelApp.writeScoped`). One of them takes the identity of
its user from two headers (`TunnelApp.authProxy`), and the identity is resolved here, from the
account and its access to the cluster, never from the request.
-/

namespace KaaS

/-! ### The apps -/

inductive Surface
  | monitoring | storage
  deriving DecidableEq

/-- An in-cluster UI and its service. One that cannot be configured to serve itself under the
path of the tunnel is not `selfPrefixed`. -/
structure TunnelApp where
  id : String
  namespaceName : String
  service : String
  port : String
  writeScoped : Bool := false
  authProxy : Bool := false
  surface : Surface := .monitoring
  selfPrefixed : Bool := true
  deriving DecidableEq

def tunnelApps : List TunnelApp :=
  [{ id := "grafana", namespaceName := "monitoring-system",
     service := "kube-prometheus-stack-grafana", port := "80", authProxy := true },
   { id := "prometheus", namespaceName := "monitoring-system",
     service := "kube-prometheus-stack-prometheus", port := "9090" },
   { id := "alertmanager", namespaceName := "monitoring-system",
     service := "kube-prometheus-stack-alertmanager", port := "9093", writeScoped := true },
   { id := "longhorn", namespaceName := "longhorn-system", service := "longhorn-frontend",
     port := "80", writeScoped := true, surface := .storage, selfPrefixed := false }]

def publicPrefix : String := "/api"

/-- The path under which a browser finds the app of a cluster. -/
def routePrefix (clusterID appID : String) : String :=
  publicPrefix ++ ("/clusters/" ++ (clusterID ++ ("/proxy/" ++ appID)))

/-- The path under which the API server proxies a service. -/
def servicePath (namespaceName service port : String) : String :=
  "/api/v1/namespaces/" ++ namespaceName ++ "/services/" ++ service ++ ":" ++ port ++ "/proxy"

def TunnelApp.proxyPath (app : TunnelApp) : String :=
  servicePath app.namespaceName app.service app.port

/-! ### Access -/

inductive TunnelError
  | unknownTunnelApp | notFound | forbidden | clusterNotReady
  | storageUINotEnabled | monitoringNotEnabled | kubeconfig
  deriving DecidableEq

def authorizeCluster (users : List User) (actor : User) (c : Cluster) :
    Except TunnelError Unit :=
  match accessTo users actor c with
  | .none => .error .notFound
  | _ => .ok ()

def authorizeClusterWrite (users : List User) (actor : User) (c : Cluster) :
    Except TunnelError Unit :=
  match accessTo users actor c with
  | .full => .ok ()
  | .view => .error .forbidden
  | .none => .error .notFound

inductive TunnelRole
  | viewer | editor
  deriving DecidableEq

def TunnelRole.name : TunnelRole → String
  | .viewer => "Viewer"
  | .editor => "Editor"

structure TunnelIdentity where
  user : String
  role : TunnelRole
  deriving DecidableEq

/-- The identity an app is to see. -/
def tunnelIdentity (users : List User) (actor : User) (c : Cluster) : TunnelIdentity where
  user := actor.username
  role := if accessTo users actor c = .full then .editor else .viewer

end KaaS
