import KaaS.Library.Base64
import KaaS.Library.Json
import KaaS.Library.Text

/-!
# Reading Secrets through kubectl

The Secrets page reads a cluster's Secrets with the credential of its administrator and shows a
viewer their keys and the lengths of their values. Each read is one `kubectl get`, whose
arguments hold the namespace and the name from the path of the request. `Kubectl.run` is what
the command prints: it takes an argument that begins with a dash for an option, so that the
name of a Secret may as well be one, and `-A` in its place asks for a list of all Secrets.

What comes back is a document, from which `secret` and `secrets` read typed records;
`secretManifest` blanks the values under `data` and `stringData` of its top level and returns the
rest as it is.
-/

namespace KaaS

open Text

/-! ### Secrets in a cluster -/

structure OwnerReference where
  kind : String
  name : String
  deriving DecidableEq

/-- The manifest that `kubectl apply` keeps as an annotation: a text around the values as they
were applied. -/
structure LastApplied where
  head : String
  data : List (String × List UInt8)
  tail : String
  deriving DecidableEq

structure SecretObject where
  namespaceName : String
  name : String
  type : String := "Opaque"
  immutable : Option Bool := none
  data : List (String × List UInt8) := []
  labels : List (String × String) := []
  /-- The annotations that hold no value. -/
  annotations : List (String × String) := []
  lastApplied : Option LastApplied := none
  ownerReferences : List OwnerReference := []
  creationTimestamp : String := ""
  uid : String := ""
  resourceVersion : String := ""
  deriving DecidableEq

/-- A value under its key, as it stands in a manifest. -/
def manifestEntry (d : String × List UInt8) : String :=
  quote d.1 ++ ":" ++ quote (Base64.encode d.2)

def LastApplied.text (la : LastApplied) : String :=
  la.head ++ join "," (la.data.map manifestEntry) ++ la.tail

def lastAppliedKey : String := "kubectl.kubernetes.io/last-applied-configuration"

namespace SecretObject

variable (o : SecretObject)

def encodedData : List (String × String) := o.data.map fun d => (d.1, Base64.encode d.2)

def allAnnotations : List (String × String) :=
  o.annotations ++ (o.lastApplied.map fun la => (lastAppliedKey, la.text)).toList

def metadata : Json :=
  .obj (Json.optional o.allAnnotations.isEmpty "annotations" (.ofMap o.allAnnotations) ++
    [("creationTimestamp", .str o.creationTimestamp)] ++
    Json.optional o.labels.isEmpty "labels" (.ofMap o.labels) ++
    [("name", .str o.name), ("namespace", .str o.namespaceName)] ++
    Json.optional o.ownerReferences.isEmpty "ownerReferences" (.arr (o.ownerReferences.map fun r =>
      .obj [("kind", .str r.kind), ("name", .str r.name)])) ++
    [("resourceVersion", .str o.resourceVersion), ("uid", .str o.uid)])

def toJson : Json :=
  .obj ([("apiVersion", .str "v1")] ++
    Json.optional o.data.isEmpty "data" (.ofMap o.encodedData) ++
    Json.optional o.immutable.isNone "immutable" (.bool (o.immutable.getD false)) ++
    [("kind", .str "Secret"), ("metadata", o.metadata), ("type", .str o.type)])

end SecretObject

def listJson (items : List SecretObject) : Json :=
  .obj [("apiVersion", .str "v1"), ("items", .arr (items.map (·.toJson))), ("kind", .str "List"),
    ("metadata", .obj [("resourceVersion", .str "")])]

/-! ### kubectl -/

/-- What is left open about the command: which further options it takes, without a value and
without a bearing on the objects it prints. -/
structure Kubectl where
  accepts : String → Bool

/-- What a `get` has read from its arguments so far. -/
structure GetOptions where
  positional : List String := []
  namespaceName : String := "default"
  allNamespaces : Bool := false
  unknown : Option String := none

def isOption (arg : String) : Bool := arg.toList.head? == some '-'

inductive Target
  | refused (message : String)
  | one (namespaceName name : String)
  | listed (namespaceName : Option String)

namespace Kubectl

variable (k : Kubectl)

def readArg (opts : GetOptions) (arg : String) : GetOptions :=
  if arg = "-A" ∨ arg = "--all-namespaces" then { opts with allNamespaces := true }
  else if isOption arg then
    if k.accepts arg then opts else { opts with unknown := some arg }
  else { opts with positional := opts.positional ++ [arg] }

/-- The namespace and the output format are options with a value: the next argument,
whatever it begins with. -/
def parse : List String → GetOptions → GetOptions
  | "-n" :: ns :: rest, opts => parse rest { opts with namespaceName := ns }
  | "-o" :: _ :: rest, opts => parse rest opts
  | arg :: rest, opts => parse rest (k.readArg opts arg)
  | [], opts => opts

def target (args : List String) : Target :=
  let opts := k.parse (args.drop 1) {}
  match opts.unknown, opts.positional.drop 1 with
  | some arg, _ => .refused ("error: unknown flag: " ++ arg)
  | none, [] => .listed (if opts.allNamespaces then none else some opts.namespaceName)
  | none, name :: _ =>
    if opts.allNamespaces then
      .refused "error: a resource cannot be retrieved by name across all namespaces"
    else if name = "" then .refused "error: resource name may not be empty"
    else .one opts.namespaceName name

end Kubectl

abbrev SecretStore := List SecretObject

def SecretStore.get (s : SecretStore) (ns name : String) : Option SecretObject :=
  s.find? fun o => o.namespaceName == ns && o.name == name

def SecretStore.list (s : SecretStore) (ns : Option String) : SecretStore :=
  s.filter fun o => ns.all (o.namespaceName == ·)

def notFoundError (args : List String) (name : String) : String :=
  "kubectl " ++ join " " args ++ ": Error from server (NotFound): secrets " ++ quote name ++
    " not found"

/-- What a `get` of Secrets prints. -/
def Kubectl.run (k : Kubectl) (s : SecretStore) (args : List String) : Except String Json :=
  match k.target args with
  | .refused message => throw ("kubectl " ++ join " " args ++ ": " ++ message)
  | .one ns name =>
    match s.get ns name with
    | some o => pure o.toJson
    | none => throw (notFoundError args name)
  | .listed ns => pure (listJson (s.list ns))

/-! ### The reads -/

structure SecretRef where
  namespaceName : String
  name : String

structure RawSecret where
  name : String := ""
  namespaceName : String := ""
  creationTimestamp : String := ""
  labels : List (String × String) := []
  annotations : List (String × String) := []
  ownerReferences : List OwnerReference := []
  immutable : Option Bool := none
  type : String := ""
  data : List (String × String) := []

structure SecretSummary where
  namespaceName : String
  name : String
  type : String
  keys : List String
  dataCount : Nat
  immutable : Bool
  managedBy : String
  createdAt : String
  deriving DecidableEq

structure SecretKeyInfo where
  key : String
  bytes : Nat
  deriving DecidableEq

structure SecretDetail where
  summary : SecretSummary
  labels : List (String × String)
  annotations : List (String × String)
  keys : List SecretKeyInfo
  deriving DecidableEq

def decodeOwner (j : Json) : Except String OwnerReference := do
  pure ⟨← (j.field "kind").asString, ← (j.field "name").asString⟩

def decodeSecret (j : Json) : Except String RawSecret := do
  let m := j.field "metadata"
  pure
    { name := ← (m.field "name").asString
      namespaceName := ← (m.field "namespace").asString
      creationTimestamp := ← (m.field "creationTimestamp").asString
      labels := ← (m.field "labels").asMap
      annotations := ← (m.field "annotations").asMap
      ownerReferences := ← (← (m.field "ownerReferences").asList).mapM decodeOwner
      immutable := ← (j.field "immutable").asBool
      type := ← (j.field "type").asString
      data := ← (j.field "data").asMap }

/-- The length of a value, or of its text if that is no base64. -/
def decodedLen (b64 : String) : Nat :=
  match Base64.decode b64 with
  | some raw => raw.length
  | none => b64.utf8ByteSize

def externalSecretOwner (refs : List OwnerReference) : String :=
  ((refs.find? (·.kind == "ExternalSecret")).map (·.name)).getD ""

namespace RawSecret

variable (r : RawSecret)

def summary : SecretSummary where
  namespaceName := r.namespaceName
  name := r.name
  type := r.type
  keys := sorted (r.data.map (·.1))
  dataCount := r.data.length
  immutable := r.immutable.getD false
  managedBy := externalSecretOwner r.ownerReferences
  createdAt := r.creationTimestamp

def detail : SecretDetail where
  summary := r.summary
  labels := r.labels
  annotations := r.annotations
  keys := (sorted (r.data.map (·.1))).map fun key => ⟨key, decodedLen ((r.data.lookup key).getD "")⟩

end RawSecret

def redactedValue : String := "<redacted>"

/-- Every value under the key of the top level is replaced, if there is an object there. -/
def scrub (key : String) : Json → Json
  | .obj fields => .obj (fields.map fun f =>
      match f.1 == key, f.2 with
      | true, .obj values => (f.1, .obj (values.map fun v => (v.1, .str redactedValue)))
      | _, _ => f)
  | j => j

def getArgs (resource ns : String) : List String :=
  ["get", resource] ++ (if ns = "" then ["--all-namespaces"] else ["-n", ns]) ++ ["-o", "json"]

def secretArgs (ref : SecretRef) : List String :=
  ["get", "secrets", ref.name, "-n", ref.namespaceName, "-o", "json"]

section Reads

variable (k : Kubectl) (s : SecretStore)

def secrets (ns : String) : Except String (List SecretSummary) := do
  let out ← k.run s (getArgs "secrets" ns)
  let items ← ((out.field "items").asList >>= (·.mapM decodeSecret)).mapError
    fun e => "decode secrets: " ++ e
  pure (items.map (·.summary))

def secret (ref : SecretRef) : Except String SecretDetail := do
  let out ← k.run s (secretArgs ref)
  let obj ← (decodeSecret out).mapError fun e => "decode secret: " ++ e
  pure obj.detail

/-- The document whose YAML text is returned. -/
def secretManifest (ref : SecretRef) : Except String Json := do
  let out ← k.run s (secretArgs ref)
  pure (scrub "stringData" (scrub "data" out))

end Reads

end KaaS
