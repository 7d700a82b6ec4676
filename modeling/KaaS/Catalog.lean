import KaaS.Domain.Desired
import KaaS.Library.Wrapping

/-!
# The release catalog

A bundle pins an operating system, a Kubernetes version, a CNI and the add-ons, and names
the bundle it supersedes. The upgrades open to a cluster are the supported bundles met when
following the supersedes links forwards from its own (`upgradesFor`), and a promotion goes
one of them at a time (`nextUpgrade`).

The walk keeps what it has seen and stops at a repetition; it visits each bundle at most
once, so the number of bundles bounds its length. A target that is open to a cluster stays
open after each hop towards it (`mem_upgradesFor_of_hop`).
-/

namespace KaaS

open Text Guard Wrapping

/-- A support status; `other` is a text that is none of the three. -/
inductive Status
  | supported | deprecated | eol
  | other (text : String)
  deriving DecidableEq

namespace Status

def text : Status → String
  | supported => "supported"
  | deprecated => "deprecated"
  | eol => "eol"
  | other s => s

def valid : Status → Bool
  | other _ => false
  | _ => true

end Status

structure OSImage where
  name : String := ""
  status : Status := .other ""
  deriving DecidableEq

structure K8sVersion where
  version : String := ""
  status : Status := .other ""
  deriving DecidableEq

structure CatalogAddon where
  name : String := ""
  type : String := ""
  version : String := ""
  status : Status := .other ""
  priority : Int := 0
  deriving DecidableEq

structure Bundle where
  name : String := ""
  status : Status := .other ""
  os : String := ""
  kubernetes : String := ""
  cni : String := ""
  addons : AList (fun _ : String => String) := ∅
  supersedes : String := ""
  deriving DecidableEq

structure Catalog where
  os : List OSImage := []
  kubernetes : List K8sVersion := []
  addons : List CatalogAddon := []
  bundles : List Bundle := []

structure ResolvedBundle where
  name : String := ""
  os : OSImage := {}
  kubernetes : String := ""
  cni : CatalogAddon := {}
  addons : List CatalogAddon := []
  deriving DecidableEq

/-- The image a node of a cluster is built from. -/
def goldenImageNameFor (provider osName k8sVersion : String) : String :=
  if provider = providerVSphere ∨ provider = providerProxmox then
    osName ++ "-k8s-" ++ k8sVersion
  else osName ++ "-k8s-" ++ k8sVersion ++ ".qcow2"

structure AddonChange where
  name : String
  src : String
  dst : String
  deriving DecidableEq

structure BundleDiff where
  osChanged : Bool
  k8sChanged : Bool
  cniChanged : Bool
  addonChanges : List AddonChange
  deriving DecidableEq

/-- What a hop between two bundles changes. An add-on listed twice in `src` counts with its
last version. -/
def diffResolved (src dst : ResolvedBundle) : BundleDiff :=
  let before (name : String) : Option String :=
    ((src.addons.filter (·.name == name)).getLast?).map (·.version)
  { osChanged := src.os.name != dst.os.name
    k8sChanged := src.kubernetes != dst.kubernetes
    cniChanged := src.cni.name != dst.cni.name || src.cni.version != dst.cni.version
    addonChanges := (dst.addons.filter fun a => before a.name != some a.version).map fun a =>
      ⟨a.name, (before a.name).getD "", a.version⟩ }

namespace Catalog

variable (cat : Catalog)

def osImage (name : String) : Option OSImage := cat.os.find? (·.name == name)

def addon (name : String) : Option CatalogAddon := cat.addons.find? (·.name == name)

def bundle (name : String) : Option Bundle := cat.bundles.find? (·.name == name)

def sortAddons (l : List CatalogAddon) : List CatalogAddon :=
  l.insertionSort fun a b => a.priority < b.priority ∨ a.priority = b.priority ∧ a.name ≤ b.name

def resolve (bundleName : String) : Except String ResolvedBundle :=
  match cat.bundle bundleName with
  | none => throw ("unknown bundle " ++ quote bundleName)
  | some b =>
    pure
      { name := b.name
        os := (cat.osImage b.os).getD {}
        kubernetes := b.kubernetes
        cni := { (cat.addon b.cni).getD {} with version := (b.addons.lookup b.cni).getD "" }
        addons := sortAddons <| (b.addons.keys.filter (· != b.cni)).map fun n =>
          { (cat.addon n).getD {} with version := (b.addons.lookup n).getD "" } }

/-! ### Validation -/

/-- The number a text denotes in base ten, `0` if it is none and clamped to 64 bits. -/
def atoi (s : String) : Int :=
  let digits (bound : Int) (l : List Char) : Int :=
    if l ≠ [] ∧ l.all (·.isDigit) then min (Nat.ofDigitChars 10 l 0) bound else 0
  match s.toList with
  | '-' :: rest => -digits (-minInt64) rest
  | '+' :: rest => digits maxInt64 rest
  | l => digits maxInt64 l

def minor (v : String) : Int :=
  match split v '.' with
  | _ :: m :: _ => atoi m
  | _ => 0

def validateStatus (kind name : String) (s : Status) : Except String Unit :=
  refuseIf (!s.valid) (kind ++ " " ++ quote name ++ ": bad status " ++ quote s.text)

def validateBundle (b : Bundle) : Except String Unit := do
  validateStatus "bundle" b.name b.status
  refuseIf (b.os ∉ cat.os.map (·.name))
    ("bundle " ++ quote b.name ++ ": unknown os " ++ quote b.os)
  refuseIf (b.kubernetes ∉ cat.kubernetes.map (·.version))
    ("bundle " ++ quote b.name ++ ": unknown kubernetes " ++ quote b.kubernetes)
  -- the add-on set of the source is a map, so the last add-on of a name counts
  refuseIf (((cat.addons.filter (·.name == b.cni)).getLast?).map (·.type) ≠ some "cni")
    ("bundle " ++ quote b.name ++ ": cni " ++ quote b.cni ++ " is not a known cni add-on")
  refuseIf (b.cni ∉ b.addons) ("bundle " ++ quote b.name ++ ": cni " ++ quote b.cni ++
    " must be version-pinned in addons")
  b.addons.keys.forM fun n => refuseIf (n ∉ cat.addons.map (·.name))
    ("bundle " ++ quote b.name ++ ": unknown add-on " ++ quote n)
  if b.supersedes = "" then pure ()
  else do
    refuseIf (b.supersedes ∉ cat.bundles.map (·.name))
      ("bundle " ++ quote b.name ++ ": supersedes unknown bundle " ++ quote b.supersedes)
    let prev := (cat.bundle b.supersedes).getD {}
    refuseIf (minor b.kubernetes < minor prev.kubernetes)
      ("bundle " ++ quote b.name ++ ": kubernetes " ++ b.kubernetes ++
        " is older than superseded " ++ quote prev.name ++ " (" ++ prev.kubernetes ++ ")")
    refuseIf (wrap64 (minor b.kubernetes - minor prev.kubernetes) > 1)
      ("bundle " ++ quote b.name ++ ": kubernetes upgrade over " ++ quote prev.name ++
        " skips a minor (" ++ prev.kubernetes ++ " -> " ++ b.kubernetes ++
        "); kubeadm upgrades one minor at a time")

def validate : Except String Unit := do
  cat.os.forM fun o => validateStatus "os" o.name o.status
  cat.kubernetes.forM fun k => validateStatus "kubernetes" k.version k.status
  cat.addons.forM fun a => validateStatus "addon" a.name a.status
  cat.bundles.forM cat.validateBundle

/-- **What validation establishes of a supersedes link**: the bundle it names is there, and is
neither newer nor, in wrapping arithmetic, more than a minor older. -/
theorem link_of_validate {cat : Catalog} (h : cat.validate = .ok ()) {b : Bundle}
    (hb : b ∈ cat.bundles) (hsup : b.supersedes ≠ "") :
    ∃ prev, cat.bundle b.supersedes = some prev ∧ minor prev.kubernetes ≤ minor b.kubernetes ∧
      wrap64 (minor b.kubernetes - minor prev.kubernetes) ≤ 1 := by
  simp only [validate, bind_eq_ok] at h
  obtain ⟨-, -, -, -, -, -, hbundles⟩ := h
  have hchecks := forM_eq_ok hbundles b hb
  simp only [validateBundle, bind_eq_ok, refuseIf_eq_ok, not_not, if_neg hsup] at hchecks
  obtain ⟨-, -, -, -, -, -, -, -, -, -, -, -, -, hknown, -, hold, hskip⟩ := hchecks
  obtain ⟨prev', hprev', hname⟩ := List.mem_map.mp hknown
  have hsome : (cat.bundle b.supersedes).isSome := by
    refine List.find?_isSome.mpr ⟨prev', hprev', ?_⟩
    simp [hname]
  obtain ⟨prev, hprev⟩ := Option.isSome_iff_exists.mp hsome
  rw [hprev, Option.getD_some] at hold hskip
  exact ⟨prev, hprev, Int.not_lt.mp hold, Int.not_lt.mp hskip⟩

/-- **The add-ons a validated bundle ships with**, besides its CNI. -/
theorem names_of_resolve {cat : Catalog} (h : cat.validate = .ok ()) {n : String}
    {rb : ResolvedBundle} (hrb : cat.resolve n = .ok rb) :
    ∃ b, cat.bundle n = some b ∧
      (rb.addons.map (·.name)).Perm (b.addons.keys.filter (· != b.cni)) := by
  unfold resolve at hrb
  split at hrb
  · simp at hrb
  · rename_i b hb
    obtain rfl := Except.ok.inj hrb
    refine ⟨b, hb, ((List.perm_insertionSort _ _).map _).trans (.of_eq ?_)⟩
    rw [List.map_map]
    refine (List.map_congr_left fun n hn => ?_).trans (List.map_id _)
    -- every pinned add-on is a known one
    simp only [validate, bind_eq_ok] at h
    obtain ⟨-, -, -, -, -, -, hbundles⟩ := h
    have hchecks := forM_eq_ok hbundles b (List.mem_of_find?_eq_some hb)
    simp only [validateBundle, bind_eq_ok, refuseIf_eq_ok, not_not] at hchecks
    obtain ⟨-, -, -, -, -, -, -, -, -, -, ⟨⟩, hknown, -⟩ := hchecks
    have hmem := forM_eq_ok hknown n (List.mem_filter.mp hn).1
    simp only [refuseIf_eq_ok, not_not] at hmem
    obtain ⟨ad', had', hname⟩ := List.mem_map.mp hmem
    have hsome : (cat.addon n).isSome := List.find?_isSome.mpr ⟨ad', had', by simp [hname]⟩
    obtain ⟨ad, had⟩ := Option.isSome_iff_exists.mp hsome
    have hfound : ad.name = n := by simpa using List.find?_some had
    simpa [had] using hfound

/-! ### Upgrades -/

/-- The bundle that supersedes `current`; of several, the one listed last. -/
def next (current : String) : Option Bundle :=
  if current = "" then none
  else (cat.bundles.filter (·.supersedes == current)).getLast?

/-- The supported bundles met on the way forwards from `current`, up to the first one whose
name is in `seen`, and at most `fuel` bundles on. -/
def upgradesFrom (seen : List String) (current : String) : Nat → List Bundle
  | 0 => []
  | fuel + 1 =>
    match cat.next current with
    | none => []
    | some b =>
      if b.name ∈ seen then []
      else
        let rest := upgradesFrom (b.name :: seen) b.name fuel
        if b.status = .supported then b :: rest else rest

/-- The bundles a cluster on `current` may be promoted to. -/
def upgradesFor (current : String) : List Bundle :=
  cat.upgradesFrom [] current cat.bundles.length

/-- The first hop of a promotion. -/
def nextUpgrade (current : String) : Option Bundle := (cat.upgradesFor current).head?

variable {cat}

theorem next_eq_some {current : String} {b : Bundle} (h : cat.next current = some b) :
    b ∈ cat.bundles ∧ b.supersedes = current ∧ current ≠ "" := by
  unfold next at h
  split at h
  · simp at h
  · rename_i hne
    obtain ⟨hb, hsup⟩ := List.mem_filter.mp (List.mem_of_getLast? h)
    exact ⟨hb, by simpa using hsup, hne⟩

private theorem upgradesFrom_mono {seen seen' : List String} {current : String} {m n : Nat}
    (hseen : seen' ⊆ seen) (hmn : m ≤ n) :
    cat.upgradesFrom seen current m ⊆ cat.upgradesFrom seen' current n := by
  induction m generalizing seen seen' current n with
  | zero => simp [upgradesFrom]
  | succ m ih =>
    obtain ⟨n, rfl⟩ := Nat.exists_eq_add_of_lt hmn
    simp only [upgradesFrom]
    cases cat.next current with
    | none => simp
    | some b =>
      by_cases hb : b.name ∈ seen
      · simp [hb]
      · have hrest : cat.upgradesFrom (b.name :: seen) b.name m ⊆
            cat.upgradesFrom (b.name :: seen') b.name (m + n) :=
          ih (List.cons_subset_cons b.name hseen) (Nat.le_add_right m n)
        have hb' : b.name ∉ seen' := fun h => hb (hseen h)
        simp only [hb, hb', if_false]
        split
        · exact List.cons_subset_cons b hrest
        · exact hrest

private theorem upgradesFrom_tail {seen : List String} {current : String} {n : Nat}
    {hop : Bundle} {rest : List Bundle} (h : cat.upgradesFrom seen current n = hop :: rest) :
    rest ⊆ cat.upgradesFrom [] hop.name n := by
  induction n generalizing seen current with
  | zero => simp [upgradesFrom] at h
  | succ n ih =>
    simp only [upgradesFrom] at h
    cases hnext : cat.next current with
    | none => simp [hnext] at h
    | some b =>
      simp only [hnext] at h
      split at h
      · simp at h
      · split at h
        · obtain ⟨rfl, rfl⟩ := List.cons.inj h
          exact upgradesFrom_mono (List.nil_subset _) (Nat.le_succ n)
        · exact List.Subset.trans (ih h) (upgradesFrom_mono (List.nil_subset _) (Nat.le_succ n))

/-- **Targets stay reachable.** After the first hop towards an open target, the target is
the bundle reached or still open. -/
theorem mem_upgradesFor_of_hop {current : String} {hop target : Bundle}
    (hhop : cat.nextUpgrade current = some hop) (ht : target ∈ cat.upgradesFor current) :
    target = hop ∨ target ∈ cat.upgradesFor hop.name := by
  obtain ⟨rest, hrest⟩ := List.head?_eq_some_iff.mp hhop
  rw [hrest, List.mem_cons] at ht
  exact ht.imp_right fun h => upgradesFrom_tail hrest h

end Catalog

end KaaS
