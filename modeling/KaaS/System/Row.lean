import KaaS.App.Create
import KaaS.Library.Optimistic
import KaaS.Reconcile.Step

/-!
# Runs of the platform on one cluster

The row of a cluster is shared by the reconciler and by the API. The job queue keeps at most
one tick per cluster in flight; a tick reads the row, makes its calls and stores its copy
unless the generation has moved (`UpdateClusterUnlessSuperseded`). Between the two, accepted
mutations may replace the row. This is an instance of the guarded worker among blind
writers, with the generation as version: here a mutation reads and writes in one step, and
what overlapping mutations do to each other is the subject of another module.

A history holds the calls that concern machines, drains and mounts, each with the row the
tick had read, and every change of the row.
-/

namespace KaaS

open Optimistic

/-- A deployment: API and reconciler, over one catalog. -/
structure Platform where
  app : App
  reconciler : Reconciler
  same : reconciler.catalog = app.catalog

abbrev History := List (Entry Cluster Event)

namespace Platform

variable (P : Platform)

/-- The row a mutation stores, if it is accepted and changes something. -/
def edit (k : Admission × Mutation) (c : Cluster) : Option Cluster :=
  match P.app.apply k.1 k.2 c with
  | .ok c' => c'
  | .error _ => none

def protocol : Protocol Cluster Event Env (Admission × Mutation) where
  version c := c.generation
  work ρ c := (tickResult P.reconciler ρ c, infraCalls (tickTrace P.reconciler ρ c))
  write := P.edit

abbrev Inputs := List (Input Env (Admission × Mutation))

/-- The state after a run on a cluster that began with the row `c`. -/
def run (c : Cluster) (is : Inputs) : State Cluster Event :=
  TransitionSystem.run P.protocol.step { row := c } is

/-- Every step of the run meets the condition `C` where it is taken. -/
def Along (C : State Cluster Event → Input Env (Admission × Mutation) → Prop) (c : Cluster)
    (is : Inputs) : Prop :=
  TransitionSystem.Along P.protocol.step C { row := c } is

instance (C : State Cluster Event → Input Env (Admission × Mutation) → Prop)
    [∀ s i, Decidable (C s i)] (c : Cluster) (is : Inputs) : Decidable (P.Along C c is) :=
  TransitionSystem.Along.decidable _ C _ is

end Platform

/-! ### What ticks and mutations leave alone -/

/-- `c'` asks for the same machines, at the same generation, as `c`. -/
structure SameDesire (c c' : Cluster) : Prop where
  name : c'.name = c.name
  size : c'.size = c.size
  controlPlanes : c'.controlPlanes = c.controlPlanes
  nodePools : c'.nodePools = c.nodePools
  provider : c'.provider = c.provider
  generation : c'.generation = c.generation

namespace SameDesire

variable {c c' : Cluster}

theorem trans {c'' : Cluster} (h : SameDesire c c') (h' : SameDesire c' c'') : SameDesire c c'' :=
  ⟨h'.name.trans h.name, h'.size.trans h.size, h'.controlPlanes.trans h.controlPlanes,
    h'.nodePools.trans h.nodePools, h'.provider.trans h.provider,
    h'.generation.trans h.generation⟩

theorem desiredNodes (h : SameDesire c c') : desiredNodes c' = KaaS.desiredNodes c := by
  simp only [KaaS.desiredNodes, Cluster.controlPlaneCount, h.name, h.size, h.controlPlanes,
    h.nodePools]

theorem nodeVMNames (h : SameDesire c c') : nodeVMNames c' = KaaS.nodeVMNames c := by
  simp only [KaaS.nodeVMNames, h.desiredNodes]

theorem workerNames (h : SameDesire c c') : workerNames c' = KaaS.workerNames c := by
  simp only [KaaS.workerNames, h.desiredNodes]

theorem infraProvider (h : SameDesire c c') : c'.infraProvider = c.infraProvider := by
  simp only [Cluster.infraProvider, h.provider]

end SameDesire

theorem SameDesire.finishBringUp {c c' : Cluster} (h : SameDesire c c') :
    SameDesire c (finishBringUp c') := by
  refine h.trans ?_
  unfold KaaS.finishBringUp
  split <;> exact ⟨rfl, rfl, rfl, rfl, rfl, rfl⟩

theorem SameDesire.finishUpdate {c c' : Cluster} (h : SameDesire c c') :
    SameDesire c (finishUpdate c') := by
  refine h.trans ?_
  unfold KaaS.finishUpdate
  split <;> exact ⟨rfl, rfl, rfl, rfl, rfl, rfl⟩

theorem SameDesire.finishHop {c c' : Cluster} (h : SameDesire c c') :
    SameDesire c (finishHop c') := by
  refine h.trans ?_
  unfold KaaS.finishHop
  split <;> exact ⟨rfl, rfl, rfl, rfl, rfl, rfl⟩

/-- The part of a row that no tick touches. -/
def Cluster.asked (c : Cluster) : Cluster :=
  { id := c.id, name := c.name, ownerID := c.ownerID, size := c.size, nodePools := c.nodePools,
    provider := c.provider, networkCIDR := c.networkCIDR, networkName := c.networkName,
    ipMode := c.ipMode, netGateway := c.netGateway, netDNS := c.netDNS, staticIPs := c.staticIPs,
    controlPlanes := c.controlPlanes, apiVIP := c.apiVIP, loadBalancerIP := c.loadBalancerIP,
    appsDomain := c.appsDomain, generation := c.generation, storageDiskGB := c.storageDiskGB }

/-- What stays of a row under a tick: all that was asked for, and that it is gone. -/
def StaysAsked (c c' : Cluster) : Prop :=
  c'.asked = c.asked ∧ (c.deletedAt.isSome → c'.deletedAt.isSome)

private theorem StaysAsked.trans {c c' c'' : Cluster} (h : StaysAsked c c')
    (h' : StaysAsked c' c'') : StaysAsked c c'' :=
  ⟨h'.1.trans h.1, fun hgone => h'.2 (h.2 hgone)⟩

private theorem staysAsked_finishBringUp (c : Cluster) : StaysAsked c (finishBringUp c) := by
  unfold finishBringUp
  split <;> exact ⟨rfl, id⟩

private theorem staysAsked_finishUpdate (c : Cluster) : StaysAsked c (finishUpdate c) := by
  unfold finishUpdate
  split <;> exact ⟨rfl, id⟩

private theorem staysAsked_finishHop (c : Cluster) : StaysAsked c (finishHop c) := by
  unfold finishHop
  split <;> exact ⟨rfl, id⟩

private theorem Replaced.staysAsked {c c' : Cluster} {node : Node} {image : String} {ok : Bool}
    {evs : List Event} (h : Replaced c node image ok c' evs) : StaysAsked c c' := by
  cases h <;> exact ⟨rfl, id⟩

private theorem Repaired.staysAsked {c c' : Cluster} {evs : List Event} (h : Repaired c c' evs) :
    StaysAsked c c' := by
  cases h with
  | replaced hnode hact h => exact h.staysAsked
  | _ => exact ⟨rfl, id⟩

/-- **A tick does not touch what was asked for**, and brings nothing back. -/
theorem TickStep.staysAsked {r : Reconciler} {c c' : Cluster} {evs : List Event}
    (h : TickStep r c (some c') evs) : StaysAsked c c' := by
  generalize hres : some c' = res at h
  cases h with
  | failed | provisionFailed | mountFailed | updateFailed => simp at hres
  | broughtUp =>
    obtain rfl := Option.some.inj hres
    exact StaysAsked.trans ⟨rfl, id⟩ (staysAsked_finishBringUp _)
  | repaired h hr =>
    obtain rfl := Option.some.inj hres
    exact hr.staysAsked.trans ⟨rfl, id⟩
  | rolled h hhop hsrc hdst hos hleft hnode hr =>
    split at hres
    · obtain rfl := Option.some.inj hres
      exact hr.staysAsked
    · simp at hres
  | hopped =>
    obtain rfl := Option.some.inj hres
    exact StaysAsked.trans ⟨rfl, id⟩ (staysAsked_finishHop _)
  | updated =>
    obtain rfl := Option.some.inj hres
    exact StaysAsked.trans ⟨rfl, id⟩ (staysAsked_finishUpdate _)
  | deleted =>
    obtain rfl := Option.some.inj hres
    exact ⟨rfl, fun _ => rfl⟩
  | _ =>
    obtain rfl := Option.some.inj hres
    exact ⟨rfl, id⟩

theorem StaysAsked.eq {c c' : Cluster} {δ : Type} {f : Cluster → δ} (h : StaysAsked c c')
    (hf : ∀ c, f c.asked = f c) : f c' = f c := by
  rw [← hf c', h.1, hf c]

theorem StaysAsked.sameDesire {c c' : Cluster} (h : StaysAsked c c') : SameDesire c c' :=
  ⟨h.eq fun _ => rfl, h.eq fun _ => rfl, h.eq fun _ => rfl, h.eq fun _ => rfl,
    h.eq fun _ => rfl, h.eq fun _ => rfl⟩

theorem TickStep.sameDesire {r : Reconciler} {c c' : Cluster} {evs : List Event}
    (h : TickStep r c (some c') evs) : SameDesire c c' :=
  h.staysAsked.sameDesire

/-- **A tick observes the generation it read**, or leaves what was observed. -/
theorem TickStep.observedGeneration {r : Reconciler} {c c' : Cluster} {evs : List Event}
    (h : TickStep r c (some c') evs) :
    c'.observedGeneration = c.observedGeneration ∨ c'.observedGeneration = c.generation := by
  generalize hres : some c' = res at h
  cases h with
  | failed | provisionFailed | mountFailed | updateFailed => simp at hres
  | broughtUp =>
    obtain rfl := Option.some.inj hres
    unfold finishBringUp
    split
    · exact .inr rfl
    · exact .inl rfl
  | repaired h hr =>
    obtain rfl := Option.some.inj hres
    cases hr with
    | replaced hnode hact hr => cases hr <;> exact .inl rfl
    | _ => exact .inl rfl
  | noHop =>
    obtain rfl := Option.some.inj hres
    exact .inr rfl
  | rolled h hhop hsrc hdst hos hleft hnode hr =>
    split at hres
    · obtain rfl := Option.some.inj hres
      cases hr <;> exact .inl rfl
    · simp at hres
  | hopped =>
    obtain rfl := Option.some.inj hres
    unfold finishHop
    split
    · dsimp only
      split
      · exact .inr rfl
      · exact .inl rfl
    · exact .inl rfl
  | updated =>
    obtain rfl := Option.some.inj hres
    unfold finishUpdate
    split
    · exact .inr rfl
    · exact .inl rfl
  | _ =>
    obtain rfl := Option.some.inj hres
    exact .inl rfl

theorem Edit.observedGeneration {a : App} {c c' : Cluster} {m : Mutation} (h : Edit a c m c') :
    c'.observedGeneration = c.observedGeneration := by
  cases h <;> rfl

theorem Edit.generation {a : App} {c c' : Cluster} {m : Mutation} (h : Edit a c m c') :
    c'.generation = c.generation + 1 := by
  cases h <;> rfl

/-! ### The invariant rule -/

namespace Platform

variable {P : Platform}

theorem apply_of_edit {k : Admission × Mutation} {c c' : Cluster} (h : P.edit k c = some c') :
    P.app.apply k.1 k.2 c = .ok (some c') := by
  unfold edit at h
  split at h
  · rename_i res hres
    rw [hres, h]
  · simp at h

theorem edit_eq_some {k : Admission × Mutation} {c c' : Cluster} (h : P.edit k c = some c') :
    Edit P.app c k.2 c' :=
  edit_of_apply (apply_of_edit h)

/-- **Invariants of a run**: preserved by every step of a tick, whether or not its copy is
stored, and by every accepted mutation. -/
theorem run_invariant_apply (Inv : Cluster → History → Prop)
    {C : State Cluster Event → Input Env (Admission × Mutation) → Prop}
    (htick : ∀ s ρ res evs, Inv s.row s.log → s.copy = none → C s (.tick ρ) →
      TickStep P.reconciler s.row res evs →
      Inv s.row (push s.row evs s.log) ∧
      ∀ c, res = some c → Inv c (.stored s.row c :: push s.row evs s.log))
    (happly : ∀ s k c, Inv s.row s.log → C s (.write k) →
      P.app.apply k.1 k.2 s.row = .ok (some c) → Inv c (.written s.row c :: s.log))
    {c : Cluster} {is : Inputs} (h : Inv c []) (hC : P.Along C c is) :
    Inv (P.run c is).row (P.run c is).log := by
  refine Protocol.run_invariant ?_ ?_ ?_ ?_ h rfl hC
  · intro k c c' hc'
    have hgen := (edit_eq_some hc').generation
    exact Nat.lt_of_lt_of_eq (Nat.lt_succ_self _) hgen.symm
  · intro ρ c c' hc'
    have hstep := tickStep P.reconciler ρ c
    rw [show tickResult P.reconciler ρ c = some c' from hc'] at hstep
    exact hstep.sameDesire.generation
  · intro s ρ hInv hidle hcond
    exact htick s ρ _ _ hInv hidle hcond (tickStep P.reconciler ρ s.row)
  · intro s k c hInv hcond hc
    exact happly s k c hInv hcond (apply_of_edit hc)

/-- The same where the effect of a mutation is all that is needed of it. -/
theorem run_invariant (Inv : Cluster → History → Prop)
    {C : State Cluster Event → Input Env (Admission × Mutation) → Prop}
    (htick : ∀ s ρ res evs, Inv s.row s.log → s.copy = none → C s (.tick ρ) →
      TickStep P.reconciler s.row res evs →
      Inv s.row (push s.row evs s.log) ∧
      ∀ c, res = some c → Inv c (.stored s.row c :: push s.row evs s.log))
    (hedit : ∀ s k c, Inv s.row s.log → C s (.write k) → Edit P.app s.row k.2 c →
      Inv c (.written s.row c :: s.log))
    {c : Cluster} {is : Inputs} (h : Inv c []) (hC : P.Along C c is) :
    Inv (P.run c is).row (P.run c is).log :=
  run_invariant_apply Inv htick
    (fun s k c hInv hcond hc => hedit s k c hInv hcond (edit_of_apply hc)) h hC

end Platform

/-! ### A small deployment -/

/-- Two bundles, the second with this operating system and this Kubernetes version. -/
def demoCatalog (osName k8sVersion : String) : Catalog where
  os := [⟨"ubuntu-22.04", .supported⟩, ⟨"ubuntu-24.04", .supported⟩]
  kubernetes := [⟨"1.30.1", .supported⟩, ⟨"1.30.2", .supported⟩]
  addons := [{ name := "cilium", type := "cni", version := "1.16", status := .supported }]
  bundles := [
    { name := "r1", status := .supported, os := "ubuntu-22.04", kubernetes := "1.30.1",
      cni := "cilium", addons := AList.singleton "cilium" "1.16" },
    { name := "r2", status := .supported, os := osName, kubernetes := k8sVersion,
      cni := "cilium", addons := AList.singleton "cilium" "1.16", supersedes := "r1" }]

def demoPlatform (osName k8sVersion : String) : Platform where
  app := { catalog := demoCatalog osName k8sVersion }
  reconciler := { catalog := demoCatalog osName k8sVersion }
  same := rfl

/-- The second bundle has another operating system. -/
def rollingPlatform : Platform := demoPlatform "ubuntu-24.04" "1.30.2"

/-- The second bundle has the same operating system and another Kubernetes. -/
def inPlacePlatform : Platform := demoPlatform "ubuntu-22.04" "1.30.2"

def demoPools (workers : Int) : List NodePool :=
  [{ name := "default", size := "small", desiredWorkers := workers }]

/-- A new cluster on the first bundle, with two workers. -/
def demoCluster : Cluster where
  id := "1"
  name := "demo"
  size := "small"
  nodePools := demoPools 2
  controlPlanes := 1
  provider := providerKVM
  bundle := "r1"
  osImage := "ubuntu-22.04"
  k8sVersion := "1.30.1"
  cni := "cilium"
  cniVersion := "1.16"
  generation := 1

theorem created_demoCluster (osName k8sVersion : String) :
    Created (demoCatalog osName k8sVersion) demoCluster where
  phase := rfl
  nodes := rfl
  behind := by decide
  target := rfl
  pools := ⟨by decide, by decide⟩
  disks := ⟨by decide, by decide⟩
  fresh := by decide
  versions := ⟨_, rfl, rfl, rfl⟩

def demoDisk : AddNodeDiskRequest where
  vmName := "demo-default-0"
  name := "data"
  sizeGB := 10

/-- A tick with these answers, whose copy is then offered to the store. -/
def pass (ρ : Env) : Platform.Inputs := [.tick ρ, .finish]

/-- The ticks that bring a new cluster up, when nothing fails. -/
def bringUpRun : Platform.Inputs := (List.replicate 6 (pass {})).flatten

def submit (m : Mutation) : Platform.Inputs := [.write ({}, m)]

end KaaS
