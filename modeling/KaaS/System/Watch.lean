import KaaS.Reconcile.Account
import KaaS.System.Row

/-!
# Watching the inside of a cluster

The runs of a platform again, with another history. Of a tick it holds **every call that changes
something inside the cluster**: machines and disks, but also add-ons, releases, registrations,
metrics and the gateway. A call that works on the tick's copy has no argument that says so; an
observer `g` who needs to know what the copy was notes the copy the tick ended with beside it.

The protocol is the one of `Platform.run`, so the rule for invariants is too: what a tick does is
its account, together with its step, and what an edit does is what `App.apply` says.
-/

namespace KaaS

open Optimistic

/-- What is known of a tick on the row `c`: its account inside the cluster, and its step. -/
structure Ticked (r : Reconciler) (ρ : Env) (c : Cluster) (ok : Bool) (c' : Cluster)
    (es : List Event) : Prop where
  account : TickAccount r ρ c ok c' es
  step : TickStep r c (if ok then some c' else none) (infraCalls es)

private theorem infraCalls_insideCalls (t : List Event) :
    infraCalls (insideCalls t) = infraCalls t := by
  rw [infraCalls, insideCalls, List.filter_filter]
  refine List.filter_congr fun e _ => ?_
  cases e.call <;> rfl

theorem ticked (r : Reconciler) (ρ : Env) (c : Cluster) :
    ∃ ok, Ticked r ρ c ok (tickCopy r ρ c) (insideCalls (tickTrace r ρ c)) ∧
      tickResult r ρ c = if ok then some (tickCopy r ρ c) else none := by
  obtain ⟨ok, haccount, hres⟩ := tickAccount r ρ c
  have hstep := tickStep r ρ c
  rw [hres, ← infraCalls_insideCalls] at hstep
  exact ⟨ok, ⟨haccount, hstep⟩, hres⟩

theorem Ticked.sameDesire {r : Reconciler} {ρ : Env} {c c' : Cluster} {es : List Event}
    (h : Ticked r ρ c true c' es) : SameDesire c c' :=
  TickStep.sameDesire h.step

namespace Platform

section Watch

variable {ω : Type} (P : Platform) (g : Event → Cluster → ω)

/-- The parties of `Platform.protocol`, with the calls inside the cluster on record as `g` notes
them down: each with the copy its tick ended with. -/
def watch : Protocol Cluster ω Env (Admission × Mutation) where
  version c := c.generation
  work ρ c := (tickResult P.reconciler ρ c,
    (insideCalls (tickTrace P.reconciler ρ c)).map (g · (tickCopy P.reconciler ρ c)))
  write := P.edit

/-- The state after a run on a cluster that began with the row `c`. -/
def watched (c : Cluster) (is : Inputs) : State Cluster ω :=
  TransitionSystem.run (P.watch g).step { row := c } is

/-- Every step of the run meets the condition `C` where it is taken. -/
def WatchedAlong (C : State Cluster ω → Input Env (Admission × Mutation) → Prop) (c : Cluster)
    (is : Inputs) : Prop :=
  TransitionSystem.Along (P.watch g).step C { row := c } is

instance (C : State Cluster ω → Input Env (Admission × Mutation) → Prop)
    [∀ s i, Decidable (C s i)] (c : Cluster) (is : Inputs) : Decidable (P.WatchedAlong g C c is) :=
  TransitionSystem.Along.decidable _ C _ is

end Watch

/-- The calls as they are, without the copy. -/
abbrev eventOnly : Event → Cluster → Event := fun e _ => e

variable {ω : Type} {P : Platform} {g : Event → Cluster → ω}

/-- **Invariants of a watched run**: preserved by every tick, whether or not its copy is stored,
and by every edit. -/
theorem watched_invariant (Inv : Cluster → List (Entry Cluster ω) → Prop)
    {C : State Cluster ω → Input Env (Admission × Mutation) → Prop}
    (htick : ∀ s ρ ok c' es, Inv s.row s.log → s.copy = none → C s (.tick ρ) →
      Ticked P.reconciler ρ s.row ok c' es →
      Inv s.row (push s.row (es.map (g · c')) s.log) ∧
      (ok = true → Inv c' (.stored s.row c' :: push s.row (es.map (g · c')) s.log)))
    (hedit : ∀ s k c', Inv s.row s.log → C s (.write k) →
      P.app.apply k.1 k.2 s.row = .ok (some c') → Inv c' (.written s.row c' :: s.log))
    {c : Cluster} {is : Inputs} (h : Inv c []) (hC : P.WatchedAlong g C c is) :
    Inv (P.watched g c is).row (P.watched g c is).log := by
  refine Protocol.run_invariant ?_ ?_ ?_ ?_ h rfl hC
  · intro k c c' hc'
    have hgen := (edit_eq_some hc').generation
    exact Nat.lt_of_lt_of_eq (Nat.lt_succ_self _) hgen.symm
  · intro ρ c c' hc'
    have hstep := tickStep P.reconciler ρ c
    rw [show tickResult P.reconciler ρ c = some c' from hc'] at hstep
    exact hstep.sameDesire.generation
  · intro s ρ hInv hidle hcond
    obtain ⟨ok, hticked, hres⟩ := ticked P.reconciler ρ s.row
    obtain ⟨hrow, hstored⟩ := htick s ρ ok _ _ hInv hidle hcond hticked
    refine ⟨hrow, fun c' hc' => ?_⟩
    have hc' : (if ok then some (tickCopy P.reconciler ρ s.row) else none) = some c' :=
      hres.symm.trans hc'
    cases ok with
    | true =>
      obtain rfl := Option.some.inj hc'
      exact hstored rfl
    | false => simp at hc'
  · intro s k c hInv hcond hc
    exact hedit s k c hInv hcond (apply_of_edit hc)

end Platform

/-! ### A small deployment with add-ons -/

/-- The small catalog whose second bundle has another operating system, with these add-ons. -/
def addonCatalog (names : List String) : Catalog :=
  { demoCatalog "ubuntu-24.04" "1.30.2" with
    addons := (demoCatalog "ubuntu-24.04" "1.30.2").addons ++ names.map fun name =>
      { name := name, type := "other", version := "1.0", status := .supported } }

def addonPlatform (names : List String) : Platform where
  app := { catalog := addonCatalog names }
  reconciler := { catalog := addonCatalog names }
  same := rfl

/-- A new cluster with an address and a domain, and with these add-ons. -/
def addonCluster (names : List String) : Cluster :=
  { demoCluster with
    loadBalancerIP := "10.0.0.5"
    appsDomain := "apps.demo.kaas.internal"
    addons := names.map fun name => { name := name, version := "1.0", phase := .pending } }

theorem pristine_addonCluster (known names : List String) :
    Pristine (addonCatalog known) (addonCluster names) := by
  have h := created_demoCluster "ubuntu-24.04" "1.30.2"
  exact ⟨⟨rfl, rfl, h.behind, rfl, h.pools, ⟨h.disks.nodup, h.disks.on_worker⟩, h.fresh,
    ⟨_, rfl, rfl, rfl⟩⟩, by simp [addonCluster], rfl, rfl, rfl, by simp [addonCluster, demoCluster]⟩

end KaaS
