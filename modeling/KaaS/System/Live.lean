import KaaS.System.Fleet
import Mathlib.Data.List.Perm.Basic

/-!
# The lives of clusters

A cluster is **live** until its row is `Deleted`. Only the last tick of a deletion ends a life,
and since at most one tick of a cluster is in flight, whatever another tick does outside, it does
for a cluster that is still live (`Fleet.Exclusive`).

A `Deleted` row can come back: a mutation or the cascade of `DeleteUser` that read it earlier
stores its copy. `Fleet.NoResurrection` excludes that, and under it a live row descends from a
live row or is new (`live_step`). So the names of live clusters stay different if no cluster is
created under a name that is taken, by whomever (`Fleet.NamesDistinct.step`).
-/

namespace KaaS

variable {ω : Type}

/-! ### Live rows -/

def Cluster.live (c : Cluster) : Bool := c.phase != .deleted

section Phases

variable {a : App} {r : Reconciler} {c c' : Cluster}

theorem live_of_not_leaving (h : c.leaving = false) : c.live = true := by
  revert h
  unfold Cluster.leaving Cluster.live
  cases c.phase <;> decide

theorem Edit.live {m : Mutation} (h : Edit a c m c') : c'.live = true := by
  cases hm : m.isDelete with
  | true =>
    cases h with
    | delete => rfl
    | _ => cases hm
  | false => exact live_of_not_leaving (h.leaving hm).2

theorem TickStep.live {evs : List Event} (h : TickStep r c (some c') evs)
    (hlive : c'.live = true) : c.live = true := by
  have hne : c'.phase ≠ .deleted := by simpa [Cluster.live] using hlive
  rcases h.phase with hsame | ⟨hw, -⟩ | ⟨hp, -⟩
  · simpa [Cluster.live, ← hsame] using hne
  · revert hw
    unfold Cluster.live
    cases c.phase <;> decide
  · rw [Cluster.live, hp]
    rfl

end Phases

theorem tickTrace_of_not_live (r : Reconciler) (ρ : Env) {c : Cluster} (h : c.live = false) :
    tickTrace r ρ c = [] := by
  have hphase : c.phase = .deleted := by simpa [Cluster.live] using h
  simp [tickTrace, reconcileOne, getCluster, hphase, bind, EStateM.bind, pure, EStateM.pure]

/-! ### One tick at a time -/

def tickIDs (flights : List FleetFlight) : List String :=
  flights.filterMap fun f => f.tick?.map (·.id)

/-- The ticks in flight are of different clusters, and of live ones. -/
structure Fleet.Exclusive (s : Fleet ω) : Prop where
  nodup : (tickIDs s.flights).Nodup
  live : ∀ f ∈ s.flights, ∀ copy, f.tick? = some copy → copy.live = true →
    ∃ row ∈ s.rows, row.id = copy.id ∧ row.live = true

section Ticks

variable {flights : List FleetFlight} {f g : FleetFlight} {i : Nat} {copy : Cluster}

private theorem perm_tickIDs (hi : flights[i]? = some f) :
    (tickIDs flights).Perm ((f.tick?.map (·.id)).toList ++ tickIDs (flights.eraseIdx i)) := by
  obtain ⟨hlt, rfl⟩ := List.getElem?_eq_some_iff.1 hi
  refine ((List.getElem_cons_eraseIdx_perm hlt).symm.filterMap _).trans ?_
  rw [List.filterMap_cons]
  cases flights[i].tick? <;> exact .refl _

private theorem perm_tickIDs_set (hi : flights[i]? = some f) (g : FleetFlight) :
    (tickIDs (flights.set i g)).Perm
      ((g.tick?.map (·.id)).toList ++ tickIDs (flights.eraseIdx i)) := by
  obtain ⟨hlt, -⟩ := List.getElem?_eq_some_iff.1 hi
  refine ((List.set_perm_cons_eraseIdx hlt g).filterMap _).trans ?_
  rw [List.filterMap_cons]
  cases g.tick? <;> exact .refl _

private theorem ne_of_tick (h : (tickIDs flights).Nodup) (hi : flights[i]? = some f)
    (hf : f.tick? = some copy) {copy' : Cluster} (hg : g ∈ flights.eraseIdx i)
    (hcopy' : g.tick? = some copy') : copy'.id ≠ copy.id := by
  intro heq
  have hnodup := (perm_tickIDs hi).nodup_iff.1 h
  rw [hf, Option.map_some, Option.toList_some, List.singleton_append, List.nodup_cons] at hnodup
  refine hnodup.1 (List.mem_filterMap.2 ⟨g, hg, ?_⟩)
  rw [hcopy', Option.map_some, heq]

private theorem nodup_eraseIdx (h : (tickIDs flights).Nodup) (i : Nat) :
    (tickIDs (flights.eraseIdx i)).Nodup :=
  h.sublist ((List.eraseIdx_sublist ..).filterMap _)

end Ticks

section Exclusive

variable {D : Deployment ω} {s : Fleet ω} {x : Cluster}

private theorem Fleet.Exclusive.store_live (h : s.Exclusive) (hx : x.live = true) :
    (s.store x).Exclusive := by
  refine ⟨h.nodup, fun f hf copy hcopy hlive => ?_⟩
  obtain ⟨row, hrow, hid, hrowlive⟩ := h.live f hf copy hcopy hlive
  refine ⟨_, List.mem_map_of_mem hrow, ?_⟩
  by_cases hx' : row.id = x.id
  · rw [if_pos hx']
    exact ⟨hx' ▸ hid, hx⟩
  · rw [if_neg hx']
    exact ⟨hid, hrowlive⟩

private theorem Fleet.Exclusive.closed (h : s.Exclusive) (i : Nat) : (s.closed i).Exclusive :=
  ⟨nodup_eraseIdx h.nodup i, fun f hf => h.live f (List.eraseIdx_subset hf)⟩

private theorem Fleet.Exclusive.set (h : s.Exclusive) {i : Nat} {f g : FleetFlight}
    (hi : s.flights[i]? = some f) (hg : g.tick? = f.tick?) (w : ω) :
    Fleet.Exclusive { s with flights := s.flights.set i g, world := w } := by
  refine ⟨?_, fun g' hg' copy hcopy => ?_⟩
  · rw [(perm_tickIDs_set hi g).nodup_iff, hg, ← (perm_tickIDs hi).nodup_iff]
    exact h.nodup
  · rcases List.mem_or_eq_of_mem_set hg' with hmem | rfl
    · exact h.live g' hmem copy hcopy
    · exact h.live f (List.mem_of_getElem? hi) copy (hg ▸ hcopy)

private theorem Fleet.Exclusive.opened (h : s.Exclusive) {f : FleetFlight} (hf : Opens s f) :
    (s.opened f).Exclusive := by
  have hnone : f.tick? = none → (s.opened f).Exclusive := by
    intro hf
    refine ⟨?_, fun g hg copy hcopy => ?_⟩
    · simpa [Fleet.opened, tickIDs, hf] using h.nodup
    · rcases List.mem_append.1 hg with hg | hg
      · exact h.live g hg copy hcopy
      · rw [List.mem_singleton.1 hg, hf] at hcopy
        cases hcopy
  cases hf with
  | create | call | deleteUser => exact hnone rfl
  | @tick c hc hidle =>
    refine ⟨?_, fun g hg copy hcopy hlive => ?_⟩
    · have hfree : c.id ∉ tickIDs s.flights := by
        intro hmem
        obtain ⟨g, hg, hcopy⟩ := List.mem_filterMap.1 hmem
        obtain ⟨copy, hcopy, hid⟩ := Option.map_eq_some_iff.1 hcopy
        have := List.any_eq_false.1 hidle g hg
        simp [hcopy, hid] at this
      simp only [Fleet.opened, tickIDs, List.filterMap_append, FleetFlight.tick?,
        List.filterMap_cons, List.filterMap_nil, Option.map_some]
      rw [List.nodup_append]
      refine ⟨h.nodup, List.nodup_singleton _, fun a ha b hb hab => ?_⟩
      rw [hab, List.mem_singleton.1 hb] at ha
      exact hfree ha
    · rcases List.mem_append.1 hg with hg | hg
      · exact h.live g hg copy hcopy hlive
      · rw [List.mem_singleton.1 hg] at hcopy
        obtain rfl := Option.some.inj hcopy
        exact ⟨_, hc, rfl, hlive⟩

/-- **Every step keeps the ticks apart.** -/
theorem Fleet.Exclusive.step (h : s.Exclusive) (hsound : s.Sound D) {i : FleetInput}
    {s' : Fleet ω} (hstep : FleetStep D s i s') : s'.Exclusive := by
  cases hstep with
  | stays i hsub =>
    exact ⟨h.nodup.sublist (hsub.filterMap _), fun f hf => h.live f (hsub.subset hf)⟩
  | registered user => exact ⟨h.nodup, h.live⟩
  | opened i hf => exact h.opened hf
  | created hi hlock hc =>
    refine ⟨nodup_eraseIdx h.nodup _, fun f hf copy hcopy hlive => ?_⟩
    obtain ⟨row, hrow, hrest⟩ := h.live f (List.eraseIdx_subset hf) copy hcopy hlive
    exact ⟨row, List.mem_append_left _ hrow, hrest⟩
  | called hi hedit => exact (h.closed _).store_live hedit.live
  | @marked i user c left hi =>
    have hset := h.set (g := .deleteUser user left) hi rfl s.world
    exact hset.store_live (x := markDeleting c) rfl
  | userDeleted hi => exact ⟨(h.closed _).nodup, (h.closed _).live⟩
  | @worked i n ρ copy hi =>
    exact h.set (g := .worked copy (tickResult D.platform.reconciler ρ copy)) hi rfl _
  | @ticked i copy c row hi hrow hgen =>
    -- the write concerns its own cluster, and no other tick is about that one
    obtain ⟨-, hresult⟩ := hsound.flights _ (List.mem_of_getElem? hi)
    obtain ⟨evs, htick⟩ := hresult c rfl
    refine ⟨nodup_eraseIdx h.nodup i, fun f hf copy' hcopy' hlive => ?_⟩
    have hne : copy'.id ≠ copy.id := ne_of_tick h.nodup hi rfl hf hcopy'
    obtain ⟨row', hrow', hid, hlive'⟩ := h.live f (List.eraseIdx_subset hf) copy' hcopy' hlive
    refine ⟨_, List.mem_map_of_mem hrow', ?_⟩
    rw [if_neg (by rw [hid, htick.sameIdentity.id]; exact hne)]
    exact ⟨hid, hlive'⟩

theorem Fleet.Exclusive.initial {w : ω} : (Fleet.initial w).Exclusive :=
  ⟨List.nodup_nil, fun _ hf => absurd hf List.not_mem_nil⟩

end Exclusive

/-! ### Where live rows come from -/

def Fleet.isDeleted (s : Fleet ω) (id : String) : Bool :=
  s.rows.any fun row => row.id == id && !row.live

/-- The step does not store a copy over a row that is `Deleted`. Ticks need no condition. -/
def Fleet.NoResurrection (s : Fleet ω) : FleetInput → Prop
  | .commitCall i =>
    match s.flights[i]? with
    | some (.call _ copy) => s.isDeleted copy.id = false
    | _ => True
  | .deleteNext i =>
    match s.flights[i]? with
    | some (.deleteUser _ (c :: _)) => s.isDeleted c.id = false
    | _ => True
  | _ => True

instance Fleet.NoResurrection.decidable (s : Fleet ω) (i : FleetInput) :
    Decidable (s.NoResurrection i) := by
  unfold NoResurrection
  repeat' split
  all_goals infer_instance

/-- **Where a live row comes from**: a live row of the same cluster, or `CreateCluster`. -/
inductive Descends (D : Deployment ω) (s : Fleet ω) (c : Cluster) : FleetInput → Prop
  | kept (i : FleetInput) {row : Cluster} (hrow : row ∈ s.rows) (hlive : row.live = true)
      (hsame : SameIdentity row c) : Descends D s c i
  | new {i : Nat} {adm : CreateAdmission} {req : CreateRequest} {actor : String}
      (hi : s.flights[i]? = some (.create actor)) (hc : D.admitNew s actor adm req = some c) :
      Descends D s c (.create i adm req)

section Descent

variable {D : Deployment ω} {s s' : Fleet ω} {x c : Cluster} {i : FleetInput}

private theorem live_of_isDeleted {row : Cluster} (h : s.isDeleted x.id = false)
    (hrow : row ∈ s.rows) (hid : row.id = x.id) : row.live = true := by
  simp only [Fleet.isDeleted, List.any_eq_false, Bool.and_eq_true, beq_iff_eq, not_and] at h
  simpa using h row hrow hid

private theorem descends_store (hsound : s.Sound D) (hx : Copies s.rows x)
    (hlive : x.live = true → ∀ row ∈ s.rows, row.id = x.id → row.live = true)
    (hc : c ∈ (s.store x).rows) (hclive : c.live = true) : Descends D s c i := by
  rcases Fleet.mem_store hc with ⟨rfl, old, hold, hid⟩ | ⟨hc, -⟩
  · exact .kept i hold (hlive hclive old hold hid) (hsound.sameIdentity hold hx hid)
  · exact .kept i hc hclive (.refl c)

/-- **No live row comes from nowhere** in a step without resurrection. -/
theorem live_step (hsound : s.Sound D) (hexcl : s.Exclusive) (hcond : s.NoResurrection i)
    (hstep : FleetStep D s i s') (hc : c ∈ s'.rows) (hclive : c.live = true) :
    Descends D s c i := by
  cases hstep with
  | stays | registered | opened | userDeleted | worked => exact .kept _ hc hclive (.refl c)
  | created hi hlock hnew =>
    rcases List.mem_append.1 hc with hc | hc
    · exact .kept _ hc hclive (.refl c)
    · rw [List.mem_singleton.1 hc]
      exact .new hi hnew
  | @called i k copy c' hi hedit =>
    have hcopy : Copies s.rows copy := hsound.flights _ (List.mem_of_getElem? hi)
    simp only [Fleet.NoResurrection, hi] at hcond
    refine descends_store hsound (hcopy.trans hedit.sameIdentity) ?_ hc hclive
    intro _ row hrow hid
    exact live_of_isDeleted hcond hrow (hid.trans hedit.sameIdentity.id)
  | @marked i user c' left hi =>
    have hleft := hsound.flights _ (List.mem_of_getElem? hi)
    simp only [Fleet.NoResurrection, hi] at hcond
    have hcopy : Copies s.rows (markDeleting c') :=
      (hleft c' List.mem_cons_self).2.trans (sameIdentity_markDeleting c')
    exact descends_store hsound hcopy (fun _ row hrow hid => live_of_isDeleted hcond hrow hid)
      hc hclive
  | @ticked i copy c' row hi hrow hgen =>
    obtain ⟨hcopy, hresult⟩ := hsound.flights _ (List.mem_of_getElem? hi)
    obtain ⟨evs, htick⟩ := hresult c' rfl
    refine descends_store hsound (hcopy.trans htick.sameIdentity) ?_ hc hclive
    -- the cluster was live when the tick read it, and it still is
    intro hlive row' hrow' hid
    obtain ⟨live, hmem, hid', hlive'⟩ :=
      hexcl.live _ (List.mem_of_getElem? hi) copy rfl (htick.live hlive)
    have heq : row' = live := List.inj_on_of_nodup_map hsound.nodup hrow' hmem
      (hid.trans (htick.sameIdentity.id.trans hid'.symm))
    rw [heq]
    exact hlive'

theorem name_of_admitNew {actor : String} {adm : CreateAdmission} {req : CreateRequest}
    (hc : D.admitNew s actor adm req = some c) : c.name = req.name := by
  obtain ⟨-, hok⟩ := Deployment.admitNew_fresh hc
  exact (identity_of_createCluster hok).2.2.1

end Descent

/-! ### Names -/

/-- No live cluster, of whatever owner, has the name. -/
def Fleet.NameFree (s : Fleet ω) (name : String) : Prop :=
  ∀ c ∈ s.rows, c.live = true → c.name ≠ name

instance Fleet.NameFree.decidable (s : Fleet ω) (name : String) : Decidable (s.NameFree name) :=
  inferInstanceAs (Decidable (∀ c ∈ s.rows, c.live = true → c.name ≠ name))

def Fleet.NamesDistinct (s : Fleet ω) : Prop :=
  ∀ c ∈ s.rows, c.live = true → ∀ d ∈ s.rows, d.live = true → c.name = d.name → c.id = d.id

section Names

variable {D : Deployment ω} {s s' : Fleet ω} {i : FleetInput}

theorem Fleet.NamesDistinct.step (h : s.NamesDistinct) (hsound : s.Sound D)
    (hexcl : s.Exclusive) (hcond : s.NoResurrection i)
    (hfree : ∀ j adm req, i = .create j adm req → s.NameFree req.name)
    (hstep : FleetStep D s i s') : s'.NamesDistinct := by
  intro c hc hclive d hd hdlive hname
  have hcfrom := live_step hsound hexcl hcond hstep hc hclive
  have hdfrom := live_step hsound hexcl hcond hstep hd hdlive
  cases hcfrom with
  | kept _ hrc hrclive hcsame =>
    cases hdfrom with
    | kept _ hrd hrdlive hdsame =>
      rw [hcsame.id, hdsame.id]
      refine h _ hrc hrclive _ hrd hrdlive ?_
      rw [← hcsame.name, ← hdsame.name, hname]
    | new hi hnew =>
      refine absurd ?_ (hfree _ _ _ rfl _ hrc hrclive)
      rw [← hcsame.name, hname, name_of_admitNew hnew]
  | new hi hnew =>
    cases hdfrom with
    | kept _ hrd hrdlive hdsame =>
      refine absurd ?_ (hfree _ _ _ rfl _ hrd hrdlive)
      rw [← hdsame.name, ← hname, name_of_admitNew hnew]
    | new hi' hnew' =>
      -- one step creates one cluster
      obtain rfl := FleetFlight.create.inj (Option.some.inj (hi.symm.trans hi'))
      rw [Option.some.inj (hnew.symm.trans hnew')]

theorem Fleet.NamesDistinct.initial {w : ω} : (Fleet.initial w).NamesDistinct :=
  fun _ hc => absurd hc List.not_mem_nil

end Names

/-! ### Revivals -/

/-- A write made from `copy` would bring back a cluster that is going away. -/
def Fleet.revives (s : Fleet ω) (copy : Cluster) : Bool :=
  !copy.leaving && s.rows.any fun row => row.id == copy.id && row.leaving

/-- What `revives = false` says to a write that keeps a cluster alive. -/
theorem not_leaving_of_revives {s : Fleet ω} {copy : Cluster} (hcopy : copy.leaving = false)
    (h : s.revives copy = false) : ∀ row ∈ s.rows, row.id = copy.id → row.leaving = false := by
  intro row hrow hid
  simp only [Fleet.revives, hcopy, Bool.not_false, Bool.true_and, List.any_eq_false,
    Bool.and_eq_true, beq_iff_eq, not_and, Bool.not_eq_true] at h
  exact h row hrow hid

end KaaS
