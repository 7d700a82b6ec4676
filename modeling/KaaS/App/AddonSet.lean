import KaaS.App.Mutations
import KaaS.Library.Assoc
import KaaS.Library.Keyed

/-!
# Bringing the add-ons of a cluster to a wanted set

`reconcileAddonSet` works on one **partition** of a cluster's add-ons, the built-in ones or those of
custom catalogs. Entries of the other partition pass through; a wanted entry keeps its record, but a
removal under way is cancelled; any other entry is marked for removal; what is wanted and not there
is appended, in the order of the request.

All of it is read off one equation for the list (`reconcileAddonSet_fst`): each entry settled, then
the names that are missing. A second call finds everything settled and nothing missing, provided
that the wanted records are what a request makes of them (`Wants`).
-/

namespace KaaS

variable {addons : List Addon} {want : AList fun _ : String => Addon} {order : List String}
  {governs : Addon → Bool}

/-- **A request's set**: each record is stored under its own name, in the partition, and not on its
way out; and the partition is not about phases. -/
structure Wants (want : AList fun _ : String => Addon) (governs : Addon → Bool) : Prop where
  blind : ∀ ad phase, governs { ad with phase := phase } = governs ad
  name : ∀ n ad, want.lookup n = some ad → ad.name = n
  governed : ∀ n ad, want.lookup n = some ad → governs ad = true
  staying : ∀ n ad, want.lookup n = some ad → ad.phase ≠ .removing

def settleWanted (want : AList fun _ : String => Addon) (governs : Addon → Bool) (ad : Addon) :
    Addon :=
  if governs ad = false then ad
  else if ad.name ∈ want then
    { ad with phase := if ad.phase = .removing then .pending else ad.phase }
  else { ad with phase := .removing }

/-- The entries that are there already, as far as the partition goes. -/
def presentNames (addons : List Addon) (governs : Addon → Bool) : List String :=
  (addons.filter governs).map (·.name)

/-- The names that are appended: those missing, once each, in the order of the request. -/
def missingNames (addons : List Addon) (order : List String) (governs : Addon → Bool) :
    List String :=
  (order.filter fun n => !(presentNames addons governs).contains n).eraseDups

theorem mem_missingNames {n : String} :
    n ∈ missingNames addons order governs ↔ n ∈ order ∧ n ∉ presentNames addons governs := by
  simp [missingNames]

/-! ### The list -/

private theorem missing_eq (horder : ∀ n ∈ order, n ∈ want) :
    order.filter (fun n => !((addons.filter fun ad =>
      governs ad && decide (ad.name ∈ want)).map (·.name)).contains n) =
      order.filter fun n => !(presentNames addons governs).contains n := by
  refine List.filter_congr fun n hn => ?_
  have hseen : n ∈ (addons.filter fun ad => governs ad && decide (ad.name ∈ want)).map (·.name) ↔
      n ∈ presentNames addons governs := by
    simp only [presentNames, List.mem_map, List.mem_filter, Bool.and_eq_true, decide_eq_true_eq]
    constructor
    · rintro ⟨ad, ⟨had, hgoverns, -⟩, hname⟩
      exact ⟨ad, ⟨had, hgoverns⟩, hname⟩
    · rintro ⟨ad, ⟨had, hgoverns⟩, hname⟩
      exact ⟨ad, ⟨had, hgoverns, hname ▸ horder n hn⟩, hname⟩
  simp only [List.contains_eq_mem, hseen]

/-- **The result**: every entry settled, then the names that are missing. -/
theorem reconcileAddonSet_eq (horder : ∀ n ∈ order, n ∈ want) :
    reconcileAddonSet addons want order governs =
      (addons.map (settleWanted want governs) ++
        (missingNames addons order governs).map fun n => (want.lookup n).getD {},
      addons.map (settleWanted want governs) != addons ||
        !(missingNames addons order governs).isEmpty) := by
  have hsettle : (fun ad : Addon => if !governs ad then ad
      else if ad.name ∈ want then
        if ad.phase = .removing then { ad with phase := .pending } else ad
      else { ad with phase := .removing }) = settleWanted want governs := by
    funext ad
    unfold settleWanted
    cases hgoverns : governs ad with
    | false => rfl
    | true =>
      by_cases hin : ad.name ∈ want
      · by_cases hphase : ad.phase = .removing
        · simp [hin, hphase]
        · simp [hin, hphase]
      · simp [hin]
  unfold reconcileAddonSet
  dsimp only
  rw [hsettle, missing_eq horder]
  rfl

/-- **The report** says whether the list changed: entries are settled in place, so a list that is
longer has changed, and one that is as long changed in an entry. -/
theorem reconcileAddonSet_changed (horder : ∀ n ∈ order, n ∈ want) :
    (reconcileAddonSet addons want order governs).2 = true ↔
      (reconcileAddonSet addons want order governs).1 ≠ addons := by
  rw [reconcileAddonSet_eq horder]
  by_cases hmissing : missingNames addons order governs = []
  · simp [hmissing]
  · have hlonger : (addons.map (settleWanted want governs) ++
        (missingNames addons order governs).map fun n => (want.lookup n).getD {}) ≠ addons := by
      intro heq
      have hlength := congrArg List.length heq
      simp only [List.length_append, List.length_map] at hlength
      have := List.length_pos_of_ne_nil hmissing
      omega
    simp [hmissing, hlonger]

/-! ### A second call -/

theorem name_settleWanted (ad : Addon) : (settleWanted want governs ad).name = ad.name := by
  unfold settleWanted
  split
  · rfl
  · split <;> rfl

theorem lookup_of_mem_missingNames (horder : ∀ n ∈ order, n ∈ want) {n : String}
    (hn : n ∈ missingNames addons order governs) : ∃ ad, want.lookup n = some ad :=
  Option.isSome_iff_exists.mp (AList.lookup_isSome.mpr (horder n (mem_missingNames.mp hn).1))

section Again

variable (h : Wants want governs)

include h

theorem governs_settleWanted (ad : Addon) :
    governs (settleWanted want governs ad) = governs ad := by
  unfold settleWanted
  split
  · rfl
  · split
    · exact h.blind ad _
    · exact h.blind ad _

theorem settleWanted_settleWanted (ad : Addon) :
    settleWanted want governs (settleWanted want governs ad) = settleWanted want governs ad := by
  by_cases hpart : governs ad = false
  · simp [settleWanted, hpart]
  · by_cases hin : ad.name ∈ want
    · by_cases hphase : ad.phase = .removing
      · simp [settleWanted, hpart, hin, hphase, h.blind]
      · simp [settleWanted, hpart, hin, hphase]
    · simp [settleWanted, hpart, hin, h.blind]

theorem settleWanted_wanted {n : String} {ad : Addon} (hlookup : want.lookup n = some ad) :
    settleWanted want governs ad = ad := by
  have hin : ad.name ∈ want := by
    rw [h.name n ad hlookup]
    exact AList.lookup_isSome.mp (Option.isSome_iff_exists.mpr ⟨ad, hlookup⟩)
  simp [settleWanted, h.governed n ad hlookup, hin, h.staying n ad hlookup]

/-- **Nothing is missing** after the first call. -/
theorem missingNames_again (addons : List Addon) (horder : ∀ n ∈ order, n ∈ want) :
    missingNames (reconcileAddonSet addons want order governs).1 order governs = [] := by
  refine List.eq_nil_iff_forall_not_mem.mpr fun n hn => ?_
  obtain ⟨hasked, habsent⟩ := mem_missingNames.mp hn
  refine habsent ?_
  rw [reconcileAddonSet_eq horder]
  simp only [presentNames, List.mem_map, List.mem_filter, List.mem_append]
  by_cases hpresent : n ∈ presentNames addons governs
  · simp only [presentNames, List.mem_map, List.mem_filter] at hpresent
    obtain ⟨ad, ⟨had, hgoverns⟩, hname⟩ := hpresent
    refine ⟨settleWanted want governs ad, ⟨.inl ⟨ad, had, rfl⟩, ?_⟩, ?_⟩
    · rw [governs_settleWanted h, hgoverns]
    · rw [name_settleWanted, hname]
  · have hmissing := mem_missingNames.mpr ⟨hasked, hpresent⟩
    obtain ⟨ad, hlookup⟩ := lookup_of_mem_missingNames horder hmissing
    refine ⟨ad, ⟨.inr ⟨n, hmissing, ?_⟩, h.governed n ad hlookup⟩, h.name n ad hlookup⟩
    simp [hlookup]

/-- **The second call** changes nothing, and says so. -/
theorem reconcileAddonSet_again (horder : ∀ n ∈ order, n ∈ want) :
    reconcileAddonSet (reconcileAddonSet addons want order governs).1 want order governs =
      ((reconcileAddonSet addons want order governs).1, false) := by
  have hmissing := missingNames_again h addons horder
  have hsettled : ∀ ad ∈ (reconcileAddonSet addons want order governs).1,
      settleWanted want governs ad = ad := by
    intro ad had
    rw [reconcileAddonSet_eq horder] at had
    rcases List.mem_append.mp had with had | had
    · obtain ⟨was, -, rfl⟩ := List.mem_map.mp had
      exact settleWanted_settleWanted h was
    · obtain ⟨n, hn, rfl⟩ := List.mem_map.mp had
      obtain ⟨ad, hlookup⟩ := lookup_of_mem_missingNames horder hn
      rw [hlookup]
      exact settleWanted_wanted h hlookup
  have hsame : (reconcileAddonSet addons want order governs).1.map (settleWanted want governs) =
      (reconcileAddonSet addons want order governs).1 :=
    (List.map_congr_left hsettled).trans (List.map_id _)
  refine (reconcileAddonSet_eq horder).trans ?_
  rw [hmissing, hsame]
  simp

end Again

/-- The set a request for these built-in add-ons makes. -/
def demoWants (names : List String) : AList fun _ : String => Addon :=
  names.foldl (fun m n => m.insert n { name := n, phase := .pending }) ∅

/-- A cluster that keeps one add-on, loses one and gets one, next to a custom one. -/
def demoAddons : List Addon :=
  [{ name := "metrics", phase := .removing },
    { name := "own", phase := .installed, catalogID := "k" },
    { name := "trivy", phase := .installed }]

end KaaS
