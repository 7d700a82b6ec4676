import KaaS.App.Edit
import KaaS.Library.Assoc

/-!
# Which add-ons a mutation selects

An add-on of the row is **selected** unless it is being removed. An accepted mutation can select
an add-on only by naming it, and it installs none: what is installed in the row it stores was
installed in the row it read (`addons_of_apply`).
-/

namespace KaaS

open Guard

/-- The mutation asks for the add-on, as a built-in or from a tenant's catalog. -/
def Mutation.selects (name : String) : Mutation → Bool
  | .updateCluster req => (req.addons.any (·.contains name)) ||
      req.customAddons.any (·.any (·.name == name))
  | _ => false

def Mutation.selectsBuiltIn (name : String) : Mutation → Bool
  | .updateCluster req => req.addons.any (·.contains name)
  | _ => false

/-- Where an add-on of a stored row comes from: if it is installed, it was; if it is selected, it
was, or it is asked for. -/
structure AddonFrom (addons : List Addon) (asked : String → Prop) (ad : Addon) : Prop where
  installed : ad.phase = .installed → ∃ was ∈ addons, was.name = ad.name ∧ was.phase = .installed
  selected : ad.phase ≠ .removing →
    (∃ was ∈ addons, was.name = ad.name ∧ was.phase ≠ .removing) ∨ asked ad.name

namespace AddonFrom

variable {addons : List Addon} {asked : String → Prop} {ad : Addon}

theorem refl (h : ad ∈ addons) : AddonFrom addons asked ad :=
  ⟨fun hphase => ⟨ad, h, rfl, hphase⟩, fun hphase => .inl ⟨ad, h, rfl, hphase⟩⟩

theorem trans {mid : List Addon} (h : AddonFrom mid asked ad)
    (hmid : ∀ x ∈ mid, AddonFrom addons asked x) : AddonFrom addons asked ad := by
  constructor
  · intro hphase
    obtain ⟨was, hwas, hname, hphase⟩ := h.installed hphase
    rw [← hname]
    exact (hmid was hwas).installed hphase
  · intro hphase
    rcases h.selected hphase with ⟨was, hwas, hname, hphase⟩ | hasked
    · rw [← hname]
      exact (hmid was hwas).selected hphase
    · exact .inr hasked

end AddonFrom

section Selection

variable {a : App} {adm : Admission} {c c' : Cluster}

/-- **A selection** keeps, removes and adds; what it adds is wanted, and pending. -/
private theorem addonFrom_reconcileAddonSet {addons : List Addon}
    {want : AList fun _ : String => Addon} {order : List String} {governs : Addon → Bool}
    (hwant : ∀ n ∈ order, ∃ ad, want.lookup n = some ad ∧ ad.name = n ∧ ad.phase = .pending)
    (hkeys : ∀ n, n ∈ want → n ∈ order) :
    ∀ ad ∈ (reconcileAddonSet addons want order governs).1, AddonFrom addons (· ∈ order) ad := by
  intro ad had
  rcases List.mem_append.mp had with had | had
  · obtain ⟨was, hwas, rfl⟩ := List.mem_map.mp had
    split
    · exact .refl hwas
    · split
      · rename_i hin
        split
        · exact ⟨by simp, fun _ => .inr (hkeys _ hin)⟩
        · exact .refl hwas
      · exact ⟨by simp, by simp⟩
  · obtain ⟨n, hn, rfl⟩ := List.mem_map.mp had
    have hn : n ∈ order := (List.mem_filter.mp (List.mem_eraseDups.mp hn)).1
    obtain ⟨ad, hlookup, rfl, hpending⟩ := hwant n hn
    rw [hlookup, Option.getD_some]
    exact ⟨by simp [hpending], fun _ => .inr hn⟩

private theorem addonFrom_selection {addons resolved : List Addon} {governs : Addon → Bool}
    (hpending : ∀ ad ∈ resolved, ad.phase = .pending) :
    ∀ ad ∈ (reconcileAddonSet addons (resolved.foldl (fun m ad => m.insert ad.name ad) ∅)
      (resolved.map (·.name)) governs).1, AddonFrom addons (· ∈ resolved.map (·.name)) ad := by
  refine addonFrom_reconcileAddonSet (fun n hn => ?_) fun n hn => ?_
  · obtain ⟨ad, hlookup⟩ := Option.isSome_iff_exists.mp
      (AList.lookup_isSome.mpr (AList.mem_foldl_insert.mpr (.inl hn)))
    rcases AList.exists_of_lookup_foldl_insert hlookup with ⟨ad', had', hname, rfl⟩ | hnone
    · exact ⟨ad', hlookup, hname, hpending ad' had'⟩
    · simp at hnone
  · exact (AList.mem_foldl_insert.mp hn).resolve_right (AList.notMem_empty n)

private theorem resolveAddon_ok {req : UpdateRequest} {name : String} {ad : Addon}
    (h : resolveAddon a adm c req name = .ok ad) : ad.name = name ∧ ad.phase = .pending := by
  -- whatever version and values it gets, and whatever is checked before
  have hset {version values : String} {x : Except String Unit} (h : (do
      x
      pure { name := name, version := version, phase := .pending, valuesOverride := values }) =
        Except.ok ad) : ad.name = name ∧ ad.phase = .pending := by
    simp only [bind_eq_ok, pure_eq_ok] at h
    obtain ⟨-, -, rfl⟩ := h
    exact ⟨rfl, rfl⟩
  unfold resolveAddon at h
  cases hvalues : req.addonValues.lookup name with
  | none =>
    simp only [hvalues] at h
    split at h
    · exact hset (x := pure ()) h
    · split at h
      · cases h
      · exact hset (x := pure ()) h
  | some ov =>
    by_cases hblank : Text.trimSpace ov = ""
    · simp only [hvalues, if_pos hblank] at h
      split at h
      · exact hset (x := pure ()) h
      · split at h
        · cases h
        · exact hset (x := pure ()) h
    · simp only [hvalues, if_neg hblank] at h
      split at h
      · exact hset h
      · split at h
        · cases h
        · exact hset h

private theorem addonFrom_applyAddonSelection {req : UpdateRequest} {requested : List String}
    {next : List Addon × Bool} (h : applyAddonSelection a adm c req requested = .ok next) :
    ∀ ad ∈ next.1, AddonFrom c.addons (· ∈ requested) ad := by
  simp only [applyAddonSelection, bind_eq_ok, pure_eq_ok] at h
  obtain ⟨resolved, hresolved, rfl⟩ := h
  obtain rfl := map_of_mapM_eq_ok (g := Addon.name) (fun _ _ h => (resolveAddon_ok h).1) hresolved
  refine addonFrom_selection fun ad had => ?_
  obtain ⟨name, -, hok⟩ := exists_of_mapM_eq_ok hresolved had
  exact (resolveAddon_ok hok).2

theorem resolveCustomAddonsFrom_ok {taken seen : List String} {refs : List CustomAddonRef}
    {resolved : List Addon} (h : resolveCustomAddonsFrom adm taken seen refs = .ok resolved) :
    ∀ ad ∈ resolved, ad.phase = .pending ∧ ad.name ∈ refs.map (·.name) := by
  induction refs generalizing seen resolved with
  | nil =>
    rw [resolveCustomAddonsFrom, pure_eq_ok] at h
    simp [← h]
  | cons ref refs ih =>
    simp only [resolveCustomAddonsFrom, bind_eq_ok] at h
    obtain ⟨cc, -, h⟩ := h
    have hrest {seen : List String} {more : List Addon}
        (h : resolveCustomAddonsFrom adm taken seen refs = .ok more) :
        ∀ ad ∈ more, ad.phase = .pending ∧ ad.name ∈ (ref :: refs).map (·.name) :=
      fun ad had => ⟨(ih h ad had).1, List.mem_cons_of_mem _ (ih h ad had).2⟩
    split at h
    · simp at h
    · rename_i d hd
      have hname : d.name = ref.name := by simpa using List.find?_some hd
      split at h
      · exact hrest h
      · split at h
        · simp at h
        · simp only [bind_eq_ok, pure_eq_ok] at h
          obtain ⟨more, hmore, rfl⟩ := h
          refine List.forall_mem_cons.mpr ⟨⟨rfl, ?_⟩, hrest hmore⟩
          exact hname ▸ List.mem_cons_self

theorem nodup_resolveCustomAddonsFrom {taken seen : List String}
    {refs : List CustomAddonRef} {resolved : List Addon}
    (h : resolveCustomAddonsFrom adm taken seen refs = .ok resolved) :
    (resolved.map (·.name)).Nodup ∧ ∀ ad ∈ resolved, ad.name ∉ taken ∧ ad.name ∉ seen := by
  induction refs generalizing seen resolved with
  | nil =>
    rw [resolveCustomAddonsFrom, pure_eq_ok] at h
    simp [← h]
  | cons ref refs ih =>
    simp only [resolveCustomAddonsFrom, bind_eq_ok] at h
    obtain ⟨cc, -, h⟩ := h
    split at h
    · simp at h
    · rename_i d hd
      split at h
      · exact ih h
      · rename_i hseen
        split at h
        · simp at h
        · rename_i htaken
          simp only [bind_eq_ok, pure_eq_ok] at h
          obtain ⟨more, hmore, rfl⟩ := h
          obtain ⟨hnodup, hfresh⟩ := ih hmore
          refine ⟨List.nodup_cons.mpr ⟨fun hin => ?_, hnodup⟩, ?_⟩
          · obtain ⟨ad, had, hname⟩ := List.mem_map.mp hin
            exact (hfresh ad had).2 (hname ▸ List.mem_cons_self)
          · refine List.forall_mem_cons.mpr ⟨⟨htaken, hseen⟩, fun ad had => ?_⟩
            exact ⟨(hfresh ad had).1, fun hin => (hfresh ad had).2 (List.mem_cons_of_mem _ hin)⟩

private theorem addonFrom_applyCustomAddonSelection {addons : List Addon}
    {refs : List CustomAddonRef} {next : List Addon × Bool}
    (h : applyCustomAddonSelection adm addons refs = .ok next) :
    ∀ ad ∈ next.1, AddonFrom addons (· ∈ refs.map (·.name)) ad := by
  simp only [applyCustomAddonSelection, bind_eq_ok, pure_eq_ok] at h
  obtain ⟨resolved, hresolved, rfl⟩ := h
  have hok := resolveCustomAddonsFrom_ok hresolved
  intro ad had
  have hfrom := addonFrom_selection (fun ad had => (hok ad had).1) ad had
  refine ⟨hfrom.installed, fun hphase => (hfrom.selected hphase).imp_right fun hin => ?_⟩
  obtain ⟨x, hx, hname⟩ := List.mem_map.mp hin
  exact hname ▸ (hok x hx).2

private theorem addons_of_updatePools {pools : Option (List NodePool)} {ops : List PendingOp}
    (h : updatePools a adm c pools = .ok (c', ops)) : c'.addons = c.addons := by
  cases pools with
  | none =>
    simp only [updatePools, pure_eq_ok, Prod.mk.injEq] at h
    exact h.1 ▸ rfl
  | some want =>
    simp only [updatePools, applyNodePools, bind_eq_ok] at h
    obtain ⟨-, -, -, -, h⟩ := h
    split at h
    · simp only [pure_eq_ok, Prod.mk.injEq] at h
      exact h.1 ▸ rfl
    · simp only [bind_eq_ok, pure_eq_ok, Prod.mk.injEq] at h
      obtain ⟨-, -, -, -, ips, -, rfl, -⟩ := h
      rfl

private theorem addonFrom_update {req : UpdateRequest} {ops : List PendingOp}
    (h : applyUpdate a adm c req = .ok (c', ops)) :
    ∀ ad ∈ c'.addons, AddonFrom c.addons (fun n => (Mutation.updateCluster req).selects n) ad := by
  simp only [applyUpdate, bind_eq_ok, Prod.exists, pure_eq_ok, Prod.mk.injEq] at h
  obtain ⟨c₁, _, hpools, c₂, _, hbuiltin, c₃, _, hcustom, rfl, -⟩ := h
  have hkept : c₁.addons = c.addons := addons_of_updatePools hpools
  have hfirst : ∀ ad ∈ c₂.addons,
      AddonFrom c.addons (fun n => (Mutation.updateCluster req).selects n) ad := by
    rw [← hkept]
    unfold updateAddons at hbuiltin
    split at hbuiltin
    · simp only [pure_eq_ok, Prod.mk.injEq] at hbuiltin
      obtain ⟨rfl, -⟩ := hbuiltin
      exact fun ad had => .refl had
    · rename_i requested hreq
      simp only [bind_eq_ok, pure_eq_ok, Prod.mk.injEq] at hbuiltin
      obtain ⟨next, hnext, rfl, -⟩ := hbuiltin
      intro ad had
      have hfrom := addonFrom_applyAddonSelection hnext ad had
      refine ⟨hfrom.installed, fun hphase => (hfrom.selected hphase).imp_right fun hin => ?_⟩
      simp [Mutation.selects, hreq, hin]
  unfold updateCustomAddons at hcustom
  split at hcustom
  · simp only [pure_eq_ok, Prod.mk.injEq] at hcustom
    obtain ⟨rfl, -⟩ := hcustom
    exact hfirst
  · rename_i refs hreq
    simp only [bind_eq_ok, pure_eq_ok, Prod.mk.injEq] at hcustom
    obtain ⟨next, hnext, rfl, -⟩ := hcustom
    intro ad had
    have hfrom := addonFrom_applyCustomAddonSelection hnext ad had
    refine AddonFrom.trans ⟨hfrom.installed, fun hphase => (hfrom.selected hphase).imp_right
      fun hin => ?_⟩ hfirst
    obtain ⟨ref, href, hname⟩ := List.mem_map.mp hin
    have hany : refs.any (·.name == ad.name) = true :=
      List.any_eq_true.mpr ⟨ref, href, by simpa using hname⟩
    simp [Mutation.selects, hreq, hany]

/-- **The add-ons a mutation stores.** -/
theorem addons_of_apply {m : Mutation} (h : a.apply adm m c = .ok (some c')) :
    ∀ ad ∈ c'.addons, AddonFrom c.addons (fun n => m.selects n) ad := by
  cases m with
  | updateCluster req =>
    simp only [App.apply, App.updateCluster, bind_eq_ok, Prod.exists, pure_eq_ok] at h
    obtain ⟨-, -, -, -, c₁, ops, hupdate, h⟩ := h
    split at h
    · simp at h
    · obtain rfl := Option.some.inj h
      exact fun ad had => addonFrom_update hupdate ad had
  | setClusterAddonValues addonName override =>
    obtain _ | _ | _ | _ | ⟨i, hphase, hi⟩ | _ := edit_of_apply h
    intro ad had
    rcases Keyed.mem_modify had with had | ⟨was, hwas, rfl⟩
    · exact .refl had
    · -- the add-on whose values are set is a selected one
      have hwas' : was.phase ≠ .removing := by
        obtain ⟨hlt, hpred, -⟩ := List.findIdx?_eq_some_iff_getElem.mp hi
        rw [List.getElem?_eq_getElem hlt, Option.some.injEq] at hwas
        rw [hwas, Bool.and_eq_true, bne_iff_ne] at hpred
        exact hpred.2
      exact ⟨by simp, fun _ => .inl ⟨was, List.mem_of_getElem? hwas, rfl, hwas'⟩⟩
  | _ =>
    cases edit_of_apply h
    exact fun ad had => .refl had

/-! ### Names -/

/-- What a selection adds to the names of the row: distinct names, all asked for, none of an add-on
that the selection governs. -/
private structure Adds (addons : List Addon) (governs : Addon → Bool) (asked : String → Prop)
    (added : List String) : Prop where
  nodup : added.Nodup
  asked : ∀ n ∈ added, asked n
  fresh : ∀ n ∈ added, ∀ ad ∈ addons, governs ad = true → ad.name ≠ n

private theorem names_selection (addons resolved : List Addon) (governs : Addon → Bool) :
    ∃ added, (reconcileAddonSet addons (resolved.foldl (fun m ad => m.insert ad.name ad) ∅)
        (resolved.map (·.name)) governs).1.map (·.name) = addons.map (·.name) ++ added ∧
      Adds addons governs (· ∈ resolved.map (·.name)) added := by
  let want := resolved.foldl (fun m ad => m.insert ad.name ad) (∅ : AList fun _ : String => Addon)
  let seen := (addons.filter fun ad => governs ad && decide (ad.name ∈ want)).map (·.name)
  have hwanted {n : String} (hn : n ∈ resolved.map (·.name)) : n ∈ want :=
    AList.mem_foldl_insert.mpr (.inl hn)
  refine ⟨((resolved.map (·.name)).filter (!seen.contains ·)).eraseDups, ?_,
    Keyed.nodup_eraseDups _, fun n hn => ?_, fun n hn ad had hgoverns hname => ?_⟩
  · rw [reconcileAddonSet, List.map_append, List.map_map, List.map_map]
    refine congrArg₂ (· ++ ·) (List.map_congr_left fun ad _ => ?_)
      ((List.map_congr_left fun n hn => ?_).trans (List.map_id _))
    · simp only [Function.comp_apply]
      split
      · rfl
      · split
        · split <;> rfl
        · rfl
    · have hn := (List.mem_filter.mp (List.mem_eraseDups.mp hn)).1
      obtain ⟨ad, hlookup⟩ := Option.isSome_iff_exists.mp (AList.lookup_isSome.mpr (hwanted hn))
      rcases AList.exists_of_lookup_foldl_insert hlookup with ⟨ad', had', hname, rfl⟩ | hnone
      · exact (congrArg (fun o => (o.getD {}).name) hlookup).trans hname
      · simp at hnone
  · exact (List.mem_filter.mp (List.mem_eraseDups.mp hn)).1
  · obtain ⟨hn, hseen⟩ := List.mem_filter.mp (List.mem_eraseDups.mp hn)
    have hin : n ∈ seen := by
      refine List.mem_map.mpr ⟨ad, List.mem_filter.mpr ⟨had, ?_⟩, hname⟩
      simp only [hgoverns, hname, hwanted hn, decide_true, Bool.and_self]
    simp [hin] at hseen

private theorem names_applyAddonSelection {req : UpdateRequest} {requested : List String}
    {next : List Addon × Bool} (h : applyAddonSelection a adm c req requested = .ok next) :
    ∃ added, next.1.map (·.name) = c.addons.map (·.name) ++ added ∧
      Adds c.addons (!·.custom) (· ∈ requested) added := by
  simp only [applyAddonSelection, bind_eq_ok, pure_eq_ok] at h
  obtain ⟨resolved, hresolved, rfl⟩ := h
  obtain rfl := map_of_mapM_eq_ok (g := Addon.name) (fun _ _ h => (resolveAddon_ok h).1) hresolved
  exact names_selection _ _ _

private theorem names_applyCustomAddonSelection {addons : List Addon}
    {refs : List CustomAddonRef} {next : List Addon × Bool}
    (h : applyCustomAddonSelection adm addons refs = .ok next) :
    ∃ added, next.1.map (·.name) = addons.map (·.name) ++ added ∧
      Adds addons (fun _ => true) (· ∈ refs.map (·.name)) added := by
  simp only [applyCustomAddonSelection, bind_eq_ok, pure_eq_ok] at h
  obtain ⟨resolved, hresolved, rfl⟩ := h
  obtain ⟨added, hnames, hadds⟩ := names_selection addons resolved (·.custom)
  refine ⟨added, hnames, hadds.nodup, fun n hn => ?_, fun n hn ad had _ hname => ?_⟩
  · obtain ⟨ad, had, rfl⟩ := List.mem_map.mp (hadds.asked n hn)
    exact (resolveCustomAddonsFrom_ok hresolved ad had).2
  · -- a built-in of the name would have been taken
    cases hcustom : ad.custom with
    | true => exact hadds.fresh n hn ad had hcustom hname
    | false =>
      obtain ⟨new, hnew, hsame⟩ := List.mem_map.mp (hadds.asked n hn)
      refine ((nodup_resolveCustomAddonsFrom hresolved).2 new hnew).1
        (List.mem_map.mpr ⟨ad, ?_, ?_⟩)
      · exact List.mem_filter.mpr ⟨had, by simp [hcustom]⟩
      · exact hname.trans hsame.symm

private theorem names_update {req : UpdateRequest} {ops : List PendingOp}
    (h : applyUpdate a adm c req = .ok (c', ops)) :
    ∃ added, c'.addons.map (·.name) = c.addons.map (·.name) ++ added ∧ added.Nodup ∧
      ∀ n ∈ added, (Mutation.updateCluster req).selects n = true ∧
        (n ∈ c.addons.map (·.name) → (Mutation.updateCluster req).selectsBuiltIn n = true ∧
          ∃ ad ∈ c.addons, ad.custom = true ∧ ad.name = n) := by
  simp only [applyUpdate, bind_eq_ok, Prod.exists, pure_eq_ok, Prod.mk.injEq] at h
  obtain ⟨c₁, _, hpools, c₂, _, hbuiltin, c₃, _, hcustom, rfl, -⟩ := h
  have hkept : c₁.addons = c.addons := addons_of_updatePools hpools
  obtain ⟨first, hfirst, hadds⟩ : ∃ added, c₂.addons.map (·.name) = c.addons.map (·.name) ++ added ∧
      Adds c.addons (!·.custom) (fun n => (Mutation.updateCluster req).selectsBuiltIn n) added := by
    rw [← hkept]
    unfold updateAddons at hbuiltin
    split at hbuiltin
    · simp only [pure_eq_ok, Prod.mk.injEq] at hbuiltin
      obtain ⟨rfl, -⟩ := hbuiltin
      exact ⟨[], (List.append_nil _).symm, List.nodup_nil, by simp, by simp⟩
    · rename_i requested hreq
      simp only [bind_eq_ok, pure_eq_ok, Prod.mk.injEq] at hbuiltin
      obtain ⟨next, hnext, rfl, -⟩ := hbuiltin
      obtain ⟨added, hnames, hadds⟩ := names_applyAddonSelection hnext
      refine ⟨added, hnames, hadds.nodup, fun n hn => ?_, hadds.fresh⟩
      simpa [Mutation.selectsBuiltIn, hreq] using hadds.asked n hn
  obtain ⟨second, hsecond, hadds'⟩ : ∃ added,
      c₃.addons.map (·.name) = c₂.addons.map (·.name) ++ added ∧ Adds c₂.addons (fun _ => true)
        (fun n => (Mutation.updateCluster req).selects n) added := by
    unfold updateCustomAddons at hcustom
    split at hcustom
    · simp only [pure_eq_ok, Prod.mk.injEq] at hcustom
      obtain ⟨rfl, -⟩ := hcustom
      exact ⟨[], (List.append_nil _).symm, List.nodup_nil, by simp, by simp⟩
    · rename_i refs hreq
      simp only [bind_eq_ok, pure_eq_ok, Prod.mk.injEq] at hcustom
      obtain ⟨next, hnext, rfl, -⟩ := hcustom
      obtain ⟨added, hnames, hadds⟩ := names_applyCustomAddonSelection hnext
      refine ⟨added, hnames, hadds.nodup, fun n hn => ?_, hadds.fresh⟩
      obtain ⟨ref, href, hname⟩ := List.mem_map.mp (hadds.asked n hn)
      have hany : refs.any (·.name == n) = true :=
        List.any_eq_true.mpr ⟨ref, href, by simpa using hname⟩
      simp [Mutation.selects, hreq, hany]
  have hfresh {n : String} (hn : n ∈ second) : n ∉ c.addons.map (·.name) ++ first := by
    intro hin
    obtain ⟨ad, had, hname⟩ := List.mem_map.mp (hfirst ▸ hin)
    exact hadds'.fresh n hn ad had rfl hname
  refine ⟨first ++ second, ?_, ?_, fun n hn => ?_⟩
  · rw [hsecond, hfirst, List.append_assoc]
  · refine hadds.nodup.append hadds'.nodup fun n hn hn' => ?_
    exact hfresh hn' (List.mem_append_right _ hn)
  · rcases List.mem_append.mp hn with hn | hn
    · have hasked := hadds.asked n hn
      refine ⟨Bool.or_eq_true_iff.mpr (.inl hasked), fun hin => ⟨hasked, ?_⟩⟩
      obtain ⟨ad, had, hname⟩ := List.mem_map.mp hin
      have hnot := hadds.fresh n hn ad had
      exact ⟨ad, had, by simpa [hname] using hnot, hname⟩
    · exact ⟨hadds'.asked n hn, fun hin => absurd (List.mem_append_left _ hin) (hfresh hn)⟩

/-- **The names a mutation adds** are distinct and asked for. If one of them was on the row before,
then it is asked for as a built-in and was there from a tenant's catalog. -/
theorem addonNames_of_apply {m : Mutation} (h : a.apply adm m c = .ok (some c')) :
    ∃ added, c'.addons.map (·.name) = c.addons.map (·.name) ++ added ∧ added.Nodup ∧
      ∀ n ∈ added, m.selects n = true ∧ (n ∈ c.addons.map (·.name) →
        m.selectsBuiltIn n = true ∧ ∃ ad ∈ c.addons, ad.custom = true ∧ ad.name = n) := by
  cases m with
  | updateCluster req =>
    simp only [App.apply, App.updateCluster, bind_eq_ok, Prod.exists, pure_eq_ok] at h
    obtain ⟨-, -, -, -, c₁, ops, hupdate, h⟩ := h
    split at h
    · simp at h
    · obtain rfl := Option.some.inj h
      obtain ⟨added, hadded⟩ := names_update hupdate
      exact ⟨added, hadded⟩
  | setClusterAddonValues addonName override =>
    obtain _ | _ | _ | _ | ⟨i, hphase, hi⟩ | _ := edit_of_apply h
    refine ⟨[], ?_, List.nodup_nil, by simp⟩
    rw [List.append_nil]
    exact List.ext_getElem (by simp) fun j _ _ => by simp [List.getElem_modify]; split <;> rfl
  | _ =>
    cases edit_of_apply h
    exact ⟨[], (List.append_nil _).symm, List.nodup_nil, by simp⟩

end Selection

end KaaS
