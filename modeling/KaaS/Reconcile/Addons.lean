import KaaS.Reconcile.Account

/-!
# One pass over the add-ons, and the next

`reconcileAddons` goes through the add-ons in order and stops at the first call that fails. It
builds a second list on the way, and when it stops it puts **the rest of the first** after it. So a
pass that stops at the entry number `k` has settled the first `k` and left the others as they were,
and the calls that succeeded are exactly those that settle one of the first `k`
(`wp_reconcileAddonsFrom`). What is settled needs nothing more: the pass that comes after the
failure ends where a pass without one would have.
-/

namespace KaaS

open Effect

/-! ### The calls that succeeded -/

def Addon.unsettled (ad : Addon) : Bool := ad.phase != .installed

def Call.settles : Call → Bool
  | .installAddon _ | .uninstallAddon _ => true
  | _ => false

/-- The installations and removals that succeeded, in order. -/
def settledCalls (trace : List Event) : List Call :=
  (trace.filter fun e => e.ok && e.call.settles).map (·.call)

/-- The calls that settle these entries. -/
def settlingCalls (addons : List Addon) : List Call :=
  (addons.filter (·.unsettled)).map (·.settling)

theorem Addon.settles_settling (ad : Addon) : ad.settling.settles = true := by
  unfold Addon.settling
  split <;> rfl

theorem settledCalls_log_true (s : TickState) (ad : Addon) :
    settledCalls (s.log ad.settling true).trace = settledCalls s.trace ++ [ad.settling] := by
  simp [settledCalls, ad.settles_settling]

theorem settledCalls_log_false (s : TickState) (k : Call) :
    settledCalls (s.log k false).trace = settledCalls s.trace := by
  simp [settledCalls]

theorem settledCalls_log_quiet (s : TickState) {k : Call} (h : k.settles = false) (ok : Bool) :
    settledCalls (s.log k ok).trace = settledCalls s.trace := by
  simp [settledCalls, h]

theorem settlingCalls_cons {ad : Addon} (h : ad.phase ≠ .installed) (rest : List Addon) :
    settlingCalls (ad :: rest) = ad.settling :: settlingCalls rest := by
  simp [settlingCalls, Addon.unsettled, h]

theorem settlingCalls_cons_installed {ad : Addon} (h : ad.phase = .installed) (rest : List Addon) :
    settlingCalls (ad :: rest) = settlingCalls rest := by
  simp [settlingCalls, Addon.unsettled, h]

/-! ### One pass -/

section Pass

variable {ρ : Env}

def Env.Fails (ρ : Env) : Prop := ∃ n k, ρ.fails n k ≠ none

theorem wp_perform_or {k : Call} {context : String} {Q : Unit → TickState → Prop}
    {E : String → TickState → Prop} {s : TickState} (hok : Q () (s.log k true))
    (herr : ρ.Fails → ∀ e, E e (s.log k false)) : wp (perform ρ k context) Q E s := by
  cases hfails : ρ.fails s.trace.length k with
  | none => exact wp_perform_of_none hfails hok
  | some e =>
    have : ρ.Fails := ⟨s.trace.length, k, by simp [hfails]⟩
    exact wp_perform_of_some hfails (herr this _)

/-- **One entry**: its call succeeds, or the add-ons are put back. -/
theorem wp_settleOne (ad : Addon) (rest : List Addon) (fetched : Bool) (s : TickState) :
    wp (orRestoreAddons rest do ensureKubeconfig ρ fetched; perform ρ ad.settling)
      (fun _ s' => s'.c = s.c ∧ settledCalls s'.trace = settledCalls s.trace ++ [ad.settling])
      (fun _ s' => s'.c = { s.c with addons := rest } ∧
        settledCalls s'.trace = settledCalls s.trace ∧ ρ.Fails) s := by
  have hcall (s₁ : TickState) (hc : s₁.c = s.c)
      (htrace : settledCalls s₁.trace = settledCalls s.trace) :
      wp (perform ρ ad.settling)
        (fun _ s' => s'.c = s.c ∧ settledCalls s'.trace = settledCalls s.trace ++ [ad.settling])
        (fun _ s' => s'.c = s.c ∧ settledCalls s'.trace = settledCalls s.trace ∧ ρ.Fails) s₁ := by
    refine wp_perform_or ⟨hc, ?_⟩ fun hfails _ => ⟨hc, ?_, hfails⟩
    · rw [settledCalls_log_true, htrace]
    · rw [settledCalls_log_false, htrace]
  unfold orRestoreAddons
  rw [wp_tryCatch, wp_bind]
  have hbody : wp (ensureKubeconfig ρ fetched)
      (fun _ s₁ => s₁.c = s.c ∧ settledCalls s₁.trace = settledCalls s.trace)
      (fun _ s₁ => s₁.c = s.c ∧ settledCalls s₁.trace = settledCalls s.trace ∧ ρ.Fails) s := by
    unfold ensureKubeconfig
    rw [wp_ite]
    refine ⟨fun _ => ⟨rfl, rfl⟩, fun _ => ?_⟩
    exact wp_perform_or ⟨rfl, settledCalls_log_quiet s rfl true⟩
      fun hfails _ => ⟨rfl, settledCalls_log_quiet s rfl false, hfails⟩
  have hrestore (e : String) (s₁ : TickState) (hs₁ : s₁.c = s.c ∧
      settledCalls s₁.trace = settledCalls s.trace ∧ ρ.Fails) :
      wp (do modifyCluster fun c => { c with addons := rest }; throw e : Tick Unit)
        (fun _ s' => s'.c = s.c ∧ settledCalls s'.trace = settledCalls s.trace ++ [ad.settling])
        (fun _ s' => s'.c = { s.c with addons := rest } ∧
          settledCalls s'.trace = settledCalls s.trace ∧ ρ.Fails) s₁ := by
    obtain ⟨hc, htrace, hfails⟩ := hs₁
    simp only [wp_bind, wp_modifyCluster, wp_throw]
    exact ⟨by rw [hc], htrace, hfails⟩
  refine wp_mono hbody (fun _ s₁ hs₁ => ?_) hrestore
  exact wp_mono (hcall s₁ hs₁.1 hs₁.2) (fun _ _ => id) hrestore

def settledUpTo (k : Nat) (addons : List Addon) : List Addon :=
  settleAddons (addons.take k) ++ addons.drop k

/-- **The loop**: it settles everything, or it stops at an entry and leaves the rest. -/
theorem wp_reconcileAddonsFrom (fetched : Bool) (next l : List Addon) (s : TickState) :
    wp (reconcileAddonsFrom ρ fetched next l)
      (fun _ s' => s'.c = { s.c with addons := next ++ settleAddons l } ∧
        settledCalls s'.trace = settledCalls s.trace ++ settlingCalls l)
      (fun _ s' => (∃ k < l.length, s'.c = { s.c with addons := next ++ settledUpTo k l } ∧
        settledCalls s'.trace = settledCalls s.trace ++ settlingCalls (l.take k)) ∧ ρ.Fails) s := by
  induction l generalizing fetched next s with
  | nil =>
    simp only [reconcileAddonsFrom, wp_modifyCluster]
    exact ⟨by simp [settleAddons], by simp [settlingCalls]⟩
  | cons ad rest ih =>
    -- an entry that needs a call: the pass stops here, or goes on with what it became
    have hcalled {next' : List Addon} (hphase : ad.phase ≠ .installed)
        (hnext' : ∀ l, next ++ (settleAddons (ad :: l)) = next' ++ settleAddons l) :
        wp (do
          orRestoreAddons (next ++ ad :: rest) do
            ensureKubeconfig ρ fetched
            perform ρ ad.settling
          reconcileAddonsFrom ρ true next' rest)
        (fun _ s' => s'.c = { s.c with addons := next ++ settleAddons (ad :: rest) } ∧
          settledCalls s'.trace = settledCalls s.trace ++ settlingCalls (ad :: rest))
        (fun _ s' => (∃ k < (ad :: rest).length,
          s'.c = { s.c with addons := next ++ settledUpTo k (ad :: rest) } ∧
          settledCalls s'.trace = settledCalls s.trace ++ settlingCalls ((ad :: rest).take k)) ∧
          ρ.Fails) s := by
      rw [wp_bind]
      refine wp_mono (wp_settleOne ad _ fetched s) (fun _ s₁ hs₁ => ?_) fun _ s' hs' => ?_
      · obtain ⟨hc, htrace⟩ := hs₁
        refine wp_mono (ih true next' s₁) (fun _ s' hs' => ?_) fun _ s' hs' => ?_
        · rw [hc, htrace] at hs'
          refine ⟨by rw [hs'.1, hnext'], ?_⟩
          rw [hs'.2, settlingCalls_cons hphase, List.append_assoc]
          rfl
        · obtain ⟨⟨k, hk, hc', htrace'⟩, hfails⟩ := hs'
          rw [hc] at hc'
          rw [htrace] at htrace'
          refine ⟨⟨k + 1, Nat.succ_lt_succ hk, ?_, ?_⟩, hfails⟩
          · rw [hc', settledUpTo, settledUpTo, List.take_succ_cons, List.drop_succ_cons,
              ← List.append_assoc, ← List.append_assoc, hnext']
          · rw [htrace', List.take_succ_cons, settlingCalls_cons hphase, List.append_assoc]
            rfl
      · obtain ⟨hc, htrace, hfails⟩ := hs'
        refine ⟨⟨0, Nat.succ_pos _, ?_, ?_⟩, hfails⟩
        · simpa [settledUpTo, settleAddons] using hc
        · simpa [settlingCalls] using htrace
    unfold reconcileAddonsFrom
    split
    · rename_i hphase
      have hcall : ad.settling = .uninstallAddon ad := if_pos hphase
      rw [← hcall]
      exact hcalled (by simp [hphase]) fun l => by rw [settleAddons_cons_removing hphase]
    · rename_i hphase
      have hkept : { ad with phase := .installed } = ad := by rw [← hphase]
      have hnext' (l : List Addon) :
          next ++ settleAddons (ad :: l) = next ++ [ad] ++ settleAddons l := by
        rw [settleAddons_cons (by simp [hphase]), hkept, List.append_assoc]
        rfl
      refine wp_mono (ih fetched (next ++ [ad]) s) (fun _ s' hs' => ?_) fun _ s' hs' => ?_
      · exact ⟨by rw [hs'.1, hnext'], by rw [hs'.2, settlingCalls_cons_installed hphase]⟩
      · obtain ⟨⟨k, hk, hc', htrace'⟩, hfails⟩ := hs'
        refine ⟨⟨k + 1, Nat.succ_lt_succ hk, ?_, ?_⟩, hfails⟩
        · rw [hc', settledUpTo, settledUpTo, List.take_succ_cons, List.drop_succ_cons,
            ← List.append_assoc, ← List.append_assoc, hnext']
        · rw [htrace', List.take_succ_cons, settlingCalls_cons_installed hphase]
    · rename_i hremoving hinstalled
      have hcall : ad.settling = .installAddon ad := if_neg hremoving
      rw [← hcall]
      refine hcalled hinstalled fun l => ?_
      rw [settleAddons_cons hremoving, List.append_assoc]
      rfl

/-- **A pass** over the add-ons of the copy. -/
theorem wp_reconcileAddons (s : TickState) :
    wp (reconcileAddons ρ)
      (fun _ s' => s'.c = { s.c with addons := settleAddons s.c.addons } ∧
        settledCalls s'.trace = settledCalls s.trace ++ settlingCalls s.c.addons)
      (fun _ s' => (∃ k < s.c.addons.length,
        s'.c = { s.c with addons := settledUpTo k s.c.addons } ∧
        settledCalls s'.trace = settledCalls s.trace ++ settlingCalls (s.c.addons.take k)) ∧
        ρ.Fails) s := by
  unfold reconcileAddons
  rw [wp_bind, wp_getCluster]
  simpa only [List.nil_append] using wp_reconcileAddonsFrom false [] s.c.addons s

theorem reconcileAddons_of_not_fails (h : ¬ρ.Fails) (s : TickState) :
    returns (reconcileAddons ρ) s = true ∧
    (final (reconcileAddons ρ) s).c = { s.c with addons := settleAddons s.c.addons } := by
  have hpass := wp_reconcileAddons (ρ := ρ) s
  simp only [wp] at hpass
  simp only [returns, final]
  cases hres : reconcileAddons ρ s with
  | ok a s' =>
    rw [hres] at hpass
    exact ⟨rfl, hpass.1⟩
  | error e s' =>
    rw [hres] at hpass
    exact absurd hpass.2 h

end Pass

/-! ### The next pass -/

theorem settleAddons_append (l l' : List Addon) :
    settleAddons (l ++ l') = settleAddons l ++ settleAddons l' := by
  simp [settleAddons]

theorem settleAddons_settleAddons (l : List Addon) :
    settleAddons (settleAddons l) = settleAddons l := by
  induction l with
  | nil => rfl
  | cons ad rest ih =>
    by_cases hphase : ad.phase = .removing
    · rw [settleAddons_cons_removing hphase, ih]
    · rw [settleAddons_cons hphase, settleAddons_cons (by simp), ih]

theorem settleAddons_settledUpTo (k : Nat) (l : List Addon) :
    settleAddons (settledUpTo k l) = settleAddons l := by
  rw [settledUpTo, settleAddons_append, settleAddons_settleAddons, ← settleAddons_append,
    List.take_append_drop]

/-- **Every pass settles a first part of the add-ons and leaves the rest**, all of them if it
returns, and the calls that succeeded are those of the first part. **The pass after a failure**
returns where a pass without one would have. -/
theorem reconcileAddons_settles (ρ : Env) (s : TickState) :
    (∃ k ≤ s.c.addons.length,
      (final (reconcileAddons ρ) s).c =
        { s.c with addons := settleAddons (s.c.addons.take k) ++ s.c.addons.drop k } ∧
      settledCalls (final (reconcileAddons ρ) s).trace =
        settledCalls s.trace ++ settlingCalls (s.c.addons.take k) ∧
      (returns (reconcileAddons ρ) s = true ↔ k = s.c.addons.length)) ∧
    ∀ ρ' ρ'' : Env, ¬ρ'.Fails → ¬ρ''.Fails →
      returns (reconcileAddons ρ') (final (reconcileAddons ρ) s) = true ∧
      (final (reconcileAddons ρ') (final (reconcileAddons ρ) s)).c =
        (final (reconcileAddons ρ'') s).c := by
  have hpass : ∃ k ≤ s.c.addons.length,
      (final (reconcileAddons ρ) s).c = { s.c with addons := settledUpTo k s.c.addons } ∧
      settledCalls (final (reconcileAddons ρ) s).trace =
        settledCalls s.trace ++ settlingCalls (s.c.addons.take k) ∧
      (returns (reconcileAddons ρ) s = true ↔ k = s.c.addons.length) := by
    have hpass := wp_reconcileAddons (ρ := ρ) s
    simp only [wp] at hpass
    simp only [returns, final]
    cases hres : reconcileAddons ρ s with
    | ok a s' =>
      rw [hres] at hpass
      refine ⟨s.c.addons.length, le_rfl, ?_, ?_, by simp⟩
      · simpa [settledUpTo] using hpass.1
      · simpa using hpass.2
    | error e s' =>
      rw [hres] at hpass
      obtain ⟨⟨k, hk, hc, htrace⟩, -⟩ := hpass
      exact ⟨k, hk.le, hc, htrace, by simp [hk.ne]⟩
  refine ⟨hpass, fun ρ' ρ'' hclear' hclear'' => ?_⟩
  obtain ⟨k, -, hc, -⟩ := hpass
  have hnext := reconcileAddons_of_not_fails hclear' (final (reconcileAddons ρ) s)
  refine ⟨hnext.1, ?_⟩
  rw [hnext.2, (reconcileAddons_of_not_fails hclear'' s).2, hc]
  simp only [settleAddons_settledUpTo]

def failsSecondInstall : Env where
  fails n _ := if n = 2 then some "helm failed" else none

/-- One add-on of three is installed, and the next pass installs the rest. -/
theorem reconcileAddons_settles_second :
    let s : TickState := ⟨{ addons := [{ name := "a", phase := .pending },
      { name := "b", phase := .removing }, { name := "c", phase := .updating }] }, []⟩
    (final (reconcileAddons failsSecondInstall) s).c.addons.map (fun ad => (ad.name, ad.phase)) =
      [("a", .installed), ("b", .removing), ("c", .updating)] ∧
    (final (reconcileAddons {}) (final (reconcileAddons failsSecondInstall) s)).c =
      (final (reconcileAddons {}) s).c := by
  intro s
  have hclear : ¬({} : Env).Fails := by simp [Env.Fails]
  exact ⟨by decide +kernel,
    ((reconcileAddons_settles failsSecondInstall s).2 {} {} hclear hclear).2⟩

end KaaS
