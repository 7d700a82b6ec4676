import KaaS.System.Row

/-!
# Restoring a sole control plane

The last rung of repair rebuilds a sole control plane from a stored backup, and loses what was
written since. It should destroy the machine only when there is something to put on the new
one (`RestoreSafe`): whenever a restore asks for machines or has one rebuilt, a backup is **at
hand**, recent enough to be restored and with a payload that can be fetched and unsealed.

`repairByRestore` has the machine rebuilt first and looks for a backup afterwards. So a restore
is safe exactly if it is refused before the machine is touched, on a cluster with several
control planes or a provider that cannot rebuild a single node, or if a backup happens to be at
hand at the one or two calls it makes to the infrastructure (`restoreSafe_iff`).
-/

namespace KaaS

open Effect

/-! ### The property -/

/-- The call asks the infrastructure for machines, or has one of them rebuilt. -/
def Call.rebuilds : Call → Bool
  | ensureNodes _ _ | replaceNode _ => true
  | _ => false

/-- **A backup is at hand** when the tick has made `n` calls: one may be restored, and its
payload can be fetched and unsealed. -/
def BackupAt (r : Reconciler) (ρ : Env) (n : Nat) : Prop :=
  ρ.fails n .listEtcdSnapshots = none ∧
    match restorableSnapshot ρ.snapshots r.snapshotPolicy ρ.now with
    | .ok snap => ρ.fails n (.getEtcdSnapshotPayload snap.id) = none ∧ ρ.fails n .unseal = none
    | .error _ => False

instance (r : Reconciler) (ρ : Env) (n : Nat) : Decidable (BackupAt r ρ n) := by
  unfold BackupAt
  cases restorableSnapshot ρ.snapshots r.snapshotPolicy ρ.now <;> infer_instance

/-- **A restore destroys nothing it cannot put back**: a backup is at hand at every call of the
tick that asks for machines or has one rebuilt. -/
def RestoreSafe (r : Reconciler) (ρ : Env) (c : Cluster) : Prop :=
  ∀ before e after, tickTrace r ρ c = before ++ e :: after → e.call.rebuilds = true →
    BackupAt r ρ before.length

/-- The tick on `c` carries out a restore of `node`. -/
structure RestoreDue (c : Cluster) (node : Node) : Prop where
  phase : c.phase = .repairing
  action : c.repairState.action = some .restore
  target : c.repairState.target ≠ ""
  node : nodeByNameOK c.nodes c.repairState.target = some node

/-! ### The calls of a restore -/

/-- Only calls that rebuild nothing were made. -/
private def Spares (s s' : TickState) : Prop :=
  ∃ evs, s'.trace = s.trace ++ evs ∧ ∀ e ∈ evs, e.call.rebuilds = false

private instance : IsPreorder TickState Spares where
  refl s := ⟨[], (List.append_nil _).symm, by simp⟩
  trans := by
    rintro s t u ⟨evs, ht, h⟩ ⟨evs', hu, h'⟩
    refine ⟨evs ++ evs', by rw [hu, ht, List.append_assoc], fun e he => ?_⟩
    exact (List.mem_append.mp he).elim (h e) (h' e)

section Calls

variable {r : Reconciler} {ρ : Env} {c : Cluster} {node : Node}

private theorem spares_perform {k : Call} {context : String} (hk : k.rebuilds = false) :
    Within Spares (perform ρ k context) :=
  fun _ => wp_perform (fun _ => ⟨[⟨k, true⟩], rfl, by simpa using hk⟩)
    (fun _ => ⟨[⟨k, false⟩], rfl, by simpa using hk⟩)

private theorem spares_restoreSnapshot : Within Spares (restoreSnapshot r ρ node) := by
  have hmodify (f : Cluster → Cluster) : Within Spares (modifyCluster f) :=
    fun _ => ⟨[], (List.append_nil _).symm, by simp⟩
  have hget : Within Spares getCluster := fun s => refl_of Spares s
  refine (spares_perform rfl).bind fun _ => hget.bind fun c => ?_
  split
  · exact .throw _
  · exact (spares_perform rfl).bind fun _ => (spares_perform rfl).bind fun _ =>
      (spares_perform rfl).bind fun _ => hmodify _

/-- The calls of the restore of `vmName`: its rebuild, then the machines, then whatever the
backup needs. -/
private inductive RestoreCalls (ρ : Env) (vmName : String) : List Event → Prop
  | notRebuilt {e : String} (h : ρ.fails 0 (.replaceNode vmName) = some e) :
      RestoreCalls ρ vmName [⟨.replaceNode vmName, false⟩]
  | asked (h : ρ.fails 0 (.replaceNode vmName) = none) (net : NetworkSpec)
      (specs : List NodeSpec) (ok : Bool) {rest : List Event}
      (hrest : ∀ e ∈ rest, e.call.rebuilds = false) :
      RestoreCalls ρ vmName (⟨.replaceNode vmName, true⟩ :: ⟨.ensureNodes net specs, ok⟩ :: rest)

private theorem repairByRestore_calls (hha : c.ha = false)
    (hreplacer : r.nodeReplacer c.infraProvider = true) :
    wp (repairByRestore r ρ node) (fun _ t => RestoreCalls ρ node.vmName t.trace)
      (fun _ t => RestoreCalls ρ node.vmName t.trace) { c } := by
  simp only [repairByRestore, recreateNodeVM, forceReplace, wp_bind, wp_getCluster, wp_pure,
    wp_modifyCluster, hha, hreplacer, Bool.false_eq_true, Bool.not_true, if_false]
  cases hfails : ρ.fails 0 (.replaceNode node.vmName) with
  | some e => exact wp_perform_of_some hfails (.notRebuilt hfails)
  | none =>
    refine wp_perform_of_none hfails (wp_perform (fun _ => ?_) fun _ => ?_)
    · -- the machine is new; what follows concerns the backup only
      refine wp_mono (spares_restoreSnapshot _) ?_ ?_ <;>
      · rintro _ t ⟨evs, ht, hevs⟩
        rw [ht]
        exact .asked hfails _ _ true hevs
    · exact .asked hfails _ _ false (by simp)

private theorem tickTrace_of_executeRepair {P : List Event → Prop} (hphase : c.phase = .repairing)
    (h : wp (executeRepair r ρ) (fun _ t => P t.trace) (fun _ t => P t.trace) { c }) :
    P (tickTrace r ρ c) := by
  have hwp : wp (reconcileOne r ρ) (fun _ t => P t.trace) (fun _ t => P t.trace) { c } := by
    simp only [reconcileOne, hphase, repair, wp_bind, wp_getCluster, wp_tryCatch, wp_pure,
      wp_modifyCluster]
    exact h
  obtain ⟨s, htrace, -, ⟨-, hP⟩ | ⟨-, hP⟩⟩ := tick_of_wp hwp <;> exact htrace ▸ hP

theorem RestoreDue.executes (h : RestoreDue c node) (s : TickState) (hs : s.c = c)
    {Q : Unit → TickState → Prop} {E : String → TickState → Prop} :
    wp (executeRepair r ρ) Q E s ↔ wp (repairByRestore r ρ node) Q E s := by
  have hflight : c.repairState.inFlight = true := by
    simp [ClusterRepair.inFlight, h.action, h.target]
  simp only [executeRepair, wp_bind, wp_getCluster, hs, h.action, h.node, hflight, if_true,
    runRepairAction]

end Calls

/-! ### When a restore is safe -/

section Safe

variable {r : Reconciler} {ρ : Env} {c : Cluster} {node : Node}

private theorem restoreSafe_of_nil (h : tickTrace r ρ c = []) : RestoreSafe r ρ c := by
  intro before e after htrace
  rw [h] at htrace
  simp at htrace

private theorem tickTrace_of_refused (h : RestoreDue c node)
    (hrefused : c.ha = true ∨ r.nodeReplacer c.infraProvider = false) : tickTrace r ρ c = [] := by
  refine tickTrace_of_executeRepair (P := (· = [])) h.phase ((h.executes _ rfl).mpr ?_)
  simp only [repairByRestore, recreateNodeVM, forceReplace, wp_bind, wp_getCluster]
  by_cases hha : c.ha = true
  · simp [hha]
  · simp [hha, hrefused.resolve_left hha]

private theorem RestoreCalls.forall_iff {vmName : String} {trace : List Event} {B : Nat → Prop}
    (h : RestoreCalls ρ vmName trace) :
    (∀ before e after, trace = before ++ e :: after → e.call.rebuilds = true →
      B before.length) ↔ B 0 ∧ (ρ.fails 0 (.replaceNode vmName) = none → B 1) := by
  cases h with
  | notRebuilt hfails =>
    refine ⟨fun h => ⟨h [] _ [] rfl rfl, by simp [hfails]⟩, fun h before e after htrace _ => ?_⟩
    obtain ⟨rfl, -⟩ : before = [] ∧ _ := by
      rcases List.cons_eq_append_iff.mp htrace with ⟨rfl, h⟩ | ⟨_, rfl, h⟩
      · exact ⟨rfl, h⟩
      · simp at h
    exact h.1
  | asked hfails net specs ok hrest =>
    constructor
    · intro h
      exact ⟨h [] _ _ rfl rfl, fun _ => h [_] _ _ rfl rfl⟩
    · intro h before e after htrace he
      rcases List.cons_eq_append_iff.mp htrace with ⟨rfl, -⟩ | ⟨before₁, rfl, htrace₁⟩
      · exact h.1
      rcases List.cons_eq_append_iff.mp htrace₁ with ⟨rfl, -⟩ | ⟨before₂, rfl, htrace₂⟩
      · exact h.2 hfails
      · have hmem : e ∈ before₂ ++ e :: after := by simp
        rw [← htrace₂] at hmem
        simp [hrest e hmem] at he

/-- **Restores are safe exactly** where they are refused or a backup is at hand at the rebuild
and, if it succeeds, at the call for machines after it. -/
theorem restoreSafe_iff (r : Reconciler) (ρ : Env) (c : Cluster) (node : Node)
    (h : RestoreDue c node) :
    RestoreSafe r ρ c ↔ c.ha = true ∨ r.nodeReplacer c.infraProvider = false ∨
      BackupAt r ρ 0 ∧ (ρ.fails 0 (.replaceNode node.vmName) = none → BackupAt r ρ 1) := by
  by_cases hrefused : c.ha = true ∨ r.nodeReplacer c.infraProvider = false
  · rw [← or_assoc]
    exact iff_of_true (restoreSafe_of_nil (tickTrace_of_refused h hrefused)) (.inl hrefused)
  · obtain ⟨hha, hreplacer⟩ := not_or.mp hrefused
    have hcalls : RestoreCalls ρ node.vmName (tickTrace r ρ c) :=
      tickTrace_of_executeRepair h.phase ((h.executes _ rfl).mpr
        (repairByRestore_calls (by simpa using hha) (by simpa using hreplacer)))
    rw [← or_assoc, or_iff_right hrefused]
    exact hcalls.forall_iff

end Safe

/-! ### A lost control plane -/

/-- A deployment that repairs, on a backend that reports power and can rebuild a node. -/
def repairingPlatform : Platform where
  app := { catalog := demoCatalog "ubuntu-24.04" "1.30.2" }
  reconciler :=
    { catalog := demoCatalog "ubuntu-24.04" "1.30.2"
      repairPolicy := defaultRepairPolicy
      nodeReplacer := fun _ => true
      nodePowerer := fun _ => true }
  same := rfl

def controlPlaneOff (now : Time) : Env where
  now := now
  power := AList.singleton "demo-cp-0" false

/-- The machine does not stay on after it was started, and half an hour later the restore is
decided on. -/
def lossRun : Platform.Inputs :=
  bringUpRun ++ pass (controlPlaneOff 0) ++ pass {} ++ pass (controlPlaneOff (40 * Duration.minute))

def lostCluster : Cluster := (repairingPlatform.run demoCluster lossRun).row

def lostNode : Node := nodeByName lostCluster.nodes "demo-cp-0"

private theorem restoreDue_lostCluster : RestoreDue lostCluster lostNode :=
  ⟨by decide +kernel, by decide +kernel, by decide +kernel, by decide +kernel⟩

def backedUp : Env where
  now := 41 * Duration.minute
  snapshots := [{ id := "snap-1", takenAt := 41 * Duration.minute - Duration.hour }]

theorem restoreSafe_backedUp :
    RestoreDue lostCluster lostNode ∧
    RestoreSafe repairingPlatform.reconciler backedUp lostCluster := by
  have hback (n : Nat) : BackupAt repairingPlatform.reconciler backedUp n := ⟨rfl, rfl, rfl⟩
  exact ⟨restoreDue_lostCluster, (restoreSafe_iff _ backedUp lostCluster lostNode
    restoreDue_lostCluster).mpr (.inr (.inr ⟨hback 0, fun _ => hback 1⟩))⟩

/-- No backup was ever stored, and the machine is destroyed all the same. -/
theorem restore_destroys_unbacked :
    Created repairingPlatform.app.catalog demoCluster ∧ RestoreDue lostCluster lostNode ∧
    ¬RestoreSafe repairingPlatform.reconciler { now := 41 * Duration.minute } lostCluster := by
  refine ⟨created_demoCluster _ _, restoreDue_lostCluster, fun h => ?_⟩
  have htrace : tickTrace repairingPlatform.reconciler { now := 41 * Duration.minute } lostCluster =
      ⟨.replaceNode "demo-cp-0", true⟩ ::
        (tickTrace repairingPlatform.reconciler { now := 41 * Duration.minute }
          lostCluster).tail := by
    decide +kernel
  have hback := h [] _ _ htrace rfl
  revert hback
  decide

end KaaS
