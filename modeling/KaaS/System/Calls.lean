import KaaS.Library.Overlap
import KaaS.System.Row

/-!
# Overlapping calls on one cluster

Each mutation of the API reads the whole row and, later, replaces it by what it has made of
its copy. `UpdateCluster`, `AddNodeDisk` and `RemoveNodeDisk` hold `LockAdmission` from read to
write; `PromoteCluster`, `SetClusterAddonValues` and `DeleteCluster` do not take it. Here
the calls of the API and the ticks may overlap in every way the lock allows.

The first consequence is about deletion. A cluster that is going away (`Cluster.leaving`) takes
no edits and no tick brings it back, but all of that is decided on the copy a party read. A
write made from an older copy revives the cluster: another mutation's always, a tick's when
the deletion was itself made from an old copy and hit the generation the tick had read.
Without such writes a deletion is final (`leaving_of_noRevival`).
-/

namespace KaaS

open Overlap

/-! ### The protocol -/

/-- The calls that hold `LockAdmission` from their read to their write. -/
def Mutation.locksAdmission : Mutation → Bool
  | .updateCluster _ | .addNodeDisk _ | .removeNodeDisk _ _ => true
  | .promoteCluster _ | .setClusterAddonValues _ _ | .deleteCluster => false

/-- A party of the protocol: a tick under some answers, or a call of the API. -/
abbrev RowParty := Party Env (Admission × Mutation)

abbrev RowFlight := Flight Cluster Env (Admission × Mutation)

abbrev RowEntry := Overlap.Entry Cluster Env (Admission × Mutation)

abbrev RowHistory := List RowEntry

abbrev RowState := Overlap.State Cluster Env (Admission × Mutation)

namespace Platform

variable (P : Platform)

def calls : Overlap.Protocol Cluster Env (Admission × Mutation) where
  version c := c.generation
  work ρ c := tickResult P.reconciler ρ c
  locks k := k.2.locksAdmission
  apply k c := (P.app.apply k.1 k.2 c).toOption

abbrev Schedule := List (Overlap.Input Env (Admission × Mutation))

/-- The state after a schedule on a cluster that began with the row `c`. -/
def overlap (c : Cluster) (is : Schedule) : RowState :=
  TransitionSystem.run P.calls.step { row := c } is

/-- Every commit of the schedule meets the condition `C`. -/
def CommitsAlong (C : RowState → RowFlight → Prop) (c : Cluster) (is : Schedule) : Prop :=
  TransitionSystem.Along P.calls.step (Overlap.Protocol.Commits C) { row := c } is

instance (C : RowState → RowFlight → Prop) [∀ s f, Decidable (C s f)] (c : Cluster)
    (is : Schedule) : Decidable (P.CommitsAlong C c is) :=
  TransitionSystem.Along.decidable _ _ _ is

end Platform

/-- **What a write comes from**: an accepted tick or an accepted mutation, on the copy read. -/
inductive Wrote (P : Platform) (row : Cluster) (f : RowFlight) (c : Cluster) : Prop
  | tick (ρ : Env) (evs : List Event) (hparty : f.party = .worker ρ)
      (hversion : f.copy.generation = row.generation)
      (hstep : TickStep P.reconciler f.copy (some c) evs)
  | call (k : Admission × Mutation) (hparty : f.party = .caller k)
      (hedit : Edit P.app f.copy k.2 c)

theorem apply_of_attempt {P : Platform} {row : Cluster} {f : RowFlight} {c : Cluster}
    {k : Admission × Mutation} (hparty : f.party = .caller k)
    (h : P.calls.attempt row f = some (some c)) : P.app.apply k.1 k.2 f.copy = .ok (some c) := by
  simp only [Overlap.Protocol.attempt, hparty, Platform.calls] at h
  cases happ : P.app.apply k.1 k.2 f.copy with
  | error e => simp [happ, Except.toOption] at h
  | ok c' =>
    simp only [happ, Except.toOption, Option.some.injEq] at h
    rw [h]

theorem wrote_of_attempt {P : Platform} {row : Cluster} {f : RowFlight} {c : Cluster}
    (h : P.calls.attempt row f = some (some c)) : Wrote P row f c := by
  cases hparty : f.party with
  | caller k => exact .call k hparty (edit_of_apply (apply_of_attempt hparty h))
  | worker ρ =>
    simp only [Overlap.Protocol.attempt, hparty, Platform.calls, Option.map_eq_some_iff,
      Option.some.injEq, exists_eq_right, Option.filter_eq_some_iff] at h
    obtain ⟨hwork, hversion⟩ := h
    have hversion := of_decide_eq_true hversion
    have hstep := tickStep P.reconciler ρ f.copy
    rw [hwork] at hstep
    exact .tick ρ _ hparty (hstep.sameDesire.generation.symm.trans hversion) hstep

theorem passed_of_attempt {P : Platform} {row : Cluster} {f : RowFlight}
    (h : P.calls.attempt row f = some none) :
    ∃ k, f.party = .caller k ∧ P.app.apply k.1 k.2 f.copy = .ok none := by
  unfold Overlap.Protocol.attempt at h
  split at h
  · rename_i k hk
    simp only [Platform.calls] at h
    refine ⟨k, hk, ?_⟩
    cases happ : P.app.apply k.1 k.2 f.copy with
    | error e => simp [happ, Except.toOption] at h
    | ok c' =>
      simp only [happ, Except.toOption, Option.some.injEq] at h
      rw [h]
  · simp at h

/-! ### Deletion -/

def Phase.leaving : Phase → Bool
  | .deleting | .deleted => true
  | _ => false

def Cluster.leaving (c : Cluster) : Bool := c.phase.leaving

/-- Neither going away nor given up. -/
def Phase.working : Phase → Bool
  | .deleting | .deleted | .failed => false
  | _ => true

def Mutation.isDelete : Mutation → Bool
  | .deleteCluster => true
  | _ => false

def deletes : RowParty → Bool
  | .caller k => k.2.isDelete
  | .worker _ => false

/-- A `DeleteCluster` call has returned success. -/
def deleteReturned (log : RowHistory) : Bool :=
  log.any fun
    | .wrote f _ _ => deletes f.party
    | .passed f => deletes f.party

/-- A `DeleteCluster` call has stored the row. -/
def deleteStored (log : RowHistory) : Bool :=
  log.any fun
    | .wrote f _ _ => deletes f.party
    | .passed _ => false

/-- **No revival**: a tick that still carries the stored generation, and a call other than
`DeleteCluster`, commit only if no deletion was stored since they read. -/
def NoRevival (s : RowState) (f : RowFlight) : Prop :=
  match f.party with
  | .worker _ => f.copy.generation = s.row.generation → deleteStored (f.since s.log) = false
  | .caller k => k.2.isDelete = false → deleteStored (f.since s.log) = false

instance (s : RowState) (f : RowFlight) : Decidable (NoRevival s f) := by
  unfold NoRevival
  cases f.party <;> infer_instance

section Deletion

variable {a : App} {r : Reconciler} {c c' : Cluster}

theorem Edit.leaving_delete {m : Mutation} (h : Edit a c m c') (hm : m.isDelete = true) :
    c'.leaving = true := by
  cases h <;> first | rfl | cases hm

theorem Edit.leaving {m : Mutation} (h : Edit a c m c') (hm : m.isDelete = false) :
    c.leaving = false ∧ c'.leaving = false := by
  have hstays : c.phase = .ready ∨ c.phase ≠ .deleting ∧ c.phase.terminal = false →
      c.leaving = false := by
    unfold Cluster.leaving
    cases c.phase <;> simp [Phase.leaving, Phase.terminal]
  cases h with
  | update addons hphase => exact ⟨hstays (.inr hphase), hstays (.inr hphase)⟩
  | addDisk disk hphase => exact ⟨hstays (.inl hphase), hstays (.inl hphase)⟩
  | removeDisk i hphase => exact ⟨hstays (.inr hphase), hstays (.inr hphase)⟩
  | promote hphase => exact ⟨hstays (.inl hphase), hstays (.inl hphase)⟩
  | values i hphase => exact ⟨hstays (.inl hphase), hstays (.inl hphase)⟩
  | delete => cases hm

theorem Edit.ne_failed {m : Mutation} (h : Edit a c m c') (hne : c.phase ≠ .failed) :
    c'.phase ≠ .failed := by
  cases h with
  | delete => exact Phase.noConfusion
  | _ => exact hne

/-- **Where a tick can take the phase**: it stays, it goes on among the phases of a working
cluster, or a deletion ends. -/
theorem TickStep.phase {evs : List Event} (h : TickStep r c (some c') evs) :
    c'.phase = c.phase ∨ (c.phase.working = true ∧ c'.phase.working = true) ∨
      (c.phase = .deleting ∧ c'.phase = .deleted) := by
  generalize hres : some c' = res at h
  cases h with
  | failed | provisionFailed | mountFailed | updateFailed => simp at hres
  | advance hphase =>
    obtain rfl := Option.some.inj hres
    simp only [List.mem_cons, Prod.mk.injEq, List.not_mem_nil, or_false] at hphase
    rcases hphase with ⟨hp, rfl⟩ | ⟨hp, rfl⟩ | ⟨hp, rfl⟩ | ⟨hp, rfl⟩ | ⟨hp, rfl⟩ <;>
      simp [Phase.working, hp]
  | provisioned hp | mounted hp | toUpgrading hp | toUpdating hp | noHop hp | deleted hp =>
    obtain rfl := Option.some.inj hres
    simp [Phase.working, hp]
  | repaired hp =>
    obtain rfl := Option.some.inj hres
    simp [Phase.working, hp]
  | broughtUp hp =>
    obtain rfl := Option.some.inj hres
    unfold finishBringUp
    split <;> simp [Phase.working, hp]
  | timed hp _ _ hp' =>
    obtain rfl := Option.some.inj hres
    simp only [List.mem_cons, List.not_mem_nil, or_false] at hp'
    rcases hp' with rfl | rfl | rfl | rfl | rfl <;> simp [Phase.working, hp]
  | maintained hp =>
    obtain rfl := Option.some.inj hres
    simp only [List.mem_cons, List.not_mem_nil, or_false] at hp
    rcases hp with hp | hp | hp <;> simp [Phase.working, hp]
  | @rolled hp _ _ _ _ _ _ _ _ _ _ ok _ _ hr =>
    cases ok with
    | false => simp at hres
    | true =>
      obtain rfl := Option.some.inj hres
      cases hr <;> exact .inl rfl
  | nothingToRoll =>
    obtain rfl := Option.some.inj hres
    exact .inl rfl
  | hopped hp =>
    obtain rfl := Option.some.inj hres
    unfold finishHop
    split <;> simp [Phase.working, hp]
  | updated hp =>
    obtain rfl := Option.some.inj hres
    unfold finishUpdate
    split <;> simp [Phase.working, hp]

private theorem Phase.leaving_of_working {p : Phase} (h : p.working = true) :
    p.leaving = false := by
  revert h
  cases p <;> simp [Phase.working, Phase.leaving]

/-- **A tick neither starts a deletion nor ends one.** -/
theorem TickStep.leaving {evs : List Event} (h : TickStep r c (some c') evs) :
    c'.leaving = c.leaving := by
  unfold Cluster.leaving
  rcases h.phase with hsame | ⟨hw, hw'⟩ | ⟨hp, hp'⟩
  · rw [hsame]
  · rw [Phase.leaving_of_working hw, Phase.leaving_of_working hw']
  · rw [hp, hp', Phase.leaving, Phase.leaving]

theorem TickStep.ne_failed {evs : List Event} (h : TickStep r c (some c') evs)
    (hne : c.phase ≠ .failed) : c'.phase ≠ .failed := by
  rcases h.phase with hsame | ⟨hw, hw'⟩ | ⟨hp, hp'⟩
  · rwa [hsame]
  · intro hf
    rw [hf] at hw'
    cases hw'
  · rw [hp']
    exact Phase.noConfusion

private theorem leaving_of_delete_passed {adm : Admission} {m : Mutation} (hm : m.isDelete = true)
    (h : a.apply adm m c = .ok none) : c.leaving = true := by
  cases m with
  | deleteCluster =>
    simp only [App.apply, App.deleteCluster, Guard.bind_eq_ok, Guard.pure_eq_ok] at h
    obtain ⟨-, -, h⟩ := h
    split at h
    · rename_i hphase
      rcases hphase with hphase | hphase <;> simp [Cluster.leaving, Phase.leaving, hphase]
    · simp at h
  | _ => cases hm

private theorem deleteStored_eq (f : RowFlight) (log : RowHistory) :
    deleteStored log = (deleteStored (f.since log) || deleteStored (f.before log)) := by
  simp only [deleteStored, ← List.any_append, f.since_append_before]

/-- The row is leaving exactly if a deletion has been stored, and a deletion that returned
success was stored or found one. -/
private def DeletionInv (c₀ c : Cluster) (log : RowHistory) : Prop :=
  c.leaving = (c₀.leaving || deleteStored log) ∧
  (deleteReturned log = true → (c₀.leaving || deleteStored log) = true)

/-- A write that was not made from before a deletion leaves the cluster as it is going. -/
private theorem DeletionInv.wrote {c₀ row : Cluster} {f : RowFlight} {log : RowHistory}
    (hrow : DeletionInv c₀ row log) (hcopy : DeletionInv c₀ f.copy (f.before log))
    (hsince : deleteStored (f.since log) = false) (hparty : deletes f.party = false)
    (hkept : c.leaving = f.copy.leaving) : DeletionInv c₀ c (.wrote f row c :: log) := by
  have hstored : deleteStored (.wrote f row c :: log) = deleteStored log := by
    simp [deleteStored, hparty]
  have hreturned : deleteReturned (.wrote f row c :: log) = deleteReturned log := by
    simp [deleteReturned, hparty]
  refine ⟨?_, ?_⟩
  · rw [hstored, hkept, hcopy.1, deleteStored_eq f log, hsince, Bool.false_or]
  · rw [hstored, hreturned]
    exact hrow.2

end Deletion

/-- **A deletion is final** in every run without revivals: once a `DeleteCluster` call has
returned success, the stored phase is `Deleting` or `Deleted`. -/
theorem leaving_of_noRevival (P : Platform) (c : Cluster) (is : Platform.Schedule)
    (h : P.CommitsAlong NoRevival c is)
    (hreturned : deleteReturned (P.overlap c is).log = true) :
    (P.overlap c is).row.phase = .deleting ∨ (P.overlap c is).row.phase = .deleted := by
  have hinv : DeletionInv c (P.overlap c is).row (P.overlap c is).log := by
    refine Overlap.Protocol.run_invariant (C := NoRevival) ?_ ?_ ?_ h
    · intro s f c' hrow _ hcopy hcond hattempt
      cases wrote_of_attempt hattempt with
      | tick ρ evs hparty hversion hstep =>
        simp only [NoRevival, hparty] at hcond
        exact hrow.wrote hcopy (hcond hversion) (by simp [hparty, deletes]) hstep.leaving
      | call k hparty hedit =>
        simp only [NoRevival, hparty] at hcond
        cases hdel : k.2.isDelete with
        | false =>
          obtain ⟨hstays, hstays'⟩ := hedit.leaving hdel
          exact hrow.wrote hcopy (hcond hdel) (by simp [hparty, deletes, hdel])
            (hstays'.trans hstays.symm)
        | true =>
          simp [DeletionInv, deleteStored, deletes, hparty, hdel, hedit.leaving_delete hdel]
    · intro s f hrow _ hcopy _ hattempt
      obtain ⟨k, hparty, happly⟩ := passed_of_attempt hattempt
      have hstored : deleteStored (.passed f :: s.log) = deleteStored s.log := by
        simp [deleteStored]
      refine ⟨hstored ▸ hrow.1, fun hret => ?_⟩
      rw [hstored]
      cases hdel : k.2.isDelete with
      | false => exact hrow.2 (by simpa [deleteReturned, hparty, deletes, hdel] using hret)
      | true =>
        have hleft := leaving_of_delete_passed hdel happly
        rw [hcopy.1] at hleft
        rw [deleteStored_eq f, Bool.or_left_comm, hleft, Bool.or_true]
    · simp [DeletionInv, deleteStored, deleteReturned]
  have hleaving := hinv.1.trans (hinv.2 hreturned)
  revert hleaving
  unfold Cluster.leaving
  cases (P.overlap c is).row.phase <;> simp [Phase.leaving]

def calls (id : ℕ) (m : Mutation) : Platform.Schedule := [.read id (.caller ({}, m))]

def ticks (id : ℕ) : Platform.Schedule := [.read id (.worker {})]

def commits (id : ℕ) : Platform.Schedule := [.commit id]

/-- An edit, a deletion and the teardown, one after the other. -/
def deletionRun : Platform.Schedule :=
  calls 0 (.updateCluster { nodePools := some (demoPools 3) }) ++ commits 0 ++
    calls 1 .deleteCluster ++ commits 1 ++ ticks 2 ++ commits 2

theorem leaving_deletionRun :
    rollingPlatform.CommitsAlong NoRevival demoCluster deletionRun ∧
    deleteReturned (rollingPlatform.overlap demoCluster deletionRun).log = true ∧
    ((rollingPlatform.overlap demoCluster deletionRun).row.phase = .deleting ∨
      (rollingPlatform.overlap demoCluster deletionRun).row.phase = .deleted) := by
  have hcond : rollingPlatform.CommitsAlong NoRevival demoCluster deletionRun := by decide +kernel
  have hreturned : deleteReturned (rollingPlatform.overlap demoCluster deletionRun).log = true := by
    decide +kernel
  exact ⟨hcond, hreturned,
    leaving_of_noRevival rollingPlatform demoCluster deletionRun hcond hreturned⟩

/-- A deletion between the read and the write of an edit that holds the lock. -/
def deletionDuringEdit : Platform.Schedule :=
  calls 0 (.updateCluster { nodePools := some (demoPools 3) }) ++ calls 1 .deleteCluster ++
    commits 1 ++ commits 0

theorem revived_by_edit :
    Created rollingPlatform.app.catalog demoCluster ∧
    deleteReturned (rollingPlatform.overlap demoCluster deletionDuringEdit).log = true ∧
    (rollingPlatform.overlap demoCluster deletionDuringEdit).row.phase = .pending :=
  ⟨created_demoCluster _ _, by decide +kernel, by decide +kernel⟩

end KaaS
