import KaaS.System.Restores

/-!
# When etcd is defragmented

A converged cluster has its etcd observed now and then, and the observation decides whether it is
defragmented. The decision is one about **a status that the runs of the platform rewrite**: an
observation replaces it and carries the time of the last defragmentation over, a defragmentation
replaces it with a status that has this time, and **a restore drops it**. So what the policy
promises of two defragmentations is promised of runs.

What a tick does to the status is said once (`EtcdTick`). From it follows what every decision to
defragment rests on (`DefragAllowed`): on all members being seen, and but for an alarm on the window
and the thresholds. That the minimal interval has passed follows in runs in which no restore comes
sooner after a defragmentation than that.
-/

namespace KaaS

open Effect Optimistic

/-! ### The status and the ticks -/

/-- Phases that a cluster leaves no more. -/
def Phase.closing (p : Phase) : Prop := p ∈ [Phase.deleting, .deleted, .failed]

/-- **What a tick that returns does to the status.** -/
inductive EtcdTick (r : Reconciler) (ρ : Env) (c : Cluster) : Cluster → Prop
  | kept {c' : Cluster} (hphase : c.phase ≠ .defragmentingEtcd)
      (hphase' : c'.phase ≠ .defragmentingEtcd) (hetcd : c'.etcd = c.etcd)
      (hend : c.phase.closing → c'.phase.closing) : EtcdTick r ρ c c'
  | observed (h : c.phase = .ready) :
      EtcdTick r ρ c { c with
        etcd := some (observeEtcd ρ c)
        phase := if r.etcdPolicy.defragDue (observeEtcd ρ c) c.controlPlanes ρ.now then
          .defragmentingEtcd else c.phase }
  | defragged (h : c.phase = .defragmentingEtcd) :
      EtcdTick r ρ c { c with etcd := some ρ.defragged, phase := .ready }
  | restored {c' : Cluster} (h : c.phase = .repairing)
      (hact : c.repairState.action = some .restore) (hphase' : c'.phase = .ready)
      (hetcd : c'.etcd = none) : EtcdTick r ρ c c'

section Ticks

variable {r : Reconciler} {ρ : Env} {α : Type} {c : Cluster}

/-- The tick ends, if it returns, with such a row. -/
private abbrev Ends (r : Reconciler) (ρ : Env) (c : Cluster) (m : Tick Unit) (s : TickState) :
    Prop :=
  wp m (fun _ t => EtcdTick r ρ c t.c) (fun _ _ => True) s

private theorem ends_bind {m : Tick α} {f : α → Tick Unit} {s : TickState} (hm : Within Quiet m)
    (hs : s.c = c) (hf : ∀ a t, t.c = c → Ends r ρ c (f a) t) : Ends r ρ c (m >>= f) s := by
  rw [Ends, wp_bind]
  exact wp_mono (hm s) (fun a t ht => hf a t (ht.1.trans hs)) (fun _ _ _ => trivial)

private theorem ends_modify {f : Cluster → Cluster} {s : TickState} (hs : s.c = c)
    (h : EtcdTick r ρ c (f c)) : Ends r ρ c (modifyCluster f) s := by
  show EtcdTick r ρ c (f s.c)
  rwa [hs]

private theorem EtcdTick.of_ready {c' : Cluster} (h : c.phase = .ready)
    (hphase' : c'.phase ≠ .defragmentingEtcd) (hetcd : c'.etcd = c.etcd) : EtcdTick r ρ c c' :=
  .kept (by simp [h]) hphase' hetcd (by simp [h, Phase.closing])

private theorem ends_reconcileRepair (h : c.phase = .ready) {s : TickState} (hs : s.c = c) :
    Ends r ρ c (reconcileRepair r ρ) s := by
  refine ends_bind (quiet_perform rfl) hs fun _ t ht => ?_
  rw [Ends, wp_bind, wp_getCluster]
  refine ends_bind quiet_pollPower ht fun powered _ h₁ =>
    ends_bind (quiet_perform rfl) h₁ fun _ _ h₂ => ends_modify h₂ ?_
  obtain ⟨p, hp, rp, heq⟩ := decideRepair_eq r ρ
    { health := ρ.health, powered := powered, fleetUnhealthy := (fleetUnhealthy ρ).1,
      fleetUnhealthyN := (fleetUnhealthy ρ).2, now := ρ.now } c
  rw [heq]
  refine .of_ready h ?_ rfl
  simp only [h, List.mem_cons, List.not_mem_nil, or_false] at hp
  rcases hp with rfl | rfl <;> simp

private theorem ends_reconcileCerts (h : c.phase = .ready) {s : TickState} (hs : s.c = c) :
    Ends r ρ c (reconcileCerts r ρ) s := by
  have hobs : wp (observeCerts ρ) (fun _ t => ∃ cert, t.c = { c with certNotAfter := cert })
      (fun _ _ => True) s := by
    simp only [observeCerts, wp_bind, wp_getCluster]
    split
    · exact ⟨c.certNotAfter, hs⟩
    · simp only [wp_bind, wp_modifyCluster]
      exact wp_mono (quiet_perform rfl s)
        (fun _ t ht => ⟨some ρ.certExpiry, by rw [ht.1, hs]⟩) (fun _ _ _ => trivial)
  simp only [Ends, reconcileCerts, wp_bind, wp_modifyCluster]
  refine wp_mono hobs (fun _ t ht => ?_) (fun _ _ _ => trivial)
  obtain ⟨cert, hc⟩ := ht
  refine .of_ready h ?_ ?_
  · rw [hc]
    split <;> simp [h]
  · rw [hc]
    split <;> rfl

private theorem ends_reconcileReady (h : c.phase = .ready) {s : TickState} (hs : s.c = c) :
    Ends r ρ c (reconcileReady r ρ) s := by
  have hviewer : Within Quiet (ensureViewer ρ) := .ite quiet_ensureViewerKubeconfig (.pure ())
  refine ends_bind hviewer hs fun _ t ht => ?_
  rw [Ends, wp_bind, wp_getCluster]
  split
  · exact ends_modify ht (.of_ready h (by simp) rfl)
  split
  · exact ends_modify ht (.of_ready h (by simp) rfl)
  split
  · exact ends_reconcileRepair h ht
  split
  · exact ends_reconcileCerts h ht
  split
  · exact ends_modify ht (.of_ready h (by simp) rfl)
  split
  · exact ends_bind (quiet_perform rfl) ht fun _ _ h₁ => ends_modify h₁ (.observed h)
  · show EtcdTick r ρ c t.c
    rw [ht]
    exact .of_ready h (by simp [h]) rfl

private theorem ends_reconcileDefrag (h : c.phase = .defragmentingEtcd) {s : TickState}
    (hs : s.c = c) : Ends r ρ c (reconcileDefrag ρ) s :=
  ends_bind (quiet_perform rfl) hs fun _ _ h₁ => ends_modify h₁ (.defragged h)

/-- What a repair leaves of the status: all of it, unless it was a restore. -/
private def StatusLeft (c : Cluster) (t : TickState) : Prop :=
  t.c.etcd = c.etcd ∨ c.repairState.action = some .restore ∧ t.c.etcd = none

private theorem statusLeft_repairByRestore {node : Node} {s : TickState}
    (hact : s.c.repairState.action = some .restore) :
    wp (repairByRestore r ρ node) (fun _ => StatusLeft s.c) (fun _ => StatusLeft s.c) s := by
  simp only [repairByRestore, wp_bind, wp_getCluster]
  split
  · exact .inl rfl
  · simp only [wp_bind, wp_getCluster]
    refine wp_mono (recreateNodeVM_leads s) (fun reports t ht => ?_) (fun _ t ht => ?_)
    · refine wp_mono (quiet_restoreSnapshot_calls _ t) (fun _ u hu => ?_) (fun _ u hu => ?_)
      · exact .inr ⟨hact, by rw [hu.1]⟩
      · exact .inl (by rw [hu.1, ht.1])
    · rcases ht with ht | ht
      · exact .inl (by rw [ht.1])
      · exact .inl (by rw [ht.1])

private theorem statusLeft_executeRepair (s : TickState) :
    wp (executeRepair r ρ) (fun _ => StatusLeft s.c) (fun _ => StatusLeft s.c) s := by
  have hquiet {m : Tick Unit} (hm : Within Quiet m) :
      wp m (fun _ => StatusLeft s.c) (fun _ => StatusLeft s.c) s :=
    wp_mono (hm s) (fun _ _ h => .inl (by rw [h.1])) (fun _ _ h => .inl (by rw [h.1]))
  simp only [executeRepair, wp_bind, wp_getCluster]
  split
  · rename_i action node haction hfound
    split
    · cases action with
      | powerOn => exact hquiet (.ite (.throw _) (quiet_perform rfl))
      | restartKubelet => exact hquiet (quiet_perform rfl)
      | rejoin => exact hquiet (.ite (quiet_perform rfl) (quiet_perform rfl))
      | replace =>
        have hleft {ok : Bool} {t : TickState}
            (ht : ∃ c' evs, Replaced s.c node (repairImage s.c node) ok c' evs ∧
              Leads s c' evs t) : StatusLeft s.c t := by
          obtain ⟨c', evs, hr, hl⟩ := ht
          refine .inl ?_
          rw [hl.1]
          cases hr <;> rfl
        exact wp_mono (replaceNode_leads s) (fun _ _ => hleft) (fun _ _ => hleft)
      | restore => exact statusLeft_repairByRestore haction
    · exact .inl rfl
  · exact .inl rfl

private theorem ends_repair (h : c.phase = .repairing) {s : TickState} (hs : s.c = c) :
    Ends r ρ c (repair r ρ) s := by
  have hclose (t : TickState) (ht : StatusLeft s.c t) : EtcdTick r ρ c { t.c with
      repair := some t.c.repairState.completeAttempt, phase := .ready } := by
    rw [hs] at ht
    rcases ht with hetcd | ⟨hact, hetcd⟩
    · exact .kept (by simp [h]) (by simp) hetcd (by simp [h, Phase.closing])
    · exact .restored h hact rfl hetcd
  simp only [Ends, repair, wp_bind, wp_tryCatch, wp_pure, wp_modifyCluster]
  exact wp_mono (statusLeft_executeRepair s) (fun _ => hclose) (fun _ => hclose)

private theorem ends_reconcileCertRenewal (h : c.phase = .renewingCerts) {s : TickState}
    (hs : s.c = c) : Ends r ρ c (reconcileCertRenewal ρ) s :=
  ends_bind (quiet_perform rfl) hs fun _ _ h₁ => ends_bind (quiet_saveSecret _) h₁ fun _ _ h₂ =>
    ends_modify h₂ (.kept (by simp [h]) (by simp) rfl (by simp [h, Phase.closing]))

private theorem ends_reconcileSnapshot (h : c.phase = .snapshottingEtcd) {s : TickState}
    (hs : s.c = c) : Ends r ρ c (reconcileSnapshot r ρ) s := by
  refine ends_bind (quiet_perform rfl) hs fun _ _ h₁ =>
    ends_bind (quiet_perform rfl) h₁ fun _ _ h₂ =>
      ends_bind (quiet_perform rfl) h₂ fun _ t ht => ?_
  simp only [Ends, setPhase, wp_bind, wp_modifyCluster]
  refine wp_mono (quiet_pruneSnapshots _) (fun _ u hu => ?_) (fun _ _ _ => trivial)
  refine .kept (by simp [h]) (by simp) ?_ (by simp [h, Phase.closing])
  rw [hu.1, ht]

private theorem EtcdTick.to_ready {c' : Cluster} (hphase : c.phase ≠ .defragmentingEtcd)
    (hopen : ¬c.phase.closing) (h : c'.phase = .ready ∧ c'.etcd = c.etcd) : EtcdTick r ρ c c' :=
  .kept hphase (by simp [h.1]) h.2 (absurd · hopen)

private theorem finishBringUp_status (c : Cluster) :
    (finishBringUp c).phase = .ready ∧ (finishBringUp c).etcd = c.etcd := by
  unfold finishBringUp
  split <;> exact ⟨rfl, rfl⟩

private theorem finishUpdate_status (c : Cluster) :
    (finishUpdate c).phase = .ready ∧ (finishUpdate c).etcd = c.etcd := by
  unfold finishUpdate
  split <;> exact ⟨rfl, rfl⟩

private theorem finishHop_status (c : Cluster) :
    (finishHop c).phase = .ready ∧ (finishHop c).etcd = c.etcd := by
  unfold finishHop
  split <;> exact ⟨rfl, rfl⟩

private theorem kept_of_tickStep {c' : Cluster} {evs : List Event}
    (h : TickStep r c (some c') evs)
    (hphase : c.phase ∉ [.ready, .renewingCerts, .defragmentingEtcd, .snapshottingEtcd,
      .repairing]) : EtcdTick r ρ c c' := by
  simp only [List.mem_cons, List.not_mem_nil, or_false, not_or] at hphase
  obtain ⟨hready, hrenew, hdefrag, hsnap, hrepair⟩ := hphase
  generalize hres : some c' = res at h
  cases h with
  | failed | provisionFailed | mountFailed | updateFailed => simp at hres
  | advance hp =>
    obtain rfl := Option.some.inj hres
    simp only [List.mem_cons, Prod.mk.injEq, List.not_mem_nil, or_false] at hp
    refine .kept hdefrag ?_ rfl ?_
    · rcases hp with ⟨-, rfl⟩ | ⟨-, rfl⟩ | ⟨-, rfl⟩ | ⟨-, rfl⟩ | ⟨-, rfl⟩ <;> simp
    · rcases hp with ⟨hp, rfl⟩ | ⟨hp, rfl⟩ | ⟨hp, rfl⟩ | ⟨hp, rfl⟩ | ⟨hp, rfl⟩ <;>
        simp [hp, Phase.closing]
  | broughtUp hp =>
    obtain rfl := Option.some.inj hres
    exact .to_ready hdefrag (by simp [hp, Phase.closing]) (finishBringUp_status _)
  | toUpgrading hp | toUpdating hp | timed hp => exact absurd hp hready
  | maintained hp =>
    simp only [List.mem_cons, List.not_mem_nil, or_false] at hp
    tauto
  | repaired hp => exact absurd hp hrepair
  | rolled hp hhop hsrc hdst hos hleft hnode hr =>
    split at hres
    · obtain rfl := Option.some.inj hres
      cases hr <;> exact .kept hdefrag (by simp [hp]) rfl (by simp [hp, Phase.closing])
    · simp at hres
  | hopped hp =>
    obtain rfl := Option.some.inj hres
    exact .to_ready hdefrag (by simp [hp, Phase.closing]) (finishHop_status _)
  | updated hp =>
    obtain rfl := Option.some.inj hres
    exact .to_ready hdefrag (by simp [hp, Phase.closing]) (finishUpdate_status _)
  | deleted hp =>
    obtain rfl := Option.some.inj hres
    exact .kept hdefrag (by simp) rfl (by simp [Phase.closing])
  | provisioned hp | mounted hp | noHop hp | nothingToRoll hp =>
    obtain rfl := Option.some.inj hres
    exact .kept hdefrag (by simp [hp]) rfl (by simp [hp, Phase.closing])

/-- **Every tick** does one of these things to the status. -/
theorem etcdTick {c' : Cluster} (h : tickResult r ρ c = some c') : EtcdTick r ρ c c' := by
  have hends (hwp : Ends r ρ c (reconcileOne r ρ) { c := c }) : EtcdTick r ρ c c' := by
    obtain ⟨s, -, -, ⟨hs, hstep⟩ | ⟨hs, -⟩⟩ := tick_of_wp hwp
    · obtain rfl := Option.some.inj (hs.symm.trans h)
      exact hstep
    · simp [hs] at h
  have hother (hphase : c.phase ∉ [.ready, .renewingCerts, .defragmentingEtcd, .snapshottingEtcd,
      .repairing]) : EtcdTick r ρ c c' := by
    have hstep := tickStep r ρ c
    rw [h] at hstep
    exact kept_of_tickStep hstep hphase
  simp only [Ends, reconcileOne, wp_bind, wp_getCluster] at hends
  cases hphase : c.phase
  case ready => exact hends (by simpa only [hphase] using ends_reconcileReady hphase rfl)
  case renewingCerts =>
    exact hends (by simpa only [hphase] using ends_reconcileCertRenewal hphase rfl)
  case defragmentingEtcd =>
    exact hends (by simpa only [hphase] using ends_reconcileDefrag hphase rfl)
  case snapshottingEtcd =>
    exact hends (by simpa only [hphase] using ends_reconcileSnapshot hphase rfl)
  case repairing => exact hends (by simpa only [hphase] using ends_repair hphase rfl)
  all_goals exact hother (by simp [hphase])

end Ticks

/-! ### Runs with a clock -/

/-- What is noted of a tick: its clock, and the copy it wants to store if it returns. -/
structure Noted where
  now : Time
  result : Option Cluster

abbrev ClockLog := List (Entry Cluster Noted)

namespace Platform

variable (P : Platform)

/-- The parties of `Platform.protocol`, with every tick on record. -/
def clocked : Protocol Cluster Noted Env (Admission × Mutation) where
  version c := c.generation
  work ρ c := (tickResult P.reconciler ρ c, [⟨ρ.now, tickResult P.reconciler ρ c⟩])
  write := P.edit

/-- The state after a run on a cluster that began with the row `c`. -/
def clockedRun (c : Cluster) (is : Inputs) : State Cluster Noted :=
  TransitionSystem.run P.clocked.step { row := c } is

/-- Every step of the run meets the condition `C` where it is taken. -/
def ClockedAlong (C : State Cluster Noted → Input Env (Admission × Mutation) → Prop) (c : Cluster)
    (is : Inputs) : Prop :=
  TransitionSystem.Along P.clocked.step C { row := c } is

instance (C : State Cluster Noted → Input Env (Admission × Mutation) → Prop)
    [∀ s i, Decidable (C s i)] (c : Cluster) (is : Inputs) : Decidable (P.ClockedAlong C c is) :=
  TransitionSystem.Along.decidable _ C _ is

end Platform

def lastTick : ClockLog → Option Time
  | [] => none
  | .did _ note :: _ => some note.now
  | _ :: log => lastTick log

/-- **The last completed defragmentation**: a tick in that phase returned. -/
def lastDefrag : ClockLog → Option Time
  | [] => none
  | .did row note :: log =>
    if row.phase = .defragmentingEtcd ∧ note.result.isSome then some note.now else lastDefrag log
  | _ :: log => lastDefrag log

/-! ### What a defragmentation rests on -/

/-- **A tick that goes for a defragmentation may do so**: the status it just observed has all
members, and without an alarm the instant is in the window, the store large and fragmented enough,
and the last defragmentation long enough ago. -/
def DefragAllowed (p : EtcdDefragPolicy) : Entry Cluster Noted → ClockLog → Prop
  | .did row ⟨now, some c'⟩, earlier =>
    row.phase ≠ .defragmentingEtcd → c'.phase = .defragmentingEtcd →
      ∃ st ∈ c'.etcd, row.controlPlaneCount ≤ st.members ∧
        (st.hasAlarm etcdAlarmNoSpace = false →
          p.window.allows now = true ∧ p.minBytes ≤ st.dbBytes ∧
          p.minRatio ≤ st.fragmentationRatio ∧
          ∀ d ∈ lastDefrag earlier, p.minInterval ≤ now - d)
  | _, _ => True

instance (p : EtcdDefragPolicy) (e log) : Decidable (DefragAllowed p e log) := by
  rcases e with ⟨_, _, _ | _⟩ | _ <;> unfold DefragAllowed <;> infer_instance

/-- The clock of a tick, and what it carries out. -/
structure InDueTime (p : EtcdDefragPolicy) (s : State Cluster Noted) (ρ : Env) : Prop where
  /-- Time does not run backwards. -/
  forward : ∀ t ∈ lastTick s.log, t ≤ ρ.now
  /-- A defragmentation is stamped with the clock. -/
  stamped : s.row.phase = .defragmentingEtcd → ρ.defragged.defraggedAt = some ρ.now
  /-- **A restore comes no sooner** after a defragmentation than another one might. -/
  restore : s.row.phase = .repairing → s.row.repairState.action = some .restore →
    ∀ d ∈ lastDefrag s.log, p.minInterval ≤ ρ.now - d

instance (p : EtcdDefragPolicy) (s : State Cluster Noted) (ρ : Env) :
    Decidable (InDueTime p s ρ) :=
  decidable_of_iff ((∀ t ∈ lastTick s.log, t ≤ ρ.now) ∧
      (s.row.phase = .defragmentingEtcd → ρ.defragged.defraggedAt = some ρ.now) ∧
      (s.row.phase = .repairing → s.row.repairState.action = some .restore →
        ∀ d ∈ lastDefrag s.log, p.minInterval ≤ ρ.now - d))
    ⟨fun h => ⟨h.1, h.2.1, h.2.2⟩, fun h => ⟨h.forward, h.stamped, h.restore⟩⟩

/-- The condition on the steps of a run. -/
def RestoresInDueTime (p : EtcdDefragPolicy) (s : State Cluster Noted) :
    Input Env (Admission × Mutation) → Prop
  | .tick ρ => InDueTime p s ρ
  | _ => True

instance (p : EtcdDefragPolicy) (s : State Cluster Noted) (i) :
    Decidable (RestoresInDueTime p s i) :=
  match i with
  | .tick _ | .finish | .abandon | .write _ => by unfold RestoresInDueTime; infer_instance

theorem defragDue_eq_true {p : EtcdDefragPolicy} {st : EtcdStatus} {members : ℤ} {now : Time}
    (h : p.defragDue st members now = true) :
    members ≤ st.members ∧ (st.hasAlarm etcdAlarmNoSpace = false →
      p.window.allows now = true ∧ p.minBytes ≤ st.dbBytes ∧ p.minRatio ≤ st.fragmentationRatio ∧
      ∀ d ∈ st.defraggedAt, p.minInterval ≤ now - d) := by
  unfold EtcdDefragPolicy.defragDue at h
  split at h
  · simp at h
  split at h
  · simp at h
  split at h
  · simp at h
  rename_i hmembers
  refine ⟨Int.not_lt.mp hmembers, fun halarm => ?_⟩
  rw [if_neg (by simp [halarm])] at h
  split at h
  · simp at h
  rename_i hbytes
  split at h
  · simp at h
  rename_i hratio
  split at h
  · simp at h
  rename_i hinterval
  refine ⟨h, Int.not_lt.mp hbytes, Rat.not_lt.mp hratio, fun d hd => ?_⟩
  rw [Option.mem_def.mp hd] at hinterval
  simpa using hinterval

/-! ### Over runs -/

section Runs

variable {P : Platform}

/-- **What is known of the last defragmentation**, unless one is under way or the cluster is being
deleted: the status has it, or it is long enough ago. -/
def Remembered (p : EtcdDefragPolicy) (c : Cluster) (log : ClockLog) : Prop :=
  c.phase = .defragmentingEtcd ∨ c.phase.closing ∨
    ∀ d ∈ lastDefrag log, c.etcd.bind (·.defraggedAt) = some d ∨
      ∃ t ∈ lastTick log, p.minInterval ≤ t - d

structure DefragInv (p : EtcdDefragPolicy) (c : Cluster) (log : ClockLog) : Prop where
  controlPlanes : 0 < c.controlPlanes
  remembered : Remembered p c log
  allowed : Each (DefragAllowed p) log

private theorem observeEtcd_defraggedAt {ρ : Env} {c : Cluster} {d : Time}
    (h : c.etcd.bind (·.defraggedAt) = some d) : (observeEtcd ρ c).defraggedAt = some d := by
  obtain ⟨st, hst, hd⟩ := Option.bind_eq_some_iff.mp h
  simp only [observeEtcd, hst, hd]

variable {p : EtcdDefragPolicy} {s : State Cluster Noted} {ρ : Env}

private theorem InDueTime.elapsed (h : InDueTime p s ρ) {d : Time}
    (hd : ∃ t ∈ lastTick s.log, p.minInterval ≤ t - d) : p.minInterval ≤ ρ.now - d := by
  obtain ⟨t, ht, hle⟩ := hd
  have hforward : t ≤ ρ.now := h.forward t ht
  exact hle.trans (Int.sub_le_sub_right hforward d)

private theorem controlPlaneCount_eq {c : Cluster} (h : 0 < c.controlPlanes) :
    c.controlPlaneCount = c.controlPlanes := by
  rw [Cluster.controlPlaneCount, if_pos h]

/-- **A tick that goes for a defragmentation** may do so. -/
private theorem DefragInv.tick_allowed (hinv : DefragInv P.reconciler.etcdPolicy s.row s.log)
    (hdue : InDueTime P.reconciler.etcdPolicy s ρ) :
    DefragAllowed P.reconciler.etcdPolicy
      (.did s.row ⟨ρ.now, tickResult P.reconciler ρ s.row⟩) s.log := by
  cases hres : tickResult P.reconciler ρ s.row with
  | none => trivial
  | some c' =>
    intro hphase hmove
    cases etcdTick hres with
    | kept _ hphase' => exact absurd hmove hphase'
    | defragged => simp at hmove
    | restored _ _ hphase' => simp [hphase'] at hmove
    | observed hready =>
      have hgo : P.reconciler.etcdPolicy.defragDue (observeEtcd ρ s.row) s.row.controlPlanes
          ρ.now = true := by
        by_contra hnot
        rw [if_neg hnot] at hmove
        exact hphase hmove
      obtain ⟨hmembers, hrest⟩ := defragDue_eq_true hgo
      refine ⟨_, rfl, by rwa [controlPlaneCount_eq hinv.controlPlanes], fun halarm => ?_⟩
      obtain ⟨hwindow, hbytes, hratio, hinterval⟩ := hrest halarm
      refine ⟨hwindow, hbytes, hratio, fun d hd => ?_⟩
      rcases hinv.remembered with hbusy | hclosing | hknown
      · exact absurd hbusy hphase
      · simp [hready, Phase.closing] at hclosing
      rcases hknown d hd with hrecord | hlong
      · exact hinterval d (observeEtcd_defraggedAt hrecord)
      · exact hdue.elapsed hlong

/-- After a tick that defragmented nothing, what was long ago is, and what the row still has of the
last defragmentation is known. -/
private theorem Remembered.tick (note : Noted) {c' : Cluster}
    (hnow : ∀ d, (∃ t ∈ lastTick s.log, p.minInterval ≤ t - d) → p.minInterval ≤ note.now - d)
    (hphase : s.row.phase ≠ .defragmentingEtcd) (hend : s.row.phase.closing → c'.phase.closing)
    (hkeep : ∀ d, s.row.etcd.bind (·.defraggedAt) = some d →
      c'.etcd.bind (·.defraggedAt) = some d) (h : Remembered p s.row s.log) {e : ClockLog}
    (hlast : lastDefrag e = lastDefrag s.log) (htick : lastTick e = some note.now) :
    Remembered p c' e := by
  rcases h with hbusy | hclosing | hknown
  · exact absurd hbusy hphase
  · exact .inr (.inl (hend hclosing))
  · refine .inr (.inr fun d hd => ?_)
    rw [hlast] at hd
    rw [htick]
    rcases hknown d hd with hrecord | hlong
    · exact .inl (hkeep d hrecord)
    · exact .inr ⟨note.now, rfl, hnow d hlong⟩

private theorem DefragInv.tick_stored (hinv : DefragInv P.reconciler.etcdPolicy s.row s.log)
    (hdue : InDueTime P.reconciler.etcdPolicy s ρ) {c' : Cluster}
    (hres : tickResult P.reconciler ρ s.row = some c') :
    Remembered P.reconciler.etcdPolicy c' (.stored s.row c' ::
      .did s.row ⟨ρ.now, tickResult P.reconciler ρ s.row⟩ :: s.log) := by
  have hlast (hphase : s.row.phase ≠ .defragmentingEtcd) : lastDefrag (.stored s.row c' ::
      .did s.row ⟨ρ.now, tickResult P.reconciler ρ s.row⟩ :: s.log) = lastDefrag s.log :=
    if_neg fun h => hphase h.1
  cases etcdTick hres with
  | kept hphase _ hetcd hend =>
    exact .tick ⟨ρ.now, none⟩ (fun d => hdue.elapsed) hphase hend
      (fun d hd => hetcd ▸ hd) hinv.remembered (hlast hphase) rfl
  | observed hready =>
    have hphase : s.row.phase ≠ .defragmentingEtcd := by simp [hready]
    refine .tick ⟨ρ.now, none⟩ (fun d => hdue.elapsed) hphase
      (by simp [hready, Phase.closing]) ?_ hinv.remembered (hlast hphase) rfl
    intro d hd
    exact observeEtcd_defraggedAt hd
  | defragged hphase =>
    refine .inr (.inr fun d hd => .inl ?_)
    have hd' : (if s.row.phase = .defragmentingEtcd ∧ (tickResult P.reconciler ρ s.row).isSome
        then some ρ.now else lastDefrag s.log) = some d := hd
    rw [if_pos ⟨hphase, by rw [hres]; rfl⟩] at hd'
    exact (hdue.stamped hphase).trans hd'
  | restored hphase hact =>
    have hne : s.row.phase ≠ .defragmentingEtcd := by simp [hphase]
    refine .inr (.inr fun d hd => .inr ⟨ρ.now, rfl, ?_⟩)
    rw [hlast hne] at hd
    exact hdue.restore hphase hact d hd

private theorem DefragInv.edit {a : App} {m : Mutation} {c c' : Cluster} {log : ClockLog}
    (h : Edit a c m c') (hinv : DefragInv p c log) : DefragInv p c' (.written c c' :: log) := by
  obtain ⟨hcps, hrem, hallowed⟩ := hinv
  refine ⟨?_, ?_, trivial, hallowed⟩
  · cases h <;> exact hcps
  · cases h with
    | delete => exact .inr (.inl (by simp [Phase.closing]))
    | _ => exact hrem

/-- **Defragmentations rest on what the policy asks for**, in every run in which a restore comes no
sooner after one than the minimal interval. -/
theorem defragAllowed_of_restoresInDueTime (P : Platform) (c : Cluster) (is : Platform.Inputs)
    (hcps : 0 < c.controlPlanes)
    (hdue : P.ClockedAlong (RestoresInDueTime P.reconciler.etcdPolicy) c is) :
    Each (DefragAllowed P.reconciler.etcdPolicy) (P.clockedRun c is).log := by
  have hinit : DefragInv P.reconciler.etcdPolicy c [] :=
    ⟨hcps, .inr (.inr fun d hd => by simp [lastDefrag] at hd), trivial⟩
  refine (Protocol.run_invariant (P := DefragInv P.reconciler.etcdPolicy) ?_ ?_ ?_ ?_ hinit rfl
    hdue).allowed
  · intro k c c' hc'
    have hgen := (Platform.edit_eq_some hc').generation
    exact Nat.lt_of_lt_of_eq (Nat.lt_succ_self _) hgen.symm
  · intro ρ c c' hc'
    have hstep := tickStep P.reconciler ρ c
    rw [show tickResult P.reconciler ρ c = some c' from hc'] at hstep
    exact hstep.sameDesire.generation
  · intro s ρ hinv hidle hcond
    have hallowed := hinv.tick_allowed hcond
    refine ⟨⟨hinv.controlPlanes, ?_, hallowed, hinv.allowed⟩, fun c' hc' => ?_⟩
    · by_cases hphase : s.row.phase = .defragmentingEtcd
      · exact .inl hphase
      · exact .tick ⟨ρ.now, none⟩ (fun d => hcond.elapsed) hphase id (fun _ => id)
          hinv.remembered (if_neg fun h => hphase h.1) rfl
    · have hstep := tickStep P.reconciler ρ s.row
      rw [show tickResult P.reconciler ρ s.row = some c' from hc'] at hstep
      refine ⟨?_, hinv.tick_stored hcond hc', trivial, hallowed, hinv.allowed⟩
      rw [hstep.sameDesire.controlPlanes]
      exact hinv.controlPlanes
  · intro s k c' hinv _ hc'
    exact hinv.edit (Platform.edit_eq_some hc')

end Runs

/-! ### A control plane lost after a defragmentation -/

/-- The deployment that repairs, with the default policy of etcd maintenance. -/
def maintainingPlatform : Platform where
  app := repairingPlatform.app
  reconciler := { repairingPlatform.reconciler with
    etcdPolicy :=
      { enabled := true, observeInterval := 6 * .hour, minRatio := 45 / 100,
        minBytes := 100 * 2 ^ 20, minInterval := 24 * .hour } }
  same := rfl

def fragmented (now : Time) : Env where
  now := now
  etcdStatus :=
    { dbBytes := 400 * 2 ^ 20, dbInUseBytes := 200 * 2 ^ 20, members := 1, observedAt := some now }

def compacted (now : Time) : Env where
  now := now
  defragged :=
    { dbBytes := 200 * 2 ^ 20, dbInUseBytes := 200 * 2 ^ 20, members := 1, observedAt := some now,
      defraggedAt := some now }

/-- A new cluster is found healthy, and its store is defragmented. -/
def defragRun : Platform.Inputs :=
  bringUpRun ++ pass {} ++ pass (fragmented Duration.minute) ++
    pass (compacted (2 * Duration.minute))

def dailyRun : Platform.Inputs :=
  defragRun ++ pass (fragmented (25 * Duration.hour)) ++ pass (fragmented (25 * Duration.hour))

theorem defragAllowed_dailyRun :
    maintainingPlatform.ClockedAlong
        (RestoresInDueTime maintainingPlatform.reconciler.etcdPolicy) demoCluster dailyRun ∧
      (maintainingPlatform.clockedRun demoCluster dailyRun).row.phase = .defragmentingEtcd ∧
      Each (DefragAllowed maintainingPlatform.reconciler.etcdPolicy)
        (maintainingPlatform.clockedRun demoCluster dailyRun).log := by
  have hdue : maintainingPlatform.ClockedAlong
      (RestoresInDueTime maintainingPlatform.reconciler.etcdPolicy) demoCluster dailyRun := by
    decide +kernel
  exact ⟨hdue, by decide +kernel, defragAllowed_of_restoresInDueTime maintainingPlatform demoCluster
    dailyRun (by decide) hdue⟩

/-- The control plane is lost after the defragmentation and restored, and the store observed. -/
def lossAfterDefragRun : Platform.Inputs :=
  defragRun ++ pass (controlPlaneOff (3 * Duration.minute)) ++
    pass { now := 3 * Duration.minute } ++ pass (controlPlaneOff (43 * Duration.minute)) ++
    pass { backedUp with now := 44 * Duration.minute } ++ pass (fragmented (44 * Duration.minute))

/-- **The cluster goes for a second defragmentation within the hour**, though the interval is a
day. -/
theorem defragged_again :
    Created maintainingPlatform.app.catalog demoCluster ∧
      lastDefrag (maintainingPlatform.clockedRun demoCluster lossAfterDefragRun).log =
        some (2 * Duration.minute) ∧
      (maintainingPlatform.clockedRun demoCluster lossAfterDefragRun).row.phase =
        .defragmentingEtcd ∧
      ¬Each (DefragAllowed maintainingPlatform.reconciler.etcdPolicy)
        (maintainingPlatform.clockedRun demoCluster lossAfterDefragRun).log :=
  ⟨created_demoCluster _ _, by decide +kernel, by decide +kernel, by decide +kernel⟩

end KaaS
