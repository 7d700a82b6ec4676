import KaaS.Reconcile.Loop

/-!
# The job queue

Ticks are jobs of a queue in the database. Every second each replica selects the clusters with work
and inserts a job for each, **unless one is active already**: waiting, running, or put off after a
failure. A cluster that is to be deleted does not wait for the end of a backoff: its job is pulled
forward.

The selection asks the store, and the tick then asks the row again. The two tests differ at one
instant: the store compares strictly, so a cluster that is due exactly now is selected a moment
later.
-/

namespace KaaS

open Effect

/-! ### The clusters with work -/

def Cluster.needsWork (c : Cluster) : Bool :=
  !c.phase.terminal && (c.phase != .ready || c.observedGeneration != c.generation)

/-- The store's scans for what the clock asks for: converged, and last seen before `cutoff`. -/
def Cluster.dueBefore (c : Cluster) (seen : Option Time) (cutoff : Time) : Bool :=
  c.converged && seen.all fun t => decide (t < cutoff)

/-- Add those that are not there yet. -/
def addDue (clusters due : List Cluster) : List Cluster :=
  due.foldl (fun cs c => if c.id ∈ cs.map (·.id) then cs else cs ++ [c]) clusters

/-- Each scan, with the switch that turns it on. -/
def Reconciler.scans (r : Reconciler) (now : Time) : List (Bool × (Cluster → Bool)) :=
  [(decide (r.certRenewWindow > 0), (·.certRenewalDue (now + r.certRenewWindow))),
    (r.etcdPolicy.enabled, fun c =>
      c.dueBefore (c.etcd.bind (·.observedAt)) (now - r.etcdPolicy.observeInterval)),
    (r.snapshotPolicy.enabled, fun c =>
      c.dueBefore c.etcdSnapshotAt (now - r.snapshotPolicy.interval)),
    (r.repairPolicy.enabled, fun c =>
      c.dueBefore (c.repair.bind (·.observedAt)) (now - r.repairPolicy.observeInterval))]

def Reconciler.clustersNeedingWork (r : Reconciler) (now : Time) (rows : List Cluster) :
    List Cluster :=
  (r.scans now).foldl (fun cs scan => if scan.1 then addDue cs (rows.filter scan.2) else cs)
    (rows.filter (·.needsWork))

/-- What the tick finds to do: the tests of `reconcileReady`, in its order. -/
def Reconciler.hasWork (r : Reconciler) (now : Time) (c : Cluster) : Bool :=
  c.needsWork || c.repairDue r.repairPolicy now ||
    (decide (r.certRenewWindow > 0) && c.certRenewalDue (now + r.certRenewWindow)) ||
    c.etcdSnapshotDue r.snapshotPolicy now || c.etcdMaintenanceDue r.etcdPolicy now

section Selection

variable {r : Reconciler} {now : Time} {c : Cluster} {clusters due rows : List Cluster}

private theorem mem_addDue (hids : (rows.map (·.id)).Nodup) (hsub : clusters ⊆ rows)
    (hdue : due ⊆ rows) : c ∈ addDue clusters due ↔ c ∈ clusters ∨ c ∈ due := by
  induction due generalizing clusters with
  | nil => simp [addDue]
  | cons d due ih =>
    obtain ⟨hd, hrest⟩ := List.cons_subset.mp hdue
    rw [show addDue clusters (d :: due) = addDue (if d.id ∈ clusters.map (·.id) then clusters
      else clusters ++ [d]) due from rfl]
    split
    · -- ids are keys: what is there under this id is this cluster
      rename_i hthere
      obtain ⟨x, hx, hid⟩ := List.mem_map.mp hthere
      obtain rfl := List.inj_on_of_nodup_map hids (hsub hx) hd hid
      have : c = x → c ∈ clusters := fun h => h ▸ hx
      rw [ih hsub hrest, List.mem_cons]
      tauto
    · rw [ih (List.append_subset.mpr ⟨hsub, by simpa using hd⟩) hrest]
      simp [or_assoc]

private theorem mem_foldl_scans (hids : (rows.map (·.id)).Nodup) (hsub : clusters ⊆ rows)
    (scans : List (Bool × (Cluster → Bool))) :
    c ∈ scans.foldl (fun cs scan => if scan.1 then addDue cs (rows.filter scan.2) else cs)
        clusters ↔ c ∈ clusters ∨ c ∈ rows ∧ ∃ scan ∈ scans, scan.1 = true ∧ scan.2 c = true := by
  induction scans generalizing clusters with
  | nil => simp
  | cons scan scans ih =>
    have hfilter : rows.filter scan.2 ⊆ rows := List.filter_sublist.subset
    rw [List.foldl_cons]
    cases hon : scan.1 with
    | false => simp [ih hsub, hon]
    | true =>
      have hmem (x : Cluster) := mem_addDue (c := x) hids hsub hfilter
      rw [if_pos rfl, ih fun x hx => ((hmem x).mp hx).elim (hsub ·) (hfilter ·), hmem]
      simp only [List.mem_filter, List.exists_mem_cons_iff, hon, true_and]
      tauto

theorem mem_clustersNeedingWork (hids : (rows.map (·.id)).Nodup) :
    c ∈ r.clustersNeedingWork now rows ↔ c ∈ rows ∧ (c.needsWork = true ∨
      ∃ scan ∈ r.scans now, scan.1 = true ∧ scan.2 c = true) := by
  rw [Reconciler.clustersNeedingWork, mem_foldl_scans hids List.filter_sublist.subset]
  simp only [List.mem_filter]
  tauto

/-- The store's test and the tick's, of the same record. -/
private theorem due_iff {seen : Option Time} {interval : Duration} :
    (seen.all (fun t => decide (t < now - interval)) = true →
      seen.all (fun t => decide (now - t ≥ interval)) = true) ∧
    (seen.all (fun t => decide (now - t ≥ interval)) = true →
      ∀ later > now, seen.all (fun t => decide (t < later - interval)) = true) := by
  cases seen with
  | none => simp
  | some t =>
    simp only [Option.all_some, decide_eq_true_eq]
    have hint : ∀ t now later interval : ℤ, (t < now - interval → now - t ≥ interval) ∧
        (now - t ≥ interval → later > now → t < later - interval) := by omega
    exact ⟨(hint t now now interval).1, fun h later => (hint t now later interval).2 h⟩

private theorem hasWork_of_clustersNeedingWork (hids : (rows.map (·.id)).Nodup) (hc : c ∈ rows) :
    (c ∈ r.clustersNeedingWork now rows → r.hasWork now c = true) ∧
      (r.hasWork now c = true → ∀ later > now, c ∈ r.clustersNeedingWork later rows) := by
  have hetcd : r.etcdPolicy.observationDue c.etcd now = (r.etcdPolicy.enabled &&
      (c.etcd.bind (·.observedAt)).all fun t =>
        decide (now - t ≥ r.etcdPolicy.observeInterval)) := by
    unfold EtcdDefragPolicy.observationDue
    cases c.etcd.bind (·.observedAt) <;> rfl
  have hsnap : r.snapshotPolicy.snapshotDue c.etcdSnapshotAt now = (r.snapshotPolicy.enabled &&
      c.etcdSnapshotAt.all fun t => decide (now - t ≥ r.snapshotPolicy.interval)) := by
    unfold EtcdSnapshotPolicy.snapshotDue
    cases c.etcdSnapshotAt <;> rfl
  have hrepair : r.repairPolicy.repairObservationDue c.repair now = (r.repairPolicy.enabled &&
      (c.repair.bind (·.observedAt)).all fun t =>
        decide (now - t ≥ r.repairPolicy.observeInterval)) := by
    unfold RepairPolicy.repairObservationDue
    cases c.repair.bind (·.observedAt) <;> rfl
  have hcert (later : Time) (hlater : later > now)
      (h : c.certRenewalDue (now + r.certRenewWindow) = true) :
      c.certRenewalDue (later + r.certRenewWindow) = true := by
    unfold Cluster.certRenewalDue at h ⊢
    cases hseen : c.certNotAfter with
    | none => simpa [hseen] using h
    | some t =>
      simp only [hseen, Bool.and_eq_true, decide_eq_true_eq] at h ⊢
      exact ⟨h.1, h.2.trans (add_lt_add_left hlater _)⟩
  simp only [mem_clustersNeedingWork hids, hc, true_and, Reconciler.hasWork, Reconciler.scans,
    Cluster.repairDue, Cluster.etcdSnapshotDue, Cluster.etcdMaintenanceDue, Cluster.dueBefore,
    hetcd, hsnap, hrepair, Bool.or_eq_true, Bool.and_eq_true, List.exists_mem_cons_iff]
  constructor
  · rintro (h | ⟨hon, h⟩ | ⟨hon, hready, h⟩ | ⟨hon, hready, h⟩ | ⟨hon, hready, h⟩ | h)
    · simp [h]
    · simp [hon, h]
    · simp [hon, hready, due_iff.1 h]
    · simp [hon, hready, due_iff.1 h]
    · simp [hon, hready, due_iff.1 h]
    · simp at h
  · rintro ((((h | ⟨hready, hon, h⟩) | ⟨hon, h⟩) | ⟨hready, hon, h⟩) | ⟨hready, hon, h⟩)
      later hlater
    · exact .inl h
    · exact .inr (.inr (.inr (.inr (.inl ⟨hon, hready, due_iff.2 h later hlater⟩))))
    · exact .inr (.inl ⟨hon, hcert later hlater h⟩)
    · exact .inr (.inr (.inr (.inl ⟨hon, hready, due_iff.2 h later hlater⟩)))
    · exact .inr (.inr (.inl ⟨hon, hready, due_iff.2 h later hlater⟩))

private theorem tick_idle {ρ : Env} (h : r.hasWork ρ.now c = false)
    (hpending : c.upgradePending = false) (hviewer : ρ.viewerMissing = false) :
    tickResult r ρ c = some c ∧ tickTrace r ρ c = [] := by
  simp only [Reconciler.hasWork, Bool.or_eq_false_iff, Bool.and_eq_false_iff,
    decide_eq_false_iff_not] at h
  obtain ⟨⟨⟨⟨hneeds, hrepair⟩, hcert⟩, hsnap⟩, hetcd⟩ := h
  have hcert' : ¬(r.certRenewWindow > 0 ∧ c.certRenewalDue (certRenewCutoff r ρ) = true) := by
    rintro ⟨hon, hdue⟩
    exact hcert.elim (fun h => h hon) fun h => by simp [certRenewCutoff, h] at hdue
  have hrun : wp (reconcileOne r ρ) (fun _ s => s = { c := c }) (fun _ _ => False) { c := c } := by
    simp only [reconcileOne, wp_bind, wp_getCluster]
    cases hphase : c.phase <;> simp [Cluster.needsWork, hphase, Phase.terminal] at hneeds
    case ready =>
      simp [reconcileReady, ensureViewer, hviewer, hpending, hneeds, hrepair, hcert', hsnap, hetcd]
    all_goals rfl
  obtain ⟨s, htrace, -, ⟨hres, rfl⟩ | ⟨-, hfalse⟩⟩ := tick_of_wp hrun
  · exact ⟨hres, htrace⟩
  · exact hfalse.elim

/-- **The selection misses nothing**: a cluster that is selected has work, and for one that is not,
a tick at any instant before would have made no call and left the row. -/
theorem clustersNeedingWork_complete (hids : (rows.map (·.id)).Nodup) (hc : c ∈ rows) :
    (c ∈ r.clustersNeedingWork now rows → r.hasWork now c = true) ∧
      ∀ ρ : Env, ρ.now < now → c ∉ r.clustersNeedingWork now rows → c.upgradePending = false →
        ρ.viewerMissing = false → tickResult r ρ c = some c ∧ tickTrace r ρ c = [] := by
  refine ⟨(hasWork_of_clustersNeedingWork hids hc).1, fun ρ hlater hnot hpending hviewer => ?_⟩
  refine tick_idle (Bool.eq_false_iff.mpr fun hwork => ?_) hpending hviewer
  exact hnot ((hasWork_of_clustersNeedingWork hids hc).2 hwork now hlater)

end Selection

private def takesSnapshots : Reconciler :=
  { catalog := {}, snapshotPolicy := { enabled := true, interval := 10 } }

private def snapshotted : Cluster := { id := "1", phase := .ready, etcdSnapshotAt := some 0 }

theorem clustersNeedingWork_complete_snapshotted :
    tickTrace takesSnapshots { now := 9 } snapshotted = [] :=
  ((clustersNeedingWork_complete (by decide) (List.mem_singleton_self _)).2 _
    (by decide : (9 : Time) < 10)
    (fun h => absurd ((mem_clustersNeedingWork (by decide)).mp h).2 (by decide)) (by decide) rfl).2

/-! ### Jobs -/

inductive JobState
  | available | pending | running | retryable | scheduled | completed | discarded | cancelled
  deriving DecidableEq

/-- The states in which a job keeps others of its cluster out. -/
def uniqueActiveStates : List JobState := [.available, .pending, .running, .retryable, .scheduled]

structure Job where
  id : ℕ
  clusterID : String
  state : JobState := .available
  scheduledAt : Time
  deriving DecidableEq

namespace Job

def active (j : Job) : Bool := uniqueActiveStates.contains j.state

/-- The job waits for a later time. -/
def jobParkedInFuture (now : Time) (j : Job) : Bool :=
  (j.state == .retryable || j.state == .scheduled) && decide (j.scheduledAt > now)

/-- `JobRetry` of the queue, which leaves a running job alone. -/
def retry (now : Time) (j : Job) : Job :=
  if j.state = .running then j else { j with state := .available, scheduledAt := now }

end Job

/-- The answers of the database to one replica: which clusters' inserts and retries fail. -/
structure QueueErrors where
  insert : String → Bool := fun _ => false
  retry : String → Bool := fun _ => false

/-- The turn of one cluster in `enqueueDue`. -/
def enqueueOne (now : Time) (o : QueueErrors) (jobs : List Job) (c : Cluster) : List Job :=
  if o.insert c.id then jobs
  else match jobs.find? fun j => j.active && j.clusterID == c.id with
    | none => jobs ++ [{ id := jobs.length, clusterID := c.id, scheduledAt := now }]
    | some job =>
      if c.phase = .deleting ∧ job.jobParkedInFuture now = true ∧ o.retry c.id = false then
        jobs.map fun j => if j.id = job.id then j.retry now else j
      else jobs

def enqueueDue (r : Reconciler) (now : Time) (o : QueueErrors) (rows : List Cluster)
    (jobs : List Job) : List Job :=
  (r.clustersNeedingWork now rows).foldl (enqueueOne now o) jobs

/-- The cluster has an active job, which is not put off if the cluster is to be deleted. -/
def Served (now : Time) (c : Cluster) (jobs : List Job) : Prop :=
  ∃ j ∈ jobs, j.clusterID = c.id ∧ j.active = true ∧
    (c.phase = .deleting → j.jobParkedInFuture now = false)

section Queue

variable {r : Reconciler} {now : Time} {o : QueueErrors} {jobs : List Job} {c d : Cluster}

private theorem of_find_active {job : Job}
    (h : jobs.find? (fun j => j.active && j.clusterID == c.id) = some job) :
    job ∈ jobs ∧ job.active = true ∧ job.clusterID = c.id := by
  have hjob := List.find?_some h
  rw [Bool.and_eq_true, beq_iff_eq] at hjob
  exact ⟨List.mem_of_find?_eq_some h, hjob⟩

private theorem Job.retry_eq (j : Job) (now : Time) :
    (j.retry now).clusterID = j.clusterID ∧ (j.active = true → (j.retry now).active = true) ∧
      (j.retry now).jobParkedInFuture now = false := by
  unfold retry
  split
  · rename_i hrun
    simp [jobParkedInFuture, hrun]
  · simp [active, jobParkedInFuture, uniqueActiveStates]

private theorem Served.enqueueOne (h : Served now c jobs) :
    Served now c (enqueueOne now o jobs d) := by
  obtain ⟨j, hj, hid, hactive, hparked⟩ := h
  unfold KaaS.enqueueOne
  split
  · exact ⟨j, hj, hid, hactive, hparked⟩
  · split
    · exact ⟨j, List.mem_append_left _ hj, hid, hactive, hparked⟩
    · split
      · refine ⟨_, List.mem_map_of_mem hj, ?_⟩
        split
        · obtain ⟨hcluster, hkeeps, hfree⟩ := j.retry_eq now
          exact ⟨hcluster.trans hid, hkeeps hactive, fun _ => hfree⟩
        · exact ⟨hid, hactive, hparked⟩
      · exact ⟨j, hj, hid, hactive, hparked⟩

private theorem served_enqueueOne : Served now c (enqueueOne now {} jobs c) := by
  simp only [enqueueOne, Bool.false_eq_true, if_false, and_true]
  split
  · exact ⟨_, List.mem_append_right _ (List.mem_singleton_self _), rfl, rfl, fun _ => rfl⟩
  · rename_i job hjob
    obtain ⟨hmem, hactive, hid⟩ := of_find_active hjob
    split
    · refine ⟨_, List.mem_map_of_mem hmem, ?_⟩
      obtain ⟨hcluster, hkeeps, hfree⟩ := job.retry_eq now
      rw [if_pos rfl]
      exact ⟨hcluster.trans hid, hkeeps hactive, fun _ => hfree⟩
    · rename_i hnot
      exact ⟨job, hmem, hid, hactive, fun hdel => by simpa [hdel] using hnot⟩

end Queue

end KaaS
