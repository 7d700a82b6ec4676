import KaaS.System.Changes

/-!
# Progress that gets undone

The reconciler records in the row what it has made: the nodes, the wired markers, the repair
record, etcd's status, the times of certificates, snapshots and robot accounts, the device of
every disk; and it drops the rows of disks and add-ons it has removed. Nothing guards these
against the API. A call writes back the whole row it read, so whatever a tick has stored in
the meantime is undone, and the lock some calls take does not help, since no tick takes it.

If no tick has been stored between the read of a call and its write (`NoTickSince`), the row
always shows what the latest stored tick recorded (`progressKept_of_noTickSince`).
-/

namespace KaaS

open Overlap

/-! ### The property -/

/-- What the reconciler records of its own. -/
structure Observations where
  nodes : List Node
  monitoringWired : Bool
  gatewayWired : Bool
  dnsWired : Bool
  vaultWired : Bool
  registryWired : Bool
  storageWired : String
  repair : Option ClusterRepair
  etcd : Option EtcdStatus
  certNotAfter : Option Time
  etcdSnapshotAt : Option Time
  registryRobotNotAfter : Option Time
  deriving DecidableEq

def Cluster.observations (c : Cluster) : Observations where
  nodes := c.nodes
  monitoringWired := c.monitoringWired
  gatewayWired := c.gatewayWired
  dnsWired := c.dnsWired
  vaultWired := c.vaultWired
  registryWired := c.registryWired
  storageWired := c.storageWired
  repair := c.repair
  etcd := c.etcd
  certNotAfter := c.certNotAfter
  etcdSnapshotAt := c.etcdSnapshotAt
  registryRobotNotAfter := c.registryRobotNotAfter

def Cluster.hasDisk (key : String × String) (c : Cluster) : Bool :=
  c.nodeDisks.any (·.key == key)

def Cluster.hasAddon (name : String) (c : Cluster) : Bool := c.addons.any (·.name == name)

/-- The row the latest tick stored; `c₀` if none has yet. -/
def latestTick (c₀ : Cluster) : RowHistory → Cluster
  | [] => c₀
  | .wrote ⟨_, .worker _, _, _⟩ _ new :: _ => new
  | _ :: log => latestTick c₀ log

/-- A mutation has added it since the latest stored tick. -/
def addedSince (has : Cluster → Bool) : RowHistory → Bool
  | [] => false
  | .wrote ⟨_, .worker _, _, _⟩ _ _ :: _ => false
  | .wrote ⟨_, .caller _, copy, _⟩ _ new :: log => has new && !has copy || addedSince has log
  | .passed _ :: log => addedSince has log

/-- **The row shows the progress made**: what the latest stored tick recorded, and only disks and
add-ons that it left, or that were added since. -/
structure ProgressKept (c₀ row : Cluster) (log : RowHistory) : Prop where
  observed : row.observations = (latestTick c₀ log).observations
  disks : ∀ d ∈ row.nodeDisks,
    (∃ e ∈ (latestTick c₀ log).nodeDisks, e.key = d.key ∧ e.deviceID = d.deviceID) ∨
      addedSince (Cluster.hasDisk d.key) log = true
  addons : ∀ ad ∈ row.addons,
    (∃ e ∈ (latestTick c₀ log).addons, e.name = ad.name) ∨
      addedSince (Cluster.hasAddon ad.name) log = true

def storedTick : RowEntry → Bool
  | .wrote ⟨_, .worker _, _, _⟩ _ _ => true
  | _ => false

/-- **No tick since**: a call writes only if no tick has been stored since it read. -/
def NoTickSince (s : RowState) (f : RowFlight) : Prop :=
  match f.party with
  | .caller _ => ∀ e ∈ f.since s.log, storedTick e = false
  | .worker _ => True

instance (s : RowState) (f : RowFlight) : Decidable (NoTickSince s f) :=
  match f with
  | ⟨_, .worker _, _, _⟩ | ⟨_, .caller _, _, _⟩ => by unfold NoTickSince; infer_instance

/-! ### Calls keep the progress they have read -/

section Keeping

variable {a : App} {c₀ row c c' : Cluster} {log : RowHistory} {e : RowEntry}

private theorem latestTick_cons (he : storedTick e = false) :
    latestTick c₀ (e :: log) = latestTick c₀ log := by
  rcases e with ⟨⟨id, party, copy, mark⟩, old, new⟩ | f
  · cases party with
    | worker => cases he
    | caller => rfl
  · rfl

private theorem addedSince_cons {has : Cluster → Bool} (he : storedTick e = false)
    (h : addedSince has log = true) : addedSince has (e :: log) = true := by
  rcases e with ⟨⟨id, party, copy, mark⟩, old, new⟩ | f
  · cases party with
    | worker => cases he
    | caller => simp [addedSince, h]
  · exact h

private theorem ProgressKept.cons (h : ProgressKept c₀ c log) (he : storedTick e = false) :
    ProgressKept c₀ c (e :: log) := by
  refine ⟨?_, fun d hd => ?_, fun ad had => ?_⟩
  · rw [latestTick_cons he]
    exact h.observed
  · rw [latestTick_cons he]
    exact (h.disks d hd).imp_right (addedSince_cons he)
  · rw [latestTick_cons he]
    exact (h.addons ad had).imp_right (addedSince_cons he)

private theorem Edit.disk_from {m : Mutation} (h : Edit a c m c') {d : NodeDisk}
    (hd : d ∈ c'.nodeDisks) :
    (∃ e ∈ c.nodeDisks, e.key = d.key ∧ e.deviceID = d.deviceID) ∨ c.hasDisk d.key = false := by
  rcases h.mem_nodeDisks hd with hold | ⟨e, he, rfl⟩ | ⟨-, -, hfresh⟩
  · exact .inl ⟨d, hold, rfl, rfl⟩
  · exact .inl ⟨e, he, rfl, rfl⟩
  · refine .inr ?_
    simp only [Cluster.hasDisk, List.any_eq_false, beq_iff_eq]
    exact fun e he hkey => hfresh (hkey ▸ List.mem_map_of_mem he)

theorem Edit.observations {m : Mutation} (h : Edit a c m c') :
    c'.observations = c.observations := by
  cases h <;> rfl

/-- **A mutation keeps the progress it has read**, and accounts for what it adds. -/
private theorem ProgressKept.wrote {f : RowFlight} {k : Admission × Mutation} {m : Mutation}
    (h : ProgressKept c₀ f.copy log) (hparty : f.party = .caller k) (hedit : Edit a f.copy m c) :
    ProgressKept c₀ c (.wrote f row c :: log) := by
  obtain ⟨id, party, copy, mark⟩ := f
  obtain rfl : party = .caller k := hparty
  have hadded : ∀ {has : Cluster → Bool}, has c = true → has copy = false →
      addedSince has (.wrote ⟨id, .caller k, copy, mark⟩ row c :: log) = true := by
    intro has hnew hold
    simp [addedSince, hnew, hold]
  refine ⟨hedit.observations.trans h.observed, fun d hd => ?_, fun ad had => ?_⟩
  · rcases hedit.disk_from hd with ⟨e, he, hkey, hdev⟩ | hnew
    · refine (h.disks e he).imp ?_ fun hadd => addedSince_cons rfl (hkey ▸ hadd)
      rintro ⟨e', he', hkey', hdev'⟩
      exact ⟨e', he', hkey'.trans hkey, hdev'.trans hdev⟩
    · refine .inr (hadded ?_ hnew)
      exact List.any_eq_true.mpr ⟨d, hd, beq_self_eq_true _⟩
  · cases hold : copy.hasAddon ad.name with
    | false => exact .inr (hadded (List.any_eq_true.mpr ⟨ad, had, beq_self_eq_true _⟩) hold)
    | true =>
      obtain ⟨e, he, hname⟩ := List.any_eq_true.mp hold
      have hname := eq_of_beq hname
      exact hname ▸ (h.addons e he).imp_right (addedSince_cons rfl)

end Keeping

/-- **Progress is kept** in a run in which no tick is stored between the read of a call and its
write. -/
theorem progressKept_of_noTickSince (P : Platform) (c : Cluster) (is : Platform.Schedule)
    (h : P.CommitsAlong NoTickSince c is) :
    ProgressKept c (P.overlap c is).row (P.overlap c is).log := by
  refine Overlap.Protocol.run_invariant (C := NoTickSince) ?_ ?_ ?_ h
  · intro s f c' hrow _ hcopy hcond hattempt
    cases wrote_of_attempt hattempt with
    | tick ρ evs hparty hversion hstep =>
      obtain ⟨id, party, copy, mark⟩ := f
      obtain rfl : party = .worker ρ := hparty
      exact ⟨rfl, fun d hd => .inl ⟨d, hd, rfl, rfl⟩, fun ad had => .inl ⟨ad, had, rfl⟩⟩
    | call k hparty hedit =>
      simp only [NoTickSince, hparty] at hcond
      have hnow : ProgressKept c f.copy s.log :=
        Flight.now (p := ProgressKept c f.copy) (fun _ _ he h => h.cons he) hcond hcopy
      exact hnow.wrote hparty hedit
  · intro s f hrow _ _ _ _
    exact hrow.cons rfl
  · exact ⟨rfl, fun d hd => .inl ⟨d, hd, rfl, rfl⟩, fun ad had => .inl ⟨ad, had, rfl⟩⟩

/-- A disk is added to a running cluster between two ticks. -/
def diskBetweenTicks : Platform.Schedule :=
  bringUpSchedule ++ alone 1 (.caller ({}, .addNodeDisk demoDisk)) ++ alone 0 (.worker {})

theorem progressKept_diskBetweenTicks :
    rollingPlatform.CommitsAlong NoTickSince demoCluster diskBetweenTicks ∧
    (rollingPlatform.overlap demoCluster diskBetweenTicks).row.phase = .updating ∧
    ProgressKept demoCluster (rollingPlatform.overlap demoCluster diskBetweenTicks).row
      (rollingPlatform.overlap demoCluster diskBetweenTicks).log := by
  have hcond : rollingPlatform.CommitsAlong NoTickSince demoCluster diskBetweenTicks := by
    decide +kernel
  exact ⟨hcond, by decide +kernel,
    progressKept_of_noTickSince rollingPlatform demoCluster diskBetweenTicks hcond⟩

/-- The machines are created while an edit of the pools is under way. -/
def editDuringProvisioning : Platform.Schedule :=
  alone 0 (.worker {}) ++ calls 1 (.updateCluster { nodePools := some (demoPools 3) }) ++
    alone 0 (.worker {}) ++ commits 1

/-- The edit stores the row as it was before there were any nodes. -/
theorem progress_undone :
    Created rollingPlatform.app.catalog demoCluster ∧
    ¬ProgressKept demoCluster (rollingPlatform.overlap demoCluster editDuringProvisioning).row
      (rollingPlatform.overlap demoCluster editDuringProvisioning).log := by
  refine ⟨created_demoCluster _ _, fun h => ?_⟩
  have hnodes : (rollingPlatform.overlap demoCluster editDuringProvisioning).row.observations ≠
      (latestTick demoCluster
        (rollingPlatform.overlap demoCluster editDuringProvisioning).log).observations := by
    decide +kernel
  exact hnodes h.observed

end KaaS
