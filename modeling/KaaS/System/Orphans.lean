import KaaS.Provision.Inventory
import KaaS.System.Live

/-!
# The orphan sweep

`GC` asks one provisioner after the other what it has and destroys what belongs to no live
cluster. The live clusters are read **once**, after the first provisioner has answered. So for
that one the order is right: what it has was in the store before, and what is not live in the
read is gone for good. The provisioners that come later answer after the read, and a cluster
created and built in between is not in it: the sweep destroys the machines of a live cluster.

`Orphans` adds the sweep to the fleet, in steps as small as its calls, and each step says which
cluster it destroys (`destroys`). If no later provisioner builds a cluster that the sweep has not
seen (`SeenBeforeBuilt`), only what has no live row is destroyed (`spares_of_seenBeforeBuilt`).
-/

namespace KaaS

open TransitionSystem

/-! ### The system -/

/-- Where a sweep stands: it asks the next provisioner, needs the live clusters, or goes through
what the provisioner has. -/
inductive GCStage
  | list
  | read (p : Nat) (managed : List String)
  | destroy (p : Nat) (live managed : List String)

/-- A sweep in progress: the provisioners to go and the clusters it has read. -/
structure GCSweep where
  left : List Nat
  clusters : Option (List Cluster) := none
  stage : GCStage := .list

structure Orphans where
  fleet : Fleet Inventory
  sweep : Option GCSweep := none

inductive OrphansInput
  | fleet (i : FleetInput)
  | startGC (order : List Nat)
  | listManaged (ok : Bool)
  | listClusters (ok : Bool)
  | destroyNext (ok : Bool)
  | endGC

/-- What a sweep runs on. An empty table is a nil slice with Postgres and an empty one in memory.
What the provisioners had before the first cluster is not of this platform. -/
structure GCSettings where
  platform : Platform
  dns : String → Except String String := fun _ => .ok ""
  provisioners : Provisioners := {}
  emptyIsNil : Bool := true
  foreign : Inventory := []

def liveIDs (clusters : List Cluster) : List String := (clusters.filter (·.live)).map (·.id)

namespace GCSettings

variable (G : GCSettings)

def deployment : Deployment Inventory where
  platform := G.platform
  admitDNS := G.dns
  effect := Inventory.effect G.provisioners

def foreignIDs : List String := G.foreign.map (·.2)

/-- New ids are not in use, in the store or elsewhere. -/
def fresh : FleetInput → Bool
  | .create _ adm _ => !G.foreignIDs.contains adm.id
  | _ => true

end GCSettings

namespace Orphans

section Step

variable (G : GCSettings)

def initial : Orphans := { fleet := .initial G.foreign }

def step (s : Orphans) : OrphansInput → Orphans
  | .fleet i => if G.fresh i then { s with fleet := G.deployment.step s.fleet i } else s
  | .startGC order =>
    if s.sweep.isNone && order.isPerm G.provisioners.provisioners then
      { s with sweep := some { left := order } }
    else s
  | .listManaged ok =>
    match s.sweep with
    | some ⟨p :: left, clusters, .list⟩ =>
      -- a provisioner that does not answer is skipped
      match if ok then s.fleet.world.listManaged p else [] with
      | [] => { s with sweep := some ⟨left, clusters, .list⟩ }
      | managed => { s with sweep := some ⟨left, clusters, .read p managed⟩ }
    | _ => s
  | .listClusters ok =>
    match s.sweep with
    | some ⟨left, some cs, .read p managed⟩ =>
      { s with sweep := some ⟨left, some cs, .destroy p (liveIDs cs) managed⟩ }
    | some ⟨left, none, .read p managed⟩ =>
      if ok then
        let clusters := if s.fleet.rows.isEmpty && G.emptyIsNil then none else some s.fleet.rows
        { s with sweep := some ⟨left, clusters, .destroy p (liveIDs s.fleet.rows) managed⟩ }
      else { s with sweep := none }
    | _ => s
  | .destroyNext ok =>
    match s.sweep with
    | some ⟨left, clusters, .destroy p live (id :: managed)⟩ =>
      let world := s.fleet.world
      { fleet := { s.fleet with
          world := if !live.contains id && ok then world.destroyCluster p id else world }
        sweep := some ⟨left, clusters, .destroy p live managed⟩ }
    | some ⟨left, clusters, .destroy _ _ []⟩ => { s with sweep := some ⟨left, clusters, .list⟩ }
    | _ => s
  | .endGC => { s with sweep := none }

end Step

/-- The cluster whose infrastructure the step asks a provisioner to destroy for the sweep. -/
def destroys (s : Orphans) : OrphansInput → Option (Nat × String)
  | .destroyNext _ =>
    match s.sweep with
    | some ⟨_, _, .destroy p live (id :: _)⟩ => if live.contains id then none else some (p, id)
    | _ => none
  | _ => none

def Gone (s : Orphans) (id : String) : Prop :=
  ∀ row ∈ s.fleet.rows, row.id = id → row.live = false

/-- **The step spares the living**: what it destroys for the sweep has no live row. -/
def Spares (s : Orphans) (i : OrphansInput) : Prop :=
  ∀ p id, s.destroys i = some (p, id) → s.Gone id

/-! ### The condition -/

/-- While a sweep has read the clusters, a provisioner it has still to ask builds only clusters
that were live in that read; and no deleted cluster comes back. -/
def SeenBeforeBuilt (G : GCSettings) (s : Orphans) : OrphansInput → Prop
  | .fleet (.work i ρ _) =>
    match s.fleet.flights[i]?, s.sweep with
    | some (.tick copy), some ⟨left, some cs, _⟩ =>
      G.provisioners.prov copy ∈ left → copy.id ∈ liveIDs cs ∨
        ∀ e ∈ tickTrace G.platform.reconciler ρ copy, e.call.builds = false
    | _, _ => True
  | .fleet i => s.fleet.NoResurrection i
  | _ => True

instance SeenBeforeBuilt.decidable (G : GCSettings) (s : Orphans) (i : OrphansInput) :
    Decidable (SeenBeforeBuilt G s i) := by
  unfold SeenBeforeBuilt
  repeat' split
  all_goals infer_instance

theorem SeenBeforeBuilt.noResurrection {G : GCSettings} {s : Orphans} {i : FleetInput}
    (h : SeenBeforeBuilt G s (.fleet i)) : s.fleet.NoResurrection i := by
  cases i with
  | work => trivial
  | _ => exact h

/-! ### The invariant -/

/-- The id has a row, or it is not of this platform. -/
def Known (G : GCSettings) (s : Orphans) (id : String) : Prop :=
  (∃ row ∈ s.fleet.rows, row.id = id) ∨ id ∈ G.foreignIDs

/-- Each id of `managed` is known, and it is in `live` if it is live. -/
def Covered (G : GCSettings) (s : Orphans) (live managed : List String) : Prop :=
  ∀ id ∈ managed, s.Known G id ∧ (id ∈ live ∨ s.Gone id)

/-- What a sweep has of a provisioner is known, and covered by the read once there is one. -/
def StageSound (G : GCSettings) (s : Orphans) (clusters : Option (List Cluster)) :
    GCStage → Prop
  | .list => True
  | .read _ managed =>
    (∀ id ∈ managed, s.Known G id) ∧ ∀ cs, clusters = some cs → s.Covered G (liveIDs cs) managed
  | .destroy _ live managed => s.Covered G live managed

/-- The read covers what the provisioners to go have. -/
structure SweepSound (G : GCSettings) (s : Orphans) (w : GCSweep) : Prop where
  left : ∀ cs, w.clusters = some cs → ∀ p ∈ w.left,
    s.Covered G (liveIDs cs) (s.fleet.world.listManaged p)
  stage : s.StageSound G w.clusters w.stage

structure Sound (G : GCSettings) (s : Orphans) : Prop where
  fleet : s.fleet.Sound G.deployment
  exclusive : s.fleet.Exclusive
  known : ∀ e ∈ s.fleet.world, s.Known G e.2
  foreign : ∀ row ∈ s.fleet.rows, row.id ∉ G.foreignIDs
  sweep : ∀ w, s.sweep = some w → s.SweepSound G w

section Invariant

variable {G : GCSettings} {s : Orphans} {live managed : List String}

theorem mem_liveIDs {cs : List Cluster} {id : String} :
    id ∈ liveIDs cs ↔ ∃ c ∈ cs, c.live = true ∧ c.id = id := by
  simp only [liveIDs, List.mem_map, List.mem_filter, and_assoc]

private theorem covered_rows (h : ∀ id ∈ managed, s.Known G id) :
    s.Covered G (liveIDs s.fleet.rows) managed := by
  intro id hid
  refine ⟨h id hid, ?_⟩
  by_cases hlive : id ∈ liveIDs s.fleet.rows
  · exact .inl hlive
  · right
    intro row hrow hrowid
    by_contra hne
    exact hlive (mem_liveIDs.2 ⟨row, hrow, by simpa using hne, hrowid⟩)

private theorem Covered.tail {id : String} (h : s.Covered G live (id :: managed)) :
    s.Covered G live managed := fun id' hid' => h id' (List.mem_cons_of_mem _ hid')

section FleetStep

variable {i : FleetInput} {t : Fleet Inventory}

private theorem Known.fleetStep {id : String} (h : s.Known G id)
    (hstep : FleetStep G.deployment s.fleet i t) : Known G { s with fleet := t } id := by
  rcases h with ⟨row, hrow, rfl⟩ | hforeign
  · left
    have hstore : ∀ x : Cluster, ∃ row' ∈ s.fleet.rows.map
        (fun r => if r.id = x.id then x else r), row'.id = row.id := by
      intro x
      refine ⟨_, List.mem_map_of_mem hrow, ?_⟩
      split
      · rename_i hid
        exact hid.symm
      · rfl
    cases hstep with
    | stays | registered | opened | userDeleted | worked => exact ⟨row, hrow, rfl⟩
    | created => exact ⟨row, List.mem_append_left _ hrow, rfl⟩
    | called | marked | ticked => exact hstore _
  · exact .inr hforeign

/-- **What is gone stays gone**: a live row is not new under a known id. -/
private theorem Gone.fleetStep (h : s.Sound G) {id : String} (hknown : s.Known G id)
    (hgone : s.Gone id) (hfresh : G.fresh i = true) (hcond : SeenBeforeBuilt G s (.fleet i))
    (hstep : FleetStep G.deployment s.fleet i t) : Gone { s with fleet := t } id := by
  rintro row hrow rfl
  by_contra hlive
  have hlive : row.live = true := by simpa using hlive
  cases live_step h.fleet h.exclusive hcond.noResurrection hstep hrow hlive with
  | kept _ hold holdlive hsame =>
    rw [hgone _ hold hsame.id.symm] at holdlive
    cases holdlive
  | @new j adm req actor hi hnew =>
    obtain ⟨hunused, hok⟩ := Deployment.admitNew_fresh hnew
    have hid : row.id = adm.id := (identity_of_createCluster hok).1
    rcases hknown with ⟨old, hold, holdid⟩ | hforeign
    · exact hunused old hold (holdid.trans hid)
    · rw [hid] at hforeign
      simp [GCSettings.fresh, hforeign] at hfresh

private theorem Covered.fleetStep (h : s.Sound G) (hcov : s.Covered G live managed)
    (hfresh : G.fresh i = true) (hcond : SeenBeforeBuilt G s (.fleet i))
    (hstep : FleetStep G.deployment s.fleet i t) :
    Covered G { s with fleet := t } live managed := by
  intro id hid
  obtain ⟨hknown, hlive⟩ := hcov id hid
  exact ⟨hknown.fleetStep hstep,
    hlive.imp_right fun hgone => hgone.fleetStep h hknown hfresh hcond hstep⟩

private theorem mem_world (h : s.Sound G) (hstep : FleetStep G.deployment s.fleet i t)
    {e : Nat × String} (he : e ∈ t.world) :
    e ∈ s.fleet.world ∨ ∃ j ρ n copy, i = .work j ρ n ∧
      s.fleet.flights[j]? = some (.tick copy) ∧ e = (G.provisioners.prov copy, copy.id) ∧
      s.Known G copy.id ∧
      ∃ ev ∈ tickTrace G.platform.reconciler ρ copy, ev.call.builds = true := by
  cases hstep with
  | @worked j n ρ copy hi =>
    rcases Inventory.mem_effect he with he | ⟨heq, hbuilds⟩
    · exact .inl he
    · obtain ⟨row, hrow, hsame⟩ : Copies s.fleet.rows copy :=
        h.fleet.flights _ (List.mem_of_getElem? hi)
      exact .inr ⟨j, ρ, n, copy, rfl, hi, heq, .inl ⟨row, hrow, hsame.id.symm⟩, hbuilds⟩
  | _ => exact .inl he

private theorem foreign_fleetStep (h : s.Sound G) (hfresh : G.fresh i = true)
    (hstep : FleetStep G.deployment s.fleet i t) :
    ∀ row ∈ t.rows, row.id ∉ G.foreignIDs := by
  have hstore : ∀ x : Cluster, ∀ row ∈ (s.fleet.store x).rows, row.id ∉ G.foreignIDs := by
    intro x row hrow
    rcases Fleet.mem_store hrow with ⟨rfl, old, hold, hid⟩ | ⟨hrow, -⟩
    · rw [← hid]
      exact h.foreign old hold
    · exact h.foreign row hrow
  cases hstep with
  | stays | registered | opened | userDeleted | worked => exact h.foreign
  | @created j adm req actor c hi hlock hnew =>
    intro row hrow
    rcases List.mem_append.1 hrow with hrow | hrow
    · exact h.foreign row hrow
    · obtain ⟨-, hok⟩ := Deployment.admitNew_fresh hnew
      have hid : c.id = adm.id := (identity_of_createCluster hok).1
      rw [List.mem_singleton.1 hrow, hid]
      simpa [GCSettings.fresh] using hfresh
  | called | marked | ticked => exact hstore _

private theorem Sound.fleetStep (h : s.Sound G) (hfresh : G.fresh i = true)
    (hcond : SeenBeforeBuilt G s (.fleet i)) (hstep : FleetStep G.deployment s.fleet i t)
    (ht : t.Sound G.deployment) : Sound G { s with fleet := t } := by
  refine ⟨ht, h.exclusive.step h.fleet hstep, fun e he => ?_, foreign_fleetStep h hfresh hstep,
    fun w hw => ⟨fun cs hcs p hp id hid => ?_, ?_⟩⟩
  · rcases mem_world h hstep he with he | ⟨j, ρ, n, copy, rfl, hi, rfl, hknown, -⟩
    · exact (h.known e he).fleetStep hstep
    · exact hknown.fleetStep hstep
  · rcases mem_world h hstep (Inventory.mem_listManaged.1 hid) with
      he | ⟨j, ρ, n, copy, rfl, hi, heq, hknown, ev, hev, hbuilds⟩
    · have hcov := (h.sweep w hw).left cs hcs p hp
      exact hcov.fleetStep h hfresh hcond hstep id (Inventory.mem_listManaged.2 he)
    · -- a provisioner to go has built: the read has the cluster
      obtain ⟨rfl, rfl⟩ := Prod.mk.inj heq
      obtain ⟨left, clusters, stage⟩ := w
      obtain rfl : clusters = some cs := hcs
      have hw : s.sweep = some ⟨left, some cs, stage⟩ := hw
      simp only [SeenBeforeBuilt, hi, hw] at hcond
      rcases hcond hp with hmem | hnone
      · exact ⟨hknown.fleetStep hstep, .inl hmem⟩
      · rw [hnone ev hev] at hbuilds
        cases hbuilds
  · have hstage := (h.sweep w hw).stage
    cases hw' : w.stage with
    | list => trivial
    | read p managed =>
      rw [hw'] at hstage
      exact ⟨fun id hid => (hstage.1 id hid).fleetStep hstep,
        fun cs hcs => (hstage.2 cs hcs).fleetStep h hfresh hcond hstep⟩
    | destroy p live managed =>
      rw [hw'] at hstage
      exact Covered.fleetStep h hstage hfresh hcond hstep

end FleetStep

private theorem Sound.swept (h : s.Sound G) {world : Inventory} {w : GCSweep}
    (hworld : ∀ e ∈ world, e ∈ s.fleet.world) (hw : s.SweepSound G w) :
    Sound G { fleet := { s.fleet with world }, sweep := some w } := by
  refine ⟨⟨h.fleet.nodup, h.fleet.flights⟩, ⟨h.exclusive.nodup, h.exclusive.live⟩,
    fun e he => h.known e (hworld e he), h.foreign, fun w' hw' => ?_⟩
  obtain rfl := Option.some.inj hw'
  refine ⟨fun cs hcs p hp id hid => ?_, hw.stage⟩
  have hid' := hworld _ (Inventory.mem_listManaged.1 hid)
  exact hw.left cs hcs p hp id (Inventory.mem_listManaged.2 hid')

private theorem Sound.ended (h : s.Sound G) : Sound G { s with sweep := none } :=
  ⟨h.fleet, h.exclusive, h.known, h.foreign, fun _ hw => nomatch hw⟩

private theorem Sound.known_listManaged (h : s.Sound G) (p : Nat) :
    ∀ id ∈ s.fleet.world.listManaged p, s.Known G id :=
  fun _ hid => h.known _ (Inventory.mem_listManaged.1 hid)

private theorem Sound.listManaged (h : s.Sound G) (ok : Bool) :
    (s.step G (.listManaged ok)).Sound G := by
  simp only [Orphans.step]
  split
  · rename_i p left clusters hsweep
    have hw := h.sweep _ hsweep
    have hleft : ∀ cs, clusters = some cs → ∀ q ∈ left,
        s.Covered G (liveIDs cs) (s.fleet.world.listManaged q) :=
      fun cs hcs q hq => hw.left cs hcs q (List.mem_cons_of_mem _ hq)
    split
    · exact h.swept (fun _ he => he) ⟨hleft, trivial⟩
    · rename_i managed hne hmanaged
      refine h.swept (fun _ he => he) ⟨hleft, ?_⟩
      cases ok with
      | false => exact absurd rfl hmanaged
      | true =>
        exact ⟨h.known_listManaged p, fun cs hcs => hw.left cs hcs p List.mem_cons_self⟩
  · exact h

/-- A read covers what is known when it is made, here and at the provisioners to go. -/
private theorem Sound.listClusters (h : s.Sound G) (ok : Bool) :
    (s.step G (.listClusters ok)).Sound G := by
  simp only [Orphans.step]
  split
  · rename_i left cs p managed hsweep
    have hw := h.sweep _ hsweep
    exact h.swept (fun _ he => he) ⟨hw.left, hw.stage.2 cs rfl⟩
  · rename_i left p managed hsweep
    have hw := h.sweep _ hsweep
    split
    · refine h.swept (fun _ he => he) ⟨fun cs hcs q hq => ?_, covered_rows hw.stage.1⟩
      dsimp only at hcs
      split at hcs
      · cases hcs
      · rw [← Option.some.inj hcs]
        exact covered_rows (h.known_listManaged q)
    · exact h.ended
  · exact h

private theorem Sound.step (h : s.Sound G) {i : OrphansInput} (hcond : SeenBeforeBuilt G s i) :
    (s.step G i).Sound G := by
  cases i with
  | fleet i =>
    simp only [Orphans.step]
    split
    · rename_i hfresh
      exact h.fleetStep hfresh hcond (KaaS.fleetStep _ _ i) (h.fleet.step i)
    · exact h
  | startGC order =>
    simp only [Orphans.step]
    split
    · exact h.swept (fun _ he => he) ⟨fun _ hcs => (nomatch hcs), trivial⟩
    · exact h
  | listManaged ok => exact h.listManaged ok
  | listClusters ok => exact h.listClusters ok
  | destroyNext ok =>
    simp only [Orphans.step]
    split
    · rename_i left clusters p live id managed hsweep
      have hw := h.sweep _ hsweep
      refine h.swept (fun e he => ?_) ⟨hw.left, Covered.tail hw.stage⟩
      split at he
      · exact Inventory.mem_of_mem_destroyCluster he
      · exact he
    · rename_i left clusters p live hsweep
      exact h.swept (fun _ he => he) ⟨(h.sweep _ hsweep).left, trivial⟩
    · exact h
  | endGC => exact h.ended

private theorem Sound.initial : (initial G).Sound G :=
  ⟨.initial, .initial, fun _ he => .inr (List.mem_map_of_mem he),
    fun _ hrow => absurd hrow List.not_mem_nil, fun _ hw => nomatch hw⟩

private theorem Sound.spares (h : s.Sound G) (i : OrphansInput) : s.Spares i := by
  intro p id hdestroys
  unfold destroys at hdestroys
  split at hdestroys
  · split at hdestroys
    · rename_i left clusters p' live id' managed hsweep
      split at hdestroys
      · cases hdestroys
      · rename_i hlive
        obtain ⟨rfl, rfl⟩ := Prod.mk.inj (Option.some.inj hdestroys)
        have hcov : s.Covered G live (id' :: managed) := (h.sweep _ hsweep).stage
        rcases (hcov id' List.mem_cons_self).2 with hmem | hgone
        · exact absurd (List.contains_iff_mem.2 hmem) hlive
        · exact hgone
    · cases hdestroys
  · cases hdestroys

end Invariant

/-- **In every run in which clusters are seen before they are built, every sweep spares the
living.** -/
theorem spares_of_seenBeforeBuilt (G : GCSettings) (is : List OrphansInput)
    (h : Along (step G) (SeenBeforeBuilt G) (initial G) is) :
    Along (step G) Spares (initial G) is :=
  Along.of_invariant (fun _ i hs hcond => ⟨hs.step hcond, hs.spares i⟩) Sound.initial h

/-! ### A cluster built behind the sweep -/

/-- The small platform with two provisioners, of KVM and of Proxmox; the first has machines of a
cluster that is long gone. -/
def twoProvisioners : GCSettings where
  platform := rollingPlatform
  provisioners := { provs := [("kvm", 0), ("proxmox", 1)] }
  foreign := [(0, "old")]

def aliceUp : List FleetInput :=
  [.register "alice", .register "bob"] ++ createNow "alice" "1" "dev" ++ broughtUp "1"

/-- Bob's cluster on Proxmox gets its machines. -/
def bobBuilds : List FleetInput :=
  [.startCreate "bob", .create 0 { id := "2", infraProviders := ["kvm", "proxmox"] }
    { name := "test", bundle := "r1", provider := "proxmox" }] ++ tickOnce "2" {} ++
    tickOnce "2" {}

/-- A sweep asks the first provisioner and reads the clusters. -/
def sweepBegins : List OrphansInput :=
  [.startGC [0, 1], .listManaged true, .listClusters true] ++
    List.replicate 3 (.destroyNext true)

def sweepEnds : List OrphansInput := [.listManaged true, .listClusters true]

/-- Bob's cluster is built before the sweep. -/
def builtBefore : List OrphansInput :=
  aliceUp.map .fleet ++ bobBuilds.map .fleet ++ sweepBegins ++ sweepEnds ++ [.destroyNext true]

/-- Bob's cluster is created and built during the sweep. -/
def builtDuring : List OrphansInput :=
  aliceUp.map .fleet ++ sweepBegins ++ bobBuilds.map .fleet ++ sweepEnds

theorem spares_builtBefore :
    Along (step twoProvisioners) (SeenBeforeBuilt twoProvisioners) (initial twoProvisioners)
      builtBefore ∧
    Along (step twoProvisioners) Spares (initial twoProvisioners) builtBefore ∧
    (run (step twoProvisioners) (initial twoProvisioners) builtBefore).fleet.world =
      [(0, "1"), (1, "2")] := by
  have hcond : Along (step twoProvisioners) (SeenBeforeBuilt twoProvisioners)
      (initial twoProvisioners) builtBefore := by
    decide +kernel
  refine ⟨hcond, spares_of_seenBeforeBuilt twoProvisioners builtBefore hcond, ?_⟩
  decide +kernel

/-- The sweep destroys the machines of Bob's cluster, which is about to get its control plane. -/
theorem destroys_builtDuring :
    let s := run (step twoProvisioners) (initial twoProvisioners) builtDuring
    s.fleet.rows.map (fun c => (c.id, c.phase)) = [("1", .ready), ("2", .infraReady)] ∧
    s.destroys (.destroyNext true) = some (1, "2") ∧
    (s.step twoProvisioners (.destroyNext true)).fleet.world = [(0, "1")] := by
  decide +kernel

end Orphans

end KaaS
