import KaaS.Registry.Harbor
import KaaS.System.Live

/-!
# Whose project it is

Project names are global and cluster names are unique per owner only. So two tenants may each
have a cluster `dev` with one project between them: each becomes an administrator of it, each
cluster gets a robot that pushes to it, and the first to be deleted takes the images of the other
away. A cluster called `library`, or like a cache, gets a project of the platform.

`Projects` adds the access sweep to the fleet. A sweep works on a **snapshot** and sends its
requests one by one, so it can also be late: a cluster of its snapshot may be gone and the name
in use again. If no cluster is given a name that is live, reserved or in the snapshot of a sweep
in progress (`Projects.NamesApart`), every live cluster has its project for itself and whatever
is done for another leaves it alone (`apart_of_namesApart`).
-/

namespace KaaS

open TransitionSystem

/-! ### The system -/

/-- A sweep of `SyncAccess` in progress: the projects to go, and the requests not yet sent. -/
structure AccessSweep where
  snap : AccessSnapshot
  left : List String
  pending : List HarborRequest := []

structure Projects where
  fleet : Fleet Harbor
  sweep : Option AccessSweep := none

inductive ProjectsInput
  | fleet (i : FleetInput)
  | startSweep (users : List User)
  | openProject (project : String)
  | send
  | endSweep

/-- The fleet in front of the registry. -/
def registryDeployment (P : Platform) (dns : String → Except String String)
    (S : RegistrySettings) : Deployment Harbor where
  platform := P
  admitDNS := dns
  effect := Harbor.effect S

namespace Projects

def initial : Projects := { fleet := .initial {} }

def liveRows (s : Projects) : List Cluster := s.fleet.rows.filter (·.live)

section Step

variable (P : Platform) (dns : String → Except String String) (S : RegistrySettings)

/-- The leader sweeps alone; the order of the projects is open, and a sweep ends at its first
error. -/
def step (s : Projects) : ProjectsInput → Projects
  | .fleet i => { s with fleet := (registryDeployment P dns S).step s.fleet i }
  | .startSweep users =>
    match s.sweep with
    | some _ => s
    | none =>
      let snap : AccessSnapshot := { users, clusters := s.liveRows }
      { s with sweep := some ⟨snap, ((S.desiredMembers snap).map (·.project)).dedup, []⟩ }
  | .openProject project =>
    match s.sweep with
    | some ⟨snap, left, []⟩ =>
      if project ∈ left then
        let want := (S.desiredMembers snap).filter (·.project == project)
        { s with sweep := some ⟨snap, left.erase project,
            S.syncProjectMembers s.fleet.world project want⟩ }
      else s
    | _ => s
  | .send =>
    match s.sweep with
    | some ⟨snap, left, q :: pending⟩ =>
      { fleet := { s.fleet with world := s.fleet.world.serve q }
        sweep := some ⟨snap, left, pending⟩ }
    | _ => s
  | .endSweep => { s with sweep := none }

end Step

/-! ### The condition -/

/-- A new cluster has a name that no live cluster has, that is not reserved, and that no sweep in
progress has seen; and no deleted cluster comes back. -/
def NamesApart (S : RegistrySettings) (s : Projects) : ProjectsInput → Prop
  | .fleet (.create _ _ req) =>
    s.fleet.NameFree req.name ∧ S.reserved req.name = false ∧
      ∀ w ∈ s.sweep, ∀ c ∈ w.snap.clusters, c.name ≠ req.name
  | .fleet i => s.fleet.NoResurrection i
  | _ => True

instance NamesApart.decidable (S : RegistrySettings) (s : Projects) (i : ProjectsInput) :
    Decidable (NamesApart S s i) := by
  rcases i with (_ | _ | _ | _ | _ | _ | _ | _ | _ | _ | _) | _ | _ | _ | _ <;> unfold NamesApart <;>
    infer_instance

theorem NamesApart.noResurrection {S : RegistrySettings} {s : Projects} {i : FleetInput}
    (h : NamesApart S s (.fleet i)) : s.fleet.NoResurrection i := by
  cases i with
  | create => trivial
  | _ => exact h

/-! ### The invariant -/

/-- A sweep in progress: what is live under a name of its snapshot is the cluster of the
snapshot, and what it still has to send is its own. -/
structure SweepSound (S : RegistrySettings) (s : Projects) (w : AccessSweep) : Prop where
  snap : ∀ c ∈ w.snap.clusters, ∀ d ∈ s.fleet.rows, d.live = true → c.name = d.name →
    c.ownerID = d.ownerID
  pending : ∀ q ∈ w.pending, ∃ project,
    RegistrySettings.Syncs S ((S.desiredMembers w.snap).filter (·.project == project)) project q

structure Sound (D : Deployment Harbor) (S : RegistrySettings) (s : Projects) : Prop where
  fleet : s.fleet.Sound D
  exclusive : s.fleet.Exclusive
  names : s.fleet.NamesDistinct
  own : ∀ c ∈ s.fleet.rows, c.live = true → S.reserved c.name = false
  sweep : ∀ w, s.sweep = some w → SweepSound S s w

section Invariant

variable {P : Platform} {dns : String → Except String String} {S : RegistrySettings}
  {s : Projects} {i : FleetInput} {s' : Fleet Harbor}

private theorem Sound.fleetStep (h : s.Sound (registryDeployment P dns S) S)
    (hcond : NamesApart S s (.fleet i))
    (hstep : FleetStep (registryDeployment P dns S) s.fleet i s')
    (hs' : s'.Sound (registryDeployment P dns S)) :
    Sound (registryDeployment P dns S) S { s with fleet := s' } := by
  have hfrom : ∀ c ∈ s'.rows, c.live = true → Descends (registryDeployment P dns S) s.fleet c i :=
    fun c hc hlive => live_step h.fleet h.exclusive hcond.noResurrection hstep hc hlive
  refine ⟨hs', h.exclusive.step h.fleet hstep, ?_, ?_, fun w hw => ⟨?_, (h.sweep w hw).pending⟩⟩
  · refine h.names.step h.fleet h.exclusive hcond.noResurrection (fun j adm req hi => ?_) hstep
    subst hi
    exact hcond.1
  · intro c hc hclive
    cases hfrom c hc hclive with
    | kept _ hrow hlive hsame =>
      rw [hsame.name]
      exact h.own _ hrow hlive
    | new hi hnew =>
      rw [name_of_admitNew hnew]
      exact hcond.2.1
  · intro c hc d hd hdlive hname
    cases hfrom d hd hdlive with
    | kept _ hrow hlive hsame =>
      rw [hsame.ownerID]
      exact (h.sweep w hw).snap c hc _ hrow hlive (hname.trans hsame.name)
    | new hi hnew =>
      exact absurd (hname.trans (name_of_admitNew hnew)) (hcond.2.2 w hw c hc)

private theorem Sound.step (h : s.Sound (registryDeployment P dns S) S) {i : ProjectsInput}
    (hcond : NamesApart S s i) : (s.step P dns S i).Sound (registryDeployment P dns S) S := by
  cases i with
  | fleet i => exact h.fleetStep hcond (KaaS.fleetStep _ _ i) (h.fleet.step i)
  | startSweep users =>
    simp only [Projects.step]
    split
    · exact h
    · refine ⟨h.fleet, h.exclusive, h.names, h.own, fun w hw => ?_⟩
      obtain rfl := Option.some.inj hw
      refine ⟨fun c hc d hd hdlive hname => ?_, fun q hq => absurd hq List.not_mem_nil⟩
      obtain ⟨hc, hclive⟩ := List.mem_filter.1 hc
      have hid := h.names c hc hclive d hd hdlive hname
      rw [List.inj_on_of_nodup_map h.fleet.nodup hc hd hid]
  | openProject project =>
    simp only [Projects.step]
    split
    · rename_i snap left hsweep
      split
      · refine ⟨h.fleet, h.exclusive, h.names, h.own, fun w hw => ?_⟩
        obtain rfl := Option.some.inj hw
        exact ⟨(h.sweep _ hsweep).snap, fun q hq => ⟨project, RegistrySettings.syncs_of_mem hq⟩⟩
      · exact h
    · exact h
  | send =>
    simp only [Projects.step]
    split
    · rename_i snap left q pending hsweep
      refine ⟨⟨h.fleet.nodup, h.fleet.flights⟩, ⟨h.exclusive.nodup, h.exclusive.live⟩, h.names,
        h.own, fun w hw => ?_⟩
      obtain rfl := Option.some.inj hw
      have hw := h.sweep _ hsweep
      exact ⟨hw.snap, fun q' hq' => hw.pending q' (List.mem_cons_of_mem _ hq')⟩
    · exact h
  | endSweep => exact ⟨h.fleet, h.exclusive, h.names, h.own, fun w hw => nomatch hw⟩

private theorem Sound.initial : initial.Sound (registryDeployment P dns S) S :=
  ⟨.initial, .initial, .initial, fun _ hc => absurd hc List.not_mem_nil, fun _ hw => nomatch hw⟩

end Invariant

/-! ### Every live cluster has its project for itself -/

/-- **Projects are apart**: the projects of live clusters differ from each other and from those
of the platform; a tick for one cluster leaves the project and the robot of every other live
cluster as they are; and a request of a sweep gives nobody a role on a live cluster's project
but what that cluster entitles them to. -/
structure Apart (P : Platform) (dns : String → Except String String) (S : RegistrySettings)
    (s : Projects) : Prop where
  distinct : ∀ c ∈ s.liveRows, ∀ d ∈ s.liveRows, c.id ≠ d.id →
    S.clusterProject c ≠ S.clusterProject d
  own : ∀ c ∈ s.liveRows, S.clusterProject c ≠ S.library ∧
    ∀ u ∈ S.upstreams, S.clusterProject c ≠ S.cacheProject u
  tick : ∀ d ∈ s.liveRows, ∀ i ρ n copy, s.fleet.flights[i]? = some (.tick copy) →
    copy.id ≠ d.id → Harbor.Same (S.clusterProject d) (clusterRobot d) s.fleet.world
      (s.step P dns S (.fleet (.work i ρ n))).fleet.world
  sweep : ∀ d ∈ s.liveRows, ∀ w, s.sweep = some w →
    ∀ x ∈ (s.step P dns S .send).fleet.world.members (S.clusterProject d),
      x ∈ s.fleet.world.members (S.clusterProject d) ∨
      ∃ m ∈ S.grants w.snap d, x.roleID = m.role.roleID ∧
        (x.name = m.username ∨ S.toLower x.name = m.username)

section Apart

variable {P : Platform} {dns : String → Except String String} {S : RegistrySettings}
  {s : Projects}

private theorem mem_liveRows {c : Cluster} :
    c ∈ s.liveRows ↔ c ∈ s.fleet.rows ∧ c.live = true := List.mem_filter

private theorem Sound.tick (h : s.Sound (registryDeployment P dns S) S) {d : Cluster}
    (hd : d ∈ s.liveRows) (i : Nat) (ρ : Env) (n : Nat) (copy : Cluster)
    (hi : s.fleet.flights[i]? = some (.tick copy)) (hne : copy.id ≠ d.id) :
    Harbor.Same (S.clusterProject d) (clusterRobot d) s.fleet.world
      (s.step P dns S (.fleet (.work i ρ n))).fleet.world := by
  obtain ⟨hd, hdlive⟩ := mem_liveRows.1 hd
  have hworld : (s.step P dns S (.fleet (.work i ρ n))).fleet.world =
      Harbor.effect S n copy (tickTrace P.reconciler ρ copy) s.fleet.world := by
    simp only [Projects.step, Deployment.step, hi]
    rfl
  rw [hworld]
  cases hlive : copy.live with
  | false =>
    rw [tickTrace_of_not_live _ _ hlive]
    exact .refl _ _ _
  | true =>
    have hmem := List.mem_of_getElem? hi
    obtain ⟨row, hrow, hid, hrowlive⟩ := h.exclusive.live _ hmem copy rfl hlive
    have hsame := h.fleet.sameIdentity hrow (h.fleet.flights _ hmem) hid
    refine Harbor.same_effect S n _ (fun hname => ?_) fun hid' => hne hid'.symm
    have hid' := h.names d hd hdlive row hrow hrowlive (hname.trans hsame.name)
    exact hne (hid'.trans hid).symm

private theorem Sound.grants_of_syncs (h : s.Sound (registryDeployment P dns S) S) {d : Cluster}
    (hd : d ∈ s.liveRows) {w : AccessSweep} (hw : s.sweep = some w) {m : DesiredMember}
    (hm : m ∈ (S.desiredMembers w.snap).filter (·.project == S.clusterProject d)) :
    m ∈ S.grants w.snap d := by
  obtain ⟨hd, hdlive⟩ := mem_liveRows.1 hd
  obtain ⟨hm, hproject⟩ := List.mem_filter.1 hm
  obtain ⟨c, hc, hgrant⟩ := RegistrySettings.exists_grants_of_mem_desiredMembers hm
  have hname : c.name = d.name := by
    rw [← clusterProject_inj (S := S), ← RegistrySettings.project_of_mem_grants hgrant]
    exact eq_of_beq hproject
  rwa [← RegistrySettings.grants_congr hname ((h.sweep w hw).snap c hc d hd hdlive hname)]

private theorem Sound.send (h : s.Sound (registryDeployment P dns S) S) {d : Cluster}
    (hd : d ∈ s.liveRows) (w : AccessSweep) (hw : s.sweep = some w) (x : ProjectMember)
    (hx : x ∈ (s.step P dns S .send).fleet.world.members (S.clusterProject d)) :
    x ∈ s.fleet.world.members (S.clusterProject d) ∨
      ∃ m ∈ S.grants w.snap d, x.roleID = m.role.roleID ∧
        (x.name = m.username ∨ S.toLower x.name = m.username) := by
  obtain ⟨snap, left, pending⟩ := w
  cases pending with
  | nil =>
    simp only [Projects.step, hw] at hx
    exact .inl hx
  | cons q pending =>
    simp only [Projects.step, hw] at hx
    obtain ⟨project, hsync⟩ := (h.sweep _ hw).pending q List.mem_cons_self
    rcases Harbor.mem_members_serve hx with hx | hq | hq
    · exact .inl hx
    · right
      cases hsync with
      | add hm =>
        obtain ⟨rfl, hname, hrole⟩ := HarborRequest.addMember.inj hq
        exact ⟨_, h.grants_of_syncs hd hw hm, hrole.symm, .inl hname.symm⟩
      | set | remove => cases hq
    · right
      cases hsync with
      | set hm hlower =>
        obtain ⟨rfl, rfl, hrole⟩ := HarborRequest.setMember.inj hq
        exact ⟨_, h.grants_of_syncs hd hw hm, hrole.symm, .inr hlower⟩
      | add | remove => cases hq

private theorem Sound.apart (h : s.Sound (registryDeployment P dns S) S) : s.Apart P dns S := by
  refine ⟨fun c hc d hd hne heq => ?_, fun c hc => ?_, fun d hd => h.tick hd,
    fun d hd => h.send hd⟩
  · obtain ⟨hc, hclive⟩ := mem_liveRows.1 hc
    obtain ⟨hd, hdlive⟩ := mem_liveRows.1 hd
    exact hne (h.names c hc hclive d hd hdlive (clusterProject_inj.1 heq))
  · obtain ⟨hc, hclive⟩ := mem_liveRows.1 hc
    have hfree : ¬ S.reserved c.name = true := by simp [h.own c hc hclive]
    rw [reserved_iff, not_or] at hfree
    exact ⟨hfree.1, fun u hu heq => hfree.2 ⟨u, hu, heq⟩⟩

end Apart

/-- **In every run in which names are apart, projects are.** -/
theorem apart_of_namesApart (P : Platform) (dns : String → Except String String)
    (S : RegistrySettings) (is : List ProjectsInput)
    (h : Along (step P dns S) (NamesApart S) initial is) :
    (run (step P dns S) initial is).Apart P dns S :=
  Sound.apart (TransitionSystem.run_invariant (fun _ _ hs hcond => hs.step hcond) .initial h)

/-! ### Two tenants -/

/-- The small platform, with a registry. -/
def registryPlatform : Platform :=
  { rollingPlatform with
    reconciler := { rollingPlatform.reconciler with registry := true }
    same := rollingPlatform.same }

def noDNS : String → Except String String := fun _ => .ok ""

/-- Alice's cluster `dev` is up when Bob creates one of this name, and deletes it. -/
def bobDeletes (name : String) : List FleetInput :=
  [.register "alice", .register "bob"] ++ createNow "alice" "1" "dev" ++ broughtUp "1" ++
    createNow "bob" "2" name ++ [.startCall ({}, .deleteCluster) "2", .commitCall 0] ++
    tickOnce "2" {}

def tenantsApart : List ProjectsInput := (bobDeletes "test").map .fleet

theorem apart_tenantsApart :
    Along (step registryPlatform noDNS {}) (NamesApart {}) initial tenantsApart ∧
    (run (step registryPlatform noDNS {}) initial tenantsApart).Apart
      registryPlatform noDNS {} := by
  have hcond : Along (step registryPlatform noDNS {}) (NamesApart {}) initial tenantsApart := by
    decide +kernel
  exact ⟨hcond, apart_of_namesApart registryPlatform noDNS {} tenantsApart hcond⟩

def tenantsShareName : List ProjectsInput := (bobDeletes "dev").map .fleet

/-- The deletion of one tenant's cluster has removed the project of the other's. -/
theorem released_tenantsShareName :
    let s := run (step registryPlatform noDNS {}) initial tenantsShareName
    s.fleet.rows.map (fun c => (c.id, c.ownerID, c.name, c.phase)) =
      [("1", "alice", "dev", .ready), ("2", "bob", "dev", .deleted)] ∧
    s.fleet.rows.map (·.registryWired) = [true, false] ∧
    s.fleet.world.projects.lookup "kaas-dev" = none := by
  decide +kernel

end Projects

end KaaS
