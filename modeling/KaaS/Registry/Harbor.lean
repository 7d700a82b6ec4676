import KaaS.Domain.Access
import KaaS.Reconcile.Seam

/-!
# The image registry

One central registry holds a project per cluster, a library and the pull-through caches, all
**keyed by name**. `EnsureCluster` and `ReleaseCluster` run in ticks, `SyncAccess` in a sweep of
its own; each is a list of requests that the registry serves one by one. A call that failed has
had some of its requests served.

The access model is `DesiredAccess`: an owner administers the project of their cluster, a member
of a group with the owner may push or pull. The roles are collected per project and account and
the highest one wins (`Settings.desiredMembers`); whatever comes out was granted on behalf of one
of the clusters (`Settings.grants`).
-/

namespace KaaS

open Text

/-! ### Names -/

/-- The part of the registry's configuration that names, accounts and releases depend on. The
case folding of account names is a parameter. -/
structure RegistrySettings where
  projectPrefix : String := ""
  upstreams : List String := []
  retainProject : Bool := false
  toLower : String → String := String.toLower

def defaultProjectPrefix : String := "kaas-"

def libraryProject : String := "library"

namespace RegistrySettings

variable (S : RegistrySettings)

/-- The trimmed prefix, or the default. -/
def namePrefix : String :=
  if trimSpace S.projectPrefix = "" then defaultProjectPrefix else trimSpace S.projectPrefix

def clusterProject (c : Cluster) : String := S.namePrefix ++ c.name

def cacheProject (upstream : String) : String := S.namePrefix ++ ("cache-" ++ upstream)

def library : String := S.namePrefix ++ libraryProject

/-- A cluster of this name would get one of the platform's own projects. -/
def reserved (name : String) : Bool :=
  name == libraryProject || S.upstreams.any fun u => name == "cache-" ++ u

end RegistrySettings

def clusterRobot (c : Cluster) : String := "kaas-cluster-" ++ c.id

section Names

variable {S : RegistrySettings} {c d : Cluster}

theorem clusterProject_inj : S.clusterProject c = S.clusterProject d ↔ c.name = d.name :=
  String.append_right_inj _

theorem clusterRobot_inj : clusterRobot c = clusterRobot d ↔ c.id = d.id :=
  String.append_right_inj _

theorem reserved_iff : S.reserved c.name = true ↔
    S.clusterProject c = S.library ∨ ∃ u ∈ S.upstreams, S.clusterProject c = S.cacheProject u := by
  simp only [RegistrySettings.reserved, Bool.or_eq_true, beq_iff_eq, List.any_eq_true,
    RegistrySettings.clusterProject, RegistrySettings.library, RegistrySettings.cacheProject,
    String.append_right_inj]

end Names

/-! ### The registry -/

inductive RegistryRole
  | guest | developer | projectAdmin
  deriving DecidableEq

namespace RegistryRole

def rank : RegistryRole → Nat
  | projectAdmin => 3
  | developer => 2
  | guest => 1

def roleID : RegistryRole → Nat
  | projectAdmin => 1
  | developer => 2
  | guest => 3

end RegistryRole

/-- A row of a project's member list; only accounts (`isUser`) are ever removed. -/
structure ProjectMember where
  name : String
  roleID : Nat
  isUser : Bool := true
  deriving DecidableEq

structure RegistryProject where
  members : List ProjectMember := []
  repositories : List String := []
  deriving DecidableEq

/-- Projects by name, and the robots by name with the project they may push to. -/
structure Harbor where
  projects : AList (fun _ : String => RegistryProject) := ∅
  robots : AList (fun _ : String => String) := ∅

inductive HarborRequest
  | createProject (project : String)
  | createRobot (robot project : String)
  | deleteRobot (robot : String)
  | deleteRepository (project repository : String)
  | deleteProject (project : String)
  | addMember (project username : String) (roleID : Nat)
  | setMember (project name : String) (roleID : Nat)
  | removeMember (project name : String)
  deriving DecidableEq

namespace Harbor

def modifyProject (h : Harbor) (project : String) (f : RegistryProject → RegistryProject) :
    Harbor :=
  match h.projects.lookup project with
  | some p => { h with projects := h.projects.insert project (f p) }
  | none => h

/-- What is there is not created again, what is absent is not deleted, and a project that still
holds repositories stays. -/
def serve (h : Harbor) : HarborRequest → Harbor
  | .createProject project =>
    if project ∈ h.projects then h else { h with projects := h.projects.insert project {} }
  | .createRobot robot project =>
    if robot ∈ h.robots then h else { h with robots := h.robots.insert robot project }
  | .deleteRobot robot => { h with robots := h.robots.erase robot }
  | .deleteRepository project repository =>
    h.modifyProject project fun p => { p with repositories := p.repositories.erase repository }
  | .deleteProject project =>
    match h.projects.lookup project with
    | some p => if p.repositories = [] then { h with projects := h.projects.erase project } else h
    | none => h
  | .addMember project username roleID =>
    h.modifyProject project fun p =>
      if p.members.any (·.name == username) then p
      else { p with members := p.members ++ [{ name := username, roleID }] }
  | .setMember project name roleID =>
    h.modifyProject project fun p =>
      { p with members := p.members.map fun m => if m.name = name then { m with roleID } else m }
  | .removeMember project name =>
    h.modifyProject project fun p => { p with members := p.members.filter (·.name ≠ name) }

/-- The members of a project; there are none where there is no project. -/
def members (h : Harbor) (project : String) : List ProjectMember :=
  ((h.projects.lookup project).map (·.members)).getD []

def repositories (h : Harbor) (project : String) : List String :=
  ((h.projects.lookup project).map (·.repositories)).getD []

/-- Lists are read one page at a time, and nothing asks for a second page. -/
def pageSize : Nat := 100

/-! ### The calls of a tick -/

def ensureCluster (S : RegistrySettings) (c : Cluster) : List HarborRequest :=
  [.createProject (S.clusterProject c), .createRobot (clusterRobot c) (S.clusterProject c)]

/-- The requests of `ReleaseCluster`: the repositories go first. -/
def releaseCluster (S : RegistrySettings) (h : Harbor) (c : Cluster) : List HarborRequest :=
  .deleteRobot (clusterRobot c) ::
    if S.retainProject then []
    else ((h.repositories (S.clusterProject c)).take pageSize).map
        (.deleteRepository (S.clusterProject c)) ++ [.deleteProject (S.clusterProject c)]

/-- The requests that were served of a call that failed: those whose bit is set. -/
def servedOf (n : Nat) (requests : List HarborRequest) : List HarborRequest :=
  (requests.zipIdx.filter fun q => n.testBit q.2).map (·.1)

/-- What one call of a tick for `c` does to the registry. -/
def call (S : RegistrySettings) (n : Nat) (c : Cluster) (h : Harbor) (e : Event) : Harbor :=
  let requests := match e.call with
    | .registryEnsureCluster => ensureCluster S c
    | .registryReleaseCluster => releaseCluster S h c
    | _ => []
  (if e.ok then requests else servedOf n requests).foldl serve h

/-- What a tick for `c` does to the registry. -/
def effect (S : RegistrySettings) (n : Nat) (c : Cluster) (evs : List Event) (h : Harbor) :
    Harbor :=
  evs.foldl (call S n c) h

end Harbor

/-! ### Desired access -/

structure DesiredMember where
  project : String
  username : String
  role : RegistryRole
  deriving DecidableEq

/-- The highest role `actor` holds in a group that `owner` is in too. -/
def groupRoleBetween (actor owner : User) : Option GroupRole :=
  let shared := actor.memberships.filter fun m => owner.inGroup m.groupID
  if shared.any (·.role == .write) then some .write
  else if shared.isEmpty then none
  else some .read

def projectRole : GroupRole → RegistryRole
  | .write => .developer
  | .read => .guest

namespace RegistrySettings

variable (S : RegistrySettings)

/-- What one cluster entitles accounts to, on its own project. -/
def grants (snap : AccessSnapshot) (c : Cluster) : List DesiredMember :=
  match snap.usersByID c.ownerID with
  | none => []
  | some owner =>
    ⟨S.clusterProject c, S.toLower owner.username, .projectAdmin⟩ ::
      snap.users.filterMap fun u =>
        if u.id == owner.id || u.isAdmin then none
        else (groupRoleBetween u owner).map fun role =>
          ⟨S.clusterProject c, S.toLower u.username, projectRole role⟩

/-- The roles collected so far, by project and account. -/
abbrev Best := AList fun _ : String × String => RegistryRole

/-- The higher role wins. -/
def put (best : Best) (m : DesiredMember) : Best :=
  if m.project = "" ∨ m.username = "" then best
  else if ((best.lookup (m.project, m.username)).map (·.rank)).getD 0 < m.role.rank then
    best.insert (m.project, m.username) m.role
  else best

def best (snap : AccessSnapshot) : Best :=
  (snap.clusters.flatMap (S.grants snap)).foldl put ∅

/-- The memberships of `DesiredAccess`, by project and account. -/
def desiredMembers (snap : AccessSnapshot) : List DesiredMember :=
  ((S.best snap).entries.map fun e => ⟨e.1.1, e.1.2, e.2⟩).insertionSort fun m m' =>
    m.project < m'.project ∨ m.project = m'.project ∧ m.username ≤ m'.username

/-- The requests that bring one project's member list to what is wanted. -/
def syncProjectMembers (h : Harbor) (project : String) (want : List DesiredMember) :
    List HarborRequest :=
  let rows := (h.members project).take Harbor.pageSize
  let haveByName := rows.foldl (fun (t : AList fun _ : String => ProjectMember) m =>
    t.insert (S.toLower m.name) m) ∅
  want.filterMap (fun m =>
    match haveByName.lookup m.username with
    | none => some (.addMember project m.username m.role.roleID)
    | some row =>
      if row.roleID = m.role.roleID then none
      else some (.setMember project row.name m.role.roleID)) ++
  haveByName.entries.filterMap fun e =>
    if want.any (·.username == e.1) || !e.2.isUser then none
    else some (.removeMember project e.2.name)

end RegistrySettings

/-! ### What a request reaches -/

/-- The request is about this project and this robot only. -/
def HarborRequest.About (project robot : String) : HarborRequest → Prop
  | .createProject p | .deleteRepository p _ | .deleteProject p | .addMember p _ _
  | .setMember p _ _ | .removeMember p _ => p = project
  | .createRobot r p => r = robot ∧ p = project
  | .deleteRobot r => r = robot

/-- The project and the robot are as they were, and no other robot may push to the project that
could not before. -/
structure Harbor.Same (p r : String) (h h' : Harbor) : Prop where
  project : h'.projects.lookup p = h.projects.lookup p
  robot : h'.robots.lookup r = h.robots.lookup r
  granted : ∀ r', h'.robots.lookup r' = some p → h.robots.lookup r' = some p

namespace Harbor

variable {S : RegistrySettings} {h h' h'' : Harbor} {p r p' r' : String} {q : HarborRequest}

theorem Same.refl (p r : String) (h : Harbor) : Same p r h h := ⟨rfl, rfl, fun _ hr => hr⟩

theorem Same.trans (h₁ : Same p r h h') (h₂ : Same p r h' h'') : Same p r h h'' :=
  ⟨h₂.project.trans h₁.project, h₂.robot.trans h₁.robot, fun r hr => h₁.granted r (h₂.granted r hr)⟩

theorem lookup_modifyProject_ne (f : RegistryProject → RegistryProject) (hne : p ≠ p') :
    (h.modifyProject p' f).projects.lookup p = h.projects.lookup p := by
  unfold modifyProject
  split
  · exact AList.lookup_insert_ne hne
  · rfl

theorem robots_modifyProject (f : RegistryProject → RegistryProject) :
    (h.modifyProject p' f).robots = h.robots := by
  unfold modifyProject
  split <;> rfl

private theorem same_modifyProject (f : RegistryProject → RegistryProject) (hne : p ≠ p') :
    Same p r h (h.modifyProject p' f) := by
  refine ⟨lookup_modifyProject_ne f hne, ?_, fun r hr => ?_⟩
  · rw [robots_modifyProject]
  · rwa [robots_modifyProject] at hr

theorem same_serve (hq : q.About p' r') (hp : p ≠ p') (hr : r ≠ r') : Same p r h (h.serve q) := by
  cases q with
  | createProject project =>
    obtain rfl := hq
    simp only [serve]
    split
    · exact .refl p r h
    · exact ⟨AList.lookup_insert_ne hp, rfl, fun _ hr => hr⟩
  | createRobot robot project =>
    obtain ⟨rfl, rfl⟩ := hq
    simp only [serve]
    split
    · exact .refl p r h
    · refine ⟨rfl, AList.lookup_insert_ne hr, fun r₁ hr₁ => ?_⟩
      by_cases heq : r₁ = robot
      · rw [heq, AList.lookup_insert] at hr₁
        exact absurd (Option.some.inj hr₁).symm hp
      · rwa [AList.lookup_insert_ne heq] at hr₁
  | deleteRobot robot =>
    obtain rfl := hq
    refine ⟨rfl, AList.lookup_erase_ne hr, fun r₁ hr₁ => ?_⟩
    simp only [serve] at hr₁
    by_cases heq : r₁ = robot
    · rw [heq, AList.lookup_erase] at hr₁
      cases hr₁
    · rwa [AList.lookup_erase_ne heq] at hr₁
  | deleteProject project =>
    obtain rfl := hq
    simp only [serve]
    split
    · split
      · exact ⟨AList.lookup_erase_ne hp, rfl, fun _ hr => hr⟩
      · exact .refl p r h
    · exact .refl p r h
  | deleteRepository project | addMember project | setMember project | removeMember project =>
    obtain rfl := hq
    exact same_modifyProject _ hp

theorem same_foldl_serve {qs : List HarborRequest} (hqs : ∀ q ∈ qs, q.About p' r')
    (hp : p ≠ p') (hr : r ≠ r') : Same p r h (qs.foldl serve h) := by
  induction qs generalizing h with
  | nil => exact .refl p r h
  | cons q qs ih =>
    have hq := same_serve (h := h) (hqs q List.mem_cons_self) hp hr
    exact hq.trans (ih fun q' hq' => hqs q' (List.mem_cons_of_mem _ hq'))

theorem about_ensureCluster (S : RegistrySettings) (c : Cluster) :
    ∀ q ∈ ensureCluster S c, q.About (S.clusterProject c) (clusterRobot c) := by
  intro q hq
  simp only [ensureCluster, List.mem_cons, List.not_mem_nil, or_false] at hq
  rcases hq with rfl | rfl
  · exact rfl
  · exact ⟨rfl, rfl⟩

theorem about_releaseCluster (S : RegistrySettings) (h : Harbor) (c : Cluster) :
    ∀ q ∈ releaseCluster S h c, q.About (S.clusterProject c) (clusterRobot c) := by
  intro q hq
  rcases List.mem_cons.1 hq with rfl | hq
  · exact rfl
  · split at hq
    · cases hq
    · rcases List.mem_append.1 hq with hq | hq
      · obtain ⟨repository, -, rfl⟩ := List.mem_map.1 hq
        exact rfl
      · rw [List.mem_singleton.1 hq]
        exact rfl

theorem mem_of_mem_servedOf {n : Nat} {qs : List HarborRequest} (hq : q ∈ servedOf n qs) :
    q ∈ qs := by
  obtain ⟨x, hx, rfl⟩ := List.mem_map.1 hq
  exact List.fst_mem_of_mem_zipIdx (List.mem_filter.1 hx).1

/-- **A tick for one cluster** leaves the project and the robot of another. -/
theorem same_effect {c d : Cluster} (S : RegistrySettings) (n : Nat) (evs : List Event)
    (hname : d.name ≠ c.name) (hid : d.id ≠ c.id) :
    Same (S.clusterProject d) (clusterRobot d) h (effect S n c evs h) := by
  have hp : S.clusterProject d ≠ S.clusterProject c := fun heq => hname (clusterProject_inj.1 heq)
  have hr : clusterRobot d ≠ clusterRobot c := fun heq => hid (clusterRobot_inj.1 heq)
  induction evs generalizing h with
  | nil => exact .refl _ _ h
  | cons e evs ih =>
    refine Same.trans ?_ (ih (h := call S n c h e))
    refine same_foldl_serve (fun q hq => ?_) hp hr
    have hmem : q ∈ (match e.call with
        | .registryEnsureCluster => ensureCluster S c
        | .registryReleaseCluster => releaseCluster S h c
        | _ => []) := by
      split at hq
      · exact hq
      · exact mem_of_mem_servedOf hq
    split at hmem
    · exact about_ensureCluster S c q hmem
    · exact about_releaseCluster S h c q hmem
    · cases hmem

private theorem mem_members_modifyProject {x : ProjectMember}
    {f : RegistryProject → RegistryProject} (hx : x ∈ (h.modifyProject p' f).members p) :
    x ∈ h.members p ∨ p' = p ∧ ∃ pr, h.projects.lookup p = some pr ∧ x ∈ (f pr).members := by
  by_cases hp : p = p'
  · subst hp
    unfold modifyProject at hx
    split at hx
    · rename_i pr hpr
      simp only [members, AList.lookup_insert, Option.map_some, Option.getD_some] at hx
      exact .inr ⟨rfl, pr, hpr, hx⟩
    · exact .inl hx
  · rw [members, lookup_modifyProject_ne f hp] at hx
    exact .inl hx

private theorem mem_members {x : ProjectMember} {pr : RegistryProject}
    (hpr : h.projects.lookup p = some pr) (hx : x ∈ pr.members) : x ∈ h.members p := by
  simpa [members, hpr] using hx

theorem mem_members_serve {x : ProjectMember} (hx : x ∈ (h.serve q).members p) :
    x ∈ h.members p ∨ q = .addMember p x.name x.roleID ∨ q = .setMember p x.name x.roleID := by
  cases q with
  | createProject project =>
    simp only [serve] at hx
    split at hx
    · exact .inl hx
    · by_cases hp : p = project
      · rw [members, hp, AList.lookup_insert] at hx
        cases hx
      · rw [members, AList.lookup_insert_ne hp] at hx
        exact .inl hx
  | createRobot robot project =>
    simp only [serve] at hx
    split at hx <;> exact .inl hx
  | deleteRobot robot => exact .inl hx
  | deleteProject project =>
    simp only [serve] at hx
    split at hx
    · split at hx
      · by_cases hp : p = project
        · rw [members, hp, AList.lookup_erase] at hx
          cases hx
        · rw [members, AList.lookup_erase_ne hp] at hx
          exact .inl hx
      · exact .inl hx
    · exact .inl hx
  | deleteRepository project repository =>
    rcases mem_members_modifyProject hx with hx | ⟨-, pr, hpr, hx⟩
    · exact .inl hx
    · exact .inl (mem_members hpr hx)
  | addMember project username roleID =>
    rcases mem_members_modifyProject hx with hx | ⟨rfl, pr, hpr, hx⟩
    · exact .inl hx
    · split at hx
      · exact .inl (mem_members hpr hx)
      · rcases List.mem_append.1 hx with hx | hx
        · exact .inl (mem_members hpr hx)
        · rw [List.mem_singleton.1 hx]
          exact .inr (.inl rfl)
  | setMember project name roleID =>
    rcases mem_members_modifyProject hx with hx | ⟨rfl, pr, hpr, hx⟩
    · exact .inl hx
    · obtain ⟨m, hm, rfl⟩ := List.mem_map.1 hx
      split
      · rename_i hname
        exact .inr (.inr (by rw [hname]))
      · exact .inl (mem_members hpr hm)
  | removeMember project name =>
    rcases mem_members_modifyProject hx with hx | ⟨-, pr, hpr, hx⟩
    · exact .inl hx
    · exact .inl (mem_members hpr (List.mem_filter.1 hx).1)

end Harbor

/-! ### What is desired was granted -/

namespace RegistrySettings

variable {S : RegistrySettings} {snap : AccessSnapshot} {m : DesiredMember}

private theorem lookup_put {t : Best} {key : String × String} {role : RegistryRole}
    (h : (put t m).lookup key = some role) :
    t.lookup key = some role ∨ m = ⟨key.1, key.2, role⟩ := by
  unfold put at h
  split at h
  · exact .inl h
  · split at h
    · by_cases hkey : key = (m.project, m.username)
      · rw [hkey, AList.lookup_insert] at h
        rw [hkey, ← Option.some.inj h]
        exact .inr rfl
      · rw [AList.lookup_insert_ne hkey] at h
        exact .inl h
    · exact .inl h

private theorem lookup_foldl_put {ms : List DesiredMember} {t : Best} {key : String × String}
    {role : RegistryRole} (h : (ms.foldl put t).lookup key = some role) :
    t.lookup key = some role ∨ ⟨key.1, key.2, role⟩ ∈ ms := by
  induction ms generalizing t with
  | nil => exact .inl h
  | cons m ms ih =>
    rcases ih h with h | h
    · rcases lookup_put h with h | rfl
      · exact .inl h
      · exact .inr List.mem_cons_self
    · exact .inr (List.mem_cons_of_mem _ h)

/-- **Every desired membership is granted on behalf of a cluster.** -/
theorem exists_grants_of_mem_desiredMembers (h : m ∈ S.desiredMembers snap) :
    ∃ c ∈ snap.clusters, m ∈ S.grants snap c := by
  rw [desiredMembers, List.mem_insertionSort, List.mem_map] at h
  obtain ⟨⟨key, role⟩, hmem, rfl⟩ := h
  have hlookup : (S.best snap).lookup key = some role := AList.mem_lookup_iff.2 hmem
  rcases lookup_foldl_put hlookup with h | h
  · simp at h
  · simpa using h

theorem project_of_mem_grants {c : Cluster} (h : m ∈ S.grants snap c) :
    m.project = S.clusterProject c := by
  unfold grants at h
  split at h
  · cases h
  · rcases List.mem_cons.1 h with rfl | h
    · rfl
    · obtain ⟨u, -, hu⟩ := List.mem_filterMap.1 h
      split at hu
      · cases hu
      · obtain ⟨role, -, rfl⟩ := Option.map_eq_some_iff.1 hu
        rfl

theorem grants_congr {c d : Cluster} (hname : c.name = d.name) (howner : c.ownerID = d.ownerID) :
    S.grants snap c = S.grants snap d := by
  simp only [grants, clusterProject, hname, howner]

/-- A request of a sweep: it gives a desired role on the project, or it takes a member off. -/
inductive Syncs (S : RegistrySettings) (want : List DesiredMember) (project : String) :
    HarborRequest → Prop
  | add {m : DesiredMember} (h : m ∈ want) :
      Syncs S want project (.addMember project m.username m.role.roleID)
  | set {m : DesiredMember} {name : String} (h : m ∈ want) (hname : S.toLower name = m.username) :
      Syncs S want project (.setMember project name m.role.roleID)
  | remove (name : String) : Syncs S want project (.removeMember project name)

private theorem toLower_of_lookup {rows : List ProjectMember}
    {t : AList fun _ : String => ProjectMember} {key : String} {row : ProjectMember}
    (ht : ∀ key row, t.lookup key = some row → S.toLower row.name = key)
    (h : (rows.foldl (fun (t : AList fun _ : String => ProjectMember) m =>
      t.insert (S.toLower m.name) m) t).lookup key = some row) : S.toLower row.name = key := by
  induction rows generalizing t with
  | nil => exact ht key row h
  | cons m rows ih =>
    refine ih (fun key row hrow => ?_) h
    by_cases hkey : key = S.toLower m.name
    · rw [hkey, AList.lookup_insert] at hrow
      rw [← Option.some.inj hrow, hkey]
    · rw [AList.lookup_insert_ne hkey] at hrow
      exact ht key row hrow

theorem syncs_of_mem {h : Harbor} {project : String} {want : List DesiredMember}
    {q : HarborRequest} (hq : q ∈ S.syncProjectMembers h project want) :
    Syncs S want project q := by
  rcases List.mem_append.1 hq with hq | hq
  · obtain ⟨m, hm, hq⟩ := List.mem_filterMap.1 hq
    split at hq
    · obtain rfl := Option.some.inj hq
      exact .add hm
    · rename_i row hrow
      split at hq
      · cases hq
      · obtain rfl := Option.some.inj hq
        exact .set hm (toLower_of_lookup (fun _ _ h => by simp at h) hrow)
  · obtain ⟨e, -, hq⟩ := List.mem_filterMap.1 hq
    split at hq
    · cases hq
    · obtain rfl := Option.some.inj hq
      exact .remove _

end RegistrySettings

end KaaS
