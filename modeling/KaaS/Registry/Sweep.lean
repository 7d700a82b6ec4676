import KaaS.Registry.Harbor

/-!
# One sweep of the access sync

`SyncAccess` reads the desired memberships of all projects and visits those projects one by one,
in whatever order the map by project has. For each it compares the **first page** of the member
list with what is wanted, by lower-case name, and sends the differences.

A project that nobody is to have access to is in no map and is not visited, so whoever was a
member stays one; a member beyond the first page is not seen; and a group with the name of an
account is taken for that account. Where the list fits a page, its names are different, no group
is named like an account and the owner is known (`RegistrySettings.Legible`), the members are
afterwards exactly the desired ones (`members_of_syncAccess`).
-/

namespace KaaS

/-! ### The sweep -/

namespace RegistrySettings

variable (S : RegistrySettings)

def wanted (snap : AccessSnapshot) (project : String) : List DesiredMember :=
  (S.desiredMembers snap).filter (·.project == project)

/-- What `syncProjectMembers` makes of the registry if every request is answered. -/
def syncProject (snap : AccessSnapshot) (h : Harbor) (project : String) : Harbor :=
  (S.syncProjectMembers h project (S.wanted snap project)).foldl Harbor.serve h

def desiredProjects (snap : AccessSnapshot) : List String :=
  ((S.desiredMembers snap).map (·.project)).dedup

/-- **A sweep without errors** that visits the projects in the order given. -/
def syncAccess (snap : AccessSnapshot) (projects : List String) (h : Harbor) : Harbor :=
  projects.foldl (S.syncProject snap) h

/-- **The condition** on the member list of a cluster's project before the sweep. -/
structure Legible (snap : AccessSnapshot) (h : Harbor) (c : Cluster) : Prop where
  present : S.clusterProject c ∈ h.projects
  page : (h.members (S.clusterProject c)).length ≤ Harbor.pageSize
  names : ((h.members (S.clusterProject c)).map fun x => S.toLower x.name).Nodup
  groups : ∀ x ∈ h.members (S.clusterProject c), x.isUser = false →
    ∀ u ∈ snap.users, S.toLower u.username ≠ S.toLower x.name
  owner : (∃ u, snap.usersByID c.ownerID = some u ∧ S.toLower u.username ≠ "") ∨
    ∀ x ∈ h.members (S.clusterProject c), x.isUser = false

end RegistrySettings

/-! ### The desired memberships of a project -/

namespace RegistrySettings

variable {S : RegistrySettings} {snap : AccessSnapshot} {m : DesiredMember} {project : String}

theorem mem_wanted :
    m ∈ S.wanted snap project ↔ m ∈ S.desiredMembers snap ∧ m.project = project := by
  simp [wanted]

theorem mem_desiredProjects : project ∈ S.desiredProjects snap ↔ S.wanted snap project ≠ [] := by
  rw [desiredProjects, List.mem_dedup, List.mem_map]
  constructor
  · rintro ⟨m, hm⟩
    exact List.ne_nil_of_mem (mem_wanted.mpr hm)
  · intro hne
    obtain ⟨m, hm⟩ := List.exists_mem_of_ne_nil _ hne
    exact ⟨m, mem_wanted.mp hm⟩

theorem nodup_wanted (S : RegistrySettings) (snap : AccessSnapshot) (project : String) :
    ((S.wanted snap project).map (·.username)).Nodup := by
  have hperm : (S.desiredMembers snap).Perm
      ((S.best snap).entries.map fun e => ⟨e.1.1, e.1.2, e.2⟩) := List.perm_insertionSort _ _
  have hkeys : ((S.desiredMembers snap).map fun m => (m.project, m.username)).Nodup := by
    rw [(hperm.map _).nodup_iff, List.map_map]
    exact (S.best snap).nodupKeys
  have hsub := (hkeys.of_map _).filter (p := (·.project == project))
  refine hsub.map_on fun m hm m' hm' hname => ?_
  obtain ⟨hm, hp⟩ := mem_wanted.mp hm
  obtain ⟨hm', hp'⟩ := mem_wanted.mp hm'
  exact List.inj_on_of_nodup_map hkeys hm hm' (Prod.ext (hp.trans hp'.symm) hname)

theorem exists_user_of_mem_desiredMembers (h : m ∈ S.desiredMembers snap) :
    ∃ u ∈ snap.users, S.toLower u.username = m.username := by
  obtain ⟨c, -, hm⟩ := exists_grants_of_mem_desiredMembers h
  unfold grants at hm
  split at hm
  · cases hm
  · rename_i owner howner
    rcases List.mem_cons.mp hm with rfl | hm
    · exact ⟨owner, List.mem_reverse.mp (List.mem_of_find?_eq_some howner), rfl⟩
    · obtain ⟨u, hu, hrole⟩ := List.mem_filterMap.mp hm
      split at hrole
      · cases hrole
      · obtain ⟨role, -, rfl⟩ := Option.map_eq_some_iff.mp hrole
        exact ⟨u, hu, rfl⟩

private theorem mem_put_of_mem {t : Best} {key : String × String} (hkey : key ∈ t) :
    key ∈ put t m := by
  unfold put
  split
  · exact hkey
  · split
    · exact (AList.mem_insert _).mpr (.inr hkey)
    · exact hkey

private theorem mem_put (t : Best) (hproject : m.project ≠ "") (hname : m.username ≠ "") :
    (m.project, m.username) ∈ put t m := by
  have hrank : 0 < m.role.rank := by cases m.role <;> decide
  rw [put, if_neg (not_or.mpr ⟨hproject, hname⟩)]
  split
  · exact (AList.mem_insert _).mpr (.inl rfl)
  · rename_i hlow
    -- an account without a role so far has rank 0
    rw [← AList.lookup_isSome, Option.isSome_iff_ne_none]
    intro hnone
    exact hlow (by simpa [hnone] using hrank)

private theorem mem_foldl_put {ms : List DesiredMember} (hm : m ∈ ms) (hproject : m.project ≠ "")
    (hname : m.username ≠ "") (t : Best) : (m.project, m.username) ∈ ms.foldl put t := by
  have hkeep : ∀ (ms : List DesiredMember) (t : Best) key, key ∈ t → key ∈ ms.foldl put t := by
    intro ms
    induction ms with
    | nil => exact fun _ _ hkey => hkey
    | cons m ms ih => exact fun t key hkey => ih _ key (mem_put_of_mem hkey)
  induction ms generalizing t with
  | nil => cases hm
  | cons m' ms ih =>
    rcases List.mem_cons.mp hm with rfl | hm
    · exact hkeep ms _ _ (mem_put t hproject hname)
    · exact ih hm _

theorem clusterProject_ne_empty (S : RegistrySettings) (c : Cluster) : S.clusterProject c ≠ "" := by
  have hpre : S.namePrefix ≠ "" := by
    unfold namePrefix
    split
    · decide
    · assumption
  simp [clusterProject, hpre]

/-- **The owner** of a cluster is desired on its project. -/
theorem wanted_ne_nil {c : Cluster} {owner : User} (hc : c ∈ snap.clusters)
    (howner : snap.usersByID c.ownerID = some owner) (hname : S.toLower owner.username ≠ "") :
    S.wanted snap (S.clusterProject c) ≠ [] := by
  have hgrant : ⟨S.clusterProject c, S.toLower owner.username, .projectAdmin⟩ ∈
      snap.clusters.flatMap (S.grants snap) := by
    refine List.mem_flatMap.mpr ⟨c, hc, ?_⟩
    simp only [grants, howner]
    exact List.mem_cons_self
  have hkey := mem_foldl_put hgrant (clusterProject_ne_empty S c) hname ∅
  obtain ⟨role, hrole⟩ := Option.isSome_iff_exists.mp (AList.lookup_isSome.mpr hkey)
  refine List.ne_nil_of_mem (mem_wanted.mpr ⟨?_, rfl⟩)
    (a := ⟨S.clusterProject c, S.toLower owner.username, role⟩)
  rw [desiredMembers, List.mem_insertionSort, List.mem_map]
  exact ⟨⟨_, role⟩, AList.mem_lookup_iff.mp hrole, rfl⟩

end RegistrySettings

/-! ### The member list of one project -/

namespace Harbor

variable {h h' : Harbor} {p : String}

theorem members_congr (hp : h'.projects.lookup p = h.projects.lookup p) :
    h'.members p = h.members p := by
  rw [members, hp, members]

theorem mem_modifyProject {f : RegistryProject → RegistryProject} {p' : String}
    (hp : p ∈ h.projects) : p ∈ (h.modifyProject p' f).projects := by
  unfold modifyProject
  split
  · exact (AList.mem_insert _).mpr (.inr hp)
  · exact hp

private theorem members_modifyProject {f : RegistryProject → RegistryProject}
    {g : List ProjectMember → List ProjectMember} (hf : ∀ pr, (f pr).members = g pr.members)
    (hp : p ∈ h.projects) : (h.modifyProject p f).members p = g (h.members p) := by
  obtain ⟨pr, hpr⟩ := Option.isSome_iff_exists.mp (AList.lookup_isSome.mpr hp)
  simp only [modifyProject, hpr, members, AList.lookup_insert, Option.map_some,
    Option.getD_some, hf]

theorem members_addMember (hp : p ∈ h.projects) (username : String) (roleID : ℕ) :
    (h.serve (.addMember p username roleID)).members p =
      if (h.members p).any (·.name == username) then h.members p
      else h.members p ++ [{ name := username, roleID }] := by
  refine members_modifyProject (g := fun l => if l.any (·.name == username) then l
    else l ++ [{ name := username, roleID }]) (fun pr => ?_) hp
  split <;> rfl

theorem members_setMember (hp : p ∈ h.projects) (name : String) (roleID : ℕ) :
    (h.serve (.setMember p name roleID)).members p =
      (h.members p).map fun x => if x.name = name then { x with roleID } else x :=
  members_modifyProject (fun _ => rfl) hp

theorem members_removeMember (hp : p ∈ h.projects) (name : String) :
    (h.serve (.removeMember p name)).members p = (h.members p).filter (·.name ≠ name) :=
  members_modifyProject (fun _ => rfl) hp

theorem members_foldl_removeMember (hp : p ∈ h.projects) (names : List String) :
    ((names.map (.removeMember p)).foldl serve h).members p =
      (h.members p).filter (·.name ∉ names) := by
  induction names generalizing h with
  | nil => simp
  | cons name names ih =>
    have hp' : p ∈ (h.serve (.removeMember p name)).projects := mem_modifyProject hp
    rw [List.map_cons, List.foldl_cons, ih hp', members_removeMember hp, List.filter_filter]
    refine List.filter_congr fun x _ => ?_
    simp [Bool.and_comm]

end Harbor

namespace RegistrySettings

variable {S : RegistrySettings} {h : Harbor} {p : String} {want : List DesiredMember}
  {have' : AList fun _ : String => ProjectMember}

private def settled (have' : AList fun _ : String => ProjectMember) (m : DesiredMember) :
    ProjectMember :=
  match have'.lookup m.username with
  | none => { name := m.username, roleID := m.role.roleID }
  | some row => { row with roleID := m.role.roleID }

private def requestFor (p : String) (have' : AList fun _ : String => ProjectMember)
    (m : DesiredMember) : Option HarborRequest :=
  match have'.lookup m.username with
  | none => some (.addMember p m.username m.role.roleID)
  | some row =>
    if row.roleID = m.role.roleID then none else some (.setMember p row.name m.role.roleID)

/-- The folded names of a member list are different, and the table has the row of `name`. -/
private structure Tracks (S : RegistrySettings) (have' : AList fun _ : String => ProjectMember)
    (l : List ProjectMember) (name : String) : Prop where
  fixed : S.toLower name = name
  row : ∀ x, have'.lookup name = some x ↔ x ∈ l ∧ S.toLower x.name = name

private theorem Tracks.toLower_settled {l : List ProjectMember} {m : DesiredMember}
    (htracks : Tracks S have' l m.username) :
    S.toLower (settled have' m).name = m.username := by
  unfold settled
  split
  · exact htracks.fixed
  · rename_i row hrow
    exact ((htracks.row row).mp hrow).2

/-- **One desired membership**: its row is settled and the others stay. -/
private theorem members_requestFor {m : DesiredMember} (hp : p ∈ h.projects)
    (hnodup : ((h.members p).map fun x => S.toLower x.name).Nodup)
    (htracks : Tracks S have' (h.members p) m.username) :
    let h' := (requestFor p have' m).toList.foldl Harbor.serve h
    p ∈ h'.projects ∧ ((h'.members p).map fun x => S.toLower x.name).Nodup ∧
      ∀ x, x ∈ h'.members p ↔
        x ∈ h.members p ∧ S.toLower x.name ≠ m.username ∨ x = settled have' m := by
  cases hrow : have'.lookup m.username with
  | none =>
    have hnew : ∀ x ∈ h.members p, S.toLower x.name ≠ m.username := by
      intro x hx hname
      have hsome := (htracks.row x).mpr ⟨hx, hname⟩
      rw [hrow] at hsome
      cases hsome
    have hany : (h.members p).any (·.name == m.username) = false := by
      rw [List.any_eq_false]
      intro x hx hname
      refine hnew x hx ?_
      rw [beq_iff_eq.mp hname, htracks.fixed]
    simp only [requestFor, hrow, settled, Option.toList_some, List.foldl_cons, List.foldl_nil]
    rw [Harbor.members_addMember hp, hany, if_neg Bool.false_ne_true]
    refine ⟨Harbor.mem_modifyProject hp, ?_, fun x => ?_⟩
    · rw [List.map_append, List.map_singleton, htracks.fixed]
      rw [← List.concat_eq_append]
      refine hnodup.concat ?_
      intro hmem
      obtain ⟨x, hx, hname⟩ := List.mem_map.mp hmem
      exact hnew x hx hname
    · rw [List.mem_append, List.mem_singleton]
      exact or_congr_left ⟨fun hx => ⟨hx, hnew x hx⟩, fun hx => hx.1⟩
  | some row =>
    obtain ⟨hmem, hname⟩ := (htracks.row row).mp hrow
    -- the row is the only one with its folded name
    have honly : ∀ x ∈ h.members p, S.toLower x.name = m.username → x = row := by
      intro x hx hx'
      exact Option.some.inj (((htracks.row x).mpr ⟨hx, hx'⟩).symm.trans hrow)
    have hsame : ∀ x ∈ h.members p, x.name = row.name ↔ S.toLower x.name = m.username := by
      refine fun x hx => ⟨fun heq => by rw [heq, hname], fun hx' => by rw [honly x hx hx']⟩
    by_cases hrole : row.roleID = m.role.roleID
    · simp only [requestFor, settled, hrow, if_pos hrole, Option.toList_none, List.foldl_nil]
      refine ⟨hp, hnodup, fun x => ?_⟩
      rw [← hrole]
      constructor
      · intro hx
        by_cases hx' : S.toLower x.name = m.username
        · exact .inr (honly x hx hx')
        · exact .inl ⟨hx, hx'⟩
      · rintro (⟨hx, -⟩ | rfl)
        · exact hx
        · exact hmem
    · simp only [requestFor, settled, hrow, if_neg hrole, Option.toList_some, List.foldl_cons,
        List.foldl_nil]
      rw [Harbor.members_setMember hp]
      refine ⟨Harbor.mem_modifyProject hp, ?_, fun x => ?_⟩
      · rw [List.map_map]
        convert hnodup using 2
        funext x
        simp only [Function.comp_apply]
        split <;> rfl
      · rw [List.mem_map]
        constructor
        · rintro ⟨y, hy, rfl⟩
          split
          · rename_i heq
            exact .inr (by rw [honly y hy ((hsame y hy).mp heq)])
          · rename_i hne
            exact .inl ⟨hy, fun hy' => hne ((hsame y hy).mpr hy')⟩
        · rintro (⟨hx, hx'⟩ | rfl)
          · exact ⟨x, hx, if_neg fun heq => hx' ((hsame x hx).mp heq)⟩
          · exact ⟨row, hmem, if_pos rfl⟩

/-- **The desired memberships of a project**, one after the other. -/
private theorem members_foldl_requestFor (hp : p ∈ h.projects)
    (hnodup : ((h.members p).map fun x => S.toLower x.name).Nodup)
    (hwant : (want.map (·.username)).Nodup)
    (htracks : ∀ m ∈ want, Tracks S have' (h.members p) m.username) :
    let h' := (want.filterMap (requestFor p have')).foldl Harbor.serve h
    p ∈ h'.projects ∧ ((h'.members p).map fun x => S.toLower x.name).Nodup ∧
      ∀ x, x ∈ h'.members p ↔
        x ∈ h.members p ∧ S.toLower x.name ∉ want.map (·.username) ∨
          ∃ m ∈ want, x = settled have' m := by
  induction want generalizing h with
  | nil => simpa using ⟨hp, hnodup⟩
  | cons m want ih =>
    have hm := htracks m List.mem_cons_self
    obtain ⟨hp₁, hnodup₁, hmem₁⟩ := members_requestFor hp hnodup hm
    rw [List.map_cons, List.nodup_cons] at hwant
    have hstep : ((m :: want).filterMap (requestFor p have')).foldl Harbor.serve h =
        (want.filterMap (requestFor p have')).foldl Harbor.serve
          ((requestFor p have' m).toList.foldl Harbor.serve h) := by
      cases hreq : requestFor p have' m <;> simp [hreq]
    have hne : ∀ m' ∈ want, m'.username ≠ m.username := by
      intro m' hm' heq
      exact hwant.1 (heq ▸ List.mem_map_of_mem hm')
    have hsettled := hm.toLower_settled
    -- the rows of the other desired accounts are where they were
    have htracks₁ : ∀ m' ∈ want,
        Tracks S have' (((requestFor p have' m).toList.foldl Harbor.serve h).members p)
          m'.username := by
      intro m' hm'
      have hold := htracks m' (List.mem_cons_of_mem _ hm')
      refine ⟨hold.fixed, fun x => ?_⟩
      rw [hold.row x, hmem₁ x]
      constructor
      · rintro ⟨hx, hname⟩
        exact ⟨.inl ⟨hx, by rw [hname]; exact hne m' hm'⟩, hname⟩
      · rintro ⟨⟨hx, -⟩ | rfl, hname⟩
        · exact ⟨hx, hname⟩
        · exact absurd (hname.symm.trans hsettled) (hne m' hm')
    obtain ⟨hp', hnodup', hmem'⟩ := ih hp₁ hnodup₁ hwant.2 htracks₁
    rw [hstep]
    refine ⟨hp', hnodup', fun x => ?_⟩
    rw [hmem' x, hmem₁ x, List.map_cons, List.mem_cons, not_or, List.exists_mem_cons_iff]
    constructor
    · rintro (⟨⟨hx, hname⟩ | rfl, hwant'⟩ | hx)
      · exact .inl ⟨hx, hname, hwant'⟩
      · exact .inr (.inl rfl)
      · exact .inr (.inr hx)
    · rintro (⟨hx, hname, hwant'⟩ | rfl | hx)
      · exact .inl ⟨.inl ⟨hx, hname⟩, hwant'⟩
      · refine .inl ⟨.inr rfl, ?_⟩
        rw [hsettled]
        exact hwant.1
      · exact .inr hx

private def byName (S : RegistrySettings) (rows : List ProjectMember) :
    AList fun _ : String => ProjectMember :=
  rows.foldl (fun t m => t.insert (S.toLower m.name) m) ∅

private def leftover (have' : AList fun _ : String => ProjectMember) (want : List DesiredMember) :
    List String :=
  have'.entries.filterMap fun e =>
    if want.any (·.username == e.1) || !e.2.isUser then none else some e.2.name

private theorem syncProjectMembers_eq (hpage : (h.members p).length ≤ Harbor.pageSize) :
    S.syncProjectMembers h p want =
      want.filterMap (requestFor p (byName S (h.members p))) ++
        (leftover (byName S (h.members p)) want).map (.removeMember p) := by
  rw [syncProjectMembers, List.take_of_length_le hpage]
  refine congrArg₂ _ rfl ?_
  rw [leftover, List.map_filterMap]
  refine List.filterMap_congr fun e _ => ?_
  split <;> rfl

private theorem lookup_byName {rows : List ProjectMember}
    (hnodup : (rows.map fun x => S.toLower x.name).Nodup) {name : String} {x : ProjectMember} :
    (byName S rows).lookup name = some x ↔ x ∈ rows ∧ S.toLower x.name = name := by
  constructor
  · intro hrow
    rcases AList.exists_of_lookup_foldl_insert hrow with ⟨y, hy, hname, rfl⟩ | hnone
    · exact ⟨hy, hname⟩
    · simp at hnone
  · rintro ⟨hx, rfl⟩
    have hsame : ∀ y ∈ rows, S.toLower y.name = S.toLower x.name → y = x :=
      fun y hy hname => List.inj_on_of_nodup_map hnodup hy hx hname
    unfold byName
    exact AList.lookup_foldl_insert hx hsame ∅

private theorem mem_leftover {rows : List ProjectMember}
    (hnodup : (rows.map fun x => S.toLower x.name).Nodup) {name : String} :
    name ∈ leftover (byName S rows) want ↔ ∃ x ∈ rows, x.isUser = true ∧
      S.toLower x.name ∉ want.map (·.username) ∧ x.name = name := by
  rw [leftover, List.mem_filterMap]
  constructor
  · rintro ⟨⟨key, x⟩, he, hname⟩
    obtain ⟨hx, rfl⟩ := (lookup_byName hnodup).mp (AList.mem_lookup_iff.mpr he)
    split at hname
    · cases hname
    · rename_i hnot
      simp only [Bool.or_eq_true, List.any_eq_true, beq_iff_eq, Bool.not_eq_true', not_or] at hnot
      refine ⟨x, hx, by simpa using hnot.2, fun hmem => ?_, Option.some.inj hname⟩
      exact hnot.1 (List.mem_map.mp hmem)
  · rintro ⟨x, hx, huser, hnot, rfl⟩
    have he := AList.mem_lookup_iff.mp ((lookup_byName hnodup).mpr ⟨hx, rfl⟩)
    refine ⟨⟨_, x⟩, he, if_neg ?_⟩
    simp only [Bool.or_eq_true, List.any_eq_true, beq_iff_eq, huser, Bool.not_true,
      Bool.false_eq_true, or_false]
    exact fun hmem => hnot (List.mem_map.mpr hmem)

/-- The name and the role of a member, as they are compared. -/
def shown (S : RegistrySettings) (x : ProjectMember) : String × ℕ := (S.toLower x.name, x.roleID)

/-- **A visited project** has the desired members afterwards, if the table of its rows is right. -/
theorem members_syncProjectMembers (hp : p ∈ h.projects)
    (hpage : (h.members p).length ≤ Harbor.pageSize)
    (hnodup : ((h.members p).map fun x => S.toLower x.name).Nodup)
    (hwant : (want.map (·.username)).Nodup) (hfixed : ∀ m ∈ want, S.toLower m.username = m.username)
    (hgroups : ∀ x ∈ h.members p, x.isUser = false → S.toLower x.name ∉ want.map (·.username)) :
    ((((S.syncProjectMembers h p want).foldl Harbor.serve h).members p).filter (·.isUser)).map
      S.shown |>.Perm (want.map fun m => (m.username, m.role.roleID)) := by
  have htracks : ∀ m ∈ want, Tracks S (byName S (h.members p)) (h.members p) m.username :=
    fun m hm => ⟨hfixed m hm, fun x => lookup_byName hnodup⟩
  obtain ⟨hp', hnodup', hmem'⟩ := members_foldl_requestFor hp hnodup hwant htracks
  rw [syncProjectMembers_eq hpage, List.foldl_append, Harbor.members_foldl_removeMember hp',
    List.filter_filter]
  have hshown : want.map (fun m => (m.username, m.role.roleID)) =
      (want.map (settled (byName S (h.members p)))).map S.shown := by
    rw [List.map_map]
    refine List.map_congr_left fun m hm => Prod.ext (htracks m hm).toLower_settled.symm ?_
    simp only [Function.comp_apply, shown, settled]
    split <;> rfl
  have hnodupWant : (want.map (settled (byName S (h.members p)))).Nodup := by
    refine List.Nodup.of_map (fun x => S.toLower x.name) ?_
    rw [List.map_map]
    convert hwant using 1
    exact List.map_congr_left fun m hm => (htracks m hm).toLower_settled
  rw [hshown]
  refine List.Perm.map _ ((List.perm_ext_iff_of_nodup ((hnodup'.of_map _).filter _)
    hnodupWant).mpr fun x => ?_)
  rw [List.mem_map, List.mem_filter, hmem' x, Bool.and_eq_true, decide_eq_true_eq,
    mem_leftover hnodup]
  constructor
  · rintro ⟨⟨hx, hnot⟩ | ⟨m, hm, rfl⟩, huser, hleft⟩
    · -- an account that is not wanted was taken off
      exact absurd ⟨x, hx, huser, hnot, rfl⟩ hleft
    · exact ⟨m, hm, rfl⟩
  · rintro ⟨m, hm, rfl⟩
    have hname := (htracks m hm).toLower_settled
    have hin : m.username ∈ want.map (·.username) := List.mem_map_of_mem hm
    refine ⟨.inr ⟨m, hm, rfl⟩, ?_, ?_⟩
    · simp only [settled]
      split
      · rfl
      · rename_i row hrow
        obtain ⟨hmem, hrow'⟩ := (lookup_byName hnodup).mp hrow
        by_contra hgroup
        exact hgroups row hmem (by simpa using hgroup) (hrow' ▸ hin)
    · rintro ⟨y, -, -, hnot, heq⟩
      rw [heq, hname] at hnot
      exact hnot hin

/-! ### The whole sweep -/

theorem lookup_syncProject {snap : AccessSnapshot} {p' : String} (hne : p ≠ p') :
    (S.syncProject snap h p').projects.lookup p = h.projects.lookup p := by
  have habout : ∀ q ∈ S.syncProjectMembers h p' (S.wanted snap p'), q.About p' "" := by
    intro q hq
    cases syncs_of_mem hq <;> rfl
  exact (Harbor.same_foldl_serve (r := "other") habout hne (by decide)).project

theorem lookup_syncAccess {snap : AccessSnapshot} {projects : List String} (hnot : p ∉ projects) :
    (S.syncAccess snap projects h).projects.lookup p = h.projects.lookup p := by
  induction projects generalizing h with
  | nil => rfl
  | cons p' projects ih =>
    rw [List.mem_cons, not_or] at hnot
    rw [syncAccess, List.foldl_cons]
    exact (ih hnot.2).trans (lookup_syncProject hnot.1)

/-- A cluster of an account `Ana`, who shares a group with `bob`. -/
private def sharedDev : Cluster := { id := "c-1", name := "dev", ownerID := "u-ana" }

private def bob : User :=
  { id := "u-bob", username := "bob", memberships := [{ groupID := "g-1", role := .write }] }

private def sharedSnapshot : AccessSnapshot :=
  { users := [{ bob with id := "u-ana", username := "Ana" }, bob], clusters := [sharedDev] }

/-- The registry with one project and these members of it. -/
private def harborWith (members : List ProjectMember) : Harbor :=
  { projects := (∅ : AList fun _ : String => RegistryProject).insert "kaas-dev" { members } }

private def staleMembers : List ProjectMember :=
  [{ name := "Ana", roleID := 2 }, { name := "carol", roleID := 2 },
    { name := "auditors", roleID := 3, isUser := false }]

/-- The account of the owner is gone, and the cluster is still being torn down. -/
private def orphanedSnapshot : AccessSnapshot :=
  { users := [bob], clusters := [{ sharedDev with phase := .deleting }] }

end RegistrySettings

end KaaS
