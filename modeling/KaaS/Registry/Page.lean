import KaaS.App.Access
import KaaS.Library.Highest
import KaaS.Registry.Sweep

/-!
# The registry page

Who may use the project of a cluster is derived three times. The sweep computes the memberships the
registry is brought to (`desiredMembers`); the portal's page and the calls behind it look the
project up in a map of their own (`projectsForUser`, `authorizeProject`); and the cluster's own
calls ask `accessTo`.

All three see a project through the same **offers**: what each cluster of that project gives an
account (`roleOn`). Both maps keep the highest, so they agree on every project that is neither the
library nor a cache (`projects_agree`), and the role is above guest where there is a cluster the
account may change.
-/

namespace KaaS

open Highest

/-! ### The page -/

namespace RegistrySettings

variable (S : RegistrySettings)

/-- The roles of one actor, by project. -/
abbrev Seen := AList fun _ : String => RegistryRole

/-- One round of the loop over the clusters. -/
def see (actor : User) (owners : AList fun _ : String => User) (out : Seen) (c : Cluster) : Seen :=
  if c.ownerID == actor.id then out.insert (S.clusterProject c) .projectAdmin
  else
    match owners.lookup c.ownerID with
    | none => out
    | some owner =>
      match groupRoleBetween actor owner with
      | none => out
      | some role =>
        if ((out.lookup (S.clusterProject c)).map (·.rank)).getD 0 < (projectRole role).rank then
          out.insert (S.clusterProject c) (projectRole role)
        else out

/-- The projects an actor may see, with the role on each; `none` is no filter at all. -/
def projectsForUser (actor : Option User) (clusters : List Cluster)
    (owners : AList fun _ : String => User) : Option Seen :=
  match actor with
  | none => some ∅
  | some actor =>
    if actor.isAdmin then none
    else
      let out := clusters.foldl (S.see actor owners) ∅
      -- everybody may read the library and the caches
      let out := out.insert S.library .guest
      some (S.upstreams.foldl (fun out u => out.insert (S.cacheProject u) .guest) out)

/-- The clusters the page and the sweep look at. -/
def liveClusters (clusters : List Cluster) : List Cluster :=
  clusters.filter (·.phase != .deleted)

/-- The owner of a cluster is looked up once, and left out if the store does not know it. -/
def noteOwner (users : List User) (owners : AList fun _ : String => User) (c : Cluster) :
    AList fun _ : String => User :=
  if c.ownerID ∉ owners ∧ c.ownerID ≠ "" then
    match users.find? (·.id == c.ownerID) with
    | none => owners
    | some u => owners.insert c.ownerID u
  else owners

def ownersOf (users : List User) (clusters : List Cluster) : AList fun _ : String => User :=
  clusters.foldl (noteOwner users) ∅

def visibleProjects (users : List User) (clusters : List Cluster) (actor : Option User) :
    Option Seen :=
  if actor.any (·.isAdmin) then none
  else S.projectsForUser actor (liveClusters clusters) (ownersOf users (liveClusters clusters))

/-- The gate in front of a project's repositories: what the actor does not see does not exist. -/
def authorizeProject (users : List User) (clusters : List Cluster) (actor : Option User)
    (project : String) : Except AccountError Unit :=
  match S.visibleProjects users clusters actor with
  | none => .ok ()
  | some visible => if project ∈ visible then .ok () else .error .notFound

def accessSnapshot (users : List User) (groups : List Group) (clusters : List Cluster) :
    AccessSnapshot :=
  { users := users, groups := groups, clusters := liveClusters clusters }

end RegistrySettings

/-- **What a cluster offers an account** on its project. -/
def roleOn (users : List User) (u : User) (c : Cluster) : Option RegistryRole :=
  if c.ownerID = u.id then some .projectAdmin
  else ((users.find? (·.id == c.ownerID)).bind (groupRoleBetween u ·)).map projectRole

/-- The accounts of a store: ids are keys and not empty, and so are names, whatever their case. -/
structure AccountKeys (toLower : String → String) (users : List User) : Prop where
  ids : (users.map (·.id)).Nodup
  id_ne : ∀ u ∈ users, u.id ≠ ""
  names : (users.map fun u => toLower u.username).Nodup
  name_ne : ∀ u ∈ users, toLower u.username ≠ ""

theorem RegistryRole.rank_injective : Function.Injective RegistryRole.rank := by
  intro a b h
  cases a <;> cases b <;> first | rfl | simp [RegistryRole.rank] at h

theorem RegistryRole.rank_pos (r : RegistryRole) : 0 < r.rank := by
  cases r <;> decide

/-! ### The offers and the portal's own check -/

section Offers

variable {users : List User} {u : User} {c : Cluster}

private theorem groupRoleBetween_eq_write {actor owner : User} :
    groupRoleBetween actor owner = some .write ↔
      ∃ m ∈ actor.memberships, owner.inGroup m.groupID ∧ m.role = .write := by
  unfold groupRoleBetween
  dsimp only
  split
  · rename_i h
    simpa using h
  · rename_i h
    refine iff_of_false ?_ (by simpa using h)
    split <;> simp

private theorem groupRoleBetween_ne_none {actor owner : User} :
    groupRoleBetween actor owner ≠ none ↔
      ∃ m ∈ actor.memberships, owner.inGroup m.groupID := by
  unfold groupRoleBetween
  dsimp only
  split
  · rename_i h
    obtain ⟨m, hm, -⟩ := List.any_eq_true.mp h
    obtain ⟨hm, hin⟩ := List.mem_filter.mp hm
    exact iff_of_true nofun ⟨m, hm, hin⟩
  · split
    · rename_i h
      refine iff_of_false (not_not_intro rfl) ?_
      simpa [List.filter_eq_nil_iff] using h
    · rename_i h
      refine iff_of_true nofun ?_
      simpa [List.filter_eq_nil_iff] using h

/-- **Full access** is an offer above guest. -/
theorem accessTo_eq_full_iff_roleOn (hadmin : u.isAdmin = false) :
    accessTo users u c = .full ↔
      ∃ r, roleOn users u c = some r ∧ RegistryRole.guest.rank < r.rank := by
  by_cases hown : c.ownerID = u.id
  · rw [accessTo_eq_full (.inr hown), roleOn, if_pos hown]
    exact iff_of_true rfl ⟨_, rfl, by decide⟩
  · rw [accessTo_eq_full_iff (by simp [hadmin, hown]), roleOn, if_neg hown]
    cases users.find? (·.id == c.ownerID) with
    | none => simp
    | some owner =>
      simp only [Option.some.injEq, exists_eq_left', Option.bind_some, Option.map_eq_some_iff]
      rw [← groupRoleBetween_eq_write]
      constructor
      · exact fun hwrite => ⟨_, ⟨_, hwrite, rfl⟩, by decide⟩
      · rintro ⟨_, ⟨role, hrole, rfl⟩, hrank⟩
        cases role with
        | write => exact hrole
        | read => exact absurd hrank (by decide)

/-- **Any access** is an offer. -/
theorem accessTo_ne_none_iff_roleOn (hadmin : u.isAdmin = false) :
    accessTo users u c ≠ .none ↔ ∃ r, roleOn users u c = some r := by
  by_cases hown : c.ownerID = u.id
  · rw [accessTo_eq_full (.inr hown), roleOn, if_pos hown]
    exact iff_of_true nofun ⟨_, rfl⟩
  · rw [accessTo_ne_none (by simp [hadmin, hown]), roleOn, if_neg hown]
    cases users.find? (·.id == c.ownerID) with
    | none => simp
    | some owner =>
      simp only [Option.some.injEq, exists_eq_left', Option.bind_some]
      rw [← groupRoleBetween_ne_none]
      cases groupRoleBetween u owner <;> simp

end Offers

namespace RegistrySettings

variable {S : RegistrySettings} {snap : AccessSnapshot} {users : List User} {u : User}
  {c : Cluster} {clusters : List Cluster} {p : String} {r : RegistryRole}

/-! ### The offers and the sweep -/

private theorem highest_put {t : Best} {key : String × String} {P : RegistryRole → Prop}
    {m : DesiredMember} (hkey : key.1 ≠ "" ∧ key.2 ≠ "")
    (h : IsHighest RegistryRole.rank P (t.lookup key)) :
    IsHighest RegistryRole.rank (fun r => P r ∨ m = ⟨key.1, key.2, r⟩) ((put t m).lookup key) := by
  by_cases hm : key = (m.project, m.username)
  · subst hm
    have hput : (put t m).lookup (m.project, m.username) =
        raise RegistryRole.rank (t.lookup (m.project, m.username)) m.role := by
      rw [put, if_neg (not_or.mpr hkey), raise]
      split
      · exact AList.lookup_insert _
      · rfl
    rw [hput]
    refine (h.raise m.role.rank_pos).congr fun r => or_congr_right ?_
    exact ⟨fun hr => hr ▸ rfl, fun hm => (congrArg DesiredMember.role hm).symm⟩
  · have hput : (put t m).lookup key = t.lookup key := by
      unfold put
      split
      · rfl
      · split
        · exact AList.lookup_insert_ne hm
        · rfl
    rw [hput]
    refine h.congr fun r => (or_iff_left ?_).symm
    rintro rfl
    exact hm rfl

private theorem highest_foldl_put {ms : List DesiredMember} {t : Best} {key : String × String}
    {P : RegistryRole → Prop} (hkey : key.1 ≠ "" ∧ key.2 ≠ "")
    (h : IsHighest RegistryRole.rank P (t.lookup key)) :
    IsHighest RegistryRole.rank (fun r => P r ∨ ⟨key.1, key.2, r⟩ ∈ ms)
      ((ms.foldl put t).lookup key) := by
  induction ms generalizing t P with
  | nil => simpa using h
  | cons m ms ih =>
    refine (ih (highest_put hkey h)).congr fun r => ?_
    rw [List.mem_cons, or_assoc, eq_comm]

theorem mem_desiredMembers {name : String} :
    ⟨p, name, r⟩ ∈ S.desiredMembers snap ↔ (S.best snap).lookup (p, name) = some r := by
  rw [desiredMembers, List.mem_insertionSort, List.mem_map]
  constructor
  · rintro ⟨⟨key, role⟩, hmem, heq⟩
    obtain ⟨rfl, rfl, rfl⟩ := DesiredMember.mk.inj heq
    exact AList.mem_lookup_iff.mpr hmem
  · exact fun h => ⟨⟨(p, name), r⟩, AList.mem_lookup_iff.mp h, rfl⟩

private theorem usersByID_eq (h : (snap.users.map (·.id)).Nodup) (id : String) :
    snap.usersByID id = snap.users.find? (·.id == id) := by
  refine Option.ext fun v => ?_
  rw [AccessSnapshot.usersByID, Keyed.find?_reverse_eq_some h, Keyed.find?_eq_some h]

/-- **What the sweep grants an account** for a cluster is what the cluster offers it. -/
theorem mem_grants (h : AccountKeys S.toLower snap.users) (hu : u ∈ snap.users)
    (hadmin : u.isAdmin = false) :
    ⟨p, S.toLower u.username, r⟩ ∈ S.grants snap c ↔
      S.clusterProject c = p ∧ roleOn snap.users u c = some r := by
  have hsame {v : User} (hv : v ∈ snap.users) (hname : S.toLower v.username =
      S.toLower u.username) : v = u := List.inj_on_of_nodup_map h.names hv hu hname
  have hfind {v : User} {id : String} : snap.users.find? (·.id == id) = some v ↔
      v ∈ snap.users ∧ v.id = id := Keyed.find?_eq_some h.ids
  rw [grants, usersByID_eq h.ids, roleOn]
  cases howner : snap.users.find? (·.id == c.ownerID) with
  | none =>
    have hne : c.ownerID ≠ u.id := by
      intro heq
      rw [heq, hfind.mpr ⟨hu, rfl⟩] at howner
      exact absurd howner (by simp)
    simp [hne]
  | some owner =>
    obtain ⟨hin, hid⟩ := hfind.mp howner
    rw [← hid, List.mem_cons, DesiredMember.mk.injEq, List.mem_filterMap]
    by_cases hown : owner.id = u.id
    · obtain rfl : owner = u := List.inj_on_of_nodup_map h.ids hin hu hown
      rw [if_pos rfl, Option.some.injEq]
      constructor
      · rintro (⟨hp, -, hr⟩ | ⟨v, hv, hrole⟩)
        · exact ⟨hp.symm, hr.symm⟩
        · -- nobody else has the owner's name
          split at hrole
          · simp at hrole
          · rename_i hnot
            obtain ⟨role, -, heq⟩ := Option.map_eq_some_iff.mp hrole
            obtain ⟨-, hname, -⟩ := DesiredMember.mk.inj heq
            simp [hsame hv hname] at hnot
      · rintro ⟨hp, hr⟩
        exact .inl ⟨hp.symm, rfl, hr.symm⟩
    · rw [if_neg hown, Option.bind_some, Option.map_eq_some_iff]
      constructor
      · rintro (⟨-, hname, -⟩ | ⟨v, hv, hrole⟩)
        · exact absurd (congrArg User.id (hsame hin hname.symm)) hown
        · split at hrole
          · simp at hrole
          · obtain ⟨role, hgroup, heq⟩ := Option.map_eq_some_iff.mp hrole
            obtain ⟨hp, hname, hr⟩ := DesiredMember.mk.inj heq
            obtain rfl := hsame hv hname
            exact ⟨hp, role, hgroup, hr⟩
      · rintro ⟨hp, role, hgroup, hr⟩
        refine .inr ⟨u, hu, ?_⟩
        rw [if_neg (by simp [hadmin, Ne.symm hown]), hgroup, Option.map_some, hp, hr]

private theorem highest_best (snap : AccessSnapshot) (h : AccountKeys S.toLower snap.users)
    (hu : u ∈ snap.users) (hadmin : u.isAdmin = false) (hp : p ≠ "") :
    IsHighest RegistryRole.rank
      (fun r => ∃ c ∈ snap.clusters, S.clusterProject c = p ∧ roleOn snap.users u c = some r)
      ((S.best snap).lookup (p, S.toLower u.username)) := by
  have hnone : IsHighest RegistryRole.rank (fun _ => False)
      ((∅ : Best).lookup (p, S.toLower u.username)) := fun _ => id
  refine (highest_foldl_put ⟨hp, h.name_ne u hu⟩ hnone).congr fun r => ?_
  simp only [false_or, List.mem_flatMap, mem_grants h hu hadmin]

/-! ### The offers and the page -/

private theorem lookup_see_ne {owners : AList fun _ : String => User} {out : Seen}
    (hp : p ≠ S.clusterProject c) : (S.see u owners out c).lookup p = out.lookup p := by
  unfold see
  split
  · exact AList.lookup_insert_ne hp
  · split
    · rfl
    · split
      · rfl
      · split
        · exact AList.lookup_insert_ne hp
        · rfl

private theorem see_eq_self {owners : AList fun _ : String => User} {out : Seen}
    (howners : owners.lookup c.ownerID = users.find? (·.id == c.ownerID))
    (hnone : roleOn users u c = none) : S.see u owners out c = out := by
  rw [see, howners]
  by_cases hown : c.ownerID = u.id
  · simp [roleOn, hown] at hnone
  · rw [roleOn, if_neg hown, Option.map_eq_none_iff, Option.bind_eq_none_iff] at hnone
    rw [if_neg (by simpa using hown)]
    split
    · rfl
    · rename_i owner howner
      rw [hnone owner howner]

private theorem highest_see_self {owners : AList fun _ : String => User} {out : Seen}
    {P : RegistryRole → Prop} (howners : owners.lookup c.ownerID = users.find? (·.id == c.ownerID))
    (hrole : roleOn users u c = some r)
    (h : IsHighest RegistryRole.rank P (out.lookup (S.clusterProject c))) :
    IsHighest RegistryRole.rank (fun x => P x ∨ x = r)
      ((S.see u owners out c).lookup (S.clusterProject c)) := by
  rw [see, howners]
  by_cases hown : c.ownerID = u.id
  · rw [roleOn, if_pos hown, Option.some.injEq] at hrole
    subst hrole
    rw [if_pos (by simpa using hown), AList.lookup_insert]
    exact .enter fun x => by cases x <;> decide
  · rw [roleOn, if_neg hown, Option.map_eq_some_iff] at hrole
    obtain ⟨role, hgroup, rfl⟩ := hrole
    obtain ⟨owner, howner, hgroup⟩ := Option.bind_eq_some_iff.mp hgroup
    rw [if_neg (by simpa using hown), howner]
    dsimp only
    rw [hgroup]
    dsimp only
    have hraise := h.raise (projectRole role).rank_pos
    unfold raise at hraise
    split
    · rename_i hlt
      rw [if_pos hlt] at hraise
      rwa [AList.lookup_insert]
    · rename_i hge
      rwa [if_neg hge] at hraise

private theorem highest_see {owners : AList fun _ : String => User} {out : Seen}
    {P : RegistryRole → Prop} (howners : owners.lookup c.ownerID = users.find? (·.id == c.ownerID))
    (h : IsHighest RegistryRole.rank P (out.lookup p)) :
    IsHighest RegistryRole.rank
      (fun r => P r ∨ S.clusterProject c = p ∧ roleOn users u c = some r)
      ((S.see u owners out c).lookup p) := by
  by_cases hp : S.clusterProject c = p
  · subst hp
    cases hrole : roleOn users u c with
    | none =>
      rw [see_eq_self howners hrole]
      exact h.congr fun r => by simp
    | some role =>
      refine (highest_see_self howners hrole h).congr fun r => ?_
      rw [Option.some.injEq, eq_comm, and_iff_right rfl]
  · rw [lookup_see_ne (Ne.symm hp)]
    exact h.congr fun r => by simp [hp]

private theorem highest_foldl_see {owners : AList fun _ : String => User} {out : Seen}
    {P : RegistryRole → Prop}
    (howners : ∀ c ∈ clusters, owners.lookup c.ownerID = users.find? (·.id == c.ownerID))
    (h : IsHighest RegistryRole.rank P (out.lookup p)) :
    IsHighest RegistryRole.rank
      (fun r => P r ∨ ∃ c ∈ clusters, S.clusterProject c = p ∧ roleOn users u c = some r)
      ((clusters.foldl (S.see u owners) out).lookup p) := by
  induction clusters generalizing out P with
  | nil => exact h.congr fun r => by simp
  | cons c cs ih =>
    obtain ⟨hc, hcs⟩ := List.forall_mem_cons.mp howners
    refine (ih hcs (highest_see hc h)).congr fun r => ?_
    simp only [List.mem_cons, or_and_right, exists_or, exists_eq_left, or_assoc]

private theorem lookup_noteOwner {owners : AList fun _ : String => User} {id : String}
    (h : ∀ id v, owners.lookup id = some v → users.find? (·.id == id) = some v) :
    (noteOwner users owners c).lookup id =
      if c.ownerID = id ∧ id ≠ "" then users.find? (·.id == id) else owners.lookup id := by
  unfold noteOwner
  by_cases hnew : c.ownerID ∉ owners ∧ c.ownerID ≠ ""
  · rw [if_pos hnew]
    by_cases hid : c.ownerID = id
    · subst hid
      rw [if_pos ⟨rfl, hnew.2⟩]
      cases hfind : users.find? (·.id == c.ownerID) with
      | none => exact AList.lookup_eq_none.mpr hnew.1
      | some v => exact AList.lookup_insert _
    · rw [if_neg fun h => hid h.1]
      split
      · rfl
      · exact AList.lookup_insert_ne (Ne.symm hid)
  · rw [if_neg hnew]
    split
    · -- it was looked up before
      rename_i hid
      obtain ⟨rfl, hne⟩ := hid
      have hin : c.ownerID ∈ owners := by
        by_contra hin
        exact hnew ⟨hin, hne⟩
      obtain ⟨v, hv⟩ := Option.isSome_iff_exists.mp (AList.lookup_isSome.mpr hin)
      rw [hv, h _ _ hv]
    · rfl

private theorem lookup_foldl_noteOwner {owners : AList fun _ : String => User} {id : String}
    (h : ∀ id v, owners.lookup id = some v → users.find? (·.id == id) = some v) :
    (clusters.foldl (noteOwner users) owners).lookup id =
      if (∃ c ∈ clusters, c.ownerID = id) ∧ id ≠ "" then users.find? (·.id == id)
      else owners.lookup id := by
  induction clusters generalizing owners with
  | nil => simp
  | cons c cs ih =>
    rw [List.foldl_cons, ih, lookup_noteOwner h]
    · by_cases hid : id = ""
      · simp [hid]
      · by_cases hcs : ∃ c ∈ cs, c.ownerID = id
        · simp [hcs, hid]
        · by_cases hc : c.ownerID = id
          · simp [hc, hid]
          · simp [hc, hcs]
    · intro id' v hv
      rw [lookup_noteOwner h] at hv
      split at hv
      · exact hv
      · exact h id' v hv

private theorem lookup_ownersOf (hids : ∀ u ∈ users, u.id ≠ "") (hc : c ∈ clusters) :
    (ownersOf users clusters).lookup c.ownerID = users.find? (·.id == c.ownerID) := by
  rw [ownersOf, lookup_foldl_noteOwner (by simp)]
  by_cases hid : c.ownerID = ""
  · rw [if_neg (by simp [hid]), hid]
    refine (List.find?_eq_none.mpr fun u hu => ?_).symm
    simpa using hids u hu
  · rw [if_pos ⟨⟨c, hc, rfl⟩, hid⟩]

/-- The platform's own projects do not disturb the others. -/
private theorem lookup_foldl_caches {upstreams : List String} {out : Seen}
    (hp : ∀ up ∈ upstreams, p ≠ S.cacheProject up) :
    (upstreams.foldl (fun out u => out.insert (S.cacheProject u) .guest) out).lookup p =
      out.lookup p := by
  induction upstreams generalizing out with
  | nil => rfl
  | cons up ups ih =>
    obtain ⟨hup, hups⟩ := List.forall_mem_cons.mp hp
    rw [List.foldl_cons, ih hups, AList.lookup_insert_ne hup]

private theorem highest_visibleProjects (clusters : List Cluster)
    (h : AccountKeys S.toLower users) (hadmin : u.isAdmin = false) (hlibrary : p ≠ S.library)
    (hcaches : ∀ up ∈ S.upstreams, p ≠ S.cacheProject up) :
    ∃ out, S.visibleProjects users clusters (some u) = some out ∧
      IsHighest RegistryRole.rank
        (fun r => ∃ c ∈ liveClusters clusters,
          S.clusterProject c = p ∧ roleOn users u c = some r) (out.lookup p) := by
  have hnone : IsHighest RegistryRole.rank (fun _ => False) ((∅ : Seen).lookup p) := fun _ => id
  refine ⟨S.upstreams.foldl (fun out u => out.insert (S.cacheProject u) .guest)
    (((liveClusters clusters).foldl (S.see u (ownersOf users (liveClusters clusters))) ∅).insert
      S.library .guest), ?_, ?_⟩
  · simp [visibleProjects, projectsForUser, hadmin]
  · rw [lookup_foldl_caches hcaches, AList.lookup_insert_ne hlibrary]
    exact (highest_foldl_see (fun c hc => lookup_ownersOf h.id_ne hc) hnone).congr
      fun r => by rw [false_or]

/-- **The gate and the portal's own check agree**: on a cluster's project an account is let through
where it has access to some live cluster of that project. -/
theorem authorizeProject_iff (h : AccountKeys S.toLower users) (hadmin : u.isAdmin = false)
    (hlibrary : p ≠ S.library) (hcaches : ∀ up ∈ S.upstreams, p ≠ S.cacheProject up) :
    S.authorizeProject users clusters (some u) p = .ok () ↔
      ∃ c ∈ liveClusters clusters, S.clusterProject c = p ∧ accessTo users u c ≠ .none := by
  obtain ⟨out, hout, hhighest⟩ :=
    highest_visibleProjects clusters h hadmin hlibrary hcaches
  have hsome : p ∈ out ↔ ∃ r, out.lookup p = some r ∧ 0 < r.rank := by
    rw [← AList.lookup_isSome, Option.isSome_iff_exists]
    exact exists_congr fun r => (and_iff_left r.rank_pos).symm
  have hgate : S.authorizeProject users clusters (some u) p = .ok () ↔ p ∈ out := by
    rw [authorizeProject, hout]
    by_cases hp : p ∈ out <;> simp [hp]
  rw [hgate, hsome, hhighest.exists_lt_iff 0]
  constructor
  · rintro ⟨r, ⟨c, hc, hp, hr⟩, -⟩
    exact ⟨c, hc, hp, (accessTo_ne_none_iff_roleOn hadmin).mpr ⟨r, hr⟩⟩
  · rintro ⟨c, hc, hp, haccess⟩
    obtain ⟨r, hr⟩ := (accessTo_ne_none_iff_roleOn hadmin).mp haccess
    exact ⟨r, ⟨c, hc, hp, hr⟩, r.rank_pos⟩

end RegistrySettings

/-- **One role, three derivations.** On every project that is neither the library nor a cache, the
page gives an account the role the registry is brought to, and none where that is none; and the
role is above guest where the account may change some live cluster of the project. -/
theorem projects_agree (S : RegistrySettings) (users : List User) (groups : List Group)
    (clusters : List Cluster) (h : AccountKeys S.toLower users) (u : User) (hu : u ∈ users)
    (hadmin : u.isAdmin = false) (p : String) (hlibrary : p ≠ S.library)
    (hcaches : ∀ up ∈ S.upstreams, p ≠ S.cacheProject up) :
    ∃ out, S.visibleProjects users clusters (some u) = some out ∧
      (∀ r, out.lookup p = some r ↔ ⟨p, S.toLower u.username, r⟩ ∈
        S.desiredMembers (RegistrySettings.accessSnapshot users groups clusters)) ∧
      ((∃ r, out.lookup p = some r ∧ RegistryRole.guest.rank < r.rank) ↔
        ∃ c ∈ RegistrySettings.liveClusters clusters,
          S.clusterProject c = p ∧ accessTo users u c = .full) := by
  obtain ⟨out, hout, hpage⟩ :=
    RegistrySettings.highest_visibleProjects clusters h hadmin hlibrary hcaches
  refine ⟨out, hout, fun r => ?_, ?_⟩
  · rw [RegistrySettings.mem_desiredMembers]
    by_cases hp : p = ""
    · subst hp
      refine iff_of_false (fun hr => ?_) fun hr => ?_
      · rw [hr] at hpage
        obtain ⟨⟨c, -, hc, -⟩, -⟩ := hpage
        exact RegistrySettings.clusterProject_ne_empty S c hc
      · obtain ⟨c, -, hm⟩ := RegistrySettings.exists_grants_of_mem_desiredMembers
          (RegistrySettings.mem_desiredMembers.mpr hr)
        exact RegistrySettings.clusterProject_ne_empty S c
          (RegistrySettings.project_of_mem_grants hm).symm
    · have hsweep := RegistrySettings.highest_best
        (RegistrySettings.accessSnapshot users groups clusters) h hu hadmin hp
      rw [hpage.unique RegistryRole.rank_injective hsweep]
  · rw [hpage.exists_lt_iff]
    constructor
    · rintro ⟨r, ⟨c, hc, hp, hr⟩, hrank⟩
      exact ⟨c, hc, hp, (accessTo_eq_full_iff_roleOn hadmin).mpr ⟨r, hr, hrank⟩⟩
    · rintro ⟨c, hc, hp, hfull⟩
      obtain ⟨r, hr, hrank⟩ := (accessTo_eq_full_iff_roleOn hadmin).mp hfull
      exact ⟨r, ⟨c, hc, hp, hr⟩, hrank⟩

/-- Two owners of clusters named `dev`, and an account that may read the one and change the
other. -/
def devUsers : List User :=
  [{ id := "u-ana", username := "Ana", memberships := [{ groupID := "g1", role := .write }] },
    { id := "u-bea", username := "bea", memberships := [{ groupID := "g2", role := .read }] },
    { id := "u-carl", username := "carl",
      memberships := [{ groupID := "g1", role := .read }, { groupID := "g2", role := .write }] }]

def devClusters : List Cluster :=
  [{ id := "c-1", name := "dev", ownerID := "u-ana" },
    { id := "c-2", name := "dev", ownerID := "u-bea" }]

theorem authorizeProject_iff_dev :
    RegistrySettings.authorizeProject {} (devUsers.take 1) devClusters devUsers.head? "kaas-dev" =
      .ok () :=
  (RegistrySettings.authorizeProject_iff
    ⟨by simp [devUsers], by simp [devUsers], by simp [devUsers], by decide +kernel⟩ rfl (by decide)
    (by simp)).mpr ⟨_, List.mem_cons_self, by decide, by decide⟩

theorem projects_agree_dev :
    (RegistrySettings.desiredMembers {}
      (RegistrySettings.accessSnapshot devUsers [] devClusters)).map
        (fun m => (m.username, m.role)) =
      [("ana", .projectAdmin), ("bea", .projectAdmin), ("carl", .developer)] ∧
    ∃ out, RegistrySettings.visibleProjects {} devUsers devClusters
        (some { id := "u-carl", username := "carl", memberships :=
          [{ groupID := "g1", role := .read }, { groupID := "g2", role := .write }] }) = some out ∧
      out.lookup "kaas-dev" = some .developer := by
  have haccounts : AccountKeys String.toLower devUsers :=
    ⟨by decide +kernel, by decide +kernel, by decide +kernel, by decide +kernel⟩
  obtain ⟨out, hout, hrole, -⟩ := projects_agree {} devUsers [] devClusters haccounts
    { id := "u-carl", username := "carl", memberships :=
      [{ groupID := "g1", role := .read }, { groupID := "g2", role := .write }] }
    (by decide +kernel) rfl "kaas-dev" (by decide +kernel) (by simp)
  exact ⟨by decide +kernel, out, hout, (hrole _).mpr (by decide +kernel)⟩

end KaaS
