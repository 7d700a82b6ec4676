import KaaS.System.Live

/-!
# Clusters and the accounts that own them

`DeleteUser` marks the clusters of the account, then removes the account, all under
`LockAdmission`. Two things can still leave a **live cluster without an owner**:

* `CreateCluster` resolved its actor before it asked for the lock, and creates a cluster for an
  account that is gone by then;
* a mutation or a tick that read a cluster before the cascade marked it stores its copy after,
  and the mark is lost.

`Fleet.OwnersKept` says that a step does neither, and in every run of such steps each cluster
that is not going away has an owner (`owned_of_ownersKept`). The invariant that carries the
proof speaks about the cascade in progress: whatever it has not marked yet is on its list.
-/

namespace KaaS

open TransitionSystem

variable {ω : Type}

/-! ### The condition -/

namespace Fleet

/-- The write of a tick on `copy` would be accepted. -/
def accepts (s : Fleet ω) (copy : Cluster) : Bool :=
  (s.row? copy.id).any (·.generation == copy.generation)

/-- The account exists and nobody is deleting it. -/
def stands (s : Fleet ω) (user : String) : Bool :=
  s.users.contains user && s.flights.all fun
    | .deleteUser user' _ => user' != user
    | _ => true

/-- The step creates no cluster for an account that is gone, and revives none whose account is
gone or going. -/
def OwnersKept (s : Fleet ω) : FleetInput → Prop
  | .create i _ _ =>
    match s.flights[i]? with
    | some (.create actor) => actor ∈ s.users
    | _ => True
  | .commitCall i =>
    match s.flights[i]? with
    | some (.call k copy) =>
      k.2.isDelete = true ∨ s.revives copy = false ∨ s.stands copy.ownerID = true
    | _ => True
  | .commitTick i =>
    match s.flights[i]? with
    | some (.worked copy _) =>
      s.accepts copy = false ∨ s.revives copy = false ∨ s.stands copy.ownerID = true
    | _ => True
  | _ => True

instance OwnersKept.decidable (s : Fleet ω) (i : FleetInput) : Decidable (s.OwnersKept i) :=
  match i with
  | .create i .. | .commitCall i | .commitTick i => by
    unfold OwnersKept
    dsimp only
    generalize s.flights[i]? = f
    exact match f with
      | none | some (.create _) | some (.call ..) | some (.tick ..) | some (.worked ..)
      | some (.deleteUser ..) => by dsimp only; infer_instance
  | .register _ | .startCreate _ | .startCall .. | .startDeleteUser _ | .deleteNext _
  | .startTick _ | .work .. | .abandon _ => inferInstanceAs (Decidable True)

end Fleet

/-! ### The invariant -/

/-- Every cluster that is not going away has an owner, and is still on the list of whoever is
deleting that owner. -/
structure Fleet.Owned (s : Fleet ω) : Prop where
  owner : ∀ row ∈ s.rows, row.leaving = false → row.ownerID ∈ s.users
  marked : ∀ user left, .deleteUser user left ∈ s.flights →
    ∀ row ∈ s.rows, row.leaving = false → row.ownerID = user → row.id ∈ left.map (·.id)

section Invariant

variable {D : Deployment ω} {s : Fleet ω} {x copy : Cluster}

/-- No cluster of the fleet is ever `Failed`: the phase exists and nothing enters it. -/
theorem keeps_ne_failed (D : Deployment ω) : D.Keeps (·.phase ≠ .failed) where
  created := by
    intro s actor adm req c hc
    obtain ⟨-, hok⟩ := Deployment.admitNew_fresh hc
    rw [(created_of_createCluster hok).phase]
    exact Phase.noConfusion
  edit := fun _ _ _ hne h => h.ne_failed hne
  mark := fun _ _ => Phase.noConfusion
  tick := fun _ _ _ hne h => h.ne_failed hne

private theorem Fleet.Owned.with_flights (h : s.Owned) {flights : List FleetFlight} {w : ω}
    (hf : ∀ user left, .deleteUser user left ∈ flights → .deleteUser user left ∈ s.flights) :
    Fleet.Owned { s with flights, world := w } :=
  ⟨h.owner, fun user left hfl => h.marked user left (hf user left hfl)⟩

private theorem Fleet.Owned.closed (h : s.Owned) (i : Nat) : (s.closed i).Owned :=
  h.with_flights fun _ _ hf => List.eraseIdx_subset hf

/-- A write keeps the invariant if what it stores is going away, was not going away, or has an
owner that stands. -/
private theorem Fleet.Owned.store (h : s.Owned) (hsound : s.Sound D) (hx : Copies s.rows x)
    (hrow : x.leaving = false →
      (∀ row ∈ s.rows, row.id = x.id → row.leaving = false) ∨ s.stands x.ownerID = true) :
    (s.store x).Owned := by
  -- a stored copy has the owner and the id of the row it replaces
  have hcases : ∀ row ∈ (s.store x).rows, row.leaving = false →
      (∃ old ∈ s.rows, old.leaving = false ∧ old.ownerID = row.ownerID ∧ old.id = row.id) ∨
        s.stands row.ownerID = true := by
    intro row hmem hlive
    rcases Fleet.mem_store hmem with ⟨rfl, old, hold, hid⟩ | ⟨hmem, -⟩
    · rcases hrow hlive with hlive' | hstands
      · have hsame := hsound.sameIdentity hold hx hid
        exact .inl ⟨old, hold, hlive' old hold hid, hsame.ownerID.symm, hid⟩
      · exact .inr hstands
    · exact .inl ⟨row, hmem, hlive, rfl, rfl⟩
  refine ⟨fun row hmem hlive => ?_, fun user left hf row hmem hlive hown => ?_⟩
  · rcases hcases row hmem hlive with ⟨old, hold, hlive', hown, -⟩ | hstands
    · rw [← hown]
      exact h.owner old hold hlive'
    · simp only [Fleet.stands, Bool.and_eq_true] at hstands
      exact List.contains_iff_mem.1 hstands.1
  · rcases hcases row hmem hlive with ⟨old, hold, hlive', hown', hid⟩ | hstands
    · rw [← hid]
      exact h.marked user left hf old hold hlive' (hown'.trans hown)
    · simp only [Fleet.stands, Bool.and_eq_true, List.all_eq_true] at hstands
      simpa [hown] using hstands.2 _ hf

private theorem Fleet.Owned.opened {f : FleetFlight} (h : s.Owned)
    (hfailed : s.All (·.phase ≠ .failed)) (hf : Opens s f) : (s.opened f).Owned := by
  refine ⟨h.owner, fun user left hmem row hrow hlive hown => ?_⟩
  rcases List.mem_append.1 hmem with hmem | hmem
  · exact h.marked user left hmem row hrow hlive hown
  · cases hf with
    | deleteUser huser hlock =>
      obtain ⟨rfl, rfl⟩ := FleetFlight.deleteUser.inj (List.mem_singleton.1 hmem)
      refine List.mem_map_of_mem (List.mem_filter.2 ⟨hrow, ?_⟩)
      have hne := hfailed.rows row hrow
      revert hlive hne
      simp only [hown, beq_self_eq_true, Bool.true_and]
      unfold Cluster.leaving
      cases row.phase <;> decide
    | create | call | tick => cases List.mem_singleton.1 hmem

private theorem kept_closed {i : Nat} (hsame : SameIdentity copy x)
    (hlive : copy.leaving = false)
    (h : s.revives copy = false ∨ s.stands copy.ownerID = true) :
    (∀ row ∈ (s.closed i).rows, row.id = x.id → row.leaving = false) ∨
      (s.closed i).stands x.ownerID = true := by
  rw [hsame.id, hsame.ownerID]
  refine h.imp (not_leaving_of_revives hlive) fun hstands => ?_
  simp only [Fleet.stands, Bool.and_eq_true, List.all_eq_true] at hstands ⊢
  exact ⟨hstands.1, fun f hf => hstands.2 f (List.eraseIdx_subset hf)⟩

private theorem Fleet.Owned.marks (h : s.Owned) {i : Nat} {user : String}
    {left : List Cluster} (hi : s.flights[i]? = some (.deleteUser user (x :: left))) :
    (({ s with flights := s.flights.set i (.deleteUser user left) } : Fleet ω).store
      (markDeleting x)).Owned := by
  have hmem : FleetFlight.deleteUser user (x :: left) ∈ s.flights := List.mem_of_getElem? hi
  refine ⟨fun row hrow hlive => ?_, fun user' left' hf row hrow hlive hown => ?_⟩
  · rcases Fleet.mem_store hrow with ⟨rfl, -⟩ | ⟨hrow, -⟩
    · cases hlive
    · exact h.owner row hrow hlive
  · rcases Fleet.mem_store hrow with ⟨rfl, -⟩ | ⟨hrow, hid⟩
    · cases hlive
    · rcases List.mem_or_eq_of_mem_set hf with hf | hf
      · exact h.marked user' left' hf row hrow hlive hown
      · obtain ⟨rfl, rfl⟩ := FleetFlight.deleteUser.inj hf
        have hlist := h.marked user' (x :: left') hmem row hrow hlive hown
        rw [List.map_cons, List.mem_cons] at hlist
        exact hlist.resolve_left hid

/-- **One step** of the condition keeps every live cluster owned. -/
private theorem Fleet.Owned.step {i : FleetInput} {s' : Fleet ω} (h : s.Owned)
    (hsound : s.Sound D) (hfailed : s.All (·.phase ≠ .failed)) (hcond : s.OwnersKept i)
    (hstep : FleetStep D s i s') : s'.Owned := by
  cases hstep with
  | stays i hsub => exact h.with_flights fun _ _ hf => hsub.subset hf
  | registered user =>
    exact ⟨fun row hrow hlive => List.mem_cons_of_mem _ (h.owner row hrow hlive), h.marked⟩
  | opened i hf => exact h.opened hfailed hf
  | @created i adm req actor c hi hlock hc =>
    obtain ⟨-, hok⟩ := Deployment.admitNew_fresh hc
    have hown : c.ownerID = actor := (identity_of_createCluster hok).2.1
    simp only [Fleet.OwnersKept, hi] at hcond
    refine ⟨fun row hrow hlive => ?_, fun user left hf => ?_⟩
    · rcases List.mem_append.1 hrow with hrow | hrow
      · exact h.owner row hrow hlive
      · rw [List.mem_singleton.1 hrow, hown]
        exact hcond
    · -- nobody deletes an account while a cluster is admitted
      have hlocks := List.any_eq_false.1 hlock _ (List.eraseIdx_subset hf)
      exact absurd rfl hlocks
  | @called i k copy c hi hedit =>
    have hcopy : Copies s.rows copy := hsound.flights _ (List.mem_of_getElem? hi)
    have hsame := hedit.sameIdentity
    refine (h.closed i).store (hsound.closed i) (hcopy.trans hsame) fun hlive => ?_
    have hdel : k.2.isDelete = false := by
      cases hd : k.2.isDelete with
      | false => rfl
      | true => rw [hedit.leaving_delete hd] at hlive; cases hlive
    simp only [Fleet.OwnersKept, hi, hdel, Bool.false_eq_true, false_or] at hcond
    exact (kept_closed hsame (hedit.leaving hdel).1 hcond)
  | marked hi => exact h.marks hi
  | @userDeleted i user hi =>
    refine ⟨fun row hrow hlive => ?_, fun user' left hf => ?_⟩
    · refine List.mem_filter.2 ⟨h.owner row hrow hlive, ?_⟩
      -- the list is empty, so the account has no live cluster left
      have hnone := h.marked user [] (List.mem_of_getElem? hi) row hrow hlive
      simpa using hnone
    · exact h.marked user' left (List.eraseIdx_subset hf)
  | worked hi =>
    refine h.with_flights fun user left hf => ?_
    exact (List.mem_or_eq_of_mem_set hf).resolve_right nofun
  | @ticked i copy c row hi hrow hgen =>
    obtain ⟨hcopy, hresult⟩ := hsound.flights _ (List.mem_of_getElem? hi)
    obtain ⟨evs, htick⟩ := hresult c rfl
    have hsame := htick.sameIdentity
    refine (h.closed i).store (hsound.closed i) (hcopy.trans hsame) fun hlive => ?_
    have haccepts : s.accepts copy = true := by
      simp [Fleet.accepts, hrow, hgen, htick.sameDesire.generation]
    simp only [Fleet.OwnersKept, hi, haccepts, Bool.true_eq_false, false_or] at hcond
    exact kept_closed hsame (htick.leaving ▸ hlive) hcond

end Invariant

/-! ### Runs -/

/-- **No live cluster is without an owner** in every run of steps that meet `OwnersKept`, at any
moment of the run, whatever is in progress. -/
theorem owned_of_ownersKept (D : Deployment ω) (w : ω) (is : List FleetInput)
    (h : Along D.step Fleet.OwnersKept (Fleet.initial w) is) :
    ∀ c ∈ (run D.step (Fleet.initial w) is).rows, c.phase ≠ .deleting → c.phase ≠ .deleted →
      c.ownerID ∈ (run D.step (Fleet.initial w) is).users := by
  intro c hc hdeleting hdeleted
  have hinit : (Fleet.initial w).Owned :=
    ⟨fun _ hrow => absurd hrow List.not_mem_nil, fun _ _ hf => absurd hf List.not_mem_nil⟩
  obtain ⟨-, -, howned⟩ := D.run_invariant (I := Fleet.Owned) (keeps_ne_failed D)
    (fun _ _ _ hsound hfailed hI hcond hstep => hI.step hsound hfailed hcond hstep) hinit h
  refine howned.owner c hc ?_
  revert hdeleting hdeleted
  unfold Cluster.leaving
  cases c.phase <;> simp [Phase.leaving]

/-- A deployment whose world nobody looks at. -/
def plainDeployment : Deployment Unit where
  platform := rollingPlatform
  effect := fun _ _ _ w => w

/-- The account is deleted after its cluster was created; the cascade marks the cluster. -/
def accountDeleted : List FleetInput :=
  [.register "alice", .startCreate "alice", .create 0 { id := "1" } { name := "dev" },
    .startDeleteUser "alice", .deleteNext 0, .deleteNext 0]

theorem owned_accountDeleted :
    Along plainDeployment.step Fleet.OwnersKept (Fleet.initial ()) accountDeleted ∧
    ∀ c ∈ (run plainDeployment.step (Fleet.initial ()) accountDeleted).rows,
      c.phase ≠ .deleting → c.phase ≠ .deleted →
      c.ownerID ∈ (run plainDeployment.step (Fleet.initial ()) accountDeleted).users := by
  have hcond : Along plainDeployment.step Fleet.OwnersKept (Fleet.initial ()) accountDeleted := by
    decide +kernel
  exact ⟨hcond, owned_of_ownersKept plainDeployment () accountDeleted hcond⟩

/-- The account is deleted between the moment `CreateCluster` resolved its actor and the moment
it got the lock. -/
def accountDeletedDuringCreate : List FleetInput :=
  [.register "alice", .startCreate "alice", .startDeleteUser "alice", .deleteNext 1,
    .create 0 { id := "1" } { name := "dev" }]

/-- Nothing is in progress any more, no account is left, and a cluster is about to be built. -/
theorem orphaned_accountDeletedDuringCreate :
    let s := run plainDeployment.step (Fleet.initial ()) accountDeletedDuringCreate
    s.flights.length = 0 ∧ s.users = [] ∧
      s.rows.map (fun c => (c.ownerID, c.phase)) = [("alice", .pending)] := by
  decide +kernel

end KaaS
