import KaaS.Domain.Desired
import KaaS.Quota.Grants
import Mathlib.Data.List.Sort

/-!
# What is written to an account

A row of the accounts has two writers. An administrator sets **grants** and **memberships**
(`updateUser`); a login through the directory brings the memberships that the rules of the
directory give (`syncDirectoryUserLocked`). Each is trusted with the groups it keeps the roster of,
and with no others: `mergeMemberships` takes the memberships in groups of the directory from one
side and those in groups of the portal from the other, and sorts them. A request that names a group
of the directory is not refused; what it says of the group is dropped.

The rows of the accounts are also the **ledger** of the grants. `Ledger` is the accounts and the
groups, and `Ledger.exec` what the calls that write accounts do.
-/

namespace KaaS

open Guard Text

/-! ### Requests -/

/-- A membership as a request has it: the role is text. -/
structure MembershipRequest where
  groupID : String
  role : String
  deriving DecidableEq

def GroupRole.ofText : String → Option GroupRole
  | "read" => some .read
  | "write" => some .write
  | _ => none

structure UpdateUserRequest where
  quotas : Option (AList fun _ : String => ResourceQuota) := none
  memberships : Option (List MembershipRequest) := none

/-- A rule of the directory that matched. -/
structure GroupClaim where
  groupKey : String
  role : GroupRole
  deriving DecidableEq

/-- Whom the directory says a login is. -/
structure Identity where
  username : String
  groups : List GroupClaim := []
  deriving DecidableEq

/-- What is configured of quotas and of the directory. -/
structure PortalSettings extends AccountSettings where
  sharedQuota : Bool := false
  infraProviders : List String := []
  providerBudgets : String → Budget := fun _ => {}
  mappings : List String := []

namespace PortalSettings

variable (S : PortalSettings)

/-- The infrastructures there are; without any configured, the host. -/
def providers : List String := if S.infraProviders = [] then [providerKVM] else S.infraProviders

end PortalSettings

/-! ### Memberships -/

/-- The map of all groups; of two with one id the later counts. -/
def groupsByID (groups : List Group) (id : String) : Option Group :=
  groups.reverse.find? (·.id == id)

def sortMemberships (ms : List GroupMembership) : List GroupMembership :=
  ms.insertionSort fun a b => a.groupID ≤ b.groupID

/-- The memberships of a directory group are the directory's, those of a local one are local. -/
def mergeMemberships (directorySide localSide : List GroupMembership) (groups : List Group) :
    List GroupMembership :=
  sortMemberships <|
    (directorySide.filter fun m => (groupsByID groups m.groupID).any (·.directoryManaged)) ++
      localSide.filter fun m => (groupsByID groups m.groupID).any (!·.directoryManaged)

def getGroupBySource (groups : List Group) (key : String) : Option Group :=
  if key = "" then none else groups.find? fun g => g.directoryManaged && g.sourceKey == key

/-- One claim: of two for one group the stronger counts. A claim for a group that is not there is
skipped. -/
def claim (groups : List Group) (byGroup : AList fun _ : String => GroupRole) (c : GroupClaim) :
    AList fun _ : String => GroupRole :=
  match getGroupBySource groups c.groupKey with
  | none => byGroup
  | some g => if byGroup.lookup g.id = some .write then byGroup else byGroup.insert g.id c.role

def claimedMemberships (groups : List Group) (identity : Identity) : List GroupMembership :=
  sortMemberships
    ((identity.groups.foldl (claim groups) ∅).entries.map fun e => ⟨e.1, e.2⟩)

namespace Accounts

variable (S : PortalSettings) (groups : List Group) (users : List Account)

/-- `UpdateUser` of the store: the row is rewritten as a whole. -/
def putUser (u : Account) : List Account := Keyed.put (·.id) u users

/-! ### Updates -/

/-- The loop over the requested memberships, with the groups seen so far. -/
def checkMemberships (seen : List String) :
    List MembershipRequest → Except AccountError (List GroupMembership)
  | [] => .ok []
  | m :: ms => do
    refuseIf (m.groupID = "") (.refused "membership is missing a group id")
    refuseIf (m.groupID ∈ seen) (.refused ("duplicate membership for group " ++ quote m.groupID))
    match GroupRole.ofText m.role with
    | none => throw (.refused ("invalid group role " ++ quote m.role ++ " (want read|write)"))
    | some role =>
      refuseIf (groupsByID groups m.groupID = none)
        (.refused ("unknown group " ++ quote m.groupID))
      let rest ← checkMemberships (m.groupID :: seen) ms
      pure (⟨m.groupID, role⟩ :: rest)

def grantAll (userID : String) (next : AList fun _ : String => ResourceQuota) :
    List (Sigma fun _ : String => ResourceQuota) →
      Except AccountError (AList fun _ : String => ResourceQuota)
  | [] => .ok next
  | ⟨provider, want⟩ :: rest => do
    refuseIf (provider ∉ S.providers) (.refused ("infrastructure provider " ++ quote provider ++
      " is not enabled (available: " ++ join ", " S.providers ++ ")"))
    ((S.providerBudgets provider).checkAllocation users userID provider want).mapError .refused
    grantAll userID (next.insert provider want) rest

def updatedQuotas (u : Account) (req : UpdateUserRequest) :
    Except AccountError (AList fun _ : String => ResourceQuota) :=
  match req.quotas with
  | none => .ok u.quotas
  | some grants => do
    refuseIf (S.sharedQuota = true) (.refused ("per-user quota is disabled (KAAS_SHARED_QUOTA): " ++
      "every account draws from each infrastructure's full ceiling automatically"))
    refuseIf (u.isAdmin = true) (.refused ("admin accounts draw from each infrastructure's " ++
      "unallocated pool automatically; quota can't be set directly"))
    grantAll S users u.id u.quotas grants.entries

def updatedMemberships (u : Account) (req : UpdateUserRequest) :
    Except AccountError (List GroupMembership) :=
  match req.memberships with
  | none => .ok u.memberships
  | some asked => do
    let requested ← checkMemberships groups [] asked
    pure (mergeMemberships u.memberships requested groups)

def updateUserLocked (userID : String) (req : UpdateUserRequest) :
    Except AccountError (List Account) :=
  match getUser users userID with
  | none => .error .notFound
  | some u => do
    let quotas ← updatedQuotas S users u req
    let memberships ← updatedMemberships groups u req
    pure (putUser users { u with quotas, memberships })

def updateUser (actor : Option Account) (userID : String) (req : UpdateUserRequest) :
    Except AccountError (List Account) := do
  refuseIf (actor.any (·.isAdmin) = false) .forbidden
  updateUserLocked S groups users userID req

/-! ### Logins through the directory -/

def syncDirectoryUserLocked (id : String) (identity : Identity) :
    Except AccountError (List Account) := do
  let username ← validateDirectoryUsername identity.username
  let claimed := claimedMemberships groups identity
  match getUserByUsername users username with
  | none => createUser users { id, username, fromDirectory := true, memberships := claimed }
  | some u => do
    refuseIf (u.fromDirectory = false) .localAccountCollision
    pure (putUser users
      { u with memberships := mergeMemberships claimed u.memberships groups })

/-! ### What a call that succeeds does -/

section Spec

variable {S groups users} {users' : List Account} {id userID : String} {identity : Identity}
  {req : UpdateUserRequest}

theorem updateUserLocked_eq_ok :
    updateUserLocked S groups users userID req = .ok users' ↔
      ∃ u quotas memberships, getUser users userID = some u ∧
        updatedQuotas S users u req = .ok quotas ∧
        updatedMemberships groups u req = .ok memberships ∧
        putUser users { u with quotas, memberships } = users' := by
  unfold updateUserLocked
  cases getUser users userID with
  | none => simp
  | some u =>
    simp only [bind_eq_ok, pure_eq_ok, Option.some.injEq, exists_and_left, exists_eq_left']

theorem updateUser_eq_ok {actor : Option Account}
    (h : updateUser S groups users actor userID req = .ok users') :
    updateUserLocked S groups users userID req = .ok users' := by
  simp only [updateUser, bind_eq_ok, refuseIf_eq_ok] at h
  obtain ⟨-, -, h⟩ := h
  exact h

theorem syncDirectoryUserLocked_eq_ok
    (h : syncDirectoryUserLocked groups users id identity = .ok users') :
    ∃ username, validateDirectoryUsername identity.username = .ok username ∧
      (getUserByUsername users username = none ∧
          createUser users
            { id, username, memberships := claimedMemberships groups identity
              fromDirectory := true } = .ok users' ∨
        ∃ u, getUserByUsername users username = some u ∧ u.fromDirectory = true ∧
          users' = putUser users { u with
            memberships :=
              mergeMemberships (claimedMemberships groups identity) u.memberships groups }) := by
  simp only [syncDirectoryUserLocked, bind_eq_ok] at h
  obtain ⟨username, hname, h⟩ := h
  refine ⟨username, hname, ?_⟩
  cases hget : getUserByUsername users username with
  | none =>
    rw [hget] at h
    exact .inl ⟨rfl, h⟩
  | some u =>
    rw [hget] at h
    simp only [bind_eq_ok, refuseIf_eq_ok, pure_eq_ok, Bool.not_eq_false] at h
    obtain ⟨-, hdir, rfl⟩ := h
    exact .inr ⟨u, rfl, hdir, rfl⟩

/-- What an account has on an infrastructure after a request: a grant that passed its check, or
what it had. -/
theorem grantAll_eq_ok {next next' : AList fun _ : String => ResourceQuota}
    {l : List (Sigma fun _ : String => ResourceQuota)}
    (h : grantAll S users userID next l = .ok next') (provider : String) :
    (∃ want, ⟨provider, want⟩ ∈ l ∧ next'.lookup provider = some want ∧
      (S.providerBudgets provider).checkAllocation users userID provider want = .ok ()) ∨
    next'.lookup provider = next.lookup provider := by
  induction l generalizing next with
  | nil =>
    obtain rfl := Except.ok.inj h
    exact .inr rfl
  | cons grant rest ih =>
    obtain ⟨p, want⟩ := grant
    simp only [grantAll, bind_eq_ok, mapError_eq_ok] at h
    obtain ⟨-, -, ⟨⟩, hcheck, h⟩ := h
    rcases ih h with ⟨want', hmem, hlookup, hpassed⟩ | hlookup
    · exact .inl ⟨want', List.mem_cons_of_mem _ hmem, hlookup, hpassed⟩
    · by_cases hp : provider = p
      · subst hp
        rw [AList.lookup_insert] at hlookup
        exact .inl ⟨want, List.mem_cons_self, hlookup, hcheck⟩
      · rw [AList.lookup_insert_ne hp] at hlookup
        exact .inr hlookup

theorem updatedQuotas_map {g : Account → Account} (hg : ∀ u ∈ users, (g u).SameGrants u)
    (u : Account) (req : UpdateUserRequest) :
    updatedQuotas S (users.map g) u req = updatedQuotas S users u req := by
  have hloop (next : AList fun _ : String => ResourceQuota)
      (l : List (Sigma fun _ : String => ResourceQuota)) :
      grantAll S (users.map g) u.id next l = grantAll S users u.id next l := by
    induction l generalizing next with
    | nil => rfl
    | cons grant rest ih =>
      obtain ⟨provider, want⟩ := grant
      simp only [grantAll, Budget.checkAllocation_map _ hg, ih]
  unfold updatedQuotas
  cases req.quotas with
  | none => rfl
  | some grants => simp only [hloop]

end Spec

end Accounts

/-! ### The ledger -/

structure Ledger where
  users : List Account := []
  groups : List Group := []

inductive AccountCall
  | register (id username password : String)
  | updateUser (actor : Option Account) (userID : String) (req : UpdateUserRequest)
  | deleteUser (actor : Account) (userID : String)
  | deleteGroup (actor : Account) (groupID : String)
  | syncDirectoryUser (id : String) (identity : Identity)

namespace Ledger

variable (S : PortalSettings) (s : Ledger)

/-- A live rule of the directory keeps the roster of the group. -/
def directoryRuleFor (g : Group) : Bool :=
  g.directoryManaged && S.directory && S.mappings.contains g.sourceKey

/-- The memberships go first, then the group. -/
def deleteGroup (actor : Account) (groupID : String) : Except AccountError Ledger := do
  refuseIf (actor.isAdmin = false) .forbidden
  match s.groups.find? (·.id == groupID) with
  | none => throw .notFound
  | some g => do
    refuseIf (directoryRuleFor S g = true) .forbidden
    pure
      { users := s.users.map fun u =>
          { u with memberships := u.memberships.filter (·.groupID ≠ groupID) }
        groups := s.groups.filter (·.id ≠ groupID) }

def exec : AccountCall → Except AccountError Ledger
  | .register id username password => do
    let users ← Accounts.register S.toAccountSettings s.users id username password
    pure { s with users }
  | .updateUser actor userID req => do
    let users ← Accounts.updateUser S s.groups s.users actor userID req
    pure { s with users }
  | .deleteUser actor userID => do
    let users ← Accounts.deleteUser s.users actor userID
    pure { s with users }
  | .deleteGroup actor groupID => s.deleteGroup S actor groupID
  | .syncDirectoryUser id identity => do
    let users ← Accounts.syncDirectoryUserLocked s.groups s.users id identity
    pure { s with users }

/-- A call that fails leaves everything as it was. -/
def step (call : AccountCall) : Ledger :=
  match s.exec S call with
  | .ok s' => s'
  | .error _ => s

end Ledger

end KaaS
