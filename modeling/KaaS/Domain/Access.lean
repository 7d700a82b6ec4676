import KaaS.Domain.Cluster

/-!
# Accounts and groups

A cluster belongs to an account. The members of a group reach the clusters of whoever is in the
group with them, each at their own role in it. The registry and Vault mirror this model from an
`AccessSnapshot` of the whole store.
-/

namespace KaaS

inductive GroupRole
  | read | write
  deriving DecidableEq

structure GroupMembership where
  groupID : String
  role : GroupRole
  deriving DecidableEq

structure User where
  id : String
  username : String
  isAdmin : Bool := false
  memberships : List GroupMembership := []
  deriving DecidableEq

/-- A group. A rule of the directory with the key `sourceKey` keeps the roster of one that is
`directoryManaged`; the administrators keep that of any other. -/
structure Group where
  id : String
  directoryManaged : Bool := false
  sourceKey : String := ""
  deriving DecidableEq

structure ResourceQuota where
  vcpu : Int := 0
  memMB : Int := 0
  diskGB : Int := 0
  deriving DecidableEq

def User.roleIn (u : User) (groupID : String) : Option GroupRole :=
  (u.memberships.find? (·.groupID == groupID)).map (·.role)

def User.inGroup (u : User) (groupID : String) : Bool := (u.roleIn groupID).isSome

/-- The authorization state that a sweep reads from the store; the clusters are the live ones. -/
structure AccessSnapshot where
  users : List User := []
  groups : List Group := []
  clusters : List Cluster := []

/-- The map by id both mirrors start from: of two accounts with one id the later counts. -/
def AccessSnapshot.usersByID (snap : AccessSnapshot) (id : String) : Option User :=
  snap.users.reverse.find? (·.id == id)

/-- The snapshot after `deleteGroupLocked`: the memberships go with the group. -/
def AccessSnapshot.deleteGroup (snap : AccessSnapshot) (id : String) : AccessSnapshot :=
  { snap with
    users := snap.users.map fun u =>
      { u with memberships := u.memberships.filter (·.groupID ≠ id) }
    groups := snap.groups.filter (·.id ≠ id) }

end KaaS
