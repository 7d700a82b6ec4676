import KaaS.Domain.Access

/-!
# Accounts

An account is made in three ways. The administrator is **seeded** at every start under the value
of `KAAS_ADMIN_USERNAME`, which nothing validates. A tenant **registers** under a name of its
choice, in lower case; where a directory is configured, it is **provisioned** at the first login
instead, under the name the directory has for it. The store refuses a name that is in use, and
compares names exactly.

Deleting an account removes the row; the last administrator stays.
-/

namespace KaaS

open Text

/-! ### Letter case -/

/-- How letter case is ignored: by mapping to lower case, and by comparing up to case. -/
structure CaseFolding where
  toLower : String → String
  equalFold : String → String → Bool
  refl : ∀ s, equalFold s s = true
  symm : ∀ s t, equalFold s t = true → equalFold t s = true

def asciiLower (s : String) : String := String.ofList (s.toList.map Char.toLower)

def asciiFolding : CaseFolding where
  toLower := asciiLower
  equalFold s t := asciiLower s == asciiLower t
  refl _ := beq_self_eq_true _
  symm s t h := by rwa [Bool.beq_comm]

/-! ### The accounts of the store -/

structure Account extends User where
  fromDirectory : Bool := false
  quotas : AList (fun _ : String => ResourceQuota) := ∅
  deriving DecidableEq

/-- What the accounts depend on: the environment, the directory and the registry. The registry
has accounts of its own from the start. -/
structure AccountSettings where
  folding : CaseFolding := asciiFolding
  adminUsernameEnv : String := ""
  directory : Bool := false
  hashable : String → Bool := fun _ => true
  registryLocal : Bool := true
  registryUsername : String := "admin"
  registryBuiltin : List String := ["admin"]

inductive AccountError
  | usernameLength
  | usernameChar
  | directoryUsernameLength (got : Nat)
  | directoryUsernameChar (got : Char)
  | passwordLength
  | hash
  | registrationDisabled
  | taken (username : String)
  | conflict
  | invalidCredentials
  | localAccountCollision
  | forbidden
  | ownAccount
  | lastAdmin
  | notFound
  | refused (message : String)
  deriving DecidableEq

def isLowerAlnum (ch : Char) : Bool := ('a' ≤ ch && ch ≤ 'z') || ('0' ≤ ch && ch ≤ '9')

/-- A name that its owner chooses. -/
def validateUsername (username : String) : Except AccountError String := do
  let username := trimSpace username
  if username.utf8ByteSize < 3 || username.utf8ByteSize > 32 then throw .usernameLength
  if username.toList.any fun ch => !isLowerAlnum ch && ch != '-' && ch != '_' then
    throw .usernameChar
  pure username

/-- A name that the directory chooses. -/
def validateDirectoryUsername (username : String) : Except AccountError String := do
  let username := trimSpace username
  let size := username.utf8ByteSize
  if size < 3 || size > 64 then throw (.directoryUsernameLength size)
  match username.toList.find? fun ch =>
      !isLowerAlnum ch && ch != '-' && ch != '_' && ch != '.' && ch != '@' with
  | some ch => throw (.directoryUsernameChar ch)
  | none => pure username

namespace AccountSettings

variable (S : AccountSettings)

def adminUsername : String := if S.adminUsernameEnv = "" then "admin" else S.adminUsernameEnv

/-- The name of the seeded administrator, up to case. -/
def seededAdminName (username : String) : Bool :=
  S.folding.equalFold (trimSpace username) (trimSpace S.adminUsername)

/-- The process may set passwords: the registry has accounts of its own, and the credential is
not that of a robot. -/
def canSetPasswords : Bool := S.registryLocal && !hasPrefix S.registryUsername "robot$"

end AccountSettings

namespace Accounts

/-- `CreateUser` of the store: ids and names are unique, and compared exactly. -/
def createUser (users : List Account) (u : Account) : Except AccountError (List Account) :=
  if users.any fun v => v.id == u.id || v.username == u.username then .error .conflict
  else .ok (users ++ [u])

def getUser (users : List Account) (id : String) : Option Account := users.find? (·.id == id)

def getUserByUsername (users : List Account) (username : String) : Option Account :=
  users.find? (·.username == username)

variable (S : AccountSettings)

/-- The administrator, unless an account has the name. -/
def ensureAdmin (users : List Account) (id : String) : List Account :=
  match getUserByUsername users S.adminUsername with
  | some _ => users
  | none =>
    match createUser users { id, username := S.adminUsername, isAdmin := true } with
    | .ok users' => users'
    | .error _ => users

def register (users : List Account) (id username password : String) :
    Except AccountError (List Account) := do
  if S.directory then throw .registrationDisabled
  let username ← validateUsername username
  if password.utf8ByteSize < 6 then throw .passwordLength
  if !S.hashable password then throw .hash
  match createUser users { id, username } with
  | .ok users' => pure users'
  | .error _ => throw (.taken username)

/-- The account of a directory identity, provisioned at its first login. -/
def syncDirectoryUser (users : List Account) (id identity : String) :
    Except AccountError (List Account) := do
  let username ← validateDirectoryUsername identity
  match getUserByUsername users username with
  | none => createUser users { id, username, fromDirectory := true }
  | some u => if u.fromDirectory then pure users else throw .localAccountCollision

/-- A login. `passwordOK` is the answer of the check against the stored hash, which an account of
the directory does not have, and `identity` is what the directory makes of the credentials. -/
def login (users : List Account) (id typed : String) (passwordOK : Bool)
    (identity : Option String) : Except AccountError (List Account) :=
  let typed := trimSpace typed
  if (getUserByUsername users typed).any (fun u => !u.fromDirectory && passwordOK) then .ok users
  else if !S.directory || S.seededAdminName typed then .error .invalidCredentials
  else
    match identity with
    | none => .error .invalidCredentials
    | some identity =>
      match syncDirectoryUser users id identity with
      | .error .localAccountCollision => .error .invalidCredentials
      | result => result

def countAdmins (users : List Account) : Nat :=
  (users.filter fun u => u.isAdmin && !u.fromDirectory).length

def deleteUser (users : List Account) (actor : Account) (userID : String) :
    Except AccountError (List Account) := do
  if !actor.isAdmin then throw .forbidden
  if actor.id = userID then throw .ownAccount
  match getUser users userID with
  | none => throw .notFound
  | some target =>
    if target.isAdmin && countAdmins users ≤ 1 then throw .lastAdmin
    pure (users.filter (·.id ≠ userID))

/-! ### What each does to the list of accounts -/

section Spec

variable {S} {users users' : List Account} {u : Account} {id : String}

theorem createUser_eq_ok (h : createUser users u = .ok users') :
    users' = users ++ [u] ∧ ∀ v ∈ users, v.id ≠ u.id ∧ v.username ≠ u.username := by
  unfold createUser at h
  split at h
  · cases h
  · rename_i hfree
    refine ⟨(Except.ok.inj h).symm, fun v hv => ?_⟩
    simp only [List.any_eq_true, Bool.or_eq_true, beq_iff_eq, not_exists, not_and, not_or] at hfree
    exact hfree v hv

/-- **A new account**: its name has been checked by `validate`, and it is not an administrator. -/
inductive Creates (validate : String → Except AccountError String) (users : List Account)
    (asked : String) : List Account → Prop
  | intro {u : Account} (hname : validate asked = .ok u.username) (hadmin : u.isAdmin = false)
      (hnew : ∀ v ∈ users, v.id ≠ u.id ∧ v.username ≠ u.username) :
      Creates validate users asked (users ++ [u])

theorem register_eq_ok {username password : String}
    (h : register S users id username password = .ok users') :
    ∃ name, validateUsername username = .ok name ∧
      createUser users { id, username := name } = .ok users' := by
  unfold register at h
  cases hdir : S.directory with
  | true => simp [hdir, bind, Except.bind, throw, throwThe, MonadExceptOf.throw] at h
  | false =>
    cases hname : validateUsername username with
    | error e => simp [hdir, hname, bind, Except.bind] at h
    | ok name =>
      simp only [hdir, hname, bind, Except.bind, Bool.false_eq_true, if_false, throw, throwThe,
        MonadExceptOf.throw, pure, Except.pure] at h
      split at h
      · cases h
      · split at h
        · cases h
        · split at h
          · rename_i users'' hcreate
            obtain rfl := Except.ok.inj h
            exact ⟨name, rfl, hcreate⟩
          · cases h

theorem creates_of_register {username password : String}
    (h : register S users id username password = .ok users') :
    Creates validateUsername users username users' := by
  obtain ⟨name, hname, hcreate⟩ := register_eq_ok h
  obtain ⟨rfl, hnew⟩ := createUser_eq_ok hcreate
  exact .intro hname rfl hnew

theorem creates_of_syncDirectoryUser {identity : String}
    (h : syncDirectoryUser users id identity = .ok users') :
    users' = users ∨ Creates validateDirectoryUsername users identity users' := by
  unfold syncDirectoryUser at h
  cases hname : validateDirectoryUsername identity with
  | error e => simp [hname, bind, Except.bind] at h
  | ok name =>
    simp only [hname, bind, Except.bind] at h
    split at h
    · obtain ⟨rfl, hnew⟩ := createUser_eq_ok h
      exact .inr (.intro hname rfl hnew)
    · split at h
      · exact .inl (Except.ok.inj h).symm
      · cases h

theorem creates_of_login {typed : String} {passwordOK : Bool} {identity : Option String}
    (h : login S users id typed passwordOK identity = .ok users') :
    users' = users ∨ ∃ name, identity = some name ∧
      Creates validateDirectoryUsername users name users' := by
  simp only [login] at h
  split at h
  · exact .inl (Except.ok.inj h).symm
  · split at h
    · cases h
    · split at h
      · cases h
      · rename_i name
        split at h
        · cases h
        · rcases creates_of_syncDirectoryUser h with heq | hcreates
          · exact .inl heq
          · exact .inr ⟨name, rfl, hcreates⟩

theorem deleteUser_eq_ok {actor : Account} (h : deleteUser users actor id = .ok users') :
    users' = users.filter (·.id ≠ id) ∧
      ∃ target, getUser users id = some target ∧
        (target.isAdmin = true → 1 < countAdmins users) := by
  unfold deleteUser at h
  cases hadmin : actor.isAdmin with
  | false => simp [hadmin, bind, Except.bind, throw, throwThe, MonadExceptOf.throw] at h
  | true =>
    simp only [hadmin, bind, Except.bind, Bool.not_true, Bool.false_eq_true, if_false, throw,
      throwThe, MonadExceptOf.throw, pure, Except.pure] at h
    split at h
    · cases h
    · split at h
      · cases h
      · rename_i target htarget
        split at h
        · cases h
        · rename_i hlast
          refine ⟨(Except.ok.inj h).symm, target, htarget, fun hisAdmin => ?_⟩
          simpa [hisAdmin] using hlast

end Spec

end Accounts

end KaaS
