import KaaS.Domain.Cluster
import KaaS.Library.Run
import KaaS.Library.Window
import Mathlib.Data.List.AList

/-!
# Logins against the directory

`Login` forwards a password to the directory, where every bad one counts against the account's
own lockout. Two counters stand in front of it, in the store that all API replicas share: one for
the **user name as it was typed**, one for the source address. An attempt reads both, is then
answered by the directory, and after a rejection counts it under both keys; a success clears both.
Attempts of any number of replicas interleave between these statements.

For attempts that come one at a time under a key the counter does what it is for, by
`RateLimit.Inv.rejections_le` at that key (`rejections_le`). For the accounts of the directory this
is not enough: `Alice` and `alice` are one account with two counters, and attempts that all read
before the first is counted all pass. For a source address it is not enough either, since a login
to an account of one's own clears the counter.
-/

namespace KaaS

open TransitionSystem Text

/-! ### The counters -/

inductive ThrottleScope
  | user | ip
  deriving DecidableEq

abbrev ThrottleKey := ThrottleScope × String

structure ThrottleConfig where
  maxUser : Int := 3
  maxIP : Int := 30
  window : Duration := 5 * Duration.minute

def ThrottleConfig.maxFor (cfg : ThrottleConfig) : ThrottleScope → Int
  | .ip => cfg.maxIP
  | .user => cfg.maxUser

/-- The keys one attempt is counted under; an unknown address is not counted. -/
def throttleScopes (username clientIP : String) : List ThrottleKey :=
  (.user, username) :: if clientIP = "" then [] else [(.ip, clientIP)]

abbrev LoginFailures := AList fun _ : ThrottleKey => RateLimit.Counter

namespace LoginFailures

def recordLoginFailure (t : LoginFailures) (key : ThrottleKey) (window now : Int) : LoginFailures :=
  t.insert key (RateLimit.record window now (t.lookup key))

def resetLoginFailures (t : LoginFailures) (key : ThrottleKey) : LoginFailures := t.erase key

/-- The rows of windows that are over are deleted. -/
def pruneLoginFailures (t : LoginFailures) (window now : Int) : LoginFailures :=
  ⟨t.entries.filter fun e => !decide (e.2.expired window now),
    List.NodupKeys.sublist List.filter_sublist t.nodupKeys⟩

theorem lookup_pruneLoginFailures (t : LoginFailures) (window now : Int) (key : ThrottleKey) :
    (t.pruneLoginFailures window now).lookup key =
      (t.lookup key).filter fun c => !decide (c.expired window now) := by
  ext c
  rw [← Option.mem_def, ← Option.mem_def, AList.mem_lookup_iff, Option.mem_filter_iff,
    AList.mem_lookup_iff]
  exact List.mem_filter

end LoginFailures

/-! ### Attempts -/

/-- How `Authenticate` and the sync of the account that follows it end. -/
inductive Verdict
  /-- invalid credentials, without a bind: no password, or no such account -/
  | unsent
  /-- the bind failed -/
  | rejected
  /-- any other error: the directory did not answer, or the account could not be synced -/
  | failed
  | accepted
  deriving DecidableEq

/-- What an attempt has still to do: keys to check before it is forwarded, keys to count it
under, keys to clear. -/
inductive LoginStage
  | checking (left : List ThrottleKey)
  | recording (left : List ThrottleKey)
  | resetting (left : List ThrottleKey)

structure LoginAttempt where
  username : String
  clientIP : String
  stage : LoginStage

def LoginAttempt.scopes (a : LoginAttempt) : List ThrottleKey :=
  throttleScopes a.username a.clientIP

/-- An attempt that the directory was asked about. -/
structure Forwarded where
  username : String
  clientIP : String
  time : Int
  verdict : Verdict

/-- The counters, the attempts in progress and, for the record, what was forwarded, latest first,
and which windows were started. -/
structure Logins where
  now : Int
  failures : LoginFailures := ∅
  attempts : List LoginAttempt := []
  forwarded : List Forwarded := []
  windows : List (ThrottleKey × Int) := []

/-- The limits, the name of the seeded administrator, and the case folding by which names are
compared, here and in the directory. -/
structure LoginSettings where
  throttle : ThrottleConfig := {}
  adminUsername : String := "admin"
  fold : String → String := String.toLower

inductive LoginInput
  | wait (d : Nat)
  /-- a login; `localOK` says whether a local account has this password -/
  | start (username clientIP : String) (localOK : Bool)
  /-- one key is read; a table that cannot be read lets the attempt pass -/
  | check (i : Nat) (readable : Bool)
  | authenticate (i : Nat) (verdict : Verdict)
  | record (i : Nat) (stored : Bool)
  | reset (i : Nat) (stored : Bool)
  | prune

def LoginInput.typed? : LoginInput → Option String
  | .start typed _ _ => some typed
  | _ => none

namespace Logins

def closed (s : Logins) (i : Nat) : Logins := { s with attempts := s.attempts.eraseIdx i }

/-- The attempt goes on as `a`, or ends if no keys are left. -/
def advance (s : Logins) (i : Nat) (a : LoginAttempt) (left : List ThrottleKey) : Logins :=
  { s with attempts := if left = [] then s.attempts.eraseIdx i else s.attempts.set i a }

end Logins

namespace LoginSettings

variable (S : LoginSettings)

/-- The directory's account for a login name. -/
def account (username : String) : String := S.fold username

def seededAdminName (username : String) : Bool :=
  S.fold (trimSpace username) == S.fold (trimSpace S.adminUsername)

def maxFor (key : ThrottleKey) : Int := S.throttle.maxFor key.1

def step (s : Logins) : LoginInput → Logins
  | .wait d => { s with now := s.now + d }
  | .start typed clientIP localOK =>
    let username := trimSpace typed
    if localOK then s
    else if S.seededAdminName username then s
    else
      { s with attempts := s.attempts ++
          [⟨username, clientIP, .checking (throttleScopes username clientIP)⟩] }
  | .check i readable =>
    match s.attempts[i]? with
    | some ⟨username, clientIP, .checking (key :: left)⟩ =>
      if readable && !RateLimit.passes (S.maxFor key) S.throttle.window s.now
          (s.failures.lookup key) then s.closed i
      else { s with attempts := s.attempts.set i ⟨username, clientIP, .checking left⟩ }
    | _ => s
  | .authenticate i verdict =>
    match s.attempts[i]? with
    | some ⟨username, clientIP, .checking []⟩ =>
      let s := { s with forwarded := ⟨username, clientIP, s.now, verdict⟩ :: s.forwarded }
      let scopes := throttleScopes username clientIP
      match verdict with
      | .unsent | .rejected =>
        { s with attempts := s.attempts.set i ⟨username, clientIP, .recording scopes⟩ }
      | .accepted => { s with attempts := s.attempts.set i ⟨username, clientIP, .resetting scopes⟩ }
      | .failed => s.closed i
    | _ => s
  | .record i stored =>
    match s.attempts[i]? with
    | some ⟨username, clientIP, .recording (key :: left)⟩ =>
      let s := s.advance i ⟨username, clientIP, .recording left⟩ left
      if stored then
        let window := S.throttle.window
        { s with
          failures := s.failures.recordLoginFailure key window s.now
          windows :=
            (key, (RateLimit.record window s.now (s.failures.lookup key)).start) :: s.windows }
      else s
    | _ => s
  | .reset i stored =>
    match s.attempts[i]? with
    | some ⟨username, clientIP, .resetting (key :: left)⟩ =>
      let s := s.advance i ⟨username, clientIP, .resetting left⟩ left
      if stored then { s with failures := s.failures.resetLoginFailures key } else s
    | _ => s
  | .prune => { s with failures := s.failures.pruneLoginFailures S.throttle.window s.now }

/-- The state after a run on an empty table. -/
def run (now : Int) (is : List LoginInput) : Logins := TransitionSystem.run S.step { now } is

end LoginSettings

/-! ### Inversion -/

/-- **One step.** -/
inductive LoginStep (S : LoginSettings) (s : Logins) : LoginInput → Logins → Prop
  | same (i : LoginInput) : LoginStep S s i s
  | waited (d : Nat) : LoginStep S s (.wait d) { s with now := s.now + d }
  | started (typed clientIP : String) (localOK : Bool) :
      LoginStep S s (.start typed clientIP localOK)
        { s with attempts := s.attempts ++ [⟨trimSpace typed, clientIP,
            .checking (throttleScopes (trimSpace typed) clientIP)⟩] }
  | refused {i : Nat} {readable : Bool} {username clientIP : String} {left : List ThrottleKey}
      (hi : s.attempts[i]? = some ⟨username, clientIP, .checking left⟩) :
      LoginStep S s (.check i readable) (s.closed i)
  | checked {i : Nat} {readable : Bool} {username clientIP : String} {key : ThrottleKey}
      {left : List ThrottleKey}
      (hi : s.attempts[i]? = some ⟨username, clientIP, .checking (key :: left)⟩)
      (hpass : readable = true → RateLimit.passes (S.maxFor key) S.throttle.window s.now
        (s.failures.lookup key) = true) :
      LoginStep S s (.check i readable)
        { s with attempts := s.attempts.set i ⟨username, clientIP, .checking left⟩ }
  | answered {i : Nat} {verdict : Verdict} {username clientIP : String}
      (hi : s.attempts[i]? = some ⟨username, clientIP, .checking []⟩)
      {attempts : List LoginAttempt}
      (hattempts : attempts = match verdict with
        | .unsent | .rejected =>
          s.attempts.set i ⟨username, clientIP, .recording (throttleScopes username clientIP)⟩
        | .accepted =>
          s.attempts.set i ⟨username, clientIP, .resetting (throttleScopes username clientIP)⟩
        | .failed => s.attempts.eraseIdx i) :
      LoginStep S s (.authenticate i verdict)
        { s with
          attempts
          forwarded := ⟨username, clientIP, s.now, verdict⟩ :: s.forwarded }
  | recorded {i : Nat} {username clientIP : String} {key : ThrottleKey} {left : List ThrottleKey}
      (hi : s.attempts[i]? = some ⟨username, clientIP, .recording (key :: left)⟩) :
      LoginStep S s (.record i true)
        { s.advance i ⟨username, clientIP, .recording left⟩ left with
          failures := s.failures.recordLoginFailure key S.throttle.window s.now
          windows :=
            (key, (RateLimit.record S.throttle.window s.now (s.failures.lookup key)).start) ::
              s.windows }
  | unrecorded {i : Nat} {username clientIP : String} {key : ThrottleKey}
      {left : List ThrottleKey}
      (hi : s.attempts[i]? = some ⟨username, clientIP, .recording (key :: left)⟩) :
      LoginStep S s (.record i false) (s.advance i ⟨username, clientIP, .recording left⟩ left)
  | cleared {i : Nat} {username clientIP : String} {key : ThrottleKey} {left : List ThrottleKey}
      (hi : s.attempts[i]? = some ⟨username, clientIP, .resetting (key :: left)⟩) :
      LoginStep S s (.reset i true)
        { s.advance i ⟨username, clientIP, .resetting left⟩ left with
          failures := s.failures.resetLoginFailures key }
  | uncleared {i : Nat} {username clientIP : String} {key : ThrottleKey} {left : List ThrottleKey}
      (hi : s.attempts[i]? = some ⟨username, clientIP, .resetting (key :: left)⟩) :
      LoginStep S s (.reset i false) (s.advance i ⟨username, clientIP, .resetting left⟩ left)
  | pruned :
      LoginStep S s .prune
        { s with failures := s.failures.pruneLoginFailures S.throttle.window s.now }

/-- **Inversion of `step`.** -/
theorem loginStep (S : LoginSettings) (s : Logins) (i : LoginInput) :
    LoginStep S s i (S.step s i) := by
  cases i with
  | wait d => exact .waited d
  | start typed clientIP localOK =>
    simp only [LoginSettings.step]
    split
    · exact .same _
    · split
      · exact .same _
      · exact .started typed clientIP localOK
  | check i readable =>
    simp only [LoginSettings.step]
    split
    · rename_i hi
      split
      · exact .refused hi
      · rename_i hpass
        refine .checked hi fun hreadable => ?_
        simpa [hreadable] using hpass
    · exact .same _
  | authenticate i verdict =>
    simp only [LoginSettings.step]
    split
    · rename_i hi
      cases verdict <;> exact .answered hi rfl
    · exact .same _
  | record i stored =>
    simp only [LoginSettings.step]
    split
    · rename_i hi
      cases stored with
      | true => exact .recorded hi
      | false => exact .unrecorded hi
    · exact .same _
  | reset i stored =>
    simp only [LoginSettings.step]
    split
    · rename_i hi
      cases stored with
      | true => exact .cleared hi
      | false => exact .uncleared hi
    · exact .same _
  | prune => exact .pruned

/-! ### One key -/

/-- How far the attempt has come under one key. -/
def LoginAttempt.stageAt (key : ThrottleKey) (a : LoginAttempt) : RateLimit.Stage :=
  match a.stage with
  | .checking left => if key ∈ left then .idle else .passed
  | .recording left => if key ∈ left then .rejected else .idle
  | .resetting left => if key ∈ left then .accepted else .idle

/-- The keys an attempt has still to deal with. -/
def LoginAttempt.left (a : LoginAttempt) : List ThrottleKey :=
  match a.stage with
  | .checking left | .recording left | .resetting left => left

namespace Logins

/-- The attempts in progress that are counted under `key`. -/
def concerned (s : Logins) (key : ThrottleKey) : List LoginAttempt :=
  s.attempts.filter fun a => decide (key ∈ a.scopes)

/-- What an answer means to the counters. -/
def answer? (f : Forwarded) : Option RateLimit.Answer :=
  match f.verdict with
  | .unsent | .rejected => some ⟨f.time, false⟩
  | .accepted => some ⟨f.time, true⟩
  | .failed => none

/-- **What the limiter of one key sees.** -/
def limiter (s : Logins) (key : ThrottleKey) : RateLimit.Limiter where
  now := s.now
  counter := s.failures.lookup key
  stage := match s.concerned key with
    | [] => .idle
    | a :: _ => a.stageAt key
  answers := (s.forwarded.filter fun f =>
    decide (key ∈ throttleScopes f.username f.clientIP)).filterMap answer?
  starts := (s.windows.filter (·.1 == key)).map (·.2)

/-- **The condition**: attempts under this key come one at a time, and its row is read and
written. -/
def OneByOne (key : ThrottleKey) (s : Logins) : LoginInput → Prop
  | .start typed clientIP _ =>
    key ∈ throttleScopes (trimSpace typed) clientIP → ∀ a ∈ s.attempts, key ∉ a.scopes
  | .check i readable =>
    ∀ a ∈ s.attempts[i]?, a.left.head? = some key → readable = true
  | .record i stored =>
    ∀ a ∈ s.attempts[i]?, a.left.head? = some key → stored = true
  | _ => True

instance OneByOne.decidable (key : ThrottleKey) (s : Logins) (i) :
    Decidable (OneByOne key s i) := by
  cases i <;> unfold OneByOne <;> infer_instance

section Simulation

variable {S : LoginSettings} {s s' : Logins} {key : ThrottleKey} {a a' : LoginAttempt} {i : Nat}

theorem nodup_throttleScopes (username clientIP : String) :
    (throttleScopes username clientIP).Nodup := by
  unfold throttleScopes
  split <;> simp

private theorem concerned_cases (hi : s.attempts[i]? = some a)
    (hone : (s.concerned key).length ≤ 1) :
    (key ∉ a.scopes ∧
      (∀ a', a'.scopes = a.scopes →
        concerned { s with attempts := s.attempts.set i a' } key = s.concerned key) ∧
      (s.closed i).concerned key = s.concerned key) ∨
    (key ∈ a.scopes ∧ s.concerned key = [a] ∧
      (∀ a', a'.scopes = a.scopes →
        concerned { s with attempts := s.attempts.set i a' } key = [a']) ∧
      (s.closed i).concerned key = []) := by
  obtain ⟨hlt, ha⟩ := List.getElem?_eq_some_iff.mp hi
  generalize hbefore : s.attempts.take i = before
  generalize hafter : s.attempts.drop (i + 1) = after
  have hsplit : s.attempts = before ++ a :: after := by
    rw [← hbefore, ← hafter, ← ha, List.getElem_cons_drop, List.take_append_drop]
  have hset : ∀ a', s.attempts.set i a' = before ++ a' :: after := by
    intro a'
    rw [← hbefore, ← hafter, List.set_eq_take_append_cons_drop, if_pos hlt]
  have herase : s.attempts.eraseIdx i = before ++ after := by
    rw [← hbefore, ← hafter, List.eraseIdx_eq_take_drop_succ]
  simp only [concerned, closed, hset, herase, List.filter_append] at hone ⊢
  rw [hsplit, List.filter_append] at hone ⊢
  by_cases hkey : key ∈ a.scopes
  · rw [List.filter_cons_of_pos (by simpa using hkey)] at hone ⊢
    -- it is the only one
    have hnone : before.filter (fun a => decide (key ∈ a.scopes)) = [] ∧
        after.filter (fun a => decide (key ∈ a.scopes)) = [] := by
      simp only [List.length_append, List.length_cons] at hone
      exact ⟨List.eq_nil_of_length_eq_zero (by omega), List.eq_nil_of_length_eq_zero (by omega)⟩
    rw [hnone.1, hnone.2]
    refine .inr ⟨hkey, rfl, fun a' ha' => ?_, rfl⟩
    rw [List.filter_cons_of_pos (by simpa [ha'] using hkey), hnone.2]
    rfl
  · rw [List.filter_cons_of_neg (by simpa using hkey)]
    refine .inl ⟨hkey, fun a' ha' => ?_, rfl⟩
    rw [List.filter_cons_of_neg (by simpa [ha'] using hkey)]

private theorem stage_eq_idle (h : s.concerned key = []) : (s.limiter key).stage = .idle := by
  simp only [limiter, h]

private theorem stage_eq_stageAt (h : s.concerned key = [a]) :
    (s.limiter key).stage = a.stageAt key := by
  simp only [limiter, h]

private theorem stage_congr (h : s'.concerned key = s.concerned key) :
    (s'.limiter key).stage = (s.limiter key).stage := by
  simp only [limiter, h]

/-- **What holds of one key**: its limiter is in order, at most one attempt is under way, and no
attempt deals with a key twice. -/
structure Sound (S : LoginSettings) (key : ThrottleKey) (s : Logins) : Prop where
  inv : RateLimit.Inv (S.maxFor key) S.throttle.window (s.limiter key)
  one : (s.concerned key).length ≤ 1
  left : ∀ a ∈ s.attempts, a.left.Sublist a.scopes

private theorem head_notMem {k : ThrottleKey} {left : List ThrottleKey}
    (h : (k :: left).Sublist a.scopes) : k ∈ a.scopes ∧ k ∉ left :=
  ⟨h.subset List.mem_cons_self,
    (List.nodup_cons.mp (h.nodup (nodup_throttleScopes a.username a.clientIP))).1⟩

private theorem limiter_stage_eq {attempts : List LoginAttempt} {stage : RateLimit.Stage}
    (h : (limiter { s with attempts } key).stage = stage) :
    limiter { s with attempts } key = { s.limiter key with stage } :=
  RateLimit.Limiter.ext rfl rfl h rfl rfl

/-- The simulation: the limiter of the key is left alone or takes a step. -/
def Follows (S : LoginSettings) (key : ThrottleKey) (s s' : Logins) : Prop :=
  s'.limiter key = s.limiter key ∨
    RateLimit.Step (S.maxFor key) S.throttle.window (s.limiter key) (s'.limiter key)

private theorem follows_of_stage {attempts : List LoginAttempt}
    (h : (limiter { s with attempts } key).stage = (s.limiter key).stage) :
    Follows S key s { s with attempts } :=
  .inl (limiter_stage_eq h)

private theorem follows_closed (h : Sound S key s) (hi : s.attempts[i]? = some a)
    (hstage : a.stageAt key ≠ .rejected) : Follows S key s (s.closed i) := by
  rcases concerned_cases hi h.one with ⟨-, -, hsame⟩ | ⟨-, hown, -, hnone⟩
  · exact follows_of_stage (stage_congr hsame)
  · refine .inr ?_
    rw [closed, limiter_stage_eq (stage_eq_idle hnone)]
    exact .leave (by rwa [stage_eq_stageAt hown])

private theorem follows_checked {username clientIP : String} {k : ThrottleKey}
    {left : List ThrottleKey} (h : Sound S key s)
    (hi : s.attempts[i]? = some ⟨username, clientIP, .checking (k :: left)⟩)
    (hpass : k = key → RateLimit.passes (S.maxFor k) S.throttle.window s.now
      (s.failures.lookup k) = true) :
    Follows S key s
      { s with attempts := s.attempts.set i ⟨username, clientIP, .checking left⟩ } := by
  obtain ⟨-, hnot⟩ := head_notMem (h.left _ (List.mem_of_getElem? hi))
  rcases concerned_cases hi h.one with ⟨-, hsame, -⟩ | ⟨-, hown, hset, -⟩
  · exact follows_of_stage (stage_congr (hsame _ rfl))
  · have hold := stage_eq_stageAt hown
    have hnew := stage_eq_stageAt (hset ⟨username, clientIP, .checking left⟩ rfl)
    by_cases hk : k = key
    · subst hk
      simp only [LoginAttempt.stageAt, List.mem_cons_self, if_true] at hold
      simp only [LoginAttempt.stageAt, if_neg hnot] at hnew
      refine .inr ?_
      rw [limiter_stage_eq hnew]
      exact .pass hold (hpass rfl)
    · refine follows_of_stage ?_
      simp only [LoginAttempt.stageAt, List.mem_cons, Ne.symm hk, false_or] at hold
      rw [hnew, hold]
      rfl

private theorem answers_cons_of_mem {f : Forwarded} {attempts : List LoginAttempt}
    (hmem : key ∈ throttleScopes f.username f.clientIP) {ans : RateLimit.Answer}
    (hans : answer? f = some ans) :
    (limiter { s with attempts, forwarded := f :: s.forwarded } key).answers =
      ans :: (s.limiter key).answers := by
  simp only [limiter]
  rw [List.filter_cons_of_pos (by simpa using hmem), List.filterMap_cons_some hans]

private theorem answers_cons_of_notMem {f : Forwarded} {attempts : List LoginAttempt}
    (h : key ∉ throttleScopes f.username f.clientIP ∨ answer? f = none) :
    (limiter { s with attempts, forwarded := f :: s.forwarded } key).answers =
      (s.limiter key).answers := by
  simp only [limiter]
  by_cases hmem : key ∈ throttleScopes f.username f.clientIP
  · rw [List.filter_cons_of_pos (by simpa using hmem),
      List.filterMap_cons_none (h.resolve_left (not_not_intro hmem))]
  · rw [List.filter_cons_of_neg (by simpa using hmem)]

private theorem follows_answered {username clientIP : String} {verdict : Verdict}
    (h : Sound S key s)
    (hi : s.attempts[i]? = some ⟨username, clientIP, .checking []⟩)
    {attempts : List LoginAttempt}
    (hattempts : attempts = match verdict with
      | .unsent | .rejected =>
        s.attempts.set i ⟨username, clientIP, .recording (throttleScopes username clientIP)⟩
      | .accepted =>
        s.attempts.set i ⟨username, clientIP, .resetting (throttleScopes username clientIP)⟩
      | .failed => s.attempts.eraseIdx i) :
    Follows S key s
      { s with attempts, forwarded := ⟨username, clientIP, s.now, verdict⟩ :: s.forwarded } := by
  rcases concerned_cases hi h.one with ⟨hother, hsame, herase⟩ | ⟨hmem, hown, hset, hnone⟩
  · -- an attempt under other keys
    refine .inl (RateLimit.Limiter.ext rfl rfl ?_ (answers_cons_of_notMem (.inl hother)) rfl)
    cases verdict <;> subst hattempts
    · exact stage_congr (hsame _ rfl)
    · exact stage_congr (hsame _ rfl)
    · exact stage_congr herase
    · exact stage_congr (hsame _ rfl)
  · have hold : (s.limiter key).stage = .passed := stage_eq_stageAt hown
    have hrecording := stage_eq_stageAt
      (hset ⟨username, clientIP, .recording (throttleScopes username clientIP)⟩ rfl)
    have hresetting := stage_eq_stageAt
      (hset ⟨username, clientIP, .resetting (throttleScopes username clientIP)⟩ rfl)
    have hmem : key ∈ throttleScopes username clientIP := hmem
    simp only [LoginAttempt.stageAt, if_pos hmem] at hrecording hresetting
    refine .inr ?_
    cases verdict <;> subst hattempts
    case unsent | rejected =>
      convert RateLimit.Step.reject hold using 1
      exact RateLimit.Limiter.ext rfl rfl hrecording (answers_cons_of_mem hmem rfl) rfl
    case failed =>
      convert RateLimit.Step.leave (l := s.limiter key) (by rw [hold]; decide) using 1
      exact RateLimit.Limiter.ext rfl rfl (stage_eq_idle hnone) (answers_cons_of_notMem (.inr rfl))
        rfl
    case accepted =>
      convert RateLimit.Step.accept hold using 1
      exact RateLimit.Limiter.ext rfl rfl hresetting (answers_cons_of_mem hmem rfl) rfl

private theorem stage_advance (h : Sound S key s) (hi : s.attempts[i]? = some a)
    {left : List ThrottleKey} (hleft : left = [] → a'.stageAt key = .idle)
    (hscopes : a'.scopes = a.scopes) :
    (key ∉ a.scopes ∧ ((s.advance i a' left).limiter key).stage = (s.limiter key).stage) ∨
    (key ∈ a.scopes ∧ (s.limiter key).stage = a.stageAt key ∧
      ((s.advance i a' left).limiter key).stage = a'.stageAt key) := by
  rcases concerned_cases hi h.one with ⟨hother, hsame, herase⟩ | ⟨hmem, hown, hset, hnone⟩
  · refine .inl ⟨hother, ?_⟩
    unfold advance
    split
    · exact stage_congr herase
    · exact stage_congr (hsame a' hscopes)
  · refine .inr ⟨hmem, stage_eq_stageAt hown, ?_⟩
    unfold advance
    split
    · rename_i hnil
      rw [hleft hnil]
      exact stage_eq_idle hnone
    · exact stage_eq_stageAt (hset a' hscopes)

private theorem follows_recorded {username clientIP : String} {k : ThrottleKey}
    {left : List ThrottleKey} (h : Sound S key s)
    (hi : s.attempts[i]? = some ⟨username, clientIP, .recording (k :: left)⟩) :
    Follows S key s
      { s.advance i ⟨username, clientIP, .recording left⟩ left with
        failures := s.failures.recordLoginFailure k S.throttle.window s.now
        windows := (k, (RateLimit.record S.throttle.window s.now (s.failures.lookup k)).start) ::
          s.windows } := by
  obtain ⟨hscope, hnot⟩ := head_notMem (h.left _ (List.mem_of_getElem? hi))
  have hleft : left = [] →
      LoginAttempt.stageAt key ⟨username, clientIP, .recording left⟩ = .idle := by
    rintro rfl
    rfl
  by_cases hk : k = key
  · subst hk
    obtain ⟨hother, -⟩ | ⟨-, hold, hnew⟩ := stage_advance h hi hleft rfl
    · exact absurd hscope hother
    · simp only [LoginAttempt.stageAt, List.mem_cons_self, if_true] at hold
      simp only [LoginAttempt.stageAt, if_neg hnot] at hnew
      refine .inr ?_
      convert RateLimit.Step.record hold using 1
      refine RateLimit.Limiter.ext rfl (AList.lookup_insert _) hnew rfl ?_
      simp [limiter]
  · refine .inl (RateLimit.Limiter.ext rfl (AList.lookup_insert_ne (Ne.symm hk)) ?_ rfl ?_)
    · obtain ⟨-, hsame⟩ | ⟨-, hold, hnew⟩ := stage_advance h hi hleft rfl
      · exact hsame
      · refine hnew.trans (hold.trans ?_).symm
        simp [LoginAttempt.stageAt, Ne.symm hk]
    · simp [limiter, advance, hk]

private theorem follows_cleared {username clientIP : String} {k : ThrottleKey}
    {left : List ThrottleKey} (h : Sound S key s)
    (hi : s.attempts[i]? = some ⟨username, clientIP, .resetting (k :: left)⟩) :
    Follows S key s
      { s.advance i ⟨username, clientIP, .resetting left⟩ left with
        failures := s.failures.resetLoginFailures k } := by
  obtain ⟨hscope, hnot⟩ := head_notMem (h.left _ (List.mem_of_getElem? hi))
  have hleft : left = [] →
      LoginAttempt.stageAt key ⟨username, clientIP, .resetting left⟩ = .idle := by
    rintro rfl
    rfl
  by_cases hk : k = key
  · subst hk
    obtain ⟨hother, -⟩ | ⟨-, hold, hnew⟩ := stage_advance h hi hleft rfl
    · exact absurd hscope hother
    · simp only [LoginAttempt.stageAt, List.mem_cons_self, if_true] at hold
      simp only [LoginAttempt.stageAt, if_neg hnot] at hnew
      refine .inr ?_
      convert RateLimit.Step.clear hold using 1
      exact RateLimit.Limiter.ext rfl (AList.lookup_erase _ _) hnew rfl rfl
  · refine .inl (RateLimit.Limiter.ext rfl (AList.lookup_erase_ne (Ne.symm hk)) ?_ rfl rfl)
    obtain ⟨-, hsame⟩ | ⟨-, hold, hnew⟩ := stage_advance h hi hleft rfl
    · exact hsame
    · refine hnew.trans (hold.trans ?_).symm
      simp [LoginAttempt.stageAt, Ne.symm hk]

/-- **A write that the store has refused** is harmless under another key, or to a counter that
was to be cleared. -/
private theorem follows_advance {left : List ThrottleKey} (h : Sound S key s)
    (hi : s.attempts[i]? = some a) (hscopes : a'.scopes = a.scopes)
    (hleft : left = [] → a'.stageAt key = .idle)
    (hstage : a'.stageAt key = a.stageAt key ∨
      a'.stageAt key = .idle ∧ a.stageAt key ≠ .rejected) :
    Follows S key s (s.advance i a' left) := by
  obtain ⟨-, hsame⟩ | ⟨-, hold, hnew⟩ := stage_advance h hi hleft hscopes
  · exact follows_of_stage hsame
  · rcases hstage with hstage | ⟨hidle, hne⟩
    · exact follows_of_stage (hnew.trans (hstage.trans hold.symm))
    · refine .inr ?_
      rw [advance, limiter_stage_eq (hnew.trans hidle)]
      exact .leave (by rwa [hold])

/-- **Every step** of the system is one of the limiter of the key, or none. -/
theorem follows_step {input : LoginInput} (h : Sound S key s) (hcond : OneByOne key s input)
    (hstep : LoginStep S s input s') : Follows S key s s' := by
  cases hstep with
  | same => exact .inl rfl
  | waited d => exact .inr (.wait (by simp only [limiter]; omega))
  | started typed clientIP localOK =>
    refine follows_of_stage ?_
    have happend : concerned { s with attempts := s.attempts ++ [⟨trimSpace typed, clientIP,
        .checking (throttleScopes (trimSpace typed) clientIP)⟩] } key = s.concerned key ++
          [⟨trimSpace typed, clientIP,
            .checking (throttleScopes (trimSpace typed) clientIP)⟩].filter
              (fun a => decide (key ∈ a.scopes)) := List.filter_append ..
    by_cases hkey : key ∈ throttleScopes (trimSpace typed) clientIP
    · -- it is the only one, and has nothing checked yet
      have hnone : s.concerned key = [] :=
        List.filter_eq_nil_iff.mpr fun a ha => by simpa using hcond hkey a ha
      rw [hnone, List.nil_append,
        List.filter_cons_of_pos (by simp [LoginAttempt.scopes, hkey])] at happend
      rw [stage_eq_stageAt happend, stage_eq_idle hnone]
      simp only [LoginAttempt.stageAt, if_pos hkey]
    · rw [List.filter_cons_of_neg (by simp [LoginAttempt.scopes, hkey]), List.filter_nil,
        List.append_nil] at happend
      exact stage_congr happend
  | refused hi =>
    refine follows_closed h hi ?_
    simp only [LoginAttempt.stageAt]
    split <;> decide
  | checked hi hpass =>
    refine follows_checked h hi fun hk => hpass (hcond _ hi ?_)
    rw [hk]
    rfl
  | answered hi hattempts => exact follows_answered h hi hattempts
  | recorded hi => exact follows_recorded h hi
  | @unrecorded i username clientIP k left hi =>
    have hk : key ≠ k := by
      rintro rfl
      cases hcond _ hi rfl
    refine follows_advance h hi rfl (by rintro rfl; rfl) (.inl ?_)
    simp [LoginAttempt.stageAt, hk]
  | cleared hi => exact follows_cleared h hi
  | @uncleared i username clientIP k left hi =>
    obtain ⟨-, hnot⟩ := head_notMem (h.left _ (List.mem_of_getElem? hi))
    refine follows_advance h hi rfl (by rintro rfl; rfl) ?_
    by_cases hk : key = k
    · subst hk
      exact .inr ⟨if_neg hnot, by simp [LoginAttempt.stageAt]⟩
    · exact .inl (by simp [LoginAttempt.stageAt, hk])
  | pruned =>
    have hlookup := s.failures.lookup_pruneLoginFailures S.throttle.window s.now key
    cases hc : s.failures.lookup key with
    | none =>
      refine .inl (RateLimit.Limiter.ext rfl ?_ rfl rfl rfl)
      exact hlookup.trans (by rw [limiter, hc]; rfl)
    | some c =>
      rw [hc] at hlookup
      by_cases hexpired : c.expired S.throttle.window s.now
      · refine .inr ?_
        convert RateLimit.Step.prune (l := s.limiter key) hc hexpired using 1
        refine RateLimit.Limiter.ext rfl (hlookup.trans ?_) rfl rfl rfl
        simp [hexpired]
      · refine .inl (RateLimit.Limiter.ext rfl (hlookup.trans ?_) rfl rfl rfl)
        simp [limiter, hc, hexpired]

/-! ### Whole runs -/

private theorem left_step {input : LoginInput} (h : ∀ a ∈ s.attempts, a.left.Sublist a.scopes)
    (hstep : LoginStep S s input s') : ∀ a ∈ s'.attempts, a.left.Sublist a.scopes := by
  have hclosed : ∀ i, ∀ a ∈ s.attempts.eraseIdx i, a.left.Sublist a.scopes :=
    fun i a ha => h a (List.mem_of_mem_eraseIdx ha)
  have hset : ∀ i a', a'.left.Sublist a'.scopes → ∀ a ∈ s.attempts.set i a',
      a.left.Sublist a.scopes := by
    intro i a' ha' a ha
    rcases List.mem_or_eq_of_mem_set ha with ha | rfl
    · exact h a ha
    · exact ha'
  have hadvance : ∀ i a' left, a'.left.Sublist a'.scopes → ∀ a ∈ (s.advance i a' left).attempts,
      a.left.Sublist a.scopes := by
    intro i a' left ha' a ha
    simp only [advance] at ha
    split at ha
    · exact hclosed i a ha
    · exact hset i a' ha' a ha
  cases hstep with
  | same | waited | pruned => exact h
  | started typed clientIP =>
    intro a ha
    rcases List.mem_append.mp ha with ha | ha
    · exact h a ha
    · rw [List.mem_singleton.mp ha]
      exact List.Sublist.refl _
  | refused hi => exact hclosed _
  | checked hi =>
    exact hset _ _ ((List.sublist_cons_self _ _).trans (h _ (List.mem_of_getElem? hi)))
  | @answered i verdict username clientIP hi attempts hattempts =>
    subst hattempts
    cases verdict
    · exact hset _ _ (List.Sublist.refl _)
    · exact hset _ _ (List.Sublist.refl _)
    · exact hclosed _
    · exact hset _ _ (List.Sublist.refl _)
  | recorded hi | unrecorded hi | cleared hi | uncleared hi =>
    exact hadvance _ _ _ ((List.sublist_cons_self _ _).trans (h _ (List.mem_of_getElem? hi)))

private theorem one_step {input : LoginInput} (h : Sound S key s) (hcond : OneByOne key s input)
    (hstep : LoginStep S s input s') : (s'.concerned key).length ≤ 1 := by
  have hclosed : ∀ {i a}, s.attempts[i]? = some a →
      (concerned { s with attempts := s.attempts.eraseIdx i } key).length ≤ 1 := by
    intro i a hi
    rcases concerned_cases hi h.one with ⟨-, -, hsame⟩ | ⟨-, -, -, hnone⟩
    · exact hsame ▸ h.one
    · exact hnone ▸ Nat.zero_le 1
  have hset : ∀ {i a a'}, s.attempts[i]? = some a → a'.scopes = a.scopes →
      (concerned { s with attempts := s.attempts.set i a' } key).length ≤ 1 := by
    intro i a a' hi hscopes
    rcases concerned_cases hi h.one with ⟨-, hsame, -⟩ | ⟨-, -, hown, -⟩
    · exact hsame a' hscopes ▸ h.one
    · exact hown a' hscopes ▸ Nat.le_refl 1
  have hadvance : ∀ {i a a' left}, s.attempts[i]? = some a → a'.scopes = a.scopes →
      ((s.advance i a' left).concerned key).length ≤ 1 := by
    intro i a a' left hi hscopes
    unfold advance
    split
    · exact hclosed hi
    · exact hset hi hscopes
  cases hstep with
  | same | waited | pruned => exact h.one
  | started typed clientIP =>
    simp only [concerned, List.filter_append, List.length_append]
    by_cases hkey : key ∈ throttleScopes (trimSpace typed) clientIP
    · have hnone : s.attempts.filter (fun a => decide (key ∈ a.scopes)) = [] :=
        List.filter_eq_nil_iff.mpr fun a ha => by simpa using hcond hkey a ha
      rw [hnone, List.length_nil, Nat.zero_add]
      exact List.length_filter_le ..
    · rw [List.filter_cons_of_neg (by simp [LoginAttempt.scopes, hkey])]
      exact h.one
  | refused hi => exact hclosed hi
  | checked hi => exact hset hi rfl
  | @answered i verdict username clientIP hi attempts hattempts =>
    subst hattempts
    cases verdict
    · exact hset hi rfl
    · exact hset hi rfl
    · exact hclosed hi
    · exact hset hi rfl
  | recorded hi | unrecorded hi | cleared hi | uncleared hi => exact hadvance hi rfl

/-- **One key over a whole run.** -/
theorem sound_run (S : LoginSettings) (key : ThrottleKey) (now : Int) (is : List LoginInput)
    (hwindow : 0 ≤ S.throttle.window) (hmax : 1 ≤ S.maxFor key)
    (hcond : Along S.step (OneByOne key) { now } is) : Sound S key (S.run now is) := by
  refine run_invariant (fun s i h hi => ?_) ?_ hcond
  · have hstep := loginStep S s i
    refine ⟨?_, one_step h hi hstep, left_step h.left hstep⟩
    rcases follows_step h hi hstep with heq | hlimiter
    · exact heq ▸ h.inv
    · exact h.inv.step hwindow hmax hlimiter
  · exact ⟨RateLimit.inv_initial _ _ _, Nat.zero_le _, fun a ha => by cases ha⟩

end Simulation

end Logins

/-! ### What is forwarded in a window -/

def Forwarded.refused (f : Forwarded) : Bool := f.verdict == .unsent || f.verdict == .rejected

/-- The attempt falls into the window that started at `start`. -/
def Forwarded.within (window start : Int) (f : Forwarded) : Prop :=
  start ≤ f.time ∧ f.time ≤ start + window

instance (window start : Int) (f : Forwarded) : Decidable (f.within window start) :=
  inferInstanceAs (Decidable (_ ∧ _))

namespace LoginSettings

variable (S : LoginSettings)

/-- The bad passwords for one account of the directory in a window. -/
def failedBinds (s : Logins) (account : String) (start : Int) : List Forwarded :=
  s.forwarded.filter fun f => S.account f.username == account && f.verdict == .rejected &&
    decide (f.within S.throttle.window start)

/-- The rejected attempts from one address in a window. -/
def refusedFrom (s : Logins) (address : String) (start : Int) : List Forwarded :=
  s.forwarded.filter fun f => f.clientIP == address && f.refused &&
    decide (f.within S.throttle.window start)

/-- **The condition** on the attempts on one account: they come one at a time and all spell the
name alike. -/
def Singly (account spelling : String) (s : Logins) (i : LoginInput) : Prop :=
  s.OneByOne (.user, spelling) i ∧
    ∀ typed ∈ i.typed?, S.account (trimSpace typed) = account → trimSpace typed = spelling

instance Singly.decidable (account spelling : String) (s : Logins) (i : LoginInput) :
    Decidable (S.Singly account spelling s i) :=
  inferInstanceAs (Decidable (_ ∧ _))

end LoginSettings

section Windows

variable {S : LoginSettings} {s s' : Logins} {key : ThrottleKey}

private theorem length_rejections (window start : Int) (p : Forwarded → Bool)
    (fs : List Forwarded) :
    (RateLimit.rejections window start ((fs.filter p).filterMap Logins.answer?)).length =
      (fs.filter fun f => p f && f.refused && decide (f.within window start)).length := by
  induction fs with
  | nil => rfl
  | cons f fs ih =>
    cases hp : p f with
    | false => simpa [hp] using ih
    | true =>
      by_cases hin : f.within window start
      · have hin' : ∀ b, RateLimit.Answer.within window start ⟨f.time, b⟩ := fun _ => hin
        cases hverdict : f.verdict <;>
          simpa [hp, hin, hin', Logins.answer?, hverdict, Forwarded.refused, RateLimit.rejections]
            using ih
      · have hin' : ∀ b, ¬RateLimit.Answer.within window start ⟨f.time, b⟩ := fun _ => hin
        cases hverdict : f.verdict <;>
          simpa [hp, hin, hin', Logins.answer?, hverdict, Forwarded.refused, RateLimit.rejections]
            using ih

/-- **One key**: the rejections that fall into a window it has started. -/
theorem Logins.Sound.refused_le (h : s.Sound S key) {start : Int}
    (hstart : (key, start) ∈ s.windows)
    (hnone : ∀ f ∈ s.forwarded, key ∈ throttleScopes f.username f.clientIP →
      f.verdict = .accepted → ¬f.within S.throttle.window start) :
    (s.forwarded.filter fun f => decide (key ∈ throttleScopes f.username f.clientIP) && f.refused &&
      decide (f.within S.throttle.window start)).length ≤ S.maxFor key := by
  rw [← length_rejections]
  refine h.inv.rejections_le ?_ ?_
  · simp only [Logins.limiter]
    exact List.mem_map.mpr ⟨(key, start), List.mem_filter.mpr ⟨hstart, by simp⟩, rfl⟩
  · intro ans hans haccepted
    obtain ⟨f, hf, hanswer⟩ := List.mem_filterMap.mp hans
    obtain ⟨hf, hkey⟩ := List.mem_filter.mp hf
    have hkey := of_decide_eq_true hkey
    cases hverdict : f.verdict with
    | accepted =>
      simp only [Logins.answer?, hverdict, Option.some.injEq] at hanswer
      subst hanswer
      exact hnone f hf hkey hverdict
    | unsent | rejected =>
      simp only [Logins.answer?, hverdict, Option.some.injEq] at hanswer
      subst hanswer
      cases haccepted
    | failed => simp [Logins.answer?, hverdict] at hanswer

private theorem not_within {window start : Int} (hwindow : ¬0 ≤ window) (f : Forwarded) :
    ¬f.within window start := by
  rintro ⟨hge, hle⟩
  omega

/-- **At most the maximum of rejected attempts from one address** is forwarded in a window, if they
come one at a time and none of them succeeds in it. -/
theorem LoginSettings.refusedFrom_le (S : LoginSettings) (address : String)
    (haddress : address ≠ "") (now : Int) (is : List LoginInput) (hmax : 1 ≤ S.throttle.maxIP)
    (hone : Along S.step (Logins.OneByOne (.ip, address)) { now } is) (start : Int)
    (hstart : ((.ip, address), start) ∈ (S.run now is).windows)
    (hnone : ∀ f ∈ (S.run now is).forwarded, f.clientIP = address → f.verdict = .accepted →
      ¬f.within S.throttle.window start) :
    (S.refusedFrom (S.run now is) address start).length ≤ S.throttle.maxIP := by
  by_cases hwindow : 0 ≤ S.throttle.window
  · have hscope : ∀ f : Forwarded,
        (.ip, address) ∈ throttleScopes f.username f.clientIP ↔ f.clientIP = address := by
      intro f
      unfold throttleScopes
      by_cases hip : f.clientIP = ""
      · simp [hip, Ne.symm haddress]
      · simp [hip, eq_comm]
    have hle := (Logins.sound_run S (.ip, address) now is hwindow hmax hone).refused_le hstart
      fun f hf hkey => hnone f hf ((hscope f).mp hkey)
    simpa only [hscope, refusedFrom, beq_eq_decide, maxFor, ThrottleConfig.maxFor] using hle
  · have hempty : S.refusedFrom (S.run now is) address start = [] :=
      List.filter_eq_nil_iff.mpr fun f _ => by simp [not_within hwindow f]
    rw [hempty]
    exact (by omega : (0 : Int) ≤ S.throttle.maxIP)

/-- Every attempt on the account spells its name this way. -/
private structure Spelt (S : LoginSettings) (account spelling : String) (s : Logins) : Prop where
  attempts : ∀ a ∈ s.attempts, S.account a.username = account → a.username = spelling
  forwarded : ∀ f ∈ s.forwarded, S.account f.username = account → f.username = spelling
  windows : ∀ w ∈ s.windows, ∀ username, w.1 = (.user, username) →
    S.account username = account → username = spelling

private theorem username_of_mem_scopes {a : LoginAttempt} {username : String}
    (h : (.user, username) ∈ a.scopes) : username = a.username := by
  unfold LoginAttempt.scopes throttleScopes at h
  split at h <;> simpa using h

private theorem Spelt.step {account spelling : String} {input : LoginInput}
    (h : Spelt S account spelling s) (hleft : ∀ a ∈ s.attempts, a.left.Sublist a.scopes)
    (hcond : S.Singly account spelling s input) (hstep : LoginStep S s input s') :
    Spelt S account spelling s' := by
  have hset : ∀ {i a a'}, s.attempts[i]? = some a → a'.username = a.username →
      ∀ b ∈ s.attempts.set i a', S.account b.username = account → b.username = spelling := by
    intro i a a' hi hname b hb hb'
    rcases List.mem_or_eq_of_mem_set hb with hb | rfl
    · exact h.attempts b hb hb'
    · rw [hname] at hb' ⊢
      exact h.attempts a (List.mem_of_getElem? hi) hb'
  have herase : ∀ {i}, ∀ b ∈ s.attempts.eraseIdx i, S.account b.username = account →
      b.username = spelling :=
    fun b hb => h.attempts b (List.mem_of_mem_eraseIdx hb)
  have hadvance : ∀ {i a a' left}, s.attempts[i]? = some a → a'.username = a.username →
      ∀ b ∈ (s.advance i a' left).attempts, S.account b.username = account →
        b.username = spelling := by
    intro i a a' left hi hname b hb
    simp only [Logins.advance] at hb
    split at hb
    · exact herase b hb
    · exact hset hi hname b hb
  cases hstep with
  | same => exact h
  | waited | pruned => exact ⟨h.attempts, h.forwarded, h.windows⟩
  | started typed clientIP =>
    refine ⟨fun b hb hb' => ?_, h.forwarded, h.windows⟩
    rcases List.mem_append.mp hb with hb | hb
    · exact h.attempts b hb hb'
    · rw [List.mem_singleton.mp hb] at hb' ⊢
      exact hcond.2 typed rfl hb'
  | refused hi => exact ⟨herase, h.forwarded, h.windows⟩
  | checked hi => exact ⟨hset hi rfl, h.forwarded, h.windows⟩
  | @answered i verdict username clientIP hi attempts hattempts =>
    refine ⟨?_, List.forall_mem_cons.mpr
      ⟨h.attempts _ (List.mem_of_getElem? hi), h.forwarded⟩, h.windows⟩
    subst hattempts
    cases verdict
    · exact hset hi rfl
    · exact hset hi rfl
    · exact herase
    · exact hset hi rfl
  | @recorded i username clientIP k left hi =>
    refine ⟨hadvance hi rfl, h.forwarded, List.forall_mem_cons.mpr ⟨?_, h.windows⟩⟩
    rintro name rfl hname
    -- the key is one of the attempt's
    have hmem := List.mem_of_getElem? hi
    have hkey := (hleft _ hmem).subset List.mem_cons_self
    obtain rfl := username_of_mem_scopes hkey
    exact h.attempts _ hmem hname
  | unrecorded hi => exact ⟨hadvance hi rfl, h.forwarded, h.windows⟩
  | cleared hi => exact ⟨hadvance hi rfl, h.forwarded, h.windows⟩
  | uncleared hi => exact ⟨hadvance hi rfl, h.forwarded, h.windows⟩

private theorem spelt_run (S : LoginSettings) (account spelling : String) (now : Int)
    (is : List LoginInput) (hcond : Along S.step (S.Singly account spelling) { now } is) :
    Spelt S account spelling (S.run now is) := by
  have hinv : Spelt S account spelling (S.run now is) ∧
      ∀ a ∈ (S.run now is).attempts, a.left.Sublist a.scopes := by
    refine run_invariant (I := fun s : Logins => Spelt S account spelling s ∧
      ∀ a ∈ s.attempts, a.left.Sublist a.scopes) (fun s i h hi => ?_) ⟨⟨?_, ?_, ?_⟩, ?_⟩ hcond
    · have hstep := loginStep S s i
      exact ⟨h.1.step h.2 hi hstep, Logins.left_step h.2 hstep⟩
    all_goals exact fun _ hmem => by cases hmem
  exact hinv.1

/-- **At most the maximum of bad passwords for one account** is forwarded in a window, if the
attempts on it come one at a time, all spell its name alike, and none succeeds in the window. -/
theorem LoginSettings.failedBinds_le (S : LoginSettings) (account spelling : String) (now : Int)
    (is : List LoginInput) (hmax : 1 ≤ S.throttle.maxUser)
    (hsingly : Along S.step (S.Singly account spelling) { now } is) (username : String)
    (haccount : S.account username = account) (start : Int)
    (hstart : ((.user, username), start) ∈ (S.run now is).windows)
    (hnone : ∀ f ∈ (S.run now is).forwarded, S.account f.username = account →
      f.verdict = .accepted → ¬f.within S.throttle.window start) :
    (S.failedBinds (S.run now is) account start).length ≤ S.throttle.maxUser := by
  by_cases hwindow : 0 ≤ S.throttle.window
  · have hspelt := spelt_run S account spelling now is hsingly
    obtain rfl := hspelt.windows _ hstart username rfl haccount
    have hone : Along S.step (Logins.OneByOne (.user, username)) { now } is :=
      hsingly.of_invariant (I := fun _ => True) (fun _ _ _ hi => ⟨trivial, hi.1⟩) trivial
    have hscope : ∀ f : Forwarded,
        (.user, username) ∈ throttleScopes f.username f.clientIP → f.username = username := by
      intro f hf
      exact (username_of_mem_scopes (a := ⟨f.username, f.clientIP, .checking []⟩) hf).symm
    have hle := (Logins.sound_run S (.user, username) now is hwindow hmax hone).refused_le hstart
      fun f hf hkey => hnone f hf (by rw [hscope f hkey, haccount])
    refine Int.le_trans (Int.ofNat_le.mpr ?_) hle
    rw [failedBinds, ← List.countP_eq_length_filter, ← List.countP_eq_length_filter]
    refine List.countP_mono_left fun f hf hbind => ?_
    simp only [Bool.and_eq_true, beq_iff_eq] at hbind ⊢
    obtain ⟨⟨hname, hverdict⟩, hin⟩ := hbind
    refine ⟨⟨decide_eq_true ?_, by rw [Forwarded.refused, hverdict]; rfl⟩, hin⟩
    rw [hspelt.forwarded f hf hname]
    exact List.mem_cons_self
  · have hempty : S.failedBinds (S.run now is) account start = [] :=
      List.filter_eq_nil_iff.mpr fun f _ => by simp [not_within hwindow f]
    rw [hempty]
    exact (by omega : (0 : Int) ≤ S.throttle.maxUser)

end Windows

/-! ### Runs -/

/-- An attempt from start to end, on its own. -/
private def attemptAlone (typed : String) (verdict : Verdict) : List LoginInput :=
  [.start typed "" false, .check 0 true, .authenticate 0 verdict,
    match verdict with
    | .accepted => .reset 0 true
    | _ => .record 0 true]

/-- The same with an address, which is the second key. -/
private def attemptFrom (address typed : String) (verdict : Verdict) : List LoginInput :=
  let after := match verdict with
    | .accepted => LoginInput.reset 0 true
    | _ => .record 0 true
  [.start typed address false, .check 0 true, .check 0 true, .authenticate 0 verdict, after, after,
    .wait 1000000000]

theorem failedBinds_le_alice :
    (LoginSettings.failedBinds {} (LoginSettings.run {} 0
      (attemptAlone " alice" .rejected ++ attemptAlone "alice" .rejected)) "alice" 0).length ≤
        (3 : Int) := by
  refine LoginSettings.failedBinds_le {} "alice" "alice" 0
    (attemptAlone " alice" .rejected ++ attemptAlone "alice" .rejected) (by decide) ?_ "alice" ?_
    0 ?_ ?_
  all_goals decide +kernel

/-- Three bad passwords for `alice` and three for `Alice`. -/
private def twoSpellings : List LoginInput :=
  (List.replicate 3 (attemptAlone "alice" .rejected)).flatten ++
    (List.replicate 3 (attemptAlone "Alice" .rejected)).flatten

/-- Four replicas check, then forward, and then the first of them counts. -/
private def fourAtOnce : List LoginInput :=
  List.replicate 4 (.start "alice" "" false) ++ (List.range 4).map (.check · true) ++
    (List.range 4).map (.authenticate · .rejected) ++ [.record 0 true]

/-- With the default maximum of three, **six bad passwords** of two spellings, or four at once,
reach the account in one window. -/
theorem failedBinds_exceed :
    (((.user, "alice"), 0) ∈ (LoginSettings.run {} 0 twoSpellings).windows ∧
      (LoginSettings.failedBinds {} (LoginSettings.run {} 0 twoSpellings) "alice" 0).length = 6) ∧
    (((.user, "alice"), 0) ∈ (LoginSettings.run {} 0 fourAtOnce).windows ∧
      (LoginSettings.failedBinds {} (LoginSettings.run {} 0 fourAtOnce) "alice" 0).length = 4) ∧
    ∀ f ∈ (LoginSettings.run {} 0 twoSpellings).forwarded ++
      (LoginSettings.run {} 0 fourAtOnce).forwarded, f.verdict = .rejected := by
  decide +kernel

theorem refusedFrom_le_office :
    (LoginSettings.refusedFrom { throttle := { maxIP := 2 } }
      (LoginSettings.run { throttle := { maxIP := 2 } } 0
        (attemptFrom "10.0.0.7" "alice" .rejected ++ attemptFrom "10.0.0.7" "bob" .rejected ++
          attemptFrom "10.0.0.7" "carol" .rejected)) "10.0.0.7" 0).length ≤ (2 : Int) := by
  refine LoginSettings.refusedFrom_le { throttle := { maxIP := 2 } } "10.0.0.7" (by decide) 0 _
    (by decide) ?_ 0 ?_ ?_
  all_goals decide +kernel

/-- A source that guesses and logs in to an account of its own in between. -/
private def guessing : List LoginInput :=
  attemptFrom "10.0.0.7" "alice" .rejected ++ attemptFrom "10.0.0.7" "mallory" .accepted ++
    attemptFrom "10.0.0.7" "bob" .rejected ++ attemptFrom "10.0.0.7" "mallory" .accepted ++
      attemptFrom "10.0.0.7" "carol" .rejected

/-- With a maximum of two, **three guesses** from one address are forwarded in a window of five
minutes, within seconds. -/
theorem refusedFrom_exceed :
    ((.ip, "10.0.0.7"), 0) ∈ (LoginSettings.run { throttle := { maxIP := 2 } } 0 guessing).windows ∧
    (LoginSettings.refusedFrom { throttle := { maxIP := 2 } }
      (LoginSettings.run { throttle := { maxIP := 2 } } 0 guessing) "10.0.0.7" 0).length = 3 := by
  decide +kernel

end KaaS
