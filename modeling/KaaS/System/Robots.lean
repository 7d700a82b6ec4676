import KaaS.Registry.Harbor
import KaaS.System.Row

/-!
# The robot of a cluster

The wiring of a cluster with the registry makes a robot, seals its credential into the store and
applies it to the cluster as a pull secret; a marker on the row ends the attempts. The registry
**reveals a secret once**, in the answer to the request that makes the robot. From then on the
sealed copy is the only one, and a wiring that finds a robot but no copy can only report that.

Here the wiring runs against what it changes outside: the robots of the registry, the stored
credential, the pull secret. Each request may be served and yet not answered. The program is the one
of the reconciler's tick, whose environment only says how a call ended
(`reconcileRegistryWiring_under`). If no tick loses a secret it has caused to be made, then a tick
in which nothing fails completes the wiring, whatever failed before (`registry_wired`).
-/

namespace KaaS

open Effect Text

/-! ### The outside -/

structure RobotCredential where
  username : String := ""
  secret : String := ""
  expires : Option Time := none
  deriving DecidableEq

def RobotCredential.valid (cred : RobotCredential) : Bool :=
  cred.username != "" && cred.secret != ""

/-- What there is outside: the robots by name with their secrets, the credential that is sealed in
the store, and the user and password of the pull secret in the cluster. -/
structure Robots where
  robots : AList (fun _ : String => String) := ∅
  stored : Option RobotCredential := none
  pull : Option (String × String) := none

def Robots.Accepts (w : Robots) (cred : RobotCredential) : Prop :=
  w.robots.lookup cred.username = some cred.secret

/-- How the calls of one wiring end, and the secret that the registry mints if it makes a robot. -/
structure RobotAnswers where
  now : Time := 0
  project : Outcome := .answered
  robot : Outcome := .answered
  secret : { s : String // s ≠ "" }
  list : Option String := none
  sealing : Option String := none
  save : Outcome := .answered
  read : Option String := none
  install : Outcome := .answered

structure RobotAnswers.Clean (o : RobotAnswers) : Prop where
  project : o.project = .answered
  robot : o.robot = .answered
  list : o.list = none
  sealing : o.sealing = none
  save : o.save = .answered
  read : o.read = none
  install : o.install = .answered

/-! ### The wiring -/

/-- The copy of the row that a tick works on, and the outside. -/
structure RobotTick where
  c : Cluster
  world : Robots

abbrev RobotWiring := EStateM String RobotTick

/-- The registry puts its own mark before the name it is given. -/
def robotName (c : Cluster) : String := "robot$" ++ clusterRobot c

namespace RobotWiring

/-- Make a request that does `f` to the outside. -/
def request (o : Outcome) (f : Robots → Robots) : RobotWiring Unit :=
  Effect.request o fun t => { t with world := f t.world }

section Program

variable (ttl : Duration) (o : RobotAnswers)

/-- `POST /robots`: the answer has the name and the secret of the new robot. -/
def createRobot (c : Cluster) : RobotWiring (String × String) := do
  let t ← get
  if robotName c ∈ t.world.robots then do
    request o.robot id
    throw "harbor: POST /robots: 409: "
  else do
    request o.robot fun w => { w with robots := w.robots.insert (robotName c) o.secret }
    pure (robotName c, o.secret.1)

def findRobot (c : Cluster) : RobotWiring String := do
  attempt o.list
  let t ← get
  if robotName c ∈ t.world.robots then pure (robotName c)
  else throw ("harbor: robot " ++ quote (clusterRobot c) ++ " not found")

/-- `EnsureCluster`: a conflict is recognised by the text of the error. -/
def ensureRobot (c : Cluster) : RobotWiring RobotCredential := do
  request o.project id
  let created ← tryCatch (do let robot ← createRobot o c; pure (some robot)) fun e =>
    if contains e "409" then pure none else throw e
  match created with
  | some (name, secret) =>
    pure { username := name, secret := secret, expires := some (o.now + ttl) }
  | none => do
    let name ← findRobot o c
    pure { username := name }

def sealRegistryCredential (cred : RobotCredential) : RobotWiring Unit := do
  attempt o.sealing
  request o.save fun w => { w with stored := some cred }

def storedRegistryCredential : RobotWiring RobotCredential := do
  attempt o.read
  let t ← get
  match t.world.stored with
  | none => throw "not found"
  | some cred => pure cred

/-- The credential to hand on: the new one, once it is sealed, or else the sealed one. -/
def robotCredential (cred : RobotCredential) : RobotWiring RobotCredential :=
  if !cred.valid then
    tryCatch (storedRegistryCredential o) fun e =>
      throw ("registry: robot already exists but no stored credential for it: " ++ e)
  else do
    sealRegistryCredential o cred
    pure cred

/-- Hand the credential on to the cluster, and set the marker. -/
def installCredential (cred : RobotCredential) : RobotWiring Unit := do
  modify fun t => { t with c := { t.c with
    registryRobotNotAfter := cred.expires.or t.c.registryRobotNotAfter } }
  request o.install fun w => { w with pull := some (cred.username, cred.secret) }
  modify fun t => { t with c := { t.c with registryWired := true } }

/-- `reconcileRegistryWiring`, where a registry is configured. -/
def wireRegistry : RobotWiring Unit := do
  let t ← get
  if t.c.registryWired then pure ()
  else do
    let minted ← ensureRobot ttl o t.c
    let cred ← robotCredential o minted
    installCredential o cred

end Program

/-! ### One wiring -/

section Step

variable {ttl : Duration} {o : RobotAnswers} {t : RobotTick}

/-- The sealed credential is the robot's, if there is a robot. -/
def CredentialKept (c : Cluster) (w : Robots) : Prop :=
  ∀ secret, w.robots.lookup (robotName c) = some secret →
    ∃ cred, w.stored = some cred ∧ cred.username = robotName c ∧ cred.secret = secret

/-- A robot that the wiring makes is answered for, sealed and saved in it. -/
def KeepsSecret (o : RobotAnswers) (c : Cluster) (w : Robots) : Prop :=
  c.registryWired = false → robotName c ∉ w.robots → o.project = .answered →
    o.robot.served = true → o.robot = .answered ∧ o.sealing = none ∧ o.save.served = true

instance (o : RobotAnswers) (c : Cluster) (w : Robots) : Decidable (KeepsSecret o c w) :=
  inferInstanceAs (Decidable (_ → _ → _ → _ → _))

/-- What `EnsureCluster` comes back with: the secret of a new robot, or the name of the one there
is. -/
inductive Ensured (o : RobotAnswers) (t : RobotTick) : RobotCredential → RobotTick → Prop
  | minted {expires : Option Time} (hnew : robotName t.c ∉ t.world.robots)
      (hproject : o.project = .answered) (hanswered : o.robot = .answered) :
      Ensured o t { username := robotName t.c, secret := o.secret, expires := expires }
        { t with world := { t.world with
            robots := t.world.robots.insert (robotName t.c) o.secret } }
  | found (h : robotName t.c ∈ t.world.robots) : Ensured o t { username := robotName t.c } t

private theorem wp_findRobot (h : robotName t.c ∈ t.world.robots ∨ ¬o.Clean) :
    wp (findRobot o t.c) (fun name => Ensured o t { username := name })
      (fun _ t' => t' = t ∧ ¬o.Clean) t := by
  simp only [findRobot, wp_bind, wp_get]
  refine wp_attempt (fun _ => ?_) (fun e he => ⟨rfl, fun ho => by simp [ho.list] at he⟩)
  rw [wp_ite]
  exact ⟨fun hin => .found hin, fun hnot => ⟨rfl, h.resolve_left hnot⟩⟩

/-- **One `EnsureCluster`** in a wiring that keeps its secret. -/
private theorem wp_ensureRobot (hwired : t.c.registryWired = false)
    (hkeeps : KeepsSecret o t.c t.world) :
    wp (ensureRobot ttl o t.c) (Ensured o t) (fun _ t' => t' = t ∧ ¬o.Clean) t := by
  -- a request that is not answered, whatever its error says
  have hfailed (hfail : ¬o.Clean) (p : Prop) :
      (p → wp (findRobot o t.c) (fun name => Ensured o t { username := name })
        (fun _ t' => t' = t ∧ ¬o.Clean) t) ∧ (¬p → t = t ∧ ¬o.Clean) :=
    ⟨fun _ => wp_findRobot (.inr hfail), fun _ => ⟨rfl, hfail⟩⟩
  simp only [ensureRobot, wp_bind, wp_tryCatch]
  refine wp_request (fun hproject => ?_) (fun e he => ⟨rfl, fun ho => by simp [ho.project] at he⟩)
    (fun e he => ⟨rfl, fun ho => by simp [ho.project] at he⟩)
  simp only [createRobot, wp_bind, wp_get, wp_ite, wp_throw, wp_pure]
  refine ⟨fun hin => ?_, fun hnew => ?_⟩
  · refine wp_request (fun _ => ?_) (fun e he => hfailed (fun ho => by simp [ho.robot] at he) _)
      (fun e he => hfailed (fun ho => by simp [ho.robot] at he) _)
    exact ⟨fun _ => wp_findRobot (.inl hin), fun hnot => absurd (by decide +kernel) hnot⟩
  · refine wp_request (fun hanswered => .minted hnew hproject hanswered) (fun e hlost => ?_)
      (fun e he => hfailed (fun ho => by simp [ho.robot] at he) _)
    -- a robot that is made without an answer is what the wiring does not let happen
    have hanswered := (hkeeps hwired hnew hproject (by rw [hlost]; rfl)).1
    simp [hlost] at hanswered

/-- **The credential to hand on** is sealed, and the registry accepts it. -/
private theorem wp_robotCredential {minted : RobotCredential} {t₁ : RobotTick}
    (hwired : t.c.registryWired = false) (hkept : CredentialKept t.c t.world)
    (hkeeps : KeepsSecret o t.c t.world) (hensured : Ensured o t minted t₁) :
    wp (robotCredential o minted)
      (fun cred t' => t'.c = t.c ∧ CredentialKept t.c t'.world ∧ t'.world.stored = some cred ∧
        t'.world.Accepts cred)
      (fun _ t' => CredentialKept t.c t'.world ∧ ¬o.Clean) t₁ := by
  cases hensured with
  | minted hnew hproject hanswered =>
    rename_i expires
    obtain ⟨-, hseal, hsave⟩ := hkeeps hwired hnew hproject (by rw [hanswered]; rfl)
    have hvalid : RobotCredential.valid
        { username := robotName t.c, secret := o.secret, expires := expires } = true := by
      simp [RobotCredential.valid, robotName, o.secret.2]
    have hkept₁ : CredentialKept t.c { t.world with
        robots := t.world.robots.insert (robotName t.c) o.secret
        stored := some { username := robotName t.c, secret := o.secret, expires := expires } } := by
      intro secret hsecret
      rw [AList.lookup_insert, Option.some.injEq] at hsecret
      exact ⟨_, rfl, rfl, hsecret⟩
    simp only [robotCredential, hvalid, Bool.not_true, Bool.false_eq_true, if_false, wp_bind,
      wp_pure, sealRegistryCredential]
    refine wp_attempt (fun _ => ?_) (fun e he => by simp [hseal] at he)
    refine wp_request (fun _ => ?_) (fun e he => ⟨hkept₁, fun ho => by simp [ho.save] at he⟩)
      (fun e he => by simp [he, Outcome.served] at hsave)
    exact ⟨rfl, hkept₁, rfl, AList.lookup_insert _⟩
  | found hin =>
    obtain ⟨secret, hsecret⟩ := Option.isSome_iff_exists.mp (AList.lookup_isSome.mpr hin)
    obtain ⟨cred, hstored, husername, hsecret'⟩ := hkept secret hsecret
    have hinvalid : RobotCredential.valid { username := robotName t.c } = false := by
      simp [RobotCredential.valid]
    simp only [robotCredential, hinvalid, Bool.not_false, if_true, wp_tryCatch, wp_bind, wp_throw,
      storedRegistryCredential, wp_get]
    refine wp_attempt (fun _ => ?_) (fun e he => ⟨hkept, fun ho => by simp [ho.read] at he⟩)
    rw [hstored]
    refine ⟨rfl, hkept, hstored, ?_⟩
    rw [Robots.Accepts, husername, hsecret', hsecret]

/-- What a wiring that completes leaves behind. -/
structure Complete (c : Cluster) (w : Robots) : Prop where
  wired : c.registryWired = true
  stored : ∃ cred, w.stored = some cred ∧ w.Accepts cred ∧
    w.pull = some (cred.username, cred.secret)

/-- **One wiring** that keeps its secret: the sealed credential stays the robot's, and the wiring is
complete unless something fails. -/
theorem wp_wireRegistry (hwired : t.c.registryWired = false) (hkept : CredentialKept t.c t.world)
    (hkeeps : KeepsSecret o t.c t.world) :
    wp (wireRegistry ttl o)
      (fun _ t' => t'.c.id = t.c.id ∧ CredentialKept t.c t'.world ∧ Complete t'.c t'.world)
      (fun _ t' => CredentialKept t.c t'.world ∧ ¬o.Clean) t := by
  simp only [wireRegistry, wp_bind, wp_get, wp_ite, hwired, Bool.false_eq_true, false_implies,
    not_false_eq_true, forall_const, true_and]
  refine wp_mono (wp_ensureRobot hwired hkeeps) (fun minted t₁ hensured => ?_)
    (fun _ t₁ ht₁ => ⟨ht₁.1 ▸ hkept, ht₁.2⟩)
  refine wp_mono (wp_robotCredential hwired hkept hkeeps hensured) ?_ (fun _ _ => id)
  rintro cred t₂ ⟨hc, hkept₂, hstored, haccepts⟩
  have hid : t₂.c.id = t.c.id := by rw [hc]
  simp only [installCredential, wp_bind, wp_modify]
  refine wp_request (fun _ => ⟨hid, hkept₂, rfl, cred, hstored, haccepts, rfl⟩)
    (fun e he => ⟨hkept₂, fun ho => by simp [ho.install] at he⟩)
    (fun e he => ⟨hkept₂, fun ho => by simp [ho.install] at he⟩)

end Step

/-! ### The tick's wiring -/

private def failure {α : Type} : EStateM.Result String RobotTick α → Option String
  | .ok _ _ => none
  | .error e _ => some e

/-- The environment that the outside amounts to for a tick which has come to the wiring. -/
def under (ρ : Env) (ttl : Duration) (o : RobotAnswers) (t : RobotTick) : Env :=
  match ensureRobot ttl o t.c t with
  | .error e _ =>
    { ρ with fails := fun n k => if k = .registryEnsureCluster then some e else ρ.fails n k }
  | .ok cred t' =>
    { ρ with
      robotCreated := cred.valid
      robotExpires := cred.expires
      storedRobotExpires := t'.world.stored.bind (·.expires)
      fails := fun n k => match k with
        | .registryEnsureCluster => none
        | .seal => o.sealing
        | .saveSecret .registryPull => o.save.error?
        | .getSecret .registryPull => failure (storedRegistryCredential o t')
        | .ensureRegistryPullSecret => o.install.error?
        | k => ρ.fails n k }

private def SameCopy (t t' : RobotTick) : Prop := t'.c = t.c

private instance : IsPreorder RobotTick SameCopy where
  refl _ := rfl
  trans _ _ _ h h' := h'.trans h

private theorem sameCopy_request (oc : Outcome) (f : Robots → Robots) :
    Within SameCopy (request oc f) :=
  fun _ => wp_request (fun _ => rfl) (fun _ _ => rfl) (fun _ _ => rfl)

private theorem sameCopy_attempt (error : Option String) : Within SameCopy (attempt error) :=
  fun _ => wp_attempt (fun _ => rfl) (fun _ _ => rfl)

private theorem sameCopy_ensureRobot (c : Cluster) : Within SameCopy (ensureRobot ttl o c) := by
  have hcreate : Within SameCopy (createRobot o c) :=
    Within.get.bind fun _ => .ite ((sameCopy_request _ _).bind fun _ => .throw _)
      ((sameCopy_request _ _).bind fun _ => .pure _)
  have hfind : Within SameCopy (findRobot o c) :=
    (sameCopy_attempt _).bind fun _ => Within.get.bind fun _ => .ite (.pure _) (.throw _)
  refine (sameCopy_request _ _).bind fun _ => Within.bind (.tryCatch (hcreate.bind fun _ => .pure _)
    fun _ => .ite (.pure _) (.throw _)) fun created => ?_
  cases created with
  | none => exact hfind.bind fun _ => .pure _
  | some _ => exact .pure _

private abbrev SameError (e e' : String) (s : TickState) (t : RobotTick) : Prop :=
  e = e' ∧ s.c = t.c

private theorem perform_of_none {ρ : Env} {k : Call} {context : String} {s : TickState}
    (h : ρ.fails s.trace.length k = none) : perform ρ k context s = .ok () (s.log k true) := by
  rw [perform, h]

private theorem perform_of_some {ρ : Env} {k : Call} {context e : String} {s : TickState}
    (h : ρ.fails s.trace.length k = some e) :
    perform ρ k context s = .error (context ++ e) (s.log k false) := by
  rw [perform, h]

private theorem alike_request {ρ : Env} {k : Call} {s : TickState} {oc : Outcome}
    {f : Robots → Robots} (hfails : ∀ n, ρ.fails n k = oc.error?) (hc : s.c = t.c) :
    Lockstep (perform ρ k) (request oc f)
      (fun _ _ s' t' => s'.c = t.c ∧ t' = { t with world := f t.world }) SameError s t := by
  cases oc with
  | answered => exact .of_ok (perform_of_none (hfails _)) rfl ⟨hc, rfl⟩
  | unanswered e => exact .of_error (perform_of_some (hfails _)) rfl ⟨String.empty_append, hc⟩
  | unserved e => exact .of_error (perform_of_some (hfails _)) rfl ⟨String.empty_append, hc⟩

private theorem alike_attempt {ρ : Env} {k : Call} {s : TickState} {error : Option String}
    (hfails : ∀ n, ρ.fails n k = error) (hc : s.c = t.c) :
    Lockstep (perform ρ k) (attempt error) (fun _ _ s' t' => s'.c = t.c ∧ t' = t) SameError
      s t := by
  cases error with
  | none => exact .of_ok (perform_of_none (hfails _)) rfl ⟨hc, rfl⟩
  | some e => exact .of_error (perform_of_some (hfails _)) rfl ⟨String.empty_append, hc⟩

private theorem alike_reported {β : Type} {ρ : Env} {k : Call} {context : String} {s : TickState}
    {n : RobotWiring β} (hfails : ρ.fails s.trace.length k = failure (n t))
    (hok : ∀ b t', n t = .ok b t' → s.c = t'.c) (herror : ∀ e t', n t = .error e t' → s.c = t'.c) :
    Lockstep (perform ρ k context) (tryCatch n fun e => throw (context ++ e))
      (fun _ b s' t' => s'.c = t'.c ∧ n t = .ok b t') SameError s t := by
  cases hn : n t with
  | ok b t' =>
    rw [hn] at hfails
    refine .of_ok (perform_of_none hfails) ?_ ⟨hok b t' hn, rfl⟩
    simp only [tryCatch, tryCatchThe, MonadExceptOf.tryCatch, EStateM.tryCatch, hn]
  | error e t' =>
    rw [hn] at hfails
    refine .of_error (perform_of_some hfails) ?_ ⟨rfl, herror e t' hn⟩
    simp only [tryCatch, tryCatchThe, MonadExceptOf.tryCatch, EStateM.tryCatch, hn]
    rfl

private theorem get_apply : (get : RobotWiring RobotTick) t = .ok t t := rfl

private theorem storedRegistryCredential_eq : storedRegistryCredential o t =
    match o.read, t.world.stored with
    | some e, _ => .error e t
    | none, none => .error "not found" t
    | none, some cred => .ok cred t := by
  simp only [storedRegistryCredential]
  cases o.read with
  | some e => rfl
  | none =>
    cases hstored : t.world.stored <;>
      simp [attempt, bind, EStateM.bind, pure, EStateM.pure, get_apply, hstored, throw, throwThe,
        MonadExceptOf.throw]
    rfl

private theorem alike_credential {ρ : Env} {s : TickState} {cred : RobotCredential}
    (hc : s.c = t.c) (hcreated : ρ.robotCreated = cred.valid)
    (hexpires : ρ.robotExpires = cred.expires)
    (hstored : ρ.storedRobotExpires = t.world.stored.bind (·.expires))
    (hseal : ∀ n, ρ.fails n .seal = o.sealing)
    (hsave : ∀ n, ρ.fails n (.saveSecret .registryPull) = o.save.error?)
    (hget : ∀ n, ρ.fails n (.getSecret .registryPull) =
      failure (storedRegistryCredential o t)) :
    Lockstep (registryCredential ρ) (robotCredential o cred)
      (fun expires cred s' t' => s'.c = t'.c ∧ expires = cred.expires) SameError s t := by
  unfold registryCredential robotCredential
  rw [hcreated]
  cases cred.valid with
  | true =>
    refine Lockstep.bind (Q := fun _ _ s' t' => s'.c = t'.c) ?_ fun _ _ s' t' h =>
      .of_ok rfl rfl ⟨h, hexpires⟩
    refine (alike_attempt hseal hc).bind fun _ _ s₁ t₁ h => ?_
    obtain ⟨hc₁, rfl⟩ := h
    refine (alike_request hsave hc₁).mono fun _ _ s' t' h => ?_
    rw [h.2]
    exact h.1
  | false =>
    have hread := storedRegistryCredential_eq (o := o) (t := t)
    simp only [Bool.not_false, if_true]
    rw [← bind_pure (tryCatch (storedRegistryCredential o) _)]
    refine (alike_reported (hget _) (fun _ _ h => ?_) fun _ _ h => ?_).bind ?_
    · split at hread <;> simp_all
    · split at hread <;> simp_all
    · rintro _ found s' t' ⟨hc', hfound⟩
      refine .of_ok rfl rfl ⟨?_, ?_⟩
      · split at hread <;> simp_all
      · split at hread <;> simp_all

/-- **The wiring of the reconciler's tick is this one.** -/
theorem reconcileRegistryWiring_under {r : Reconciler} (hr : r.registry = true) (ρ : Env)
    (s : TickState) (w : Robots) :
    Lockstep (reconcileRegistryWiring r (under ρ ttl o ⟨s.c, w⟩)) (wireRegistry ttl o)
      (fun _ _ s' t' => s'.c = t'.c) SameError s ⟨s.c, w⟩ := by
  have hcopy : wp (ensureRobot ttl o s.c) _ _ ⟨s.c, w⟩ := sameCopy_ensureRobot s.c ⟨s.c, w⟩
  refine Lockstep.bind (Q := fun c t₀ s' t' => c = s.c ∧ t₀ = ⟨s.c, w⟩ ∧ s = s' ∧ t' = ⟨s.c, w⟩)
    (.of_ok rfl rfl ⟨rfl, rfl, rfl, rfl⟩) ?_
  rintro _ _ _ _ ⟨rfl, rfl, rfl, rfl⟩
  dsimp only
  rw [hr]
  cases s.c.registryWired with
  | true => exact .of_ok rfl rfl rfl
  | false =>
    simp only [Bool.not_true, Bool.or_false, Bool.false_eq_true, if_false]
    unfold wp at hcopy
    unfold under
    cases hens : ensureRobot ttl o s.c ⟨s.c, w⟩ with
    | error e t' =>
      rw [hens] at hcopy
      dsimp only
      exact Lockstep.bind (Q := fun _ _ _ _ => False)
        (.of_error (perform_of_some (e := e) (by simp)) hens ⟨String.empty_append, hcopy.symm⟩)
        fun _ _ _ _ h => h.elim
    | ok cred t' =>
      rw [hens] at hcopy
      dsimp only
      refine Lockstep.bind (Q := fun _ minted s₁ t₁ => minted = cred ∧ s₁.c = s.c ∧ t₁ = t')
        (.of_ok (perform_of_none rfl) hens ⟨rfl, rfl, rfl⟩) ?_
      rintro _ _ s₁ _ ⟨rfl, hc₁, rfl⟩
      refine (alike_credential (hc₁.trans hcopy.symm) rfl rfl rfl (fun _ => rfl) (fun _ => rfl)
        fun _ => rfl).bind ?_
      rintro expires cred' s₂ t₂ ⟨hc₂, rfl⟩
      refine Lockstep.bind (Q := fun _ _ s₃ t₃ => s₃.c = t₃.c) (.of_ok rfl rfl ?_)
        fun _ _ s₃ t₃ hc₃ => ?_
      · exact congrArg (fun c : Cluster => { c with
          registryRobotNotAfter := cred'.expires.or c.registryRobotNotAfter }) hc₂
      · refine (alike_request (fun _ => rfl) hc₃).bind ?_
        rintro _ _ s₄ _ ⟨hc₄, rfl⟩
        exact .of_ok rfl rfl (congrArg (fun c : Cluster => { c with registryWired := true }) hc₄)

end RobotWiring

/-! ### Ticks -/

/-- One tick: how the calls of its wiring end, and whether its copy of the row is stored (nothing
else in the tick fails, and the write is not refused). -/
abbrev WiringTick := RobotAnswers × Bool

open RobotWiring

/-- **A tick.** What it did outside stays; the row changes only if its copy is stored. -/
def RobotTick.step (ttl : Duration) (s : RobotTick) (i : WiringTick) : RobotTick :=
  match wireRegistry ttl i.1 s with
  | .ok _ t => if i.2 then t else { t with c := s.c }
  | .error _ t => { t with c := s.c }

/-- Every tick that makes a robot keeps its secret. -/
def RobotTick.Keeps (s : RobotTick) (i : WiringTick) : Prop := KeepsSecret i.1 s.c s.world

instance (s : RobotTick) (i : WiringTick) : Decidable (s.Keeps i) :=
  inferInstanceAs (Decidable (KeepsSecret ..))

/-- The sealed credential is the robot's, and a row is marked only when the wiring is complete. -/
private structure RobotInv (s : RobotTick) : Prop where
  kept : CredentialKept s.c s.world
  complete : s.c.registryWired = true → Complete s.c s.world

private theorem RobotInv.step {ttl : Duration} {s : RobotTick} {i : WiringTick} (h : RobotInv s)
    (hkeeps : s.Keeps i) :
    RobotInv (s.step ttl i) ∧
      (i.1.Clean → i.2 = true → (s.step ttl i).c.registryWired = true) := by
  obtain ⟨o, stored⟩ := i
  cases hwired : s.c.registryWired with
  | true =>
    have hstep : wireRegistry ttl o s = .ok () s := by
      simp only [wireRegistry, bind, EStateM.bind, get_apply, hwired, if_true]
      rfl
    have hsame : s.step ttl (o, stored) = s := by
      simp only [RobotTick.step, hstep, ite_self]
    rw [hsame]
    exact ⟨h, fun _ _ => hwired⟩
  | false =>
    have hwp : wp (wireRegistry ttl o) _ _ s := wp_wireRegistry hwired h.kept hkeeps
    have hrow {w : Robots} (hkept : CredentialKept s.c w) : RobotInv { c := s.c, world := w } :=
      ⟨hkept, fun hin => by simp [hwired] at hin⟩
    unfold wp at hwp
    unfold RobotTick.step
    cases hres : wireRegistry ttl o s with
    | error e t =>
      rw [hres] at hwp
      exact ⟨hrow hwp.1, fun ho => absurd ho hwp.2⟩
    | ok _ t =>
      rw [hres] at hwp
      obtain ⟨hid, hkept, hcomplete⟩ := hwp
      cases stored with
      | false => exact ⟨hrow hkept, by simp⟩
      | true =>
        have hname : robotName t.c = robotName s.c := by simp only [robotName, clusterRobot, hid]
        have hkept' : CredentialKept t.c t.world := by
          unfold CredentialKept
          rwa [hname]
        exact ⟨⟨hkept', fun _ => hcomplete⟩, fun _ _ => hcomplete.wired⟩

/-- **The wiring can always be completed**: after any number of ticks that failed anywhere, or whose
row was not stored, a tick in which nothing fails ends with a row that is marked and a stored
credential that the registry accepts. -/
theorem registry_wired (ttl : Duration) (c : Cluster) (w : Robots) (hc : c.registryWired = false)
    (hw : robotName c ∉ w.robots) (is : List WiringTick)
    (his : TransitionSystem.Along (RobotTick.step ttl) RobotTick.Keeps ⟨c, w⟩ is)
    (o : RobotAnswers) (ho : o.Clean) :
    let s := (TransitionSystem.run (RobotTick.step ttl) ⟨c, w⟩ is).step ttl (o, true)
    s.c.registryWired = true ∧ ∃ cred, s.world.stored = some cred ∧ s.world.Accepts cred := by
  have hinit : RobotInv ⟨c, w⟩ := by
    refine ⟨fun secret hsecret => ?_, fun hwired => by simp [hc] at hwired⟩
    rw [AList.lookup_eq_none.mpr hw] at hsecret
    simp at hsecret
  have hinv := TransitionSystem.run_invariant (I := RobotInv)
    (fun s i h hi => (RobotInv.step h hi).1) hinit his
  have hkeeps : RobotTick.Keeps (TransitionSystem.run (RobotTick.step ttl) ⟨c, w⟩ is) (o, true) :=
    fun _ _ _ _ => ⟨ho.robot, ho.sealing, by rw [ho.save]; rfl⟩
  obtain ⟨hafter, hwired⟩ := hinv.step hkeeps
  obtain ⟨cred, hstored, haccepts, -⟩ := (hafter.complete (hwired ho rfl)).stored
  exact ⟨hwired ho rfl, cred, hstored, haccepts⟩

/-- A robot is made and sealed, but the pull secret cannot be applied; then the row is not stored;
then nothing fails. -/
theorem registry_wired_third :
    let s := (TransitionSystem.run (RobotTick.step 365) ⟨demoCluster, {}⟩
      [({ secret := ⟨"s3cret", by decide⟩, install := .unserved "connection refused" }, true),
        ({ secret := ⟨"other", by decide⟩ }, false)]).step 365
        ({ secret := ⟨"other", by decide⟩ }, true)
    s.c.registryWired = true ∧ ∃ cred, s.world.stored = some cred ∧ s.world.Accepts cred :=
  registry_wired 365 demoCluster {} rfl (AList.notMem_empty _) _ (by decide +kernel) _
    ⟨rfl, rfl, rfl, rfl, rfl, rfl, rfl⟩

/-- A robot is made, but its credential cannot be saved. In the next tick nothing fails. -/
theorem lost_secret_blocks_wiring :
    ((TransitionSystem.run (RobotTick.step 365) ⟨demoCluster, {}⟩
      [({ secret := ⟨"s3cret", by decide⟩, save := .unserved "connection refused" }, true)]).step
        365 ({ secret := ⟨"other", by decide⟩ }, true)).c.registryWired = false := by
  decide +kernel

end KaaS
