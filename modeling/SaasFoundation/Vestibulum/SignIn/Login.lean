import SaasFoundation.Vestibulum.SignIn.Limits

/-!
# `auth-login`

The endpoint behind the login form. Once the request is well formed every
outcome is the same answer: the checks come first and are a function of the
request and the deployment, and what follows them ends in one response
whatever the outside did.
-/

namespace SaasFoundation.Vestibulum.SignIn

open Lib Lib.Text

/-- The Function URL event, as far as it is read. -/
structure FunctionUrlEvent where
  headers : Record
  cookies : List String
  body : Option String
  method : Option String

/-- The Function URL result; an absent part is not sent. -/
structure FunctionUrlResult where
  statusCode : Nat
  headers : Option Record
  cookies : Option (List String)
  body : Option String
deriving DecidableEq, Repr

def forbidden : FunctionUrlResult := ⟨403, none, none, none⟩

/-- `auth-login`'s 401; that of `auth-verify` clears the cookie too. -/
def loginAuthFailed : FunctionUrlResult :=
  ⟨401, some [("Content-Type", "application/json")], none,
    some "\x7b\"error\":\"Authentication failed\"\x7d"⟩

def badRequest : FunctionUrlResult :=
  ⟨400, some [("Content-Type", "application/json")], none,
    some "\x7b\"error\":\"Bad request\"\x7d"⟩

/-- The one answer to a well-formed request. -/
def accepted (secret : String) (ttlMinutes : Int) : FunctionUrlResult :=
  ⟨202, some [("Content-Type", "application/json"), ("Cache-Control", "no-store")],
    some [buildBindingCookie secret (ttlMinutes * 60)], some "\x7b\x7d"⟩

/-! ## The checks -/

/-- The `Origin` header must be present and name the deployment's domain. -/
def originOk (ev : FunctionUrlEvent) (domain : String) : Bool :=
  match ev.headers.lookup "origin" with
  | none => false
  | some origin => origin ≠ "" && origin == "https://" ++ domain

/-- The address in the body; a body that does not parse has none. -/
def bodyEmail (rt : Runtime) (ev : FunctionUrlEvent) : Option String := do
  let body ← ev.body
  if body = "" then none
  else
    let parsed ← rt.jsonParse body
    let email ← Json.asString (parsed.get "email")
    if email = "" then none else normalizeEmail rt email

/-- The viewer's IP: the last hop of `x-forwarded-for`. -/
def clientIp (ev : FunctionUrlEvent) : Option String := do
  let xff ← ev.headers.lookup "x-forwarded-for"
  if (trim xff.toList).isEmpty then none
  else
    let ip := trim ((xff.toList.splitOn ',').getLastD [])
    if ip.isEmpty then none else some (String.ofList ip)

structure LoginConfig where
  clientId : String
  ttlMinutes : Int
  enrollment : Enrollment
  userPoolId : String
  limit : Option Int
  floorMs : Int

/-- The deployment of the endpoint. `admin-only` needs a pool to look
addresses up in, unless an allow-list was injected. -/
def loginConfig (env : ProcessEnv) (portInjected : Bool) : Option LoginConfig := do
  let enrollment ← parseEnrollment (env RuntimeEnv.enrollment)
  let userPoolId := (env RuntimeEnv.cognitoUserPoolId).getD ""
  if enrollment = .adminOnly ∧ portInjected = false ∧ userPoolId = "" then none
  else
    let _ ← env.nonEmpty RuntimeEnv.rateLimitTableName
    let _ ← env.nonEmpty RuntimeEnv.bindingTableName
    let clientId ← env.nonEmpty RuntimeEnv.cognitoClientId
    let ttlMinutes ← parseTokenTtlMinutes (env RuntimeEnv.tokenTtlMinutes)
    let limit := match env RuntimeEnv.loginIpPerWindow with
      | none => some defaultLoginsPerWindow
      | some s => parseInt s.toList
    some
      { clientId := clientId
        ttlMinutes := ttlMinutes
        enrollment := enrollment
        userPoolId := userPoolId
        limit := limit
        floorMs := parseMs (env RuntimeEnv.signinFloorMs) defaultSigninFloorMs }

/-- A request that passed every check. -/
structure LoginPlan where
  cfg : LoginConfig
  email : String
  clientIp : String

/-- Everything before the floor: the domain, the origin, the body, the
client's IP, the deployment. -/
def loginChecks (rt : Runtime) (env : ProcessEnv) (portInjected : Bool)
    (ev : FunctionUrlEvent) : Except FunctionUrlResult LoginPlan :=
  match env.nonEmpty RuntimeEnv.domain with
  | none => .error loginAuthFailed
  | some domain =>
      if !originOk ev domain then .error forbidden
      else
        match bodyEmail rt ev with
        | none => .error badRequest
        | some email =>
            match clientIp ev with
            | none => .error forbidden
            | some ip =>
                match loginConfig env portInjected with
                | none => .error loginAuthFailed
                | some cfg => .ok ⟨cfg, email, ip⟩

/-! ## Starting the session -/

/-- A Cognito session and the username it is answered under. -/
structure Started where
  session : String
  username : String
deriving DecidableEq, Repr

/-- The username for `InitiateAuth`: signed up on the fly, looked up, or a
phantom for whoever is not there. -/
def resolveUsername (plan : LoginPlan) : Handler String :=
  match plan.cfg.enrollment with
  | .selfSignup => do
      let password ← request .randomPassword
      let _ ← request (.signUp plan.cfg.clientId plan.email password)
      pure plan.email
  | .adminOnly => do
      let found : Except SdkError AllowListResult ←
        request (.allowListLookup plan.cfg.userPoolId plan.email)
      match found with
      | .ok (.value (some e)) => pure e.subject
      | _ => request .randomPhantom

/-- `startAuth`: a session, none, or the error Cognito threw. -/
def startAuth (plan : LoginPlan) : Handler (Except SdkError (Option Started)) := do
  let username ← resolveUsername plan
  let result : Except SdkError InitiateAuthOutput ←
    request (.initiateAuth plan.cfg.clientId username)
  match result with
  | .error e => pure (.error e)
  | .ok out =>
      match out.session with
      | none => pure (.ok none)
      | some session =>
          if session = "" then pure (.ok none)
          else
            -- the name Cognito echoes is the pool's real username
            match out.challengeUsername with
            | none => pure (.ok (some ⟨session, username⟩))
            | some echoed =>
                pure (.ok (some ⟨session, if echoed = "" then username else echoed⟩))

/-- The limiter and the start; no error leaves it. -/
def attempt (rt : Runtime) (plan : LoginPlan) : Handler (Option Started × RequestOutcome) := do
  let nowMs ← request .now
  let allowed ← tryConsumeIpRateLimit rt plan.clientIp plan.cfg.limit nowMs
  match allowed with
  | .error _ => pure (none, .authError)
  | .ok false => pure (none, .rateLimited)
  | .ok true => do
      let started ← startAuth plan
      match started with
      | .error _ => pure (none, .authError)
      | .ok none => pure (none, .authError)
      | .ok (some s) => pure (some s, .accepted)

/-- The row: written even without a session. -/
def bindingRow (rt : Runtime) (secret : String) (nowMs ttlMinutes : Int)
    (started : Option Started) : BindingRow where
  bindingHash := rt.sha256Hex secret
  expiresAt := some (nowMs / 1000 + ttlMinutes * 60)
  session := started.map Started.session
  username := started.map Started.username

/-- A failed write is the outcome, whatever came before it. -/
def storeOutcome (outcome : RequestOutcome) : Except SdkError Unit → RequestOutcome
  | .ok () => outcome
  | .error _ => .storeError

/-- What follows the checks, inside the floor. -/
def acceptLogin (rt : Runtime) (plan : LoginPlan) : Handler FunctionUrlResult := do
  let secret ← request .newBindingSecret
  let (started, outcome) ← attempt rt plan
  let nowMs ← request .now
  let stored : Except SdkError Unit ←
    request (.putBinding (bindingRow rt secret nowMs plan.cfg.ttlMinutes started))
  let _ ← request (.emitSigninMetric (.signInRequest (storeOutcome outcome stored)))
  pure (accepted secret plan.cfg.ttlMinutes)

def authLogin (rt : Runtime) (env : ProcessEnv) (portInjected : Bool)
    (ev : FunctionUrlEvent) : Handler FunctionUrlResult :=
  match loginChecks rt env portInjected ev with
  | .error response => pure response
  | .ok plan => withFloor plan.cfg.floorMs (acceptLogin rt plan)

/-! ## What a run looks like -/

section Runs

variable {rt : Runtime} {env : ProcessEnv} {portInjected : Bool} {ev : FunctionUrlEvent}
  {es : List (Event Request Reply)} {out : FunctionUrlResult}

/-- The requests by which a session is started. -/
def Request.ofStart : Request → Prop
  | .randomPassword => True
  | .randomPhantom => True
  | .signUp _ _ _ => True
  | .allowListLookup _ _ => True
  | .initiateAuth _ _ => True
  | _ => False

/-- The requests of `attempt`: none of them touches the binding table or
draws the secret. -/
def Request.isAttempt : Request → Prop
  | .now => True
  | .updateCounter _ => True
  | op => op.ofStart

theorem resolveUsername_uses (plan : LoginPlan) :
    (resolveUsername plan).Uses Request.ofStart := by
  unfold resolveUsername
  split
  · exact ⟨trivial, fun _ => ⟨trivial, fun _ => trivial⟩⟩
  · simp only [Prog.call_bind, Prog.uses_ask]
    refine ⟨trivial, fun found => ?_⟩
    split
    · trivial
    · exact ⟨trivial, fun _ => trivial⟩

theorem startAuth_uses (plan : LoginPlan) : (startAuth plan).Uses Request.ofStart := by
  refine (resolveUsername_uses plan).bind fun username => ?_
  simp only [Prog.call_bind, Prog.uses_ask]
  refine ⟨trivial, fun result => ?_⟩
  split
  · trivial
  · split
    · trivial
    · split
      · trivial
      · split <;> trivial

theorem attempt_uses (plan : LoginPlan) : (attempt rt plan).Uses Request.isAttempt := by
  simp only [attempt, Prog.call_bind, Prog.uses_ask]
  refine ⟨trivial, fun nowMs => ?_⟩
  refine Prog.Uses.bind ?_ fun allowed => ?_
  · simp only [tryConsumeIpRateLimit, consumeCounter, Prog.call_bind, Prog.uses_ask]
    refine ⟨trivial, fun reply => ?_⟩
    split <;> trivial
  · split
    · trivial
    · trivial
    · refine ((startAuth_uses plan).mono ?_).bind fun started => ?_
      · intro op hop
        cases op <;> trivial
      · split <;> trivial

/-- The requests of the endpoint. -/
def Request.ofLogin : Request → Prop
  | .sleep _ => True
  | .newBindingSecret => True
  | .putBinding _ => True
  | .emitSigninMetric _ => True
  | op => op.isAttempt

theorem authLogin_uses : (authLogin rt env portInjected ev).Uses Request.ofLogin := by
  unfold authLogin
  split
  · trivial
  refine withFloor_uses ?_ trivial fun _ => trivial
  refine ⟨trivial, fun secret => ((attempt_uses _).mono ?_).bind fun result => ?_⟩
  · intro op hop
    cases op <;> trivial
  · exact ⟨trivial, fun _ => ⟨trivial, fun _ => ⟨trivial, fun _ => trivial⟩⟩⟩

/-- The IP's counter is asked first and once, at the clock read for it. -/
theorem finishes_attempt {plan : LoginPlan} {result : Option Started × RequestOutcome}
    (h : (attempt rt plan).Finishes es result) :
    ∃ nowMs reply rest, es = ⟨.now, nowMs⟩ ::
        ⟨.updateCounter (ipRateLimitUpdate rt plan.clientIp plan.cfg.limit nowMs), reply⟩ :: rest ∧
      ∀ e ∈ rest, ∀ u, e.op ≠ .updateCounter u := by
  simp only [attempt, Prog.call_bind, Prog.finishes_ask] at h
  obtain ⟨nowMs, _, rfl, h⟩ := h
  obtain ⟨es₁, rest, allowed, rfl, hcount, hrest⟩ := Prog.finishes_bind.mp h
  obtain ⟨reply, rfl, -⟩ := finishes_consumeCounter hcount
  refine ⟨nowMs, reply, rest, rfl, ?_⟩
  intro e he u hop
  split at hrest
  · simp only [Prog.pure_def, Prog.finishes_ret] at hrest
    rw [hrest.1] at he
    cases he
  · simp only [Prog.pure_def, Prog.finishes_ret] at hrest
    rw [hrest.1] at he
    cases he
  · obtain ⟨es₂, es₃, started, rfl, hstart, hend⟩ := Prog.finishes_bind.mp hrest
    have hnil : es₃ = [] := by
      split at hend <;> simp only [Prog.pure_def, Prog.finishes_ret] at hend <;> exact hend.1
    rw [hnil, List.append_nil] at he
    have hstarts := (startAuth_uses plan).finishes hstart e he
    rw [hop] at hstarts
    exact hstarts

/-- A run that passed the checks, cut at its stages. -/
structure LoginRun (rt : Runtime) (plan : LoginPlan) (es : List (Event Request Reply))
    (out : FunctionUrlResult) where
  start : Int
  secret : String
  nowMs : Int
  started : Option Started
  outcome : RequestOutcome
  stored : Except SdkError Unit
  tries : List (Event Request Reply)
  tail : List (Event Request Reply)
  attempts : (attempt rt plan).Finishes tries (started, outcome)
  es_eq : es = ⟨.now, start⟩ :: ⟨.newBindingSecret, secret⟩ :: (tries ++
    (⟨.now, nowMs⟩ ::
      ⟨.putBinding (bindingRow rt secret nowMs plan.cfg.ttlMinutes started), stored⟩ ::
      ⟨.emitSigninMetric (.signInRequest (storeOutcome outcome stored)), ()⟩ :: tail))
  floor : ∀ e ∈ tail, e.op = .now ∨ ∃ ms, e.op = .sleep ms
  out_eq : out = accepted secret plan.cfg.ttlMinutes

/-- What a request that passes the checks has been found to have. -/
theorem loginChecks_ok {plan : LoginPlan} (h : loginChecks rt env portInjected ev = .ok plan) :
    loginConfig env portInjected = some plan.cfg ∧ bodyEmail rt ev = some plan.email ∧
      clientIp ev = some plan.clientIp := by
  unfold loginChecks at h
  split at h
  · cases h
  split at h
  · cases h
  split at h
  · cases h
  rename_i hemail
  split at h
  · cases h
  rename_i hip
  split at h
  · cases h
  rename_i hcfg
  cases h
  exact ⟨hcfg, hemail, hip⟩

/-- A request is turned down by the checks, without asking anything, or
runs to the one accepted response. -/
theorem finishes_authLogin (h : (authLogin rt env portInjected ev).Finishes es out) :
    (loginChecks rt env portInjected ev = .error out ∧ es = []) ∨
    ∃ plan, loginChecks rt env portInjected ev = .ok plan ∧
      Nonempty (LoginRun rt plan es out) := by
  unfold authLogin at h
  cases hchecks : loginChecks rt env portInjected ev with
  | error response =>
      simp only [hchecks, Prog.pure_def, Prog.finishes_ret] at h
      obtain ⟨rfl, rfl⟩ := h
      exact .inl ⟨rfl, rfl⟩
  | ok plan =>
      simp only [hchecks] at h
      refine .inr ⟨plan, rfl, ?_⟩
      obtain ⟨start, es₁, tail, rfl, haccept, htail⟩ := finishes_withFloor h
      simp only [acceptLogin, Prog.call_bind, Prog.finishes_ask] at haccept
      obtain ⟨secret, fs, rfl, hrest⟩ := haccept
      obtain ⟨tries, gs, ⟨started, outcome⟩, rfl, htry, hrest⟩ := Prog.finishes_bind.mp hrest
      simp only [Prog.finishes_ask, Prog.pure_def, Prog.finishes_ret] at hrest
      obtain ⟨nowMs, _, rfl, stored, _, rfl, _, _, rfl, rfl, rfl⟩ := hrest
      exact ⟨{ start := start, secret := secret, nowMs := nowMs, started := started,
               outcome := outcome, stored := stored, tries := tries, tail := tail,
               attempts := htry, es_eq := by simp, floor := htail, out_eq := rfl }⟩

end Runs

end SaasFoundation.Vestibulum.SignIn
