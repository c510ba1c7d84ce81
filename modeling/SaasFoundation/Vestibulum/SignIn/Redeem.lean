import SaasFoundation.Vestibulum.SignIn.Login

/-!
# `auth-verify`

The endpoint behind the callback page. The browser sends an answer and the
binding cookie; the pending session is taken from the binding table by the
hash of the cookie, in one conditional delete, before anything about the
row is examined.
-/

namespace SaasFoundation.Vestibulum.SignIn

open Lib Lib.Text

/-! ## Cookies -/

inductive SameSite where
  | lax
  | strict
deriving DecidableEq, Repr

def SameSite.text : SameSite → String
  | .lax => "Lax"
  | .strict => "Strict"

structure CookieOptions where
  sameSite : SameSite
  path : String
  domain : String
  maxAge : Int

/-- `buildSetCookie`; `none` is the thrown guard against an empty path or
domain. -/
def buildSetCookie (name value : String) (opts : CookieOptions) : Option String :=
  if opts.path = "" then none
  else if opts.domain = "" then none
  else
    some ("; ".intercalate
      [name ++ "=" ++ value, "Max-Age=" ++ toString opts.maxAge, "Path=" ++ opts.path,
        "Domain=" ++ opts.domain, "SameSite=" ++ opts.sameSite.text, "HttpOnly", "Secure"])

def idTokenCookieName : String := "id-token"
def refreshTokenCookieName : String := "refresh-token"

/-- Refresh-token cookie lifetime: 24 hours. -/
def refreshTokenMaxAge : Int := 24 * 60 * 60

/-! ## Responses -/

def jsonHeaders : Record :=
  [("Content-Type", "application/json"), ("Cache-Control", "no-store")]

/-- The generic 401: every outcome is terminal, so the cookie goes. -/
def authFailed : FunctionUrlResult :=
  ⟨401, some jsonHeaders, some [clearBindingCookie],
    some "\x7b\"error\":\"Authentication failed\"\x7d"⟩

def methodNotAllowed : FunctionUrlResult := ⟨405, some [("Allow", "POST")], none, none⟩

def unsupportedMediaType : FunctionUrlResult := ⟨415, none, none, none⟩

def signedIn (cookies : List String) : FunctionUrlResult :=
  ⟨200, some jsonHeaders, some cookies, some "\x7b\"ok\":true\x7d"⟩

/-- `fail`: count the outcome, answer generically. -/
def fail (outcome : RedeemOutcome) : Handler (Except Thrown FunctionUrlResult) := do
  let _ ← request (.emitSigninMetric (.signInRedeem outcome))
  pure (.ok authFailed)

/-! ## The checks -/

/-- A request that is turned down: with a response of its own, or counted
and answered generically. -/
inductive Refusal where
  | silent (response : FunctionUrlResult)
  | counted (outcome : RedeemOutcome)

structure RedeemPlan where
  domain : String
  answer : String
  clientId : String
  idTokenMaxAge : Int

/-- `Content-Type` must begin with `application/json`. -/
def isJson (rt : Runtime) (ev : FunctionUrlEvent) : Bool :=
  let contentType := rt.toLowerCase ((ev.headers.lookup "content-type").getD "")
  "application/json".toList.isPrefixOf contentType.toList

/-- The answer in the body, bounded in length. -/
def bodyAnswer (rt : Runtime) (ev : FunctionUrlEvent) : Option String := do
  let body ← ev.body
  if body = "" then none
  else
    let parsed ← rt.jsonParse body
    let candidate ← Json.asString (parsed.get "answer")
    if jsLength candidate = 0 ∨ jsLength candidate > maxAnswerLength then none
    else some candidate

/-- Method, origin, content type, body, deployment, in this order. -/
def redeemChecks (rt : Runtime) (env : ProcessEnv) (ev : FunctionUrlEvent) :
    Except Refusal RedeemPlan :=
  match env.nonEmpty RuntimeEnv.domain with
  | none => .error (.silent authFailed)
  | some domain =>
      if ev.method ≠ some "POST" then .error (.silent methodNotAllowed)
      else if !originOk ev domain then .error (.silent forbidden)
      else if !isJson rt ev then .error (.silent unsupportedMediaType)
      else
        match bodyAnswer rt ev with
        | none => .error (.counted .rejected)
        | some answer =>
            match env.nonEmpty RuntimeEnv.cognitoClientId,
              env.nonEmpty RuntimeEnv.bindingTableName,
              parseRefreshTokenValiditySeconds (env RuntimeEnv.refreshTokenValiditySeconds) with
            | some clientId, some _, some maxAge => .ok ⟨domain, answer, clientId, maxAge⟩
            | _, _, _ => .error (.silent authFailed)

/-! ## The handler -/

/-- The session cookies of a sign-in. -/
def setCookies (plan : RedeemPlan) (idToken : String) (refreshToken : Option String) :
    Except Thrown (List String) :=
  match buildSetCookie idTokenCookieName idToken ⟨.lax, "/", plan.domain, plan.idTokenMaxAge⟩ with
  | none => .error .cookieError
  | some idCookie =>
      match refreshToken with
      | none => .ok [idCookie, clearBindingCookie]
      | some "" => .ok [idCookie, clearBindingCookie]
      | some token =>
          match buildSetCookie refreshTokenCookieName token
              ⟨.strict, "/auth-verify", plan.domain, refreshTokenMaxAge⟩ with
          | none => .error .cookieError
          | some refreshCookie => .ok [idCookie, clearBindingCookie, refreshCookie]

/-- Answer the challenge in the stored session. -/
def respond (plan : RedeemPlan) (session username : String) :
    Handler (Except Thrown FunctionUrlResult) := do
  let reply : Except SdkError AuthenticationResult ←
    request (.respondToAuthChallenge plan.clientId session username plan.answer)
  match reply with
  | .error _ => fail .rejected
  | .ok result =>
      match result.idToken with
      | none => fail .rejected
      | some idToken =>
          if idToken = "" then fail .rejected
          else
            match setCookies plan idToken result.refreshToken with
            | .error thrown => pure (.error thrown)
            | .ok cookies => do
                let _ ← request (.emitSigninMetric (.signInRedeem .ok))
                pure (.ok (signedIn cookies))

/-- The session a row holds; an empty text is none. -/
def rowSession (row : BindingRow) : Option (String × String) :=
  match row.session, row.username with
  | some session, some username =>
      if session = "" ∨ username = "" then none else some (session, username)
  | _, _ => none

/-- Expiry and session of a row that was taken. -/
def redeemRow (plan : RedeemPlan) (row : BindingRow) :
    Handler (Except Thrown FunctionUrlResult) :=
  match row.expiresAt with
  | none => fail .expired
  | some expiresAt => do
      let nowMs ← request .now
      if nowMs ≥ expiresAt * 1000 then fail .expired
      else
        match rowSession row with
        | none => fail .noSession
        | some (session, username) => respond plan session username

/-- Take the row of the cookie: of any number of concurrent requests one
gets it. -/
def takeAndRedeem (rt : Runtime) (plan : RedeemPlan) (bindingSecret : String) :
    Handler (Except Thrown FunctionUrlResult) := do
  let taken : Except SdkError (Option BindingRow) ←
    request (.takeBinding (rt.sha256Hex bindingSecret))
  match taken with
  | .error .conditionalCheckFailed => fail .noBinding
  | .error _ => fail .error
  | .ok none => fail .noBinding
  | .ok (some row) => redeemRow plan row

/-- The binding cookie of a request. -/
def bindingCookie (ev : FunctionUrlEvent) : Option String :=
  readCookie ev.cookies (ev.headers.lookup "cookie") bindingCookieName

def authVerify (rt : Runtime) (env : ProcessEnv) (ev : FunctionUrlEvent) :
    Handler (Except Thrown FunctionUrlResult) :=
  match redeemChecks rt env ev with
  | .error (.silent response) => pure (.ok response)
  | .error (.counted outcome) => fail outcome
  | .ok plan =>
      match bindingCookie ev with
      | none => fail .noBinding
      | some bindingSecret => takeAndRedeem rt plan bindingSecret

/-! ## What a run looks like -/

section Runs

variable {rt : Runtime} {env : ProcessEnv} {ev : FunctionUrlEvent}
  {es : List (Event Request Reply)} {out : Except Thrown FunctionUrlResult}

/-- The domain of a plan is set. -/
theorem redeemChecks_domain {plan : RedeemPlan} (h : redeemChecks rt env ev = .ok plan) :
    plan.domain ≠ "" := by
  unfold redeemChecks at h
  split at h
  · cases h
  rename_i domain hdomain
  have hne : domain ≠ "" := by
    intro heq
    unfold ProcessEnv.nonEmpty at hdomain
    split at hdomain
    · cases hdomain
    · rename_i hne
      exact hne (by rw [hdomain, heq])
  repeat' split at h
  all_goals first | (cases h; exact hne) | cases h

theorem setCookies_ok {plan : RedeemPlan} (h : plan.domain ≠ "") (idToken : String)
    (refreshToken : Option String) : ∃ cookies, setCookies plan idToken refreshToken = .ok cookies := by
  have hbuild : ∀ name value sameSite maxAge path, path ≠ "" →
      ∃ text, buildSetCookie name value ⟨sameSite, path, plan.domain, maxAge⟩ = some text := by
    intro name value sameSite maxAge path hpath
    simp [buildSetCookie, hpath, h]
  obtain ⟨idCookie, hid⟩ :=
    hbuild idTokenCookieName idToken .lax plan.idTokenMaxAge "/" (by decide)
  unfold setCookies
  rw [hid]
  cases refreshToken with
  | none => exact ⟨_, rfl⟩
  | some token =>
      by_cases hempty : token = ""
      · subst hempty
        exact ⟨_, rfl⟩
      · obtain ⟨cookie, hcookie⟩ :=
          hbuild refreshTokenCookieName token .strict refreshTokenMaxAge "/auth-verify" (by decide)
        simp [hcookie]

/-- The guards of `buildSetCookie` never trip in the endpoint. -/
theorem redeemChecks_setCookies {plan : RedeemPlan} (h : redeemChecks rt env ev = .ok plan)
    (idToken : String) (refreshToken : Option String) :
    ∃ cookies, setCookies plan idToken refreshToken = .ok cookies :=
  setCookies_ok (redeemChecks_domain h) idToken refreshToken

/-- The requests of the endpoint. -/
def Request.ofRedeem : Request → Prop
  | .now => True
  | .takeBinding _ => True
  | .respondToAuthChallenge _ _ _ _ => True
  | .emitSigninMetric _ => True
  | _ => False

theorem respond_uses (plan : RedeemPlan) (session username : String) :
    (respond plan session username).Uses Request.ofRedeem := by
  have hfail : ∀ outcome, (fail outcome).Uses Request.ofRedeem :=
    fun _ => ⟨trivial, fun _ => trivial⟩
  simp only [respond, Prog.call_bind, Prog.uses_ask]
  refine ⟨trivial, fun reply => ?_⟩
  split
  · exact hfail _
  split
  · exact hfail _
  split
  · exact hfail _
  split
  · trivial
  · exact ⟨trivial, fun _ => trivial⟩

theorem authVerify_uses : (authVerify rt env ev).Uses Request.ofRedeem := by
  have hfail : ∀ outcome, (fail outcome).Uses Request.ofRedeem :=
    fun _ => ⟨trivial, fun _ => trivial⟩
  unfold authVerify
  split
  · trivial
  · exact hfail _
  split
  · exact hfail _
  simp only [takeAndRedeem, Prog.call_bind, Prog.uses_ask]
  refine ⟨trivial, fun taken => ?_⟩
  split
  · exact hfail _
  · exact hfail _
  · exact hfail _
  unfold redeemRow
  split
  · exact hfail _
  simp only [Prog.call_bind, Prog.uses_ask]
  refine ⟨trivial, fun nowMs => ?_⟩
  split
  · exact hfail _
  split
  · exact hfail _
  · exact respond_uses _ _ _

/-- The requests that concern the row or Cognito. -/
def Request.isRedeem : Request → Bool
  | .takeBinding _ => true
  | .respondToAuthChallenge _ _ _ _ => true
  | _ => false

theorem fail_quiet (outcome : RedeemOutcome) :
    (fail outcome).Uses (fun op => op.isRedeem = false) :=
  ⟨rfl, fun _ => trivial⟩

/-- A challenge that was answered: the row that was taken, the clock that
was read, and what was sent. -/
structure Answered (plan : RedeemPlan) (taken : Except SdkError (Option BindingRow))
    (rest : List (Event Request Reply)) where
  row : BindingRow
  expiresAt : Int
  nowMs : Int
  session : String
  username : String
  reply : Except SdkError AuthenticationResult
  tail : List (Event Request Reply)
  taken_eq : taken = .ok (some row)
  expires : row.expiresAt = some expiresAt
  fresh : nowMs < expiresAt * 1000
  session_eq : rowSession row = some (session, username)
  rest_eq : rest = ⟨.now, nowMs⟩ ::
    ⟨.respondToAuthChallenge plan.clientId session username plan.answer, reply⟩ :: tail
  quiet : ∀ e ∈ tail, e.op.isRedeem = false

theorem finishes_respond {plan : RedeemPlan} {session username : String}
    (h : (respond plan session username).Finishes es out) :
    ∃ reply tail, es =
        ⟨.respondToAuthChallenge plan.clientId session username plan.answer, reply⟩ :: tail ∧
      ∀ e ∈ tail, e.op.isRedeem = false := by
  simp only [respond, Prog.call_bind, Prog.finishes_ask] at h
  obtain ⟨reply, tail, rfl, htail⟩ := h
  refine ⟨reply, tail, rfl, ?_⟩
  refine Prog.Uses.finishes (P := fun op => op.isRedeem = false) ?_ htail
  split
  · exact fail_quiet _
  · split
    · exact fail_quiet _
    · split
      · exact fail_quiet _
      · split
        · trivial
        · exact ⟨rfl, fun _ => trivial⟩

theorem finishes_redeemRow {plan : RedeemPlan} {row : BindingRow}
    (h : (redeemRow plan row).Finishes es out) :
    (∀ e ∈ es, e.op.isRedeem = false) ∨ Nonempty (Answered plan (.ok (some row)) es) := by
  unfold redeemRow at h
  split at h
  · exact .inl ((fail_quiet _).finishes h)
  rename_i expiresAt hexp
  simp only [Prog.call_bind, Prog.finishes_ask] at h
  obtain ⟨nowMs, fs, rfl, h⟩ := h
  have hclock : ∀ {fs : List (Event Request Reply)}, (∀ e ∈ fs, e.op.isRedeem = false) →
      ∀ e ∈ ⟨.now, nowMs⟩ :: fs, e.op.isRedeem = false := by
    intro fs hfs e he
    rcases List.mem_cons.mp he with rfl | he
    · rfl
    · exact hfs e he
  split at h
  · exact .inl (hclock ((fail_quiet _).finishes h))
  rename_i hfresh
  split at h
  · exact .inl (hclock ((fail_quiet _).finishes h))
  rename_i session username hsession
  obtain ⟨reply, tail, rfl, hquiet⟩ := finishes_respond h
  exact .inr ⟨{ row := row, expiresAt := expiresAt, nowMs := nowMs, session := session,
                username := username, reply := reply, tail := tail, taken_eq := rfl,
                expires := hexp, fresh := Int.not_le.mp hfresh, session_eq := hsession, rest_eq := rfl,
                quiet := hquiet }⟩

/-- A run asks for no row and answers nothing, or it takes the row of its
cookie first, once, and answers at most once, after having got the row. -/
theorem finishes_authVerify (h : (authVerify rt env ev).Finishes es out) :
    (∀ e ∈ es, e.op.isRedeem = false) ∨
    ∃ plan bindingSecret taken rest, redeemChecks rt env ev = .ok plan ∧
      bindingCookie ev = some bindingSecret ∧
      es = ⟨.takeBinding (rt.sha256Hex bindingSecret), taken⟩ :: rest ∧
      ((∀ e ∈ rest, e.op.isRedeem = false) ∨ Nonempty (Answered plan taken rest)) := by
  unfold authVerify at h
  split at h
  · simp only [Prog.pure_def, Prog.finishes_ret] at h
    rw [h.1]
    simp
  · exact .inl ((fail_quiet _).finishes h)
  rename_i plan hplan
  split at h
  · exact .inl ((fail_quiet _).finishes h)
  rename_i bindingSecret hcookie
  simp only [takeAndRedeem, Prog.call_bind, Prog.finishes_ask] at h
  obtain ⟨taken, rest, rfl, h⟩ := h
  refine .inr ⟨plan, bindingSecret, taken, rest, hplan, hcookie, rfl, ?_⟩
  split at h
  · exact .inl ((fail_quiet _).finishes h)
  · exact .inl ((fail_quiet _).finishes h)
  · exact .inl ((fail_quiet _).finishes h)
  · exact finishes_redeemRow h

end Runs

end SaasFoundation.Vestibulum.SignIn
