import SaasFoundation.Lib.Prog
import SaasFoundation.Vestibulum.Runtime

/-!
# The requests of the sign-in handlers

Everything a sign-in handler asks of the outside: the clock, the random
source, Secrets Manager, the four DynamoDB tables, SES, the allow-list and
Cognito. A reply is either what the SDK call resolves to or the error it
throws. `shared/signin.ts`, whose helpers every handler uses, is here too.
-/

namespace SaasFoundation.Vestibulum.SignIn

open Lib Lib.Text

/-! ## Rows and messages -/

/-- A row of the token table. `Verify` copes with rows of other releases,
so every attribute but the key may be missing. -/
structure TokenRow where
  tokenHash : String
  codeHash : Option String
  emailHmac : Option String
  createdAt : Option Int
  expiresAt : Option Int
deriving DecidableEq, Repr

/-- A row of the binding table. A failed login stores no session. -/
structure BindingRow where
  bindingHash : String
  expiresAt : Option Int
  session : Option String
  username : Option String
deriving DecidableEq, Repr

/-- A row of the rate-limit table; the daily cap sets no `window_start`. -/
structure CounterRow where
  count : Int
  windowStart : Option Int
  expiresAt : Int
deriving DecidableEq, Repr

/-- The conditional `UpdateItem` of the limiters:
`SET count = if_not_exists(count, 0) + 1, window_start, expires_at` under
`attribute_not_exists(count) OR (count < :limit AND window_start = :ws)`;
without a window start its part of both expressions is absent. A limit of
`none` is `NaN`, which DynamoDB refuses as a number. -/
structure CounterUpdate where
  bucketId : String
  limit : Option Int
  windowStart : Option Int
  expiresAt : Int
deriving DecidableEq, Repr

/-- `SendEmailCommand`. -/
structure Mail where
  source : String
  configurationSetName : Option String
  toAddress : String
  subject : String
  textBody : String
  htmlBody : String
deriving DecidableEq, Repr

/-- One subject's current state in the allow-list. -/
structure Eligibility where
  subject : String
  active : Bool
deriving DecidableEq, Repr

/-- `eligible`: a missing or inactive subject is not. -/
def eligible : Option Eligibility → Bool
  | some e => e.active
  | none => false

/-- `AllowListResult`; a port may also throw instead of answering. -/
inductive AllowListResult where
  | value (e : Option Eligibility)
  | unavailable
deriving DecidableEq, Repr

inductive SdkError where
  | conditionalCheckFailed
  | resourceNotFound
  | other
deriving DecidableEq, Repr

/-- What `InitiateAuth` returns, as far as it is read. -/
structure InitiateAuthOutput where
  session : Option String
  challengeUsername : Option String
deriving DecidableEq, Repr

/-- What `RespondToAuthChallenge` returns, as far as it is read. -/
structure AuthenticationResult where
  idToken : Option String
  refreshToken : Option String
deriving DecidableEq, Repr

/-- Closed set of reasons a challenge is unanswerable. -/
inductive SuppressionReason where
  | unknownUser | ineligible | allowListDown | quarantined | denylisted
  | denylistDown | rateLimited | dailyCap | dependencyError
deriving DecidableEq, Repr

/-- Outcome of a login request, emitted as a metric. -/
inductive RequestOutcome where
  | accepted | rateLimited | authError | storeError
deriving DecidableEq, Repr

/-- Outcome of a redemption, emitted as a metric. -/
inductive RedeemOutcome where
  | ok | noBinding | expired | noSession | rejected | error
deriving DecidableEq, Repr

inductive Metric where
  | signInSuppressed (reason : SuppressionReason)
  | signInRequest (outcome : RequestOutcome)
  | signInRedeem (outcome : RedeemOutcome)
deriving DecidableEq, Repr

/-! ## The signature -/

inductive Request where
  | now
  | sleep (ms : Int)
  /-- `randomBytes(32).toString("base64url")`. -/
  | randomToken
  | newSigninCode
  | newBindingSecret
  | randomPhantom
  | randomPassword
  | resolveEmailHmacKey
  | getDenylist (emailHmac : String)
  | updateCounter (u : CounterUpdate)
  | allowListGet (userPoolId subject : String)
  | allowListLookup (userPoolId email : String)
  /-- `PutItem` under `attribute_not_exists(token_hash)`. -/
  | putToken (row : TokenRow)
  | getToken (tokenHash : String)
  /-- `DeleteItem` under `attribute_exists(token_hash)`. -/
  | deleteToken (tokenHash : String)
  | sendEmail (mail : Mail)
  | signUp (clientId username password : String)
  | initiateAuth (clientId username : String)
  | respondToAuthChallenge (clientId session username answer : String)
  /-- `PutItem` under `attribute_not_exists(binding_hash)`. -/
  | putBinding (row : BindingRow)
  /-- `DeleteItem` under `attribute_exists(binding_hash)`, `ALL_OLD`. -/
  | takeBinding (bindingHash : String)
  | emitSigninMetric (metric : Metric)
deriving DecidableEq, Repr

abbrev Reply : Request → Type
  | .now => Int
  | .sleep _ => Unit
  | .randomToken => String
  | .newSigninCode => String
  | .newBindingSecret => String
  | .randomPhantom => String
  | .randomPassword => String
  | .resolveEmailHmacKey => Except SdkError String
  | .getDenylist _ => Except SdkError Bool
  | .updateCounter _ => Except SdkError Unit
  | .allowListGet _ _ => Except SdkError AllowListResult
  | .allowListLookup _ _ => Except SdkError AllowListResult
  | .putToken _ => Except SdkError Unit
  | .getToken _ => Except SdkError (Option TokenRow)
  | .deleteToken _ => Except SdkError Unit
  | .sendEmail _ => Except SdkError Unit
  | .signUp _ _ _ => Except SdkError Unit
  | .initiateAuth _ _ => Except SdkError InitiateAuthOutput
  | .respondToAuthChallenge _ _ _ _ => Except SdkError AuthenticationResult
  | .putBinding _ => Except SdkError Unit
  | .takeBinding _ => Except SdkError (Option BindingRow)
  | .emitSigninMetric _ => Unit

/-- A program of the sign-in service. -/
abbrev Handler (α : Type) := Prog Request Reply α

/-- Make one request. -/
abbrev request (op : Request) : Handler (Reply op) := Prog.call op

instance (op : Request) : Nonempty (Reply op) := by
  cases op <;>
    first
      | exact ⟨(0 : Int)⟩
      | exact ⟨()⟩
      | exact ⟨""⟩
      | exact ⟨.error .other⟩

/-- What a handler throws: the generic error, the `RangeError` of a
comparison of buffers of different length, or the misconfiguration guard of
a cookie. -/
inductive Thrown where
  | authenticationFailed
  | rangeError
  | cookieError
deriving DecidableEq, Repr

/-! ## `shared/signin.ts` -/

def bindingCookieName : String := "__Host-signin"

def minTokenTtlMinutes : Int := 3
def maxTokenTtlMinutes : Int := 15
def defaultTokenTtlMinutes : Int := 10
def defaultSigninFloorMs : Int := 2500
def defaultCreateFloorMs : Int := 1000
def maxAnswerLength : Nat := 64

inductive Enrollment where
  | adminOnly
  | selfSignup
deriving DecidableEq, Repr

/-- `parseEnrollment`: unset is `admin-only`, any other text is an error. -/
def parseEnrollment (raw : Option String) : Option Enrollment :=
  match raw with
  | none => some .adminOnly
  | some "" => some .adminOnly
  | some "admin-only" => some .adminOnly
  | some "self-signup" => some .selfSignup
  | some _ => none

def defaultRefreshTokenValiditySeconds : Int := 30 * 24 * 60 * 60

def parseRefreshTokenValiditySeconds (raw : Option String) : Option Int :=
  match raw with
  | none => some defaultRefreshTokenValiditySeconds
  | some s =>
      if s = "" then some defaultRefreshTokenValiditySeconds
      else if isDigits s.toList then
        let n : Int := digitsValue s.toList
        if n > 0 then some n else none
      else none

/-- `parseTokenTtlMinutes`: an integer in [3, 15], or nothing. -/
def parseTokenTtlMinutes (raw : Option String) : Option Int :=
  match raw with
  | none => some defaultTokenTtlMinutes
  | some s =>
      if s = "" then some defaultTokenTtlMinutes
      else if isDigits s.toList then
        let n : Int := digitsValue s.toList
        if n ≥ minTokenTtlMinutes ∧ n ≤ maxTokenTtlMinutes then some n else none
      else none

theorem parseTokenTtlMinutes_range {raw : Option String} {n : Int}
    (h : parseTokenTtlMinutes raw = some n) : 3 ≤ n ∧ n ≤ 15 := by
  have hdefault : 3 ≤ defaultTokenTtlMinutes ∧ defaultTokenTtlMinutes ≤ 15 := by decide
  unfold parseTokenTtlMinutes at h
  split at h
  · cases h
    exact hdefault
  · split at h
    · cases h
      exact hdefault
    · simp only [Option.ite_none_right_eq_some, Option.some.injEq] at h
      obtain ⟨-, ⟨hmin, hmax⟩, rfl⟩ := h
      exact ⟨hmin, hmax⟩

/-- `parseMs`: a non-negative number of milliseconds or the fallback. -/
def parseMs (raw : Option String) (fallback : Int) : Int :=
  match raw with
  | none => fallback
  | some s => if isDigits s.toList then (digitsValue s.toList : Int) else fallback

inductive AnswerForm where
  | token
  | code
deriving DecidableEq, Repr

def isBase64Url (c : Char) : Bool := c.isAlphanum || c == '_' || c == '-'

/-- `classifyAnswer`: 43 base64url characters, 8 digits, or neither. -/
def classifyAnswer (answer : String) : Option AnswerForm :=
  let s := answer.toList
  if s.length = 43 ∧ s.all isBase64Url then some .token
  else if s.length = 8 ∧ s.all Char.isDigit then some .code
  else none

/-- `buildBindingCookie`. -/
def buildBindingCookie (secret : String) (maxAgeSeconds : Int) : String :=
  "; ".intercalate
    [bindingCookieName ++ "=" ++ secret, "Max-Age=" ++ toString maxAgeSeconds,
      "Path=/", "SameSite=Strict", "HttpOnly", "Secure"]

def clearBindingCookie : String := buildBindingCookie "" 0

/-- The scan of `readCookie`: the first pair of that name decides, and an
empty value is no value. -/
def findCookie (name : String) : List (List Char) → Option String
  | [] => none
  | pair :: rest =>
      match pair.dropWhile (· ≠ '=') with
      | [] => findCookie name rest
      | _ :: after =>
          if trim (pair.takeWhile (· ≠ '=')) = name.toList then
            let value := trim after
            if value.isEmpty then none else some (String.ofList value)
          else findCookie name rest

/-- `readCookie`: the `cookies` array first, then the `cookie` header. -/
def readCookie (cookies : List String) (cookieHeader : Option String) (name : String) :
    Option String :=
  let header := match cookieHeader with
    | none => []
    | some h => if h = "" then [] else h.toList.splitOn ';'
  findCookie name (cookies.map String.toList ++ header)

/-- `withFloor`: run `fn`, then hold the result until the floor. A thrown
error is held as well, so `fn` returns it as a value. -/
def withFloor {α : Type} (floorMs : Int) (fn : Handler α) : Handler α := do
  let start ← request .now
  let result ← fn
  let finish ← request .now
  let remaining := floorMs - (finish - start)
  if remaining > 0 then
    let _ ← request (.sleep remaining)
    pure result
  else pure result

theorem withFloor_uses {α : Type} {P : Request → Prop} {floorMs : Int} {fn : Handler α}
    (hfn : fn.Uses P) (hnow : P .now) (hsleep : ∀ ms, P (.sleep ms)) :
    (withFloor floorMs fn).Uses P := by
  refine ⟨hnow, fun start => hfn.bind fun result => ⟨hnow, fun finish => ?_⟩⟩
  change Prog.Uses P (if _ then _ else _)
  split
  · exact ⟨hsleep _, fun _ => trivial⟩
  · trivial

/-- The floor adds clock reads and a sleep around the run of `fn`. -/
theorem finishes_withFloor {α : Type} {floorMs : Int} {fn : Handler α}
    {es : List (Event Request Reply)} {a : α}
    (h : (withFloor floorMs fn).Finishes es a) :
    ∃ start es₁ tail, es = ⟨.now, start⟩ :: (es₁ ++ tail) ∧ fn.Finishes es₁ a ∧
      ∀ e ∈ tail, e.op = .now ∨ ∃ ms, e.op = .sleep ms := by
  simp only [withFloor, Prog.call_bind, Prog.finishes_ask] at h
  obtain ⟨start, fs, rfl, hrest⟩ := h
  obtain ⟨es₁, es₂, b, rfl, hfn, htail⟩ := Prog.finishes_bind.mp hrest
  obtain ⟨finish, gs, rfl, hend⟩ := Prog.finishes_ask.mp htail
  split at hend
  · simp only [Prog.finishes_ask, Prog.pure_def, Prog.finishes_ret] at hend
    obtain ⟨_, _, rfl, rfl, rfl⟩ := hend
    refine ⟨start, es₁, _, rfl, hfn, fun e he => ?_⟩
    simp only [List.mem_cons, List.not_mem_nil, or_false] at he
    rcases he with rfl | rfl
    · exact .inl rfl
    · exact .inr ⟨_, rfl⟩
  · simp only [Prog.pure_def, Prog.finishes_ret] at hend
    obtain ⟨rfl, rfl⟩ := hend
    refine ⟨start, es₁, _, rfl, hfn, fun e he => ?_⟩
    simp only [List.mem_cons, List.not_mem_nil, or_false] at he
    exact .inl (by rw [he])

end SaasFoundation.Vestibulum.SignIn
