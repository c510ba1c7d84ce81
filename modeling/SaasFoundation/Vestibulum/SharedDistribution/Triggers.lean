import SaasFoundation.Lib.Asks
import SaasFoundation.Vestibulum.SharedDistribution.Edge
import SaasFoundation.Vestibulum.SharedDistribution.Tenants
import SaasFoundation.Vestibulum.SignIn.Create

/-!
# The Cognito triggers of the shared distribution

`PreSignUp`, `CreateAuthChallenge` and `PreTokenGeneration` for many app
clients over one pool. Each looks up the tenant of the calling client,
through a cache that lives as long as the container of the function.
Denylist, counters, tokens and mail are those of the single-tenant
handlers, whose requests are embedded.
-/

namespace SaasFoundation.Vestibulum.SharedDistribution.Triggers

open Lib Lib.Text

/-! ## The signature -/

/-- An entry of the loader's cache; an absent row is cached like any. -/
structure CacheEntry where
  value : Option ClientConfigRow
  expiresAt : Int
deriving DecidableEq, Repr

/-- An ID token Cognito has issued through an app client. -/
structure IdToken where
  userName : String
  clientId : String
  claims : Record
deriving DecidableEq, Repr

inductive PoolError where
  | userNotFound
  | other
deriving DecidableEq, Repr

inductive Request where
  | signIn (op : SignIn.Request)
  /-- The cache of a container. -/
  | cacheGet (container : Nat) (clientId : String)
  | cacheSet (container : Nat) (clientId : String) (entry : Option CacheEntry)
  /-- `GetItem` of the `ClientConfig` table, eventually consistent. -/
  | getClientConfig (clientId : String)
  /-- The attributes Cognito hands to a trigger for this user. -/
  | userAttributes (userName : String)
  /-- Cognito creates the user a `SignUp` was allowed for. -/
  | createUser (userName email clientId : String)
  /-- `AdminUpdateUserAttributes`: `custom:email_quarantined` becomes
  `true`. -/
  | quarantineUser (userName : String)
  | putDenylist (emailHmac quarantinedAt : String) (expiresAt : Int)
  /-- Whether `VerifyAuthChallengeResponse` accepts the user's answer. -/
  | answerCorrect (params : Record)
  | issueToken (token : IdToken)
deriving DecidableEq, Repr

abbrev Reply : Request → Type
  | .signIn op => SignIn.Reply op
  | .cacheGet _ _ => Option CacheEntry
  | .cacheSet _ _ _ => Unit
  | .getClientConfig _ => Except SignIn.SdkError (Option ClientConfigRow)
  | .userAttributes _ => Option Record
  | .createUser _ _ _ => Unit
  | .quarantineUser _ => Except PoolError Unit
  | .putDenylist _ _ _ => Except SignIn.SdkError Unit
  | .answerCorrect _ => Bool
  | .issueToken _ => Unit

abbrev Handler (α : Type) := Prog Request Reply α

/-- Make one request. -/
abbrev request (op : Request) : Handler (Reply op) := Prog.call op

/-- A handler of the single-tenant mode. -/
def singleTenant {α : Type} (p : SignIn.Handler α) : Handler α := Prog.embed Request.signIn p

instance (op : Request) : Nonempty (Reply op) := by
  cases op with
  | signIn op => exact (inferInstance : Nonempty (SignIn.Reply op))
  | cacheGet _ _ => exact ⟨none⟩
  | cacheSet _ _ _ => exact ⟨()⟩
  | getClientConfig _ => exact ⟨.error .other⟩
  | userAttributes _ => exact ⟨none⟩
  | createUser _ _ _ => exact ⟨()⟩
  | quarantineUser _ => exact ⟨.error .other⟩
  | putDenylist _ _ _ => exact ⟨.error .other⟩
  | answerCorrect _ => exact ⟨false⟩
  | issueToken _ => exact ⟨()⟩

/-- What a trigger throws; the branded constructors throw on a stored row
that breaks their rules. -/
inductive Thrown where
  | error (message : String)
  | validation
  | aws (e : SignIn.SdkError)
deriving DecidableEq, Repr

/-! ## The loader -/

def configTtlMs : Int := 5 * 60 * 1000

/-- The rules of `tenantId`. -/
def isTenantId (s : String) : Bool :=
  1 ≤ jsLength s && jsLength s ≤ 256 &&
    s.toList.all fun c => !(isSpace c || c.toNat < 0x20 || c.toNat == 0x7F)

/-- The rules of `tenantSubdomain`. -/
def isTenantSubdomain (s : String) : Bool := Edge.defaultTenantPattern s.toList

/-- `parseRow`, on the row of the key that was asked for. -/
def parseRow (clientId : String) (item : ClientConfigRow) : Except Thrown ClientConfigRow :=
  if isTenantSubdomain item.subdomain && isTenantId item.tenantId then
    .ok { item with clientId := clientId }
  else .error .validation

/-- A miss: load, and keep what was loaded; a failed load is not kept. -/
def loadAndCache (container : Nat) (clientId : String) (now : Int) :
    Handler (Except Thrown (Option ClientConfigRow)) := do
  let resp : Except SignIn.SdkError (Option ClientConfigRow) ← request (.getClientConfig clientId)
  let loaded : Except Thrown (Option ClientConfigRow) :=
    match resp with
    | .error e => .error (.aws e)
    | .ok none => .ok none
    | .ok (some item) => (parseRow clientId item).map some
  match loaded with
  | .error e => do
      let _ ← request (.cacheSet container clientId none)
      pure (.error e)
  | .ok value => do
      let _ ← request (.cacheSet container clientId (some ⟨value, now + configTtlMs⟩))
      pure (.ok value)

def loadClientConfigByClientId (container : Nat) (clientId : String) :
    Handler (Except Thrown (Option ClientConfigRow)) := do
  let now : Int ← request (.signIn .now)
  let entry : Option CacheEntry ← request (.cacheGet container clientId)
  match entry with
  | some e => if e.expiresAt > now then pure (.ok e.value) else loadAndCache container clientId now
  | none => loadAndCache container clientId now

/-! ## `PreSignUp` -/

structure PreSignUpEvent where
  clientId : String
  email : Option String
deriving DecidableEq, Repr

/-- What stands after the last `@` of the trimmed, lower-cased address. -/
def emailDomain (rt : Runtime) (rawEmail : Option String) : String :=
  let email := trim (rt.toLowerCase (rawEmail.getD "")).toList
  if '@' ∈ email then String.ofList (email.reverse.takeWhile (· ≠ '@')).reverse else ""

def signupNotAllowed : Thrown := .error "Signup not allowed"

def preSignUp (rt : Runtime) (container : Nat) (event : PreSignUpEvent) :
    Handler (Except Thrown Unit) := do
  let loaded ← loadClientConfigByClientId container event.clientId
  match loaded with
  | .error e => pure (.error e)
  | .ok none => pure (.error signupNotAllowed)
  | .ok (some cfg) =>
      let domain := emailDomain rt event.email
      if domain = "" || !cfg.allowedEmailDomains.contains domain then
        pure (.error signupNotAllowed)
      else pure (.ok ())

/-! ## `CreateAuthChallenge` -/

structure CreateAuthChallengeEvent where
  clientId : String
  userAttributes : Record

/-- The environment of the trigger, read once a tenant and an address are
known. A lifetime that is no number is `none`. -/
structure CreateConfig where
  denylistTable : Option String
  fromAddress : String
  ttlMinutes : Option Int
  sendsPerWindow : Option Int

def createConfig (env : ProcessEnv) : Option CreateConfig := do
  let _ ← env.nonEmpty RuntimeEnv.tokenTableName
  let _ ← env.nonEmpty RuntimeEnv.rateLimitTableName
  let fromAddress ← env.nonEmpty RuntimeEnv.sesFrom
  let ttlMinutes := parseInt ((env RuntimeEnv.tokenTtlMinutes).getD "15").toList
  let sendsPerWindow := match env RuntimeEnv.tokenSendsPerWindow with
    | none => some SignIn.defaultSendsPerWindow
    | some s => parseInt s.toList
  some ⟨env.nonEmpty RuntimeEnv.denylistTableName, fromAddress, ttlMinutes, sendsPerWindow⟩

def challenge (email tokenHash quarantined : String) : SignIn.ChallengeResponse where
  publicChallengeParameters := [("email", email)]
  privateChallengeParameters :=
    [("email", email), ("token_hash", tokenHash), ("quarantined", quarantined)]
  challengeMetadata := "MAGIC_LINK"

def failClosedChallenge (email : String) : SignIn.ChallengeResponse := challenge email "denied" "true"

def magicLinkEmail (cfg : CreateConfig) (toAddress link : String) : SignIn.Mail :=
  let ttl := match cfg.ttlMinutes with
    | none => "NaN"
    | some n => toString n
  let expires := "This link expires in " ++ ttl ++ " minutes and can be used only once."
  { source := cfg.fromAddress
    configurationSetName := none
    toAddress := toAddress
    subject := "Your sign-in link"
    textBody := "\n".intercalate
      ["Sign in by opening this link in the same browser you started in.", "", link, "", expires,
        "If you did not request this, you can ignore this message."]
    htmlBody := "\n".intercalate
      ["<!doctype html>", "<html><body style=\"font-family: system-ui, sans-serif;\">",
        "<p>Sign in by opening this link in the same browser you started in.</p>",
        "<p><a href=\"" ++ link ++ "\">" ++ link ++ "</a></p>", "<p>" ++ expires ++ "</p>",
        "<p>If you did not request this, you can ignore this message.</p>", "</body></html>"] }

/-- The row without a code; no key, no address hash. -/
def issuedRow (rt : Runtime) (cfg : CreateConfig) (now : Int) (email hmacKey token : String) :
    SignIn.TokenRow where
  tokenHash := rt.sha256Hex token
  codeHash := none
  emailHmac := some (if hmacKey = "" then "" else hmacEmail rt email hmacKey)
  createdAt := some (now / 1000)
  expiresAt := cfg.ttlMinutes.map fun ttl => now / 1000 + ttl * 60

/-- The token: stored, then mailed to the tenant's own site. Every failure
reaches Cognito. -/
def storeAndSend (rt : Runtime) (cfg : CreateConfig) (siteBaseUrl : String) (now : Int)
    (email hmacKey : String) : Handler (Except Thrown SignIn.ChallengeResponse) := do
  let token : String ← request (.signIn .randomToken)
  let stored : Except SignIn.SdkError Unit ←
    request (.signIn (.putToken (issuedRow rt cfg now email hmacKey token)))
  match stored with
  | .error e => pure (.error (.aws e))
  | .ok () => do
      let link := siteBaseUrl ++ "/login/callback#token=" ++ token
      let sent : Except SignIn.SdkError Unit ←
        request (.signIn (.sendEmail (magicLinkEmail cfg email link)))
      match sent with
      | .error e => pure (.error (.aws e))
      | .ok () => pure (.ok (challenge email (rt.sha256Hex token) "false"))

/-- The rate limit, and the token if there is room. -/
def limitAndSend (rt : Runtime) (cfg : CreateConfig) (siteBaseUrl : String) (now : Int)
    (email hmacKey : String) : Handler (Except Thrown SignIn.ChallengeResponse) := do
  let allowed ←
    singleTenant (SignIn.tryConsumeRateLimit rt email hmacKey cfg.sendsPerWindow now)
  match allowed with
  | .error e => pure (.error (.aws e))
  | .ok false => pure (.ok (failClosedChallenge email))
  | .ok true => storeAndSend rt cfg siteBaseUrl now email hmacKey

/-- The denylist first: one that is not configured or gone suppresses the
mail, any other failure to read it is thrown. -/
def checkAndSend (rt : Runtime) (cfg : CreateConfig) (siteBaseUrl : String) (now : Int)
    (email hmacKey : String) : Handler (Except Thrown SignIn.ChallengeResponse) :=
  match cfg.denylistTable with
  | none => pure (.ok (failClosedChallenge email))
  | some _ => do
      let denylisted : Except SignIn.SdkError Bool ←
        request (.signIn (.getDenylist (hmacEmail rt email hmacKey)))
      match denylisted with
      | .error .resourceNotFound => pure (.ok (failClosedChallenge email))
      | .error e => pure (.error (.aws e))
      | .ok true => pure (.ok (failClosedChallenge email))
      | .ok false => limitAndSend rt cfg siteBaseUrl now email hmacKey

def createAuthChallenge (rt : Runtime) (env : ProcessEnv) (container : Nat)
    (event : CreateAuthChallengeEvent) : Handler (Except Thrown SignIn.ChallengeResponse) := do
  let loaded ← loadClientConfigByClientId container event.clientId
  match loaded with
  | .error e => pure (.error e)
  | .ok none => pure (.error (.error "Auth challenge failed"))
  | .ok (some row) =>
      let email := (event.userAttributes.lookup "email").getD ""
      if email = "" then pure (.error (.error "Authentication failed"))
      else
        match createConfig env with
        | none => pure (.error (.error "Authentication failed"))
        | some cfg => do
            let now : Int ← request (.signIn .now)
            let key : Except SignIn.SdkError String ← request (.signIn .resolveEmailHmacKey)
            match key with
            | .error e => pure (.error (.aws e))
            | .ok hmacKey => checkAndSend rt cfg row.siteBaseUrl now email hmacKey

/-! ## `PreTokenGeneration` -/

/-- Overrides and suppressions of an ID token. -/
structure ClaimsDetails where
  claimsToAddOrOverride : Option Record
  claimsToSuppress : Option (List String)
deriving DecidableEq, Repr

/-- The `response` of the event: V1 events use the first field, V2 events
the `idTokenGeneration` of the second. -/
structure PreTokenResponse where
  claimsOverrideDetails : Option ClaimsDetails
  idTokenGeneration : Option ClaimsDetails
deriving DecidableEq, Repr

inductive EventVersion where
  | v1
  | v2
deriving DecidableEq, Repr

structure PreTokenEvent where
  version : EventVersion
  userName : String
  clientId : String
  userAttributes : Record
  response : Option PreTokenResponse
deriving DecidableEq, Repr

def tenantIdClaim : String := "custom:tenant_id"

/-- `{ ...record, [name]: value }`. -/
def setField (record : Record) (name value : String) : Record :=
  record.filter (fun p => p.1 ≠ name) ++ [(name, value)]

/-- Step 2: the claim is set before the inner handler runs. -/
def presetTenantId (event : PreTokenEvent) (tenantId : String) : PreTokenEvent :=
  let response := event.response.getD ⟨none, none⟩
  let details := response.claimsOverrideDetails.getD ⟨none, none⟩
  let claims := setField (details.claimsToAddOrOverride.getD []) tenantIdClaim tenantId
  { event with response := some { response with
      claimsOverrideDetails := some { details with claimsToAddOrOverride := some claims } } }

/-- `result.response?.claimsOverrideDetails`. -/
def PreTokenEvent.overrideDetails (event : PreTokenEvent) : Option ClaimsDetails :=
  event.response.bind PreTokenResponse.claimsOverrideDetails

/-- Steps 4 and 5, on what the inner handler returned. -/
def checkTenantId (tenantId : String) (result : PreTokenEvent) : Except Thrown PreTokenEvent :=
  let finalTenantId := (result.overrideDetails.bind ClaimsDetails.claimsToAddOrOverride).bind
    fun claims => claims.lookup tenantIdClaim
  let suppressed := (result.overrideDetails.bind ClaimsDetails.claimsToSuppress).getD []
  if finalTenantId ≠ some tenantId then
    .error (.error ("wrapPreTokenHandler: handler must not overwrite custom:tenant_id (expected '"
      ++ tenantId ++ "', got '" ++ finalTenantId.getD "undefined" ++ "')"))
  else if suppressed.contains tenantIdClaim then
    .error (.error "wrapPreTokenHandler: handler must not suppress custom:tenant_id")
  else .ok result

/-- A consumer's handler: it may return any event, or throw. -/
abbrev Inner := PreTokenEvent → ClientConfigRow → Except Thrown PreTokenEvent

/-- The wrapped handler once the loader has answered. -/
def wrapLoaded (inner : Inner) (loaded : Except Thrown (Option ClientConfigRow))
    (event : PreTokenEvent) : Except Thrown PreTokenEvent :=
  match loaded with
  | .error e => .error e
  | .ok none => .error (.error "Tenant configuration missing")
  | .ok (some cfg) =>
      match inner (presetTenantId event cfg.tenantId) cfg with
      | .error e => .error e
      | .ok result => checkTenantId cfg.tenantId result

def wrapPreTokenHandler (inner : Inner) (container : Nat) (event : PreTokenEvent) :
    Handler (Except Thrown PreTokenEvent) := do
  let loaded ← loadClientConfigByClientId container event.clientId
  pure (wrapLoaded inner loaded event)

/-- The default handler adds nothing. -/
def preTokenGeneration : Inner := fun event _ => .ok event

/-! ## The token Cognito mints -/

/-- The later record wins. -/
def override (claims overrides : Record) : Record :=
  claims.filter (fun p => !overrides.any fun q => q.1 == p.1) ++ overrides

/-- Overrides, then suppressions. -/
def ClaimsDetails.apply (details : ClaimsDetails) (claims : Record) : Record :=
  (override claims (details.claimsToAddOrOverride.getD [])).filter
    fun p => !(details.claimsToSuppress.getD []).contains p.1

/-- The claims of the ID token, from those it has without the trigger and
the response to an event of this version. -/
def mintIdToken (version : EventVersion) (base : Record) (result : PreTokenEvent) : Record :=
  let details := match version with
    | .v1 => result.overrideDetails
    | .v2 => result.response.bind PreTokenResponse.idTokenGeneration
  (details.getD ⟨none, none⟩).apply base

end SaasFoundation.Vestibulum.SharedDistribution.Triggers
