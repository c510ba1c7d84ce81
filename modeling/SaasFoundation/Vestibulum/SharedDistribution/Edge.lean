import Mathlib.Data.List.Infix
import SaasFoundation.Vestibulum.Runtime

/-!
# The edge check of the shared distribution

`check-auth` runs in front of every tenant's site: it takes the tenant
label from the `Host` header, verifies the ID-token cookie against the
pool's keys and compares the token's `custom:tenant_id` with the label.
What it logs is part of the answer.

`aws-jwt-verify` is not in this repository; the two functions the handler
calls are the fields of `JwtLibrary`, and `JwtLibrary.Documented` says
what their documentation promises. Errors are carried as their messages,
which is all the handler looks at.
-/

namespace SaasFoundation.Vestibulum.SharedDistribution.Edge

open Lib Lib.Text

/-! ## Requests and responses -/

structure HeaderEntry where
  key : Option String
  value : String
deriving DecidableEq, Repr

/-- From the lower-case name to the entries. -/
abbrev Headers := List (String × List HeaderEntry)

structure CloudFrontRequest where
  headers : Option Headers
  uri : Option String
  method : Option String
  querystring : Option String
deriving DecidableEq, Repr

/-- `Records[i].cf.request`, in order. -/
structure CloudFrontRequestEvent where
  records : List CloudFrontRequest
deriving DecidableEq, Repr

structure CloudFrontResultResponse where
  status : String
  statusDescription : String
  headers : Headers
  body : Option String
deriving DecidableEq, Repr

inductive CloudFrontRequestResult where
  | request (req : CloudFrontRequest)
  | response (res : CloudFrontResultResponse)
deriving DecidableEq, Repr

inductive RefuseReason where
  | noHost
  | hostNotTenantShape
  | tenantMismatch
  | noTenantClaim
  | wrongIss
  | wrongTokenUse
  | badSignature
  | expired
  | noAud
deriving DecidableEq, Repr

/-- A structured line on standard output. -/
inductive LogLine where
  | edgeCheckRefused (reason : RefuseReason)
  | edgeLoginRedirect (subdomain : String)
deriving DecidableEq, Repr

/-- What an invocation returns and what it has logged. -/
structure Answer where
  result : CloudFrontRequestResult
  logged : Option LogLine
deriving DecidableEq, Repr

/-- `req.headers?.[name]`. -/
def CloudFrontRequest.header (req : CloudFrontRequest) (name : String) : Option (List HeaderEntry) :=
  req.headers.bind fun headers => headers.lookup name

def CloudFrontRequest.host (req : CloudFrontRequest) : Option String := do
  let hostEntries ← req.header "host"
  let entry ← hostEntries.head?
  some entry.value

def noStore : HeaderEntry := ⟨some "Cache-Control", "no-store, max-age=0"⟩
def plainText : HeaderEntry := ⟨some "Content-Type", "text/plain; charset=utf-8"⟩

def refuse (reason : RefuseReason) : Answer where
  result := .response
    ⟨"403", "Forbidden", [("cache-control", [noStore]), ("content-type", [plainText])],
      some "Forbidden"⟩
  logged := some (.edgeCheckRefused reason)

def loginRedirect (req : CloudFrontRequest) (subdomain : String) : Answer :=
  let host := req.host.getD (subdomain ++ ".unknown")
  ⟨.response ⟨"302", "Found",
      [("location", [⟨some "Location", "https://" ++ host ++ "/login"⟩]),
        ("cache-control", [noStore])], none⟩,
    some (.edgeLoginRedirect subdomain)⟩

/-- For an event without a record. -/
def synthesize400 : Answer :=
  ⟨.response ⟨"400", "Bad Request", [("content-type", [plainText])], some "Bad Request"⟩, none⟩

/-! ## The tenant label -/

/-- `/^[a-z][a-z0-9-]{1,61}[a-z0-9]$/`. -/
def defaultTenantPattern (label : List Char) : Bool :=
  let isLower (c : Char) : Bool := decide ('a' ≤ c ∧ c ≤ 'z')
  let isAlnum (c : Char) : Bool := isLower c || c.isDigit
  match label with
  | [] => false
  | first :: rest =>
      isLower first && decide (2 ≤ rest.length ∧ rest.length ≤ 62) &&
        rest.dropLast.all (fun c => isAlnum c || c == '-') && rest.getLast?.any isAlnum

/-- The values baked into the bundle. -/
structure EdgeConfig where
  tenantParent : String
  /-- `TENANT_PATTERN.test`. -/
  tenantPattern : List Char → Bool
  poolIssuer : String
  jwksUrl : String
  jwksTtlMs : Int

/-- One trailing dot less. -/
def stripTrailingDot (s : List Char) : List Char :=
  if s.getLast? = some '.' then s.dropLast else s

/-- `s.split(":")[0]`. -/
def withoutPort (s : List Char) : List Char := s.takeWhile (· ≠ ':')

def lower (rt : Runtime) (s : List Char) : List Char := (rt.toLowerCase (String.ofList s)).toList

def normalizeHost (rt : Runtime) (host : List Char) : List Char :=
  stripTrailingDot (lower rt (withoutPort host))

/-- The shared helper, with its default pattern. -/
def extractTenantSubdomainShared (rt : Runtime) (host : List Char) (parent : List Char) :
    Option (List Char) :=
  if host = [] then none
  else
    let hostNorm := stripTrailingDot (lower rt (withoutPort host))
    let suffix := '.' :: stripTrailingDot parent
    if ¬ suffix <:+ hostNorm then none
    else
      let candidate := hostNorm.take (hostNorm.length - suffix.length)
      if candidate = [] then none
      else if '.' ∈ candidate then none
      else if defaultTenantPattern candidate then some candidate
      else none

def extractTenantSubdomain (rt : Runtime) (cfg : EdgeConfig) (host : String) : Option String := do
  let label ← extractTenantSubdomainShared rt (normalizeHost rt host.toList) cfg.tenantParent.toList
  if cfg.tenantPattern label then some (String.ofList label) else none

/-! ## The cookie -/

def idTokenCookie : String := "vestibulum_id_token"

/-- Quotes around the whole value are not part of it. -/
def unquote (v : List Char) : List Char :=
  if 2 ≤ v.length ∧ v.head? = some '"' ∧ v.getLast? = some '"' then (v.drop 1).dropLast else v

/-- The token, if this segment of the header is its cookie. -/
def segmentToken (rawSegment : List Char) : Option String :=
  let segment := trim rawSegment
  match segment.idxOf? '=' with
  | none => none
  | some 0 => none
  | some eq =>
      if trim (segment.take eq) = idTokenCookie.toList then
        some (String.ofList (unquote (trim (segment.drop (eq + 1)))))
      else none

def extractTokenFromCookies (cookieHeader : Option (List HeaderEntry)) : Option String := do
  let entries ← cookieHeader
  entries.findSome? fun entry => (entry.value.toList.splitOn ';').findSome? segmentToken

/-! ## Verification -/

/-- The header of a token, as the library returns it. -/
structure JwtHeader where
  alg : Option String
  kid : Option String
deriving DecidableEq, Repr

structure DecomposedJwt where
  header : JwtHeader
  payload : Json

/-- The options of `verifyJwtSync`; the audience is not checked. A custom
check throws by returning the message. -/
structure VerifyOptions where
  issuer : String
  graceSeconds : Int
  customJwtCheck : (header : JwtHeader) → (jwk : Json) → Option String

structure JwtLibrary where
  decomposeUnverifiedJwt : (token : String) → Except String DecomposedJwt
  /-- With the clock it reads, in milliseconds. -/
  verifyJwtSync : (token : String) → (keys : List Json) → VerifyOptions → (nowMs : Int) →
    Except String Json

/-- What the documentation promises of a payload that was returned, where
`Signed token jwk` says that the signature is that of the key. -/
structure JwtLibrary.Documented (lib : JwtLibrary) (Signed : String → Json → Prop) : Prop where
  /-- The payload is the token's own. -/
  decoded : ∀ {token keys opts nowMs payload},
    lib.verifyJwtSync token keys opts nowMs = .ok payload →
    ∃ header, lib.decomposeUnverifiedJwt token = .ok ⟨header, payload⟩
  signature : ∀ {token keys opts nowMs payload},
    lib.verifyJwtSync token keys opts nowMs = .ok payload → ∃ jwk ∈ keys, Signed token jwk
  issuer : ∀ {token keys opts nowMs payload},
    lib.verifyJwtSync token keys opts nowMs = .ok payload →
    payload.get "iss" = some (.str opts.issuer)
  exp : ∀ {token keys opts nowMs payload},
    lib.verifyJwtSync token keys opts nowMs = .ok payload →
    ∀ n, payload.get "exp" = some (.num n) → (nowMs : Rat) ≤ 1000 * (n + opts.graceSeconds)
  nbf : ∀ {token keys opts nowMs payload},
    lib.verifyJwtSync token keys opts nowMs = .ok payload →
    ∀ n, payload.get "nbf" = some (.num n) → 1000 * (n - opts.graceSeconds) ≤ (nowMs : Rat)

/-- The check that the picked key and the algorithm are still the same. -/
def driftCheck (kid : String) (header : JwtHeader) (jwk : Json) : Option String :=
  if header.alg ≠ some "RS256" then some "alg-drift"
  else if Json.asString (jwk.get "kid") ≠ some kid then some "kid-drift"
  else none

/-- `typeof payload["exp"] === "number"`. -/
def hasNumericExp (payload : Json) : Bool :=
  match payload.get "exp" with
  | some (.num _) => true
  | _ => false

structure VerifyJwtOptions where
  issuer : String
  jwks : List Json
  algorithms : List String
  clockSkewSec : Int

/-- Steps 4 and 5, with the key that was picked. -/
def verifyWith (lib : JwtLibrary) (token : String) (opts : VerifyJwtOptions) (nowMs : Int)
    (kid : String) (matchedJwk : Json) : Except String Json :=
  match lib.verifyJwtSync token [matchedJwk] ⟨opts.issuer, opts.clockSkewSec, driftCheck kid⟩
      nowMs with
  | .error message => .error ("verifyJwt: " ++ message)
  | .ok payload =>
      if hasNumericExp payload then .ok payload else .error "verifyJwt: exp missing"

/-- Step 3: the key a `kid` names. -/
def pickKey (lib : JwtLibrary) (token : String) (opts : VerifyJwtOptions) (nowMs : Int)
    (header : JwtHeader) : Except String Json :=
  let kid := header.kid.getD ""
  if kid = "" then .error "verifyJwt: header.kid missing"
  else
    match opts.jwks.find? fun k => Json.asString (k.get "kid") == some kid with
    | none => .error ("verifyJwt: kid \"" ++ kid ++ "\" not in JWKS")
    | some matchedJwk => verifyWith lib token opts nowMs kid matchedJwk

def verifyJwt (lib : JwtLibrary) (token : String) (opts : VerifyJwtOptions) (nowMs : Int) :
    Except String Json :=
  if token = "" then .error "verifyJwt: token must be a non-empty string"
  else
    match lib.decomposeUnverifiedJwt token with
    | .error message => .error message
    | .ok decomposed =>
        match decomposed.header.alg with
        | none => .error "verifyJwt: unsupported alg \"undefined\""
        | some alg =>
            if !opts.algorithms.contains alg then
              .error ("verifyJwt: unsupported alg \"" ++ alg ++ "\"")
            else if alg ≠ "RS256" then
              .error ("verifyJwt: alg must be RS256, got \"" ++ alg ++ "\"")
            else pickKey lib token opts nowMs decomposed.header

/-- `s.includes(t)`. -/
def includes (s t : String) : Bool := decide (t.toList <:+: s.toList)

def mapVerifyErrorToResponse (req : CloudFrontRequest) (tenantSubdomain msg : String) : Answer :=
  if includes msg "Issuer not allowed" || includes msg "iss" then refuse .wrongIss
  else if includes msg "expired" || includes msg "Token expired" || includes msg "exp" then
    refuse .expired
  else if includes msg "Invalid signature" || includes msg "signature" || includes msg "kid"
      || includes msg "alg" then refuse .badSignature
  else loginRedirect req tenantSubdomain

/-! ## The keys -/

/-- The module's one cache entry. -/
structure JwksCache where
  cachedKeys : Option (List Json)
  cachedAt : Int

def JwksCache.empty : JwksCache := ⟨none, 0⟩

structure FetchResponse where
  ok : Bool
  status : Nat
  /-- The parsed body, or what reading or parsing it threw. -/
  parsed : Except String Json

/-- `k !== null && typeof k === "object"`. -/
def isObject : Json → Bool
  | .obj _ => true
  | .arr _ => true
  | _ => false

/-- The key set of a response, or why there is none. -/
def FetchResponse.keys (response : FetchResponse) : Except String (List Json) :=
  if !response.ok then .error ("JWKS fetch failed: HTTP " ++ toString response.status)
  else
    match response.parsed with
    | .error e => .error ("JWKS parse failed: " ++ e)
    | .ok parsed =>
        match parsed.get "keys" with
        | some (.arr keys) => .ok (keys.filter isObject)
        | _ => .error "JWKS parse failed: missing `keys` array"

/-- The cached set while it is young enough; else a fetched one, which
replaces it, or an error, which clears it. -/
def JwksCache.getJwks (cache : JwksCache) (ttlMs now : Int)
    (fetched : Except String FetchResponse) : JwksCache × Except String (List Json) :=
  match cache.cachedKeys with
  | some keys => if now - cache.cachedAt < ttlMs then (cache, .ok keys) else refresh
  | none => refresh
where
  refresh : JwksCache × Except String (List Json) :=
    match fetched with
    | .error e => (.empty, .error e)
    | .ok response =>
        match response.keys with
        | .error e => (.empty, .error e)
        | .ok keys => (⟨some keys, now⟩, .ok keys)

/-! ## The handler -/

/-- Steps 5 to 8, on the claims of a verified token. -/
def checkClaims (req : CloudFrontRequest) (tenantSubdomain : String) (claims : Json) : Answer :=
  if Json.asString (claims.get "token_use") ≠ some "id" then refuse .wrongTokenUse
  else
    match Json.asString (claims.get "custom:tenant_id") with
    | none => refuse .noTenantClaim
    | some claimTenantId =>
        if claimTenantId ≠ tenantSubdomain then refuse .tenantMismatch
        else if (Json.asString (claims.get "aud")).getD "" = "" then refuse .noAud
        else ⟨.request req, none⟩

/-- What an invocation meets outside: the clock the cache reads, the reply
to a fetch, and the clock the library reads. -/
structure Outside where
  cacheNow : Int
  fetched : Except String FetchResponse
  verifyNow : Int

def handler (rt : Runtime) (cfg : EdgeConfig) (lib : JwtLibrary) (cache : JwksCache)
    (outside : Outside) (event : CloudFrontRequestEvent) : JwksCache × Answer :=
  match event.records.head? with
  | none => (cache, synthesize400)
  | some req =>
      if req.host.getD "" = "" then (cache, refuse .noHost)
      else
        match extractTenantSubdomain rt cfg (req.host.getD "") with
        | none => (cache, refuse .hostNotTenantShape)
        | some tenantSubdomain =>
            let token := (extractTokenFromCookies (req.header "cookie")).getD ""
            if token = "" then (cache, loginRedirect req tenantSubdomain)
            else
              match cache.getJwks cfg.jwksTtlMs outside.cacheNow outside.fetched with
              | (cache', .error _) => (cache', loginRedirect req tenantSubdomain)
              | (cache', .ok jwks) =>
                  match verifyJwt lib token ⟨cfg.poolIssuer, jwks, ["RS256"], 60⟩
                      outside.verifyNow with
                  | .error msg => (cache', mapVerifyErrorToResponse req tenantSubdomain msg)
                  | .ok claims => (cache', checkClaims req tenantSubdomain claims)

end SaasFoundation.Vestibulum.SharedDistribution.Edge
