import SaasFoundation.Lib.Text

/-!
# What the handlers run on

The parts of the Node runtime that are not in this repository are fields
of `Runtime`: the digests of `crypto`, the Unicode tables behind
`toLowerCase` and `normalize`, and `JSON.parse`. A digest is text: 64
lower-case hexadecimal digits. That no two inputs collide is not assumed
here; theorems assume it for the strings hashed in a run.
-/

namespace SaasFoundation.Vestibulum

open Lib Lib.Text

/-- A parsed JSON document. -/
inductive Json where
  | null
  | bool (b : Bool)
  | num (n : Rat)
  | str (s : String)
  | arr (xs : List Json)
  | obj (fields : List (String × Json))

namespace Json

/-- `v[name]`: `undefined` on anything but an object that has the field. -/
def get (v : Json) (name : String) : Option Json :=
  match v with
  | .obj fields => fields.lookup name
  | _ => none

/-- The value as a string, if `typeof` says so. -/
def asString : Option Json → Option String
  | some (.str s) => some s
  | _ => none

end Json

structure Runtime where
  /-- `createHash("sha256").update(s).digest("hex")`. -/
  sha256Hex : String → String
  /-- `createHmac("sha256", key).update(message).digest("hex")`. -/
  hmacSha256Hex : (key message : String) → String
  toLowerCase : String → String
  /-- `s.normalize("NFC")`. -/
  normalizeNfc : String → String
  /-- `JSON.parse`; `none` is a thrown `SyntaxError`. -/
  jsonParse : String → Option Json
  sha256Hex_digest : ∀ s, IsHexDigest (sha256Hex s)
  hmacSha256Hex_digest : ∀ key message, IsHexDigest (hmacSha256Hex key message)

def zeroDigest : String := String.ofList (List.replicate 64 '0')

theorem getD_digest {K : Type} [BEq K] {table : List (K × String)}
    (h : ∀ p ∈ table, IsHexDigest p.2) (k : K) :
    IsHexDigest ((table.lookup k).getD zeroDigest) := by
  induction table with
  | nil => exact (by decide : IsHexDigest zeroDigest)
  | cons p table ih =>
      rw [List.lookup_cons]
      split
      · exact h p List.mem_cons_self
      · exact ih (fun q hq => h q (List.mem_cons_of_mem _ hq))

/-- A runtime for ASCII text whose digests are read off tables. -/
def Runtime.tabulated (sha : List (String × String))
    (hmac : List ((String × String) × String)) (parse : String → Option Json)
    (hsha : ∀ p ∈ sha, IsHexDigest p.2) (hhmac : ∀ p ∈ hmac, IsHexDigest p.2) : Runtime where
  sha256Hex := fun s => (sha.lookup s).getD zeroDigest
  hmacSha256Hex := fun key message => (hmac.lookup (key, message)).getD zeroDigest
  toLowerCase := fun s => String.ofList (s.toList.map Char.toLower)
  normalizeNfc := id
  jsonParse := parse
  sha256Hex_digest := fun s => getD_digest hsha s
  hmacSha256Hex_digest := fun key message => getD_digest hhmac (key, message)

theorem sha_nil : ∀ p ∈ ([] : List (String × String)), IsHexDigest p.2 := by simp

theorem hmac_nil : ∀ p ∈ ([] : List ((String × String) × String)), IsHexDigest p.2 := by simp

/-- `Record<string, string>`, in insertion order. -/
abbrev Record := List (String × String)

/-- `process.env`. -/
abbrev ProcessEnv := String → Option String

/-- An environment value that is set and not empty. -/
def ProcessEnv.nonEmpty (env : ProcessEnv) (name : String) : Option String :=
  match env name with
  | some "" => none
  | v => v

/-! ## The environment variables -/

namespace RuntimeEnv

def tokenTableName := "VESTIBULUM_TOKEN_TABLE"
def rateLimitTableName := "VESTIBULUM_RATE_LIMIT_TABLE"
def denylistTableName := "VESTIBULUM_DENYLIST_TABLE"
def cognitoUserPoolId := "VESTIBULUM_USER_POOL_ID"
def cognitoClientId := "VESTIBULUM_CLIENT_ID"
def sesFrom := "VESTIBULUM_SES_FROM"
def domain := "VESTIBULUM_DOMAIN"
def tokenTtlMinutes := "VESTIBULUM_TOKEN_TTL_MINUTES"
def tokenSendsPerWindow := "VESTIBULUM_TOKEN_SENDS_PER_WINDOW"
def tokenSendsPerDay := "VESTIBULUM_TOKEN_SENDS_PER_DAY"
def loginIpPerWindow := "VESTIBULUM_LOGIN_IP_PER_WINDOW"
def bindingTableName := "VESTIBULUM_BINDING_TABLE"
def signinFloorMs := "VESTIBULUM_SIGNIN_FLOOR_MS"
def createFloorMs := "VESTIBULUM_CREATE_FLOOR_MS"
def sesConfigurationSet := "VESTIBULUM_SES_CONFIGURATION_SET"
def enrollment := "VESTIBULUM_ENROLLMENT"
def refreshTokenValiditySeconds := "VESTIBULUM_REFRESH_TOKEN_VALIDITY_SECONDS"

end RuntimeEnv

/-! ## Addresses -/

/-- RFC 5321 path limit, counted in UTF-8 octets. -/
def maxEmailLength : Nat := 254

/-- `normalizeEmail`: trim, NFC, lower-case, NFC again; then one `@` with
something on both sides, no white space, no control character. -/
def normalizeEmail (rt : Runtime) (raw : String) : Option String :=
  let trimmed := String.ofList (trim raw.toList)
  let value := rt.normalizeNfc (rt.toLowerCase (rt.normalizeNfc trimmed))
  if value.utf8ByteSize > maxEmailLength then none
  else if value.toList.any (fun c => isSpace c || isControl c) then none
  else
    match value.toList.splitOn '@' with
    | [localPart, domain] =>
        if localPart.isEmpty || domain.isEmpty then none else some value
    | _ => none

/-- `hmacEmail`: the address is lower-cased first. -/
def hmacEmail (rt : Runtime) (email key : String) : String :=
  rt.hmacSha256Hex key (rt.toLowerCase email)

/-! ## Comparing digests -/

/-- `timingSafeEqual`; `none` is the `RangeError` on buffers of different
length. -/
def timingSafeEqual (a b : List Nat) : Option Bool :=
  if a.length = b.length then some (a == b) else none

/-- `constantTimeHashEqual`: an absent or short hash equals nothing. -/
def constantTimeHashEqual (a b : Option String) : Bool :=
  let aBuf := fromHex (a.getD "").toList
  let bBuf := fromHex (b.getD "").toList
  if aBuf.length ≠ 32 || bBuf.length ≠ 32 then false
  else aBuf == bBuf

/-- On digests the comparison is equality of the texts. -/
theorem constantTimeHashEqual_digest {a b : String} (ha : IsHexDigest a)
    (hb : IsHexDigest b) : constantTimeHashEqual (some a) (some b) = true ↔ a = b := by
  simp only [constantTimeHashEqual, Option.getD_some, ha.fromHex_length,
    hb.fromHex_length, ne_eq, not_true, decide_false, Bool.or_self, Bool.false_eq_true,
    if_false, beq_iff_eq]
  exact ⟨ha.fromHex_inj hb, fun h => by rw [h]⟩

theorem constantTimeHashEqual_none (b : Option String) :
    constantTimeHashEqual none b = false := by
  simp [constantTimeHashEqual, fromHex]

end SaasFoundation.Vestibulum
