import Mathlib.Algebra.Order.Field.Rat
import Mathlib.Data.Rat.Floor
import Mathlib.Tactic.Linarith
import SaasFoundation.Lib.Bytes
import SaasFoundation.Lib.JsonText
import SaasFoundation.Lib.Prog

/-!
# Stale keys when the issuer is down

The verifier fetches the keys of its issuer. What it fetched last it leaves
in a store of the caller's, in an envelope that names the issuer, the address
and the time, and when a fetch fails it may take the keys from there.

What comes out of the store is not trusted: it counts only if the envelope is
the one that this verifier would have written, and not too long ago.
-/

namespace SaasFoundation.Vestibulum.Verify

open Lib

/-- The numbers of the runtime with their values; only zero has two of
them. -/
class JsonNumbers (N : Type) extends JsNumbers N where
  value : N → Option ℚ
  one : N
  isFinite_eq : ∀ n, isFinite n = (value n).isSome
  ofLiteral_text : ∀ n t, value n = some t → t ≠ 0 → ofLiteral (text n) = n
  value_one : value one = some 1

open JsonNumbers (value)

section Model

variable (N : Type) [JsonNumbers N]

abbrev Json := JsonValue N

variable {N}

/-- `v[name]` of a parsed value. -/
def property (v : Json N) (name : String) : Option (Json N) :=
  match v with
  | .obj fields => fields.lookup name
  | _ => none

mutual
/-- Every object without `__proto__` and `constructor`. -/
def stripPrototype : Json N → Json N
  | .arr xs => .arr (stripElements xs)
  | .obj fields => .obj (stripFields fields)
  | v => v
def stripElements : List (Json N) → List (Json N)
  | [] => []
  | x :: xs => stripPrototype x :: stripElements xs
def stripFields : List (String × Json N) → List (String × Json N)
  | [] => []
  | (name, v) :: qs =>
      if name = "__proto__" ∨ name = "constructor" then stripFields qs
      else (name, stripPrototype v) :: stripFields qs
end

variable (N) in
/-- What is used of `aws-jwt-verify`. -/
structure JwtVerify where
  /-- `JSON.parse` without the names that reach a prototype; `none` is a
  thrown `SyntaxError`. -/
  safeJsonParse : List Char → Option (Json N)
  /-- The type guard `isJwks`. -/
  isJwks : Json N → Bool
  safeJsonParse_stringify : ∀ v, JsonText.Faithful v → stripPrototype v = v →
    safeJsonParse (JsonText.stringify v) = some v
  isJwks_keys : ∀ v, isJwks v = true → ∃ keys, property v "keys" = some (.arr keys)

/-! ## Usable keys -/

def isNonEmptyString : Option (Json N) → Bool
  | some (.str s) => s != ""
  | _ => false

/-- A key by which a signature can be checked. -/
def isUsableSigningJwk (jwk : Json N) : Bool :=
  let has := fun name => isNonEmptyString (property jwk name)
  has "kid" &&
    (match property jwk "use" with
      | none => true
      | some (.str use) => use == "sig"
      | _ => false) &&
    match property jwk "kty" with
    | some (.str kty) =>
        if kty = "RSA" then has "n" && has "e"
        else if kty = "EC" then has "crv" && has "x" && has "y"
        else if kty = "OKP" then has "crv" && has "x"
        else false
    | _ => false

/-- `jwks.keys`. -/
def keysOf (jwks : Json N) : List (Json N) :=
  match property jwks "keys" with
  | some (.arr keys) => keys
  | _ => []

/-! ## The envelope -/

inductive JwksCacheRejectReason where
  | absent | unparseable | malformedEnvelope | unsupportedVersion | issuerMismatch
  | jwksUriMismatch | invalidTimestamp | tooStale | invalidJwks | noUsableSigningKey
deriving DecidableEq, Repr

structure Expected where
  issuer : String
  jwksUri : String
  nowMs : ℚ
  maxStalenessSeconds : ℚ

def clockSkewToleranceMs : ℚ := 60000

/-- A finite number above zero. -/
def timestamp : Option (Json N) → Option ℚ
  | some (.num n) =>
      match value n with
      | some t => if t ≤ 0 then none else some t
      | none => none
  | _ => none

def isVersion : Option (Json N) → Bool
  | some (.num n) => value n == some 1
  | _ => false

def isText (text : String) : Option (Json N) → Bool
  | some (.str s) => s == text
  | _ => false

/-- The checks on a parsed envelope. -/
def readEnvelope (lib : JwtVerify N) (envelope : List (String × Json N)) (expected : Expected) :
    Except JwksCacheRejectReason (Json N × ℤ) :=
  if !isVersion (envelope.lookup "v") then .error .unsupportedVersion
  else if !isText expected.issuer (envelope.lookup "issuer") then .error .issuerMismatch
  else if !isText expected.jwksUri (envelope.lookup "jwksUri") then .error .jwksUriMismatch
  else
    match timestamp (envelope.lookup "fetchedAt") with
    | none => .error .invalidTimestamp
    | some fetchedAt =>
        if fetchedAt > expected.nowMs + clockSkewToleranceMs then .error .invalidTimestamp
        else
          let ageMs := max 0 (expected.nowMs - fetchedAt)
          if ageMs > expected.maxStalenessSeconds * 1000 then .error .tooStale
          else
            let jwks := (envelope.lookup "jwks").getD .null
            if !lib.isJwks jwks then .error .invalidJwks
            else if !(keysOf jwks).any isUsableSigningJwk then .error .noUsableSigningKey
            else .ok (jwks, ⌊ageMs / 1000⌋)

def readCachedJwks (lib : JwtVerify N) (raw : Option String) (expected : Expected) :
    Except JwksCacheRejectReason (Json N × ℤ) :=
  match raw with
  | none => .error .absent
  | some raw =>
      if raw = "" then .error .absent
      else if expected.maxStalenessSeconds ≤ 0 then .error .tooStale
      else
        match lib.safeJsonParse raw.toList with
        | none => .error .unparseable
        | some (.obj envelope) => readEnvelope lib envelope expected
        | some _ => .error .malformedEnvelope

/-- A reading of the clock. -/
structure Moment (N : Type) [JsonNumbers N] where
  number : N
  ms : ℚ
  value_eq : value number = some ms

def envelopeFields (issuer jwksUri : String) (fetchedAt : N) (jwks : Json N) :
    List (String × Json N) :=
  [("v", .num JsonNumbers.one), ("issuer", .str issuer), ("jwksUri", .str jwksUri),
    ("fetchedAt", .num fetchedAt), ("jwks", jwks)]

def buildJwksEnvelope (issuer jwksUri : String) (fetchedAt : N) (jwks : Json N) : String :=
  String.ofList (JsonText.stringify (.obj (envelopeFields issuer jwksUri fetchedAt jwks)))

/-! ## Bytes -/

/-- A `TextDecoder` that is fatal and keeps the byte order mark. -/
def decodeUtf8 (bytes : List UInt8) : Option (List Char) :=
  bytes.toByteArray.utf8Decode?.map Array.toList

def decodeJwks (lib : JwtVerify N) (bytes : List UInt8) : Option (Json N) :=
  ((decodeUtf8 bytes).bind lib.safeJsonParse).filter lib.isJwks

def encodeJwks (jwks : Json N) : List UInt8 := Bytes.ofText (JsonText.stringify jwks)

/-! ## The fetcher -/

inductive FetchRequest where
  | delegate (uri : String)
  | storeGet (issuer : String)
  | storeSet (issuer jwks : String) (ttlSeconds : ℚ)
  | now

/-- Something that was thrown. -/
abbrev Thrown := String

abbrev FetchReply (N : Type) [JsonNumbers N] : FetchRequest → Type
  | .delegate _ => Except Thrown (List UInt8)
  | .storeGet _ => Except Thrown (Option String)
  | .storeSet _ _ _ => Except Thrown Unit
  | .now => Moment N

abbrev Fetcher (N : Type) [JsonNumbers N] (α : Type) := Prog FetchRequest (FetchReply N) α

abbrev ask (op : FetchRequest) : Fetcher N (FetchReply N op) := Prog.call op

structure Deps where
  issuer : String
  maxStalenessSeconds : ℚ

/-- Best effort: a store that fails is passed over. -/
def persist (deps : Deps) (jwksUri : String) (jwks : Json N) : Fetcher N Unit := do
  let fetchedAt : Moment N ← ask .now
  let _ ← ask (.storeSet deps.issuer (buildJwksEnvelope deps.issuer jwksUri fetchedAt.number jwks)
    deps.maxStalenessSeconds)
  pure ()

def tryCached (lib : JwtVerify N) (deps : Deps) (jwksUri : String) :
    Fetcher N (Option (List UInt8)) := do
  let found : Except Thrown (Option String) ← ask (.storeGet deps.issuer)
  match found with
  | .error _ => pure none
  | .ok raw => do
      let now : Moment N ← ask .now
      match readCachedJwks lib raw ⟨deps.issuer, jwksUri, now.ms, deps.maxStalenessSeconds⟩ with
      | .error _ => pure none
      | .ok (jwks, _) => pure (some (encodeJwks jwks))

/-- `StaleFallbackFetcher.fetch`. -/
def fetch (lib : JwtVerify N) (deps : Deps) (uri : String) :
    Fetcher N (Except Thrown (List UInt8)) := do
  let reply : Except Thrown (List UInt8) ← ask (.delegate uri)
  match reply with
  | .error e => do
      let cached ← tryCached lib deps uri
      match cached with
      | some bytes => pure (.ok bytes)
      | none => pure (.error e)
  | .ok bytes =>
      match decodeJwks lib bytes with
      | none => do
          let cached ← tryCached lib deps uri
          pure (.ok (cached.getD bytes))
      | some fresh => do
          persist deps uri fresh
          pure (.ok bytes)

/-! ## What is taken from the store -/

/-- An envelope that this verifier would have written, not too long ago. -/
structure Trusted (lib : JwtVerify N) (expected : Expected) (raw : String) (jwks : Json N) where
  envelope : List (String × Json N)
  fetchedAt : N
  ms : ℚ
  parsed : lib.safeJsonParse raw.toList = some (.obj envelope)
  version : ∃ n, envelope.lookup "v" = some (.num n) ∧ value n = some 1
  issuer : envelope.lookup "issuer" = some (.str expected.issuer)
  jwksUri : envelope.lookup "jwksUri" = some (.str expected.jwksUri)
  fetchedAt_eq : envelope.lookup "fetchedAt" = some (.num fetchedAt)
  ms_eq : value fetchedAt = some ms
  ms_pos : 0 < ms
  notOld : expected.nowMs - expected.maxStalenessSeconds * 1000 ≤ ms
  notAhead : ms ≤ expected.nowMs + clockSkewToleranceMs
  jwks_eq : envelope.lookup "jwks" = some jwks
  isJwks : lib.isJwks jwks = true
  usable : ∃ key ∈ keysOf jwks, isUsableSigningJwk key = true

section Read

variable {lib : JwtVerify N} {expected : Expected} {jwks : Json N} {ageSeconds : ℤ}

theorem isVersion_iff {v : Option (Json N)} :
    isVersion v = true ↔ ∃ n, v = some (.num n) ∧ value n = some 1 := by
  unfold isVersion
  split
  · rename_i n
    simp
  · rename_i hother
    simp only [Bool.false_eq_true, false_iff, not_exists, not_and]
    exact fun n hn => absurd hn (hother n)

omit [JsonNumbers N] in
theorem isText_iff {text : String} {v : Option (Json N)} :
    isText text v = true ↔ v = some (.str text) := by
  unfold isText
  split
  · simp
  · rename_i hother
    simp only [Bool.false_eq_true, false_iff]
    exact fun heq => hother text heq

theorem timestamp_iff {v : Option (Json N)} {t : ℚ} :
    timestamp v = some t ↔ ∃ n, v = some (.num n) ∧ value n = some t ∧ 0 < t := by
  unfold timestamp
  split
  · rename_i n
    cases hvalue : value n with
    | none => simp [hvalue]
    | some s =>
        simp only [Option.ite_none_left_eq_some, not_le, Option.some.injEq, JsonValue.num.injEq,
          exists_eq_left', hvalue]
        constructor
        · rintro ⟨hpos, rfl⟩
          exact ⟨rfl, hpos⟩
        · rintro ⟨rfl, hpos⟩
          exact ⟨hpos, rfl⟩
  · rename_i hother
    simp only [reduceCtorEq, false_iff, not_exists, not_and]
    exact fun n hn => absurd hn (hother n)

theorem isJwks_ne_null (lib : JwtVerify N) : lib.isJwks .null = false := by
  by_contra hnull
  obtain ⟨keys, hkeys⟩ := lib.isJwks_keys .null (by simpa using hnull)
  cases hkeys

/-- Every check that is passed says something about the envelope. -/
theorem readCachedJwks_ok {raw : Option String}
    (h : readCachedJwks lib raw expected = .ok (jwks, ageSeconds)) :
    ∃ text, raw = some text ∧ Nonempty (Trusted lib expected text jwks) := by
  unfold readCachedJwks at h
  split at h
  · cases h
  rename_i text
  split at h
  · cases h
  split at h
  · cases h
  split at h
  · cases h
  · rename_i envelope hparsed
    unfold readEnvelope at h
    split at h
    · cases h
    rename_i hversion
    split at h
    · cases h
    rename_i hissuer
    split at h
    · cases h
    rename_i huri
    split at h
    · cases h
    rename_i t ht
    split at h
    · cases h
    rename_i hahead
    simp only at h
    split at h
    · cases h
    rename_i hage
    split at h
    · cases h
    rename_i hjwks
    split at h
    · cases h
    rename_i husable
    rw [Bool.not_eq_true, Bool.not_eq_false'] at hversion hissuer huri hjwks husable
    obtain ⟨n, hn, hvalue, hpos⟩ := timestamp_iff.mp ht
    rw [Except.ok.injEq, Prod.mk.injEq] at h
    obtain ⟨rfl, -⟩ := h
    have hsome : envelope.lookup "jwks" = some ((envelope.lookup "jwks").getD .null) := by
      cases hlookup : envelope.lookup "jwks" with
      | some jwks => rfl
      | none =>
          rw [hlookup, Option.getD_none, isJwks_ne_null] at hjwks
          cases hjwks
    have hold : expected.nowMs - t ≤ expected.maxStalenessSeconds * 1000 :=
      le_trans (le_max_right 0 _) (not_lt.mp hage)
    refine ⟨text, rfl, ⟨⟨envelope, n, t, hparsed, isVersion_iff.mp hversion, isText_iff.mp hissuer,
      isText_iff.mp huri, hn, hvalue, hpos, by linarith, not_lt.mp hahead, hsome, hjwks, ?_⟩⟩⟩
    exact List.any_eq_true.mp husable
  · cases h

end Read

/-! ## What was written is taken -/

section Write

variable {lib : JwtVerify N} {issuer jwksUri : String} {jwks : Json N}

theorem faithful_value {n : N} {t : ℚ} (h : value n = some t) (ht : t ≠ 0) :
    JsonText.FaithfulNumber n :=
  ⟨by rw [JsonNumbers.isFinite_eq, h]; rfl, JsonNumbers.ofLiteral_text n t h ht⟩

theorem envelope_faithful {time : Moment N} (hpos : 0 < time.ms) (hjwks : JsonText.Faithful jwks) :
    JsonText.Faithful (.obj (envelopeFields issuer jwksUri time.number jwks)) := by
  refine ⟨by simp [envelopeFields], ?_⟩
  exact ⟨faithful_value JsonNumbers.value_one one_ne_zero, trivial, trivial,
    faithful_value time.value_eq (ne_of_gt hpos), hjwks, trivial⟩

theorem envelope_strip {fetchedAt : N} (h : stripPrototype jwks = jwks) :
    stripPrototype (.obj (envelopeFields issuer jwksUri fetchedAt jwks)) =
      .obj (envelopeFields issuer jwksUri fetchedAt jwks) := by
  simp [envelopeFields, stripPrototype, stripFields, h]

theorem buildJwksEnvelope_ne_empty {fetchedAt : N} :
    buildJwksEnvelope issuer jwksUri fetchedAt jwks ≠ "" := by
  intro hempty
  have hlist := congrArg String.toList hempty
  rw [buildJwksEnvelope, String.toList_ofList] at hlist
  cases hlist

/-- The envelope passes every check. -/
theorem readEnvelope_fields {time : Moment N} {now maxStalenessSeconds : ℚ}
    (hjwks : lib.isJwks jwks = true) (husable : ∃ key ∈ keysOf jwks, isUsableSigningJwk key = true)
    (hpos : 0 < time.ms) (hmax : 0 < maxStalenessSeconds)
    (hold : now - maxStalenessSeconds * 1000 ≤ time.ms)
    (hahead : time.ms ≤ now + clockSkewToleranceMs) :
    readEnvelope lib (envelopeFields issuer jwksUri time.number jwks)
      ⟨issuer, jwksUri, now, maxStalenessSeconds⟩ =
        .ok (jwks, ⌊max 0 (now - time.ms) / 1000⌋) := by
  have hversion : isVersion ((envelopeFields issuer jwksUri time.number jwks).lookup "v") = true :=
    isVersion_iff.mpr ⟨_, rfl, JsonNumbers.value_one⟩
  have hissuer : isText issuer
      ((envelopeFields issuer jwksUri time.number jwks).lookup "issuer") = true :=
    isText_iff.mpr rfl
  have huri : isText jwksUri
      ((envelopeFields issuer jwksUri time.number jwks).lookup "jwksUri") = true :=
    isText_iff.mpr rfl
  have htime : timestamp ((envelopeFields issuer jwksUri time.number jwks).lookup "fetchedAt") =
      some time.ms := timestamp_iff.mpr ⟨_, rfl, time.value_eq, hpos⟩
  have hkeys : (envelopeFields issuer jwksUri time.number jwks).lookup "jwks" = some jwks := rfl
  have hage : ¬ max 0 (now - time.ms) > maxStalenessSeconds * 1000 :=
    not_lt.mpr (max_le (by linarith) (by linarith))
  have husable' : (keysOf jwks).any isUsableSigningJwk = true := List.any_eq_true.mpr husable
  simp only [readEnvelope, hversion, hissuer, huri, htime, hkeys, Bool.not_true, Bool.false_eq_true,
    if_false, if_neg (not_lt.mpr hahead), if_neg hage, Option.getD_some, hjwks, husable']

/-- The reader takes what the writer wrote, as long as it is not too old. -/
theorem readCachedJwks_build {time : Moment N} {now maxStalenessSeconds : ℚ}
    (hfaithful : JsonText.Faithful jwks) (hclean : stripPrototype jwks = jwks)
    (hjwks : lib.isJwks jwks = true) (husable : ∃ key ∈ keysOf jwks, isUsableSigningJwk key = true)
    (hpos : 0 < time.ms) (hmax : 0 < maxStalenessSeconds)
    (hold : now - maxStalenessSeconds * 1000 ≤ time.ms)
    (hahead : time.ms ≤ now + clockSkewToleranceMs) :
    readCachedJwks lib (some (buildJwksEnvelope issuer jwksUri time.number jwks))
      ⟨issuer, jwksUri, now, maxStalenessSeconds⟩ =
        .ok (jwks, ⌊max 0 (now - time.ms) / 1000⌋) := by
  have hfields : JsonText.Faithful (.obj (envelopeFields issuer jwksUri time.number jwks)) :=
    envelope_faithful hpos hfaithful
  have hparse := lib.safeJsonParse_stringify _ hfields (envelope_strip hclean)
  simp only [readCachedJwks, if_neg buildJwksEnvelope_ne_empty, if_neg (not_le.mpr hmax)]
  rw [buildJwksEnvelope, String.toList_ofList, hparse]
  exact readEnvelope_fields hjwks husable hpos hmax hold hahead

theorem decodeUtf8_ofText (cs : List Char) : decodeUtf8 (Bytes.ofText cs) = some cs := by
  have hbytes : (Bytes.ofText cs).toByteArray = cs.utf8Encode := rfl
  rw [decodeUtf8, hbytes, List.utf8Decode?_utf8Encode]
  simp

/-- What is handed out of the store is read as the keys that were in it. -/
theorem decodeJwks_encodeJwks (hfaithful : JsonText.Faithful jwks)
    (hclean : stripPrototype jwks = jwks) (hjwks : lib.isJwks jwks = true) :
    decodeJwks lib (encodeJwks jwks) = some jwks := by
  rw [decodeJwks, encodeJwks, decodeUtf8_ofText, Option.bind_some,
    lib.safeJsonParse_stringify _ hfaithful hclean, Option.filter_some, if_pos hjwks]

end Write

/-! ## Runs of the fetcher -/

section Runs

variable {lib : JwtVerify N} {deps : Deps} {uri : String}
  {es : List (Event FetchRequest (FetchReply N))}

/-- A run in which the store had something to trust. -/
def FromStore (lib : JwtVerify N) (deps : Deps) (uri : String)
    (es : List (Event FetchRequest (FetchReply N))) (out : List UInt8) : Prop :=
  ∃ (raw : String) (now : Moment N) (jwks : Json N),
    ⟨.storeGet deps.issuer, .ok (some raw)⟩ ∈ es ∧ ⟨.now, now⟩ ∈ es ∧
    Nonempty (Trusted lib ⟨deps.issuer, uri, now.ms, deps.maxStalenessSeconds⟩ raw jwks) ∧
    out = encodeJwks jwks

theorem finishes_tryCached {cached : Option (List UInt8)}
    (h : (tryCached lib deps uri).Finishes es cached) :
    ∀ out, cached = some out → FromStore lib deps uri es out := by
  rintro out rfl
  simp only [tryCached, Prog.call_bind, Prog.finishes_ask] at h
  obtain ⟨found, fs, rfl, h⟩ := h
  split at h
  · cases (Prog.finishes_ret.mp h).2
  rename_i raw
  simp only [Prog.finishes_ask] at h
  obtain ⟨now, gs, rfl, h⟩ := h
  split at h
  · cases (Prog.finishes_ret.mp h).2
  rename_i jwks age hread
  obtain ⟨rfl, hout⟩ := Prog.finishes_ret.mp h
  obtain ⟨text, rfl, htrusted⟩ := readCachedJwks_ok hread
  exact ⟨text, now, jwks, by simp, by simp, htrusted, (Option.some.inj hout).symm⟩

/-- How a fetch ends, by what the delegate did. -/
inductive FetchEnds (lib : JwtVerify N) (deps : Deps) (uri : String)
    (rest : List (Event FetchRequest (FetchReply N))) :
    Except Thrown (List UInt8) → Except Thrown (List UInt8) → Prop
  | fresh {bytes : List UInt8} : (decodeJwks lib bytes).isSome →
      FetchEnds lib deps uri rest (.ok bytes) (.ok bytes)
  | unread {bytes : List UInt8} : decodeJwks lib bytes = none →
      FetchEnds lib deps uri rest (.ok bytes) (.ok bytes)
  | unreadStale {bytes out : List UInt8} : decodeJwks lib bytes = none →
      FromStore lib deps uri rest out → FetchEnds lib deps uri rest (.ok bytes) (.ok out)
  | threw {e : Thrown} : FetchEnds lib deps uri rest (.error e) (.error e)
  | threwStale {e : Thrown} {out : List UInt8} :
      FromStore lib deps uri rest out → FetchEnds lib deps uri rest (.error e) (.ok out)

theorem finishes_fetch {r : Except Thrown (List UInt8)} (h : (fetch lib deps uri).Finishes es r) :
    ∃ reply rest, es = ⟨.delegate uri, reply⟩ :: rest ∧ FetchEnds lib deps uri rest reply r := by
  simp only [fetch, Prog.call_bind, Prog.finishes_ask] at h
  obtain ⟨reply, rest, rfl, h⟩ := h
  refine ⟨reply, rest, rfl, ?_⟩
  split at h
  · -- the delegate threw
    obtain ⟨fs, gs, cached, rfl, hcached, h⟩ := Prog.finishes_bind.mp h
    have hstore := finishes_tryCached hcached
    split at h
    · obtain ⟨rfl, rfl⟩ := Prog.finishes_ret.mp h
      rw [List.append_nil]
      exact .threwStale (hstore _ rfl)
    · obtain ⟨rfl, rfl⟩ := Prog.finishes_ret.mp h
      exact .threw
  rename_i bytes
  split at h
  · rename_i hdecode
    obtain ⟨fs, gs, cached, rfl, hcached, h⟩ := Prog.finishes_bind.mp h
    have hstore := finishes_tryCached hcached
    obtain ⟨rfl, rfl⟩ := Prog.finishes_ret.mp h
    cases cached with
    | none => exact .unread hdecode
    | some out =>
        rw [List.append_nil]
        exact .unreadStale hdecode (hstore out rfl)
  · rename_i fresh hdecode
    -- whatever the store says to the new envelope
    obtain ⟨fs, gs, done, rfl, -, h⟩ := Prog.finishes_bind.mp h
    obtain ⟨rfl, rfl⟩ := Prog.finishes_ret.mp h
    exact .fresh (by rw [hdecode]; rfl)

end Runs

/-- **The fallback.** Whatever the delegate, the store and the clock do:

* bytes of the delegate that decode to a JWKS are returned as they are;
* anything else than the delegate's bytes is returned only if the delegate
  threw or its bytes are no JWKS, and then it encodes the JWKS of an envelope
  in the store that this verifier trusts at the time it reads its clock.

And an envelope that was written is read, at every time within the bounds,
as the JWKS that went into it, if JSON can carry that: its numbers are finite
and none is the negative zero, and no name in it reaches a prototype. -/
theorem fallback_sound (lib : JwtVerify N) (deps : Deps) (uri : String) :
    (∀ es r, (fetch lib deps uri).Finishes es r →
      ∃ reply rest, es = ⟨.delegate uri, reply⟩ :: rest ∧
        (∀ bytes, reply = .ok bytes → (decodeJwks lib bytes).isSome → r = .ok bytes) ∧
        (∀ out, r = .ok out → reply ≠ .ok out →
          (∀ bytes, reply = .ok bytes → decodeJwks lib bytes = none) ∧
          FromStore lib deps uri rest out)) ∧
    (∀ (jwks : Json N) (time : Moment N) (issuer jwksUri : String) (now maxStalenessSeconds : ℚ),
      JsonText.Faithful jwks → stripPrototype jwks = jwks → lib.isJwks jwks = true →
      (∃ key ∈ keysOf jwks, isUsableSigningJwk key = true) →
      0 < time.ms → 0 < maxStalenessSeconds → now - maxStalenessSeconds * 1000 ≤ time.ms →
      time.ms ≤ now + clockSkewToleranceMs →
      readCachedJwks lib (some (buildJwksEnvelope issuer jwksUri time.number jwks))
        ⟨issuer, jwksUri, now, maxStalenessSeconds⟩ =
          .ok (jwks, ⌊max 0 (now - time.ms) / 1000⌋) ∧
      decodeJwks lib (encodeJwks jwks) = some jwks) := by
  constructor
  · intro es r h
    obtain ⟨reply, rest, hes, hends⟩ := finishes_fetch h
    refine ⟨reply, rest, hes, ?_⟩
    cases hends with
    | fresh hsome =>
        exact ⟨fun bytes hbytes _ => hbytes, fun out hout hne => absurd hout hne⟩
    | unread hnone =>
        exact ⟨fun bytes hbytes _ => hbytes, fun out hout hne => absurd hout hne⟩
    | @unreadStale bytes out hnone hstore =>
        refine ⟨fun bytes' hbytes hsome => ?_, fun out' hout _ => ⟨fun bytes' hbytes => ?_, ?_⟩⟩
        · rw [← Except.ok.inj hbytes, hnone] at hsome
          cases hsome
        · rw [← Except.ok.inj hbytes, hnone]
        · rwa [← Except.ok.inj hout]
    | threw =>
        exact ⟨fun bytes hbytes _ => (nomatch hbytes), fun out hout _ => (nomatch hout)⟩
    | threwStale hstore =>
        refine ⟨fun bytes hbytes _ => (nomatch hbytes), fun out hout _ =>
          ⟨fun bytes hbytes => (nomatch hbytes), ?_⟩⟩
        rwa [← Except.ok.inj hout]
  · intro jwks time issuer jwksUri now maxStalenessSeconds hfaithful hclean hjwks husable hpos hmax
      hold hahead
    exact ⟨readCachedJwks_build hfaithful hclean hjwks husable hpos hmax hold hahead,
      decodeJwks_encodeJwks hfaithful hclean hjwks⟩

end Model

namespace Small

/-- One, a time, and what the literals beyond the greatest number denote. -/
inductive Number where
  | one | time | infinity
deriving DecidableEq

def Number.text : Number → String
  | .one => "1"
  | .time => "1700000000000"
  | .infinity => "Infinity"

scoped instance : JsonNumbers Number where
  ofLiteral lit :=
    if lit = Number.one.text.toList then .one
    else if lit = Number.time.text.toList then .time
    else .infinity
  isFinite n := n != .infinity
  text n := n.text.toList
  text_literal := by
    intro n hfinite
    cases n with
    | one => decide +kernel
    | time => decide +kernel
    | infinity => cases hfinite
  value n :=
    match n with
    | .one => some 1
    | .time => some 1700000000000
    | .infinity => none
  one := .one
  isFinite_eq n := by cases n <;> rfl
  ofLiteral_text n t hvalue _ := by
    cases n with
    | one => decide +kernel
    | time => decide +kernel
    | infinity => cases hvalue
  value_one := rfl

def isAbsentOrString : Option (Json Number) → Bool
  | none => true
  | some (.str _) => true
  | _ => false

/-- `isJwk`. -/
def isJwk (jwk : Json Number) : Bool :=
  (match property jwk "kty" with
    | some (.str _) => true
    | _ => false) &&
    ["use", "alg", "kid", "n", "e", "x", "y", "crv"].all
      fun name => isAbsentOrString (property jwk name)

def library : JwtVerify Number where
  safeJsonParse cs := (JsonText.parse cs).map stripPrototype
  isJwks v :=
    match property v "keys" with
    | some (.arr keys) => keys.all isJwk
    | _ => false
  safeJsonParse_stringify v hfaithful hclean := by
    rw [JsonText.parse_stringify hfaithful, Option.map_some, hclean]
  isJwks_keys v h := by
    split at h
    · rename_i keys hkeys
      exact ⟨keys, hkeys⟩
    · cases h

/-- One key, and when it expires. -/
def keySet (exp : Json Number) : Json Number :=
  .obj [("keys", .arr [.obj [("kid", .str "a"), ("kty", .str "RSA"), ("n", .str "u1W"),
    ("e", .str "AQAB"), ("exp", exp)]])]

/-- The number in it is beyond the greatest. -/
def body : List Char :=
  "\x7b\"keys\":[\x7b\"kid\":\"a\",\"kty\":\"RSA\",\"n\":\"u1W\",\"e\":\"AQAB\",\"exp\":1e999\x7d]\x7d".toList

def fetched : Moment Number := ⟨.time, 1700000000000, rfl⟩

def isEndless : Json Number → Bool
  | .obj [("keys", .arr [.obj [("kid", .str "a"), ("kty", .str "RSA"), ("n", .str "u1W"),
      ("e", .str "AQAB"), ("exp", .num .infinity)]])] => true
  | _ => false

theorem isEndless_eq {v : Json Number} (h : isEndless v = true) : v = keySet (.num .infinity) := by
  unfold isEndless at h
  split at h
  · rfl
  · cases h

theorem decodeJwks_body :
    decodeJwks library (Bytes.ofText body) = some (keySet (.num .infinity)) := by
  have hread : (library.safeJsonParse body).any isEndless = true := by decide +kernel
  rw [decodeJwks, decodeUtf8_ofText, Option.bind_some]
  cases hparsed : library.safeJsonParse body with
  | none =>
      rw [hparsed] at hread
      cases hread
  | some v =>
      rw [hparsed] at hread
      rw [isEndless_eq hread]
      rfl

/-- The text of the envelope has no number there. -/
theorem infinity_lost :
    (∃ bytes, decodeJwks library bytes = some (keySet (.num .infinity))) ∧
    (∃ key ∈ keysOf (keySet (.num .infinity)), isUsableSigningJwk key = true) ∧
    readCachedJwks library
      (some (buildJwksEnvelope "https://i" "https://i/k" fetched.number (keySet (.num .infinity))))
      ⟨"https://i", "https://i/k", 1700000000000, 604800⟩ = .ok (keySet .null, 0) ∧
    keySet .null ≠ keySet (.num .infinity) := by
  have husable : ∀ exp, ∃ key ∈ keysOf (keySet exp), isUsableSigningJwk key = true :=
    fun exp => ⟨_, List.mem_singleton_self _, rfl⟩
  have hfaithful : JsonText.Faithful (keySet .null) := by
    simp [keySet, JsonText.Faithful, JsonText.FaithfulElements, JsonText.FaithfulFields]
  have hclean : stripPrototype (keySet .null) = keySet .null := by
    simp [keySet, stripPrototype, stripElements, stripFields]
  have hwritten : buildJwksEnvelope "https://i" "https://i/k" fetched.number (keySet (.num .infinity)) =
      buildJwksEnvelope "https://i" "https://i/k" fetched.number (keySet .null) := rfl
  refine ⟨⟨_, decodeJwks_body⟩, husable _, ?_, fun h => by cases h⟩
  have hread : readCachedJwks library
      (some (buildJwksEnvelope "https://i" "https://i/k" fetched.number (keySet .null)))
      ⟨"https://i", "https://i/k", 1700000000000, 604800⟩ =
        .ok (keySet .null, ⌊max 0 (1700000000000 - fetched.ms) / 1000⌋) :=
    readCachedJwks_build hfaithful hclean rfl (husable .null) (by norm_num [fetched]) (by norm_num)
      (by norm_num [fetched]) (by norm_num [fetched, clockSkewToleranceMs])
  rw [hwritten, hread]
  norm_num [fetched]

end Small

end SaasFoundation.Vestibulum.Verify
