import Mathlib.Data.Set.Basic
import SaasFoundation.Foundation.Kv.Namespaces
import SaasFoundation.Lib.Bytes
import SaasFoundation.Lib.JsonText
import SaasFoundation.Lib.Url

/-!
# Cursors

Between two pages `list` hands its caller a cursor: the last key of the page
as JSON, in base64, and behind a point the HMAC of that text. What comes back
is a text of the caller's. It is read in five steps, each of which can fail,
and every failure means that the list starts anew.

A cursor that was handed out is read as the key it was made from. A text that
is read as a key carries a signature of what stands before its last point, so
nobody who cannot sign can name a key that was not handed out.
-/

namespace SaasFoundation.Foundation.Kv

open Lib Lib.Text

/-- `createHmac("sha256", key).update(message).digest("hex")`. -/
structure Crypto where
  hmacSha256Hex : (key message : String) → String
  hmacSha256Hex_digest : ∀ key message, IsHexDigest (hmacSha256Hex key message)

namespace DynamoKv

/-! ## Keys -/

/-- A key attribute as the SDK has it. -/
inductive AttributeValue where
  | S (text : String)
  | N (text : String)

/-- The last key of a page, attribute by attribute. -/
structure LastEvaluatedKey where
  attributes : JsObject AttributeValue
  names_key : ∀ name ∈ attributes.names, name = "pk" ∨ name = "sk"
  nonempty : attributes.names ≠ []

/-- What a cursor may hold for a key attribute. -/
inductive CursorAttribute (N : Type) where
  | string (text : String)
  | number (n : N)
  | attribute (value : AttributeValue)

structure CursorKey (N : Type) where
  pk : Option (CursorAttribute N)
  sk : Option (CursorAttribute N)

/-- The key as a start key. -/
def LastEvaluatedKey.toCursorKey {N : Type} (key : LastEvaluatedKey) : CursorKey N where
  pk := (key.attributes.get "pk").map .attribute
  sk := (key.attributes.get "sk").map .attribute

section Codec

variable {N : Type} [JsNumbers N]

/-! ## The schema -/

/-- A string, a finite number, or an attribute of the SDK. -/
def parseAttribute : JsonValue N → Option (CursorAttribute N)
  | .str text => some (.string text)
  | .num n => if JsNumbers.isFinite n then some (.number n) else none
  | .obj [(name, .str text)] =>
      if name = "S" then some (.attribute (.S text))
      else if name = "N" then some (.attribute (.N text))
      else none
  | _ => none

/-- A property that need not be there. -/
def parseOptional : Option (JsonValue N) → Option (Option (CursorAttribute N))
  | none => some none
  | some v => (parseAttribute v).map some

/-- `CursorKeySchema.safeParse`: no other properties, and at least one. -/
def parseCursorKey : JsonValue N → Option (CursorKey N)
  | .obj fields =>
      if fields.any fun q => q.1 != "pk" && q.1 != "sk" then none
      else do
        let pk ← parseOptional (fields.lookup "pk")
        let sk ← parseOptional (fields.lookup "sk")
        if pk.isNone && sk.isNone then none else some ⟨pk, sk⟩
  | _ => none

/-! ## Writing -/

def attributeJson : AttributeValue → JsonValue N
  | .S text => .obj [("S", .str text)]
  | .N text => .obj [("N", .str text)]

def keyJson (key : LastEvaluatedKey) : JsonValue N :=
  .obj (key.attributes.properties.map fun q => (q.1, attributeJson q.2))

/-- The key as JSON in base64. -/
def encodeKey (N : Type) [JsNumbers N] (key : LastEvaluatedKey) : String :=
  String.ofList (Bytes.toBase64 (Bytes.ofText (JsonText.stringify (keyJson key : JsonValue N))))

def signCursor (crypto : Crypto) (payload secret : String) : String :=
  payload ++ "." ++ crypto.hmacSha256Hex secret payload

/-- The cursor of a page that ends with `key`. -/
def nextCursor (N : Type) [JsNumbers N] (crypto : Crypto) (cursorSecret : Option String)
    (key : LastEvaluatedKey) : String :=
  match cursorSecret with
  | some secret => signCursor crypto (encodeKey N key) secret
  | none => encodeKey N key

/-! ## Reading -/

inductive CursorError where
  | rangeError | syntaxError
deriving DecidableEq, Repr

/-- `crypto.timingSafeEqual`. -/
def timingSafeEqual (a b : List Nat) : Except CursorError Bool :=
  if a.length = b.length then .ok (a == b) else .error .rangeError

/-- The payload of a cursor whose signature is right. -/
def verifyCursorSignature (crypto : Crypto) (cursor secret : String) :
    Except CursorError (Option String) :=
  match Url.splitLast '.' cursor.toList with
  | none => .ok none
  | some (payload, sig) =>
      if jsLength (String.ofList sig) ≠ 64 then .ok none
      else
        let expected := crypto.hmacSha256Hex secret (String.ofList payload)
        let sigBuf := fromHex sig
        let expectedBuf := fromHex expected.toList
        if sigBuf.length ≠ expectedBuf.length then .ok none
        else do
          let same ← timingSafeEqual sigBuf expectedBuf
          pure (if same then some (String.ofList payload) else none)

/-- The payload of a cursor; without a secret it is the cursor. -/
def cursorPayload (crypto : Crypto) (raw : String) :
    Option String → Except CursorError (Option String)
  | some secret => verifyCursorSignature crypto raw secret
  | none => .ok (some raw)

/-- Base64, UTF-8, JSON and the schema. -/
def readPayload (payload : String) : Except CursorError (Option (CursorKey N)) :=
  match JsonText.parse (Bytes.toText (Bytes.ofBase64 payload.toList)) with
  | none => .error .syntaxError
  | some parsed => .ok (parseCursorKey parsed)

/-- The body of `parseCursor`, with what it throws. -/
def readCursor (crypto : Crypto) (raw : String) (cursorSecret : Option String) :
    Except CursorError (Option (CursorKey N)) := do
  match ← cursorPayload crypto raw cursorSecret with
  | none => pure none
  | some payload => readPayload payload

/-- The start key that a cursor stands for; whatever is wrong with it, there
is none. -/
def parseCursor (crypto : Crypto) (raw : String) (cursorSecret : Option String) :
    Option (CursorKey N) :=
  match readCursor crypto raw cursorSecret with
  | .ok key => key
  | .error _ => none

/-! ## What was written is read -/

theorem attributeJson_faithful (value : AttributeValue) :
    JsonText.Faithful (attributeJson value : JsonValue N) := by
  cases value <;> exact ⟨List.nodup_singleton _, trivial, trivial⟩

theorem parseAttribute_json (value : AttributeValue) :
    parseAttribute (attributeJson value : JsonValue N) = some (.attribute value) := by
  cases value <;> rfl

theorem keyJson_faithful (key : LastEvaluatedKey) :
    JsonText.Faithful (keyJson key : JsonValue N) := by
  have hfields : ∀ qs : List (String × AttributeValue),
      JsonText.FaithfulFields (qs.map fun q => (q.1, (attributeJson q.2 : JsonValue N))) := by
    intro qs
    induction qs with
    | nil => trivial
    | cons q qs ih => exact ⟨attributeJson_faithful q.2, ih⟩
  refine ⟨?_, hfields key.attributes.properties⟩
  rw [List.map_map]
  exact key.attributes.distinct

theorem parseOptional_json (value : Option AttributeValue) :
    parseOptional (value.map (attributeJson : AttributeValue → JsonValue N)) =
      some (value.map .attribute) := by
  cases value with
  | none => rfl
  | some value =>
      rw [Option.map_some, parseOptional, parseAttribute_json]
      rfl

theorem lookup_map {α β : Type} (f : α → β) (qs : List (String × α)) (name : String) :
    (qs.map fun q => (q.1, f q.2)).lookup name = (qs.lookup name).map f := by
  induction qs with
  | nil => rfl
  | cons q qs ih =>
      rw [List.map_cons, List.lookup_cons, List.lookup_cons, ih]
      cases name == q.1 <;> rfl

theorem parseCursorKey_json (key : LastEvaluatedKey) :
    parseCursorKey (keyJson key : JsonValue N) = some key.toCursorKey := by
  have hnames : (key.attributes.properties.map
      fun q => (q.1, (attributeJson q.2 : JsonValue N))).any
        (fun q => q.1 != "pk" && q.1 != "sk") = false := by
    rw [List.any_eq_false]
    intro q hq
    obtain ⟨q', hq', rfl⟩ := List.mem_map.mp hq
    rcases key.names_key q'.1 (List.mem_map_of_mem hq') with hname | hname <;> simp [hname]
  -- one of the two is there
  have hsome : ¬ (key.attributes.get "pk" = none ∧ key.attributes.get "sk" = none) := by
    rintro ⟨hpk, hsk⟩
    refine key.nonempty (List.eq_nil_iff_forall_not_mem.mpr fun name hname => ?_)
    rcases key.names_key name hname with rfl | rfl
    · exact JsObject.get_eq_none_iff.mp hpk hname
    · exact JsObject.get_eq_none_iff.mp hsk hname
  rw [keyJson, parseCursorKey, hnames]
  simp only [Bool.false_eq_true, if_false, lookup_map, parseOptional_json, Option.bind_eq_bind,
    Option.bind_some]
  rw [if_neg]
  · rfl
  · simpa [JsObject.get] using hsome

theorem parse_encodeKey (key : LastEvaluatedKey) :
    JsonText.parse (Bytes.toText (Bytes.ofBase64 (encodeKey N key).toList)) =
      some (keyJson key : JsonValue N) := by
  rw [encodeKey, String.toList_ofList, Bytes.ofBase64_toBase64, Bytes.toText_ofText,
    JsonText.parse_stringify (keyJson_faithful key)]

theorem signCursor_split (crypto : Crypto) (payload secret : String) :
    Url.splitLast '.' (signCursor crypto payload secret).toList =
      some (payload.toList, (crypto.hmacSha256Hex secret payload).toList) := by
  refine Url.splitLast_eq_some.mpr ⟨by simp [signCursor], fun hdot => ?_⟩
  exact absurd ((crypto.hmacSha256Hex_digest secret payload).lower '.' hdot) (by decide)

/-- `sig` is the HMAC of the payload, in digits of either case. -/
def Signs (crypto : Crypto) (secret payload sig : String) : Prop :=
  jsLength sig = 64 ∧
    fromHex sig.toList = fromHex (crypto.hmacSha256Hex secret payload).toList

/-- The comparison is between buffers of one length. -/
theorem timingSafeEqual_guarded {a b : List Nat} (h : a.length = b.length) :
    timingSafeEqual a b = .ok (a == b) := if_pos h

/-- Nothing is thrown, and only what is signed is let through. -/
theorem verifyCursorSignature_ok (crypto : Crypto) (cursor secret : String) :
    ∃ verified, verifyCursorSignature crypto cursor secret = .ok verified ∧
      ∀ payload, verified = some payload ↔
        ∃ sig, Url.splitLast '.' cursor.toList = some (payload.toList, sig) ∧
          Signs crypto secret payload (String.ofList sig) := by
  unfold verifyCursorSignature
  cases hsplit : Url.splitLast '.' cursor.toList with
  | none => exact ⟨none, rfl, by simp⟩
  | some p =>
      obtain ⟨front, sig⟩ := p
      have hiff : ∀ payload, (∃ sig', some (front, sig) = some (payload.toList, sig') ∧
          Signs crypto secret payload (String.ofList sig')) ↔
          payload = String.ofList front ∧
            Signs crypto secret (String.ofList front) (String.ofList sig) := by
        intro payload
        constructor
        · rintro ⟨sig', heq, hsigns⟩
          cases heq
          rw [String.ofList_toList]
          exact ⟨rfl, hsigns⟩
        · rintro ⟨rfl, hsigns⟩
          exact ⟨sig, by rw [String.toList_ofList], hsigns⟩
      simp only [hiff]
      split
      · -- not the length of a signature
        rename_i hlen
        exact ⟨none, rfl, fun payload => ⟨fun h => (nomatch h), fun h => absurd h.2.1 hlen⟩⟩
      rename_i hlen
      split
      · rename_i hbytes
        refine ⟨none, rfl, fun payload => ⟨fun h => (nomatch h), fun h => absurd ?_ hbytes⟩⟩
        rw [← h.2.2, String.toList_ofList]
      rename_i hbytes
      rw [timingSafeEqual_guarded (not_not.mp hbytes)]
      refine ⟨_, rfl, fun payload => ?_⟩
      by_cases hsame : fromHex sig =
          fromHex (crypto.hmacSha256Hex secret (String.ofList front)).toList
      · have hsigns : Signs crypto secret (String.ofList front) (String.ofList sig) :=
          ⟨not_not.mp hlen, by rw [String.toList_ofList, hsame]⟩
        simp [hsame, hsigns, eq_comm]
      · have hsigns : ¬ Signs crypto secret (String.ofList front) (String.ofList sig) :=
          fun h => hsame (by rw [← h.2, String.toList_ofList])
        simp [hsame, hsigns]

theorem readPayload_encodeKey (key : LastEvaluatedKey) :
    readPayload (encodeKey N key) = .ok (some (key.toCursorKey : CursorKey N)) := by
  rw [readPayload, parse_encodeKey]
  exact congrArg Except.ok (parseCursorKey_json key)

theorem readCursor_payload {crypto : Crypto} {raw : String} {cursorSecret payload : Option String}
    (h : cursorPayload crypto raw cursorSecret = .ok payload) :
    readCursor crypto raw cursorSecret =
      payload.elim (.ok none) (readPayload : String → Except CursorError (Option (CursorKey N))) := by
  rw [readCursor, h]
  cases payload <;> rfl

theorem parseCursor_some {crypto : Crypto} {raw secret : String} {key : CursorKey N}
    (h : parseCursor crypto raw (some secret) = some key) :
    ∃ payload sig, Url.splitLast '.' raw.toList = some (payload.toList, sig) ∧
      Signs crypto secret payload (String.ofList sig) ∧ readPayload payload = .ok (some key) := by
  obtain ⟨verified, hverified, hsigned⟩ := verifyCursorSignature_ok crypto raw secret
  replace hverified : cursorPayload crypto raw (some secret) = .ok verified := hverified
  rw [parseCursor, readCursor_payload hverified] at h
  cases verified with
  | none => cases h
  | some payload =>
      obtain ⟨sig, hsplit, hsigns⟩ := (hsigned payload).mp rfl
      refine ⟨payload, sig, hsplit, hsigns, ?_⟩
      rw [Option.elim_some] at h
      split at h
      · rename_i heq
        rw [heq, h]
      · cases h

theorem parseCursor_signCursor (crypto : Crypto) (secret : String) (key : LastEvaluatedKey) :
    parseCursor crypto (signCursor crypto (encodeKey N key) secret) (some secret) =
      some (key.toCursorKey : CursorKey N) := by
  obtain ⟨verified, hverified, hsigned⟩ :=
    verifyCursorSignature_ok crypto (signCursor crypto (encodeKey N key) secret) secret
  replace hverified : cursorPayload crypto (signCursor crypto (encodeKey N key) secret)
    (some secret) = .ok verified := hverified
  have hdigest := crypto.hmacSha256Hex_digest secret (encodeKey N key)
  have hsome : verified = some (encodeKey N key) := by
    refine (hsigned _).mpr ⟨_, signCursor_split crypto _ secret, ?_, ?_⟩
    · rw [String.ofList_toList, hdigest.jsLength]
    · rw [String.ofList_toList]
  rw [parseCursor, readCursor_payload hverified, hsome, Option.elim_some, readPayload_encodeKey]

/-- A cursor is read as the key it was made from, signed or not. -/
theorem parseCursor_nextCursor (crypto : Crypto) (cursorSecret : Option String)
    (key : LastEvaluatedKey) : parseCursor crypto (nextCursor N crypto cursorSecret key) cursorSecret =
      some (key.toCursorKey : CursorKey N) := by
  cases cursorSecret with
  | some secret => exact parseCursor_signCursor crypto secret key
  | none =>
      have hpayload : cursorPayload crypto (encodeKey N key) none = .ok (some (encodeKey N key)) := rfl
      rw [nextCursor, parseCursor, readCursor_payload hpayload, Option.elim_some,
        readPayload_encodeKey]

end Codec

/-! ## No other key is accepted -/

/-- Who submits these texts cannot sign: of all payloads, only for those in
`issued` do they hold a signature. -/
def Unforgeable (crypto : Crypto) (secret : String) (issued submitted : Set String) : Prop :=
  ∀ raw ∈ submitted, ∀ payload sig : String, raw = payload ++ "." ++ sig →
    Signs crypto secret payload sig → payload ∈ issued

end DynamoKv

end SaasFoundation.Foundation.Kv
