import SaasFoundation.Lib.JsonText

/-!
# The PII filter

`pii-filter.ts`. Values under a name of the denylist are replaced, or the
name is left out, at every depth. Names are compared lower-cased.
-/

namespace SaasFoundation.Foundation.Audit

open Lib

/-- Default denylist of well-known PII / secret key names. Lower-cased. -/
def defaultPiiKeys : List String :=
  ["password", "pwd", "passwd", "token", "access_token", "refresh_token", "id_token", "secret",
    "api_key", "apikey", "authorization", "cookie", "session", "session_id", "set_cookie",
    "email_raw", "ssn", "credit_card", "card_number"]

def redactedSentinel : String := "[REDACTED]"

inductive PiiFilterStrategy where
  | redact
  | drop

structure PiiFilterOptions where
  keys : Option (List String) := none
  additionalKeys : Option (List String) := none
  strategy : Option PiiFilterStrategy := none

structure PiiFilter where
  denylist : List String
  strategy : PiiFilterStrategy

/-- `new PiiFilter(options)`. -/
def PiiFilter.new (toLowerCase : String → String) (options : PiiFilterOptions) : PiiFilter where
  denylist :=
    (options.keys.getD defaultPiiKeys ++ options.additionalKeys.getD []).map toLowerCase
  strategy := options.strategy.getD .redact

namespace PiiFilter

variable {N : Type} (toLowerCase : String → String) (filter : PiiFilter)

mutual
def scrubValue : JsonValue N → JsonValue N
  | .arr xs => .arr (scrubElements xs)
  | .obj input => .obj (scrubFields input .empty).properties
  | v => v
def scrubElements : List (JsonValue N) → List (JsonValue N)
  | [] => []
  | x :: xs => scrubValue x :: scrubElements xs
/-- The loop of `scrubObject`, over what is left of the entries. -/
def scrubFields : List (String × JsonValue N) → JsObject (JsonValue N) → JsObject (JsonValue N)
  | [], out => out
  | (key, value) :: entries, out =>
      if toLowerCase key ∈ filter.denylist then
        match filter.strategy with
        | .redact => scrubFields entries (out.assign key (.str redactedSentinel))
        | .drop => scrubFields entries out
      else scrubFields entries (out.assign key (scrubValue value))
end

def apply (metadata : JsObject (JsonValue N)) : JsObject (JsonValue N) :=
  scrubFields toLowerCase filter metadata.properties .empty

variable {toLowerCase filter}

theorem proto_scrubFields (entries : List (String × JsonValue N)) (out : JsObject (JsonValue N))
    (h : out.get JsObject.proto = none) :
    (scrubFields toLowerCase filter entries out).get JsObject.proto = none := by
  have hassign (key : String) (v : JsonValue N) (out : JsObject (JsonValue N))
      (h : out.get JsObject.proto = none) : (out.assign key v).get JsObject.proto = none := by
    by_cases hkey : key = JsObject.proto
    · rw [hkey]
      exact JsObject.get_assign_proto h
    · rw [JsObject.get_assign_of_ne (Ne.symm hkey), h]
  induction entries generalizing out with
  | nil => exact h
  | cons entry entries ih =>
      obtain ⟨key, value⟩ := entry
      rw [scrubFields]
      split
      · split
        · exact ih _ (hassign _ _ _ h)
        · exact ih _ h
      · exact ih _ (hassign _ _ _ h)

/-- What is assigned to `__proto__` is no property of the result. -/
theorem proto_apply (toLowerCase : String → String) (filter : PiiFilter)
    (metadata : JsObject (JsonValue N)) :
    JsObject.proto ∉ (filter.apply toLowerCase metadata).names :=
  JsObject.get_eq_none_iff.mp (proto_scrubFields _ _ rfl)

end PiiFilter

end SaasFoundation.Foundation.Audit
