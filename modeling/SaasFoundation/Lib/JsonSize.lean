import Mathlib.Algebra.Order.BigOperators.Group.List
import Mathlib.Algebra.Order.Ring.Nat
import SaasFoundation.Lib.Bytes
import SaasFoundation.Lib.JsonText

/-!
# The size of a document

How many bytes of UTF-8 the JSON text of a document takes. The size of an
object is the sum of what its properties take, one byte more for each of them
and one for the whole; so it does not depend on the order of the properties,
and fewer properties take less.
-/

namespace SaasFoundation.Lib.JsonText

open Bytes

variable {N : Type} [JsNumbers N] {qs rs : List (String × JsonValue N)} {name : String}
  {v : JsonValue N}

/-- `Buffer.byteLength(text, "utf-8")`. -/
def byteLength (text : List Char) : Nat := (ofText text).length

theorem byteLength_append (s t : List Char) :
    byteLength (s ++ t) = byteLength s + byteLength t := by
  simp [byteLength, ofText]

theorem byteLength_cons {c : Char} (hc : c.utf8Size = 1) (s : List Char) :
    byteLength (c :: s) = byteLength s + 1 := by
  rw [byteLength, ofText, List.flatMap_cons, List.length_append, String.length_utf8EncodeChar, hc,
    Nat.add_comm]
  rfl

/-- The size of a document. -/
def jsonSize (v : JsonValue N) : Nat := byteLength (stringify v)

/-- What the properties of an object take, the mark in front of each of them
included. -/
def fieldsSize (qs : List (String × JsonValue N)) : Nat :=
  (qs.map fun q => byteLength (stringifyField q) + 1).sum

theorem byteLength_fields (qs : List (String × JsonValue N)) :
    byteLength (stringifyFields qs) = fieldsSize qs + 1 := by
  induction qs with
  | nil => rfl
  | cons q qs ih =>
      rw [stringifyFields, byteLength_cons rfl, byteLength_append, ih, fieldsSize, fieldsSize,
        List.map_cons, List.sum_cons]
      omega

theorem jsonSize_obj (h : qs ≠ []) : jsonSize (.obj qs) = fieldsSize qs + 1 := by
  cases qs with
  | nil => exact absurd rfl h
  | cons q qs =>
      rw [jsonSize, stringify, byteLength_cons rfl, byteLength_append, byteLength_fields,
        fieldsSize, fieldsSize, List.map_cons, List.sum_cons]
      omega

theorem fieldsSize_perm (h : qs.Perm rs) : fieldsSize qs = fieldsSize rs :=
  (h.map _).sum_eq

theorem jsonSize_perm (h : qs.Perm rs) : jsonSize (.obj qs) = jsonSize (.obj rs) := by
  by_cases hqs : qs = []
  · subst hqs
    rw [h.nil_eq]
  · have hrs : rs ≠ [] := by
      rintro rfl
      exact hqs h.eq_nil
    rw [jsonSize_obj hqs, jsonSize_obj hrs, fieldsSize_perm h]

theorem fieldsSize_le (h : qs.Sublist rs) : fieldsSize qs ≤ fieldsSize rs :=
  (h.map _).sum_le_sum fun _ _ => Nat.zero_le _

theorem jsonSize_setProperty (h : (qs.map Prod.fst).Nodup) :
    jsonSize (.obj (setProperty name v qs)) =
      byteLength (stringifyField (name, v)) + fieldsSize (qs.filter fun q => q.1 ≠ name) + 2 := by
  rw [jsonSize_perm (setProperty_perm h), jsonSize_obj (List.cons_ne_nil _ _), fieldsSize,
    List.map_cons, List.sum_cons, fieldsSize]
  omega

/-- Set among fewer properties, a property takes no more. -/
theorem jsonSize_setProperty_le (hrs : (rs.map Prod.fst).Nodup) (h : qs.Sublist rs) :
    jsonSize (.obj (setProperty name v qs)) ≤ jsonSize (.obj (setProperty name v rs)) := by
  have hqs : (qs.map Prod.fst).Nodup := hrs.sublist (h.map _)
  have hle := fieldsSize_le (h.filter fun q => q.1 ≠ name)
  rw [jsonSize_setProperty hqs, jsonSize_setProperty hrs]
  omega

end SaasFoundation.Lib.JsonText
