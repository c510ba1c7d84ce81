import SaasFoundation.Lib.Store
import Mathlib.Data.Rat.Floor

/-!
# Typed records

The types of `KvStore`: a record is an object with a version and an
optional expiry, in epoch seconds. The three adapters offer the same
operations; they differ in how they keep a record and in how they tell that
it has expired.

A number is given by the value of its decimal text. JavaScript adds numbers
with rounding, the two databases add their texts, so the sum of the first is
a function of the platform and that of the others is exact.
-/

namespace SaasFoundation.Foundation.Kv

open Lib

inductive Json where
  | null
  | bool (b : Bool)
  | num (n : ℚ)
  /-- The result of a computation; no JSON text says it. -/
  | nan
  | str (s : String)
  | arr (xs : List Json)
  | obj (fields : List (String × Json))

/-- An object, by its fields. -/
abbrev Fields := String → Option Json

def Fields.set (value : Fields) (field : String) (v : Json) : Fields :=
  Function.update value field (some v)

theorem Fields.set_self (value : Fields) (field : String) (v : Json) :
    value.set field v field = some v := by
  simp [Fields.set]

theorem Fields.set_of_ne (value : Fields) {field name : String} (v : Json) (h : name ≠ field) :
    value.set field v name = value name := by
  simp [Fields.set, h]

structure KvRecord where
  value : Fields
  version : ℤ
  expiresAt : Option ℚ

structure KvWriteOptions where
  ttlSeconds : Option ℚ
  expiresAt : Option ℚ
  indexedKey : Option String

/-- What the adapters get from JavaScript and from SQL. -/
structure Platform where
  /-- `a + b`. -/
  add : ℚ → ℚ → ℚ
  /-- `Number(text)`, for a text of this value. -/
  number : ℚ → ℚ
  /-- `Number(v)` of anything but a number; none is `NaN`. -/
  toNumber : Json → Option ℚ
  /-- `text::numeric` of the text of anything but a number; none is an
  error. -/
  toNumeric : Json → Option ℚ

/-- A value as it comes back through its text. -/
def Platform.parsed (p : Platform) : Json → Json
  | .num n => .num (p.number n)
  | .nan => .null
  | v => v

inductive KvError where
  | typeError (message : String)
  /-- `ValidationException`. -/
  | validation
  | conditionalCheckFailed
  | transient
  /-- An error of the SQL server. -/
  | sql
deriving DecidableEq, Repr

/-! ## Operations -/

inductive Op where
  | get (key : String) (consistent includeExpired : Bool)
  | put (key : String) (value : Fields) (opts : KvWriteOptions)
  | putIfAbsent (key : String) (value : Fields) (opts : KvWriteOptions)
  | compareAndSet (key : String) (expectedVersion : ℤ) (value : Fields) (opts : KvWriteOptions)
  | putIfFresher (key : String) (value : Fields) (expiresAt : ℚ) (indexedKey : Option String)
  | increment (key field : String) (delta : ℚ) (opts : KvWriteOptions)
  | delete (key : String) (expectedVersion : Option ℤ)
  | queryByIndex (indexValue : String)

def Op.key : Op → Option String
  | .get key _ _ => some key
  | .put key _ _ => some key
  | .putIfAbsent key _ _ => some key
  | .compareAndSet key _ _ _ => some key
  | .putIfFresher key _ _ _ => some key
  | .increment key _ _ _ => some key
  | .delete key _ => some key
  | .queryByIndex _ => none

/-- What an operation returns. The rows of a query are a set: for each key
at most one record. -/
inductive Result where
  | found (record : Option KvRecord)
  | written (record : KvRecord)
  | cas (applied : Bool) (record : Option KvRecord)
  | number (n : Option ℚ)
  | deleted (applied : Bool)
  | rows (rows : Table String KvRecord)
  | failed (e : KvError)

def Result.record : Result → Option KvRecord
  | .found record => record
  | .written record => some record
  | .cas _ record => record
  | _ => none

def Result.applied : Result → Bool
  | .cas applied _ => applied
  | _ => false

/-! ## What all adapters compute alike -/

def nowSeconds (now : ℤ) : ℤ := now / 1000

/-- The absolute expiry of a write. -/
def resolveExpiry (now : ℤ) (opts : KvWriteOptions) : Option ℚ :=
  match opts.expiresAt, opts.ttlSeconds with
  | some expiresAt, _ => some expiresAt
  | none, some ttlSeconds => some (nowSeconds now + ttlSeconds)
  | none, none => none

/-- `KV_FIELD_PATTERN`: `/^[a-zA-Z][a-zA-Z0-9_]*$/`. -/
def matchesFieldPattern (field : String) : Bool :=
  match field.toList with
  | c :: cs => c.isAlpha && cs.all fun c => c.isAlphanum || c == '_'
  | [] => false

def invalidField : KvError := .typeError "increment: invalid field identifier (op=increment)"

end SaasFoundation.Foundation.Kv
