import Mathlib.Algebra.Order.Field.Rat
import SaasFoundation.Lib.Prog
import SaasFoundation.Lib.Store
import SaasFoundation.Lib.Threads

/-!
# `PrismaFeatureToggleStore`

A table of toggles behind a cache with a TTL. `isEnabled` answers from the
cache or reads the row and caches what it says; `set` and `delete` change
the row and then take the key out of the cache.
-/

namespace SaasFoundation.Foundation.FeatureToggles

open Lib

/-! ## Rows -/

structure ToggleRow where
  key : String
  enabled : Bool
  changedAt : ℤ
  changedBy : Option String
  description : Option String
deriving DecidableEq

structure SetToggleInput where
  key : String
  enabled : Bool
  changedBy : String
  description : Option String
deriving DecidableEq

structure FeatureToggle where
  key : String
  enabled : Bool
  changedAt : ℤ
  changedBy : Option String
  description : Option String
deriving DecidableEq

def toFeatureToggle (row : ToggleRow) : FeatureToggle :=
  ⟨row.key, row.enabled, row.changedAt, row.changedBy, row.description⟩

/-- What an upsert leaves; the database stamps it. -/
def upserted (existing : Option ToggleRow) (input : SetToggleInput) (changedAt : ℤ) : ToggleRow where
  key := input.key
  enabled := input.enabled
  changedAt := changedAt
  changedBy := some input.changedBy
  description := input.description.or (existing.bind ToggleRow.description)

structure FeatureToggleStoreOptions where
  cacheTtlMs : Option ℚ
  cacheDisabled : Option Bool

def FeatureToggleStoreOptions.ttl (options : FeatureToggleStoreOptions) : ℚ :=
  options.cacheTtlMs.getD 60000

def FeatureToggleStoreOptions.disabled (options : FeatureToggleStoreOptions) : Bool :=
  options.cacheDisabled.getD false

/-! ## The signature -/

structure PrismaError where
  code : Option String
  message : String
deriving DecidableEq

inductive Request where
  /-- The cached value, if it has not expired. -/
  | cacheGet (key : String)
  | cacheSet (key : String) (value : Bool)
  | cacheDelete (key : String)
  | findUnique (key : String)
  | upsert (input : SetToggleInput)
  /-- `prisma.featureToggle.delete`. -/
  | deleteRow (key : String)
deriving DecidableEq

abbrev Reply : Request → Type
  | .cacheGet _ => Option Bool
  | .cacheSet _ _ => Unit
  | .cacheDelete _ => Unit
  | .findUnique _ => Except PrismaError (Option ToggleRow)
  | .upsert _ => Except PrismaError ToggleRow
  | .deleteRow _ => Except PrismaError Unit

inductive Output where
  | enabled (value : Bool)
  | changed (previous : Option FeatureToggle) (current : FeatureToggle)
  | deleted
  | thrown (e : PrismaError)
deriving DecidableEq

abbrev Handler (α : Type) := Prog Request Reply α

/-- Make one request. -/
abbrev request (op : Request) : Handler (Reply op) := Prog.call op

/-! ## The store -/

/-- What a row says; a missing one says no. -/
def rowEnabled (row : Option ToggleRow) : Bool := (row.map ToggleRow.enabled).getD false

/-- The read behind `isEnabled`; it never throws. -/
def readEnabled (options : FeatureToggleStoreOptions) (key : String) : Handler Output := do
  let found : Except PrismaError (Option ToggleRow) ← request (.findUnique key)
  match found with
  | .error _ => pure (.enabled false)
  | .ok row =>
      if options.disabled then pure (.enabled (rowEnabled row))
      else do
        let _ ← request (.cacheSet key (rowEnabled row))
        pure (.enabled (rowEnabled row))

def isEnabled (options : FeatureToggleStoreOptions) (key : String) : Handler Output :=
  if options.disabled then readEnabled options key
  else do
    let cached : Option Bool ← request (.cacheGet key)
    match cached with
    | some value => pure (.enabled value)
    | none => readEnabled options key

def get (key : String) : Handler (Option FeatureToggle) := do
  let found : Except PrismaError (Option ToggleRow) ← request (.findUnique key)
  match found with
  | .error _ => pure none
  | .ok row => pure (row.map toFeatureToggle)

def set (input : SetToggleInput) : Handler Output := do
  let previous ← get input.key
  let upserted : Except PrismaError ToggleRow ← request (.upsert input)
  match upserted with
  | .error e => pure (.thrown e)
  | .ok row => do
      let _ ← request (.cacheDelete input.key)
      pure (.changed previous (toFeatureToggle row))

def delete (key : String) : Handler Output := do
  let result : Except PrismaError Unit ← request (.deleteRow key)
  let _ ← request (.cacheDelete key)
  match result with
  | .error e => if e.code = some "P2025" then pure .deleted else pure (.thrown e)
  | .ok () => pure .deleted

/-! ## Calls on one store -/

structure CacheEntry where
  value : Bool
  expires : ℚ

structure World where
  table : Table String ToggleRow
  cache : Table String CacheEntry
  /-- `Date.now()`. -/
  now : ℚ

inductive Job where
  | isEnabled (key : String)
  | set (input : SetToggleInput)
  | delete (key : String)
deriving DecidableEq

def start (options : FeatureToggleStoreOptions) : Job → Handler Output
  | .isEnabled key => FeatureToggles.isEnabled options key
  | .set input => FeatureToggles.set input
  | .delete key => FeatureToggles.delete key

/-- Statements are atomic and succeed; a `delete` of a missing row fails
with the code that stands for it. -/
def serve (options : FeatureToggleStoreOptions) (w : World) :
    (op : Request) → Reply op → World → Prop
  | .cacheGet key, r, w' =>
      r = ((w.cache key).filter fun entry => w.now < entry.expires).map CacheEntry.value ∧ w' = w
  | .cacheSet key value, _, w' =>
      w' = { w with cache := w.cache.put key ⟨value, w.now + options.ttl⟩ }
  | .cacheDelete key, _, w' => w' = { w with cache := w.cache.erase key }
  | .findUnique key, r, w' => r = .ok (w.table key) ∧ w' = w
  | .upsert input, r, w' => ∃ changedAt,
      r = .ok (upserted (w.table input.key) input changedAt) ∧
      w' = { w with table := w.table.put input.key (upserted (w.table input.key) input changedAt) }
  | .deleteRow key, r, w' =>
      match r with
      | .ok () => (w.table key).isSome ∧ w' = { w with table := w.table.erase key }
      | .error e => w.table key = none ∧ e.code = some "P2025" ∧ w' = w

/-- One store over a table that nobody else writes, on any clock; the table
has any rows at first and the cache none. -/
def store (options : FeatureToggleStoreOptions) : System Request Reply World Job Output where
  start := start options
  permits := fun _ _ => True
  serve := serve options
  drift := fun w w' => ∃ now, w' = { w with now := now }
  init := fun w => w.cache = Table.empty

abbrev ToggleThread := Thread Request Reply Job Output
abbrev ToggleConfig := Config Request Reply World Job Output

end SaasFoundation.Foundation.FeatureToggles
