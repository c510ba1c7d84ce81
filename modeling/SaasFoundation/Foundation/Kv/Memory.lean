import SaasFoundation.Foundation.Kv.Types

/-!
# `MemoryKvStore`

Records in a map. An expired record stays where it is until something
overwrites it.
-/

namespace SaasFoundation.Foundation.Kv

open Lib

structure MemoryEntry where
  value : Fields
  version : ℤ
  expiresAt : Option ℚ
  indexedKey : Option String

def MemoryEntry.toRecord (entry : MemoryEntry) : KvRecord :=
  ⟨entry.value, entry.version, entry.expiresAt⟩

/-- Expired in whole seconds. -/
def MemoryEntry.isExpired (entry : MemoryEntry) (now : ℤ) : Bool :=
  match entry.expiresAt with
  | some expiresAt => decide (expiresAt < nowSeconds now)
  | none => false

abbrev MemoryKvStore := Table String MemoryEntry

namespace MemoryKvStore

variable (store : MemoryKvStore)

def versionOf (existing : Option MemoryEntry) : ℤ := (existing.map MemoryEntry.version).getD 0

/-- The record, if it is there and has not expired. -/
def live (now : ℤ) (key : String) : Option MemoryEntry :=
  (store key).filter fun entry => !entry.isExpired now

def get (now : ℤ) (key : String) (includeExpired : Bool) : Option KvRecord :=
  if includeExpired then (store key).map MemoryEntry.toRecord
  else (live store now key).map MemoryEntry.toRecord

def write (key : String) (entry : MemoryEntry) : KvRecord × MemoryKvStore :=
  (entry.toRecord, Table.put store key entry)

def put (now : ℤ) (key : String) (value : Fields) (opts : KvWriteOptions) :
    KvRecord × MemoryKvStore :=
  write store key ⟨value, versionOf (store key) + 1, resolveExpiry now opts, opts.indexedKey⟩

/-- A write that won. -/
def applied (key : String) (entry : MemoryEntry) : Result × MemoryKvStore :=
  (.cas true (some entry.toRecord), Table.put store key entry)

/-- One that did not; the record is the live one. -/
def refused (now : ℤ) (key : String) : Result × MemoryKvStore :=
  (.cas false ((live store now key).map MemoryEntry.toRecord), store)

def putIfAbsent (now : ℤ) (key : String) (value : Fields) (opts : KvWriteOptions) :
    Result × MemoryKvStore :=
  if (live store now key).isSome then refused store now key
  else applied store key
    ⟨value, versionOf (store key) + 1, resolveExpiry now opts, opts.indexedKey⟩

def compareAndSet (now : ℤ) (key : String) (expectedVersion : ℤ) (value : Fields)
    (opts : KvWriteOptions) : Result × MemoryKvStore :=
  if versionOf (live store now key) ≠ expectedVersion then refused store now key
  else applied store key ⟨value, expectedVersion + 1, resolveExpiry now opts, opts.indexedKey⟩

/-- Absent or expired, without an expiry, or with an older one. -/
def canWrite (now : ℤ) (key : String) (incoming : ℚ) : Bool :=
  match live store now key with
  | none => true
  | some existing =>
      match existing.expiresAt with
      | none => true
      | some expiresAt => decide (expiresAt < incoming)

def putIfFresher (now : ℤ) (key : String) (value : Fields) (expiresAt : ℚ)
    (indexedKey : Option String) : Result × MemoryKvStore :=
  if canWrite store now key expiresAt then
    applied store key ⟨value, 1, some expiresAt, indexedKey⟩
  else refused store now key

/-- `Number(base[field] ?? 0)`; none is `NaN`. -/
def current (p : Platform) (base : Fields) (field : String) : Option ℚ :=
  match base field with
  | none => some 0
  | some .null => some 0
  | some (.num n) => some n
  | some .nan => none
  | some v => p.toNumber v

def increment (p : Platform) (now : ℤ) (key field : String) (delta : ℚ) (opts : KvWriteOptions) :
    Result × MemoryKvStore :=
  if !matchesFieldPattern field then (.failed invalidField, store)
  else
    let existing := store key
    let base := (existing.map MemoryEntry.value).getD fun _ => none
    let next := (current p base field).map fun n => p.add n delta
    let newValue := base.set field (match next with | some n => .num n | none => .nan)
    let expiresAt := match existing.bind MemoryEntry.expiresAt with
      | some expiresAt => some expiresAt
      | none => resolveExpiry now opts
    (.number next, Table.put store key ⟨newValue, versionOf existing + 1, expiresAt,
      existing.bind MemoryEntry.indexedKey⟩)

def delete (key : String) (expectedVersion : Option ℤ) : Result × MemoryKvStore :=
  match store key, expectedVersion with
  | none, _ => (.deleted false, store)
  | some _, none => (.deleted true, Table.erase store key)
  | some existing, some v =>
      if existing.version ≠ v then (.deleted false, store)
      else (.deleted true, Table.erase store key)

def queryByIndex (now : ℤ) (indexValue : String) : Table String KvRecord :=
  fun key => ((live store now key).filter fun entry =>
    entry.indexedKey == some indexValue).map MemoryEntry.toRecord

/-- One operation at a time. -/
def step (p : Platform) (now : ℤ) : Op → Result × MemoryKvStore
  | .get key _ includeExpired => (.found (get store now key includeExpired), store)
  | .put key value opts =>
      let (record, store') := put store now key value opts
      (.written record, store')
  | .putIfAbsent key value opts => putIfAbsent store now key value opts
  | .compareAndSet key expectedVersion value opts =>
      compareAndSet store now key expectedVersion value opts
  | .putIfFresher key value expiresAt indexedKey =>
      putIfFresher store now key value expiresAt indexedKey
  | .increment key field delta opts => increment store p now key field delta opts
  | .delete key expectedVersion => delete store key expectedVersion
  | .queryByIndex indexValue => (.rows (queryByIndex store now indexValue), store)

end MemoryKvStore

end SaasFoundation.Foundation.Kv
