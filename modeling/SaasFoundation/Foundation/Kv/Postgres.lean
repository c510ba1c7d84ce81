import SaasFoundation.Foundation.Kv.Types

/-!
# `PostgresKvStore`

Records in the rows of `kv_entries` of one namespace. The expiry is a
timestamp, in milliseconds, and is compared with the clock as it is: a
record has expired from the first moment of its last second on, and at that
very moment it is neither live nor to be taken over.
-/

namespace SaasFoundation.Foundation.Kv

open Lib

structure KvRow where
  value : Fields
  version : ℤ
  expiresAt : Option ℤ
  indexedKey : Option String

/-- The rows of the namespace. -/
abbrev PostgresKvStore := Table String KvRow

namespace PostgresKvStore

/-- A number without its fraction. -/
def trunc (q : ℚ) : ℤ := if 0 ≤ q then ⌊q⌋ else ⌈q⌉

/-- The moments that both a `Date` and a `timestamptz` can be. -/
def isMoment (ms : ℤ) : Prop := -210866803200000 ≤ ms ∧ ms ≤ 8640000000000000

instance (ms : ℤ) : Decidable (isMoment ms) :=
  inferInstanceAs (Decidable (-210866803200000 ≤ ms ∧ ms ≤ 8640000000000000))

/-- `new Date(seconds * 1000)` as a parameter of a statement. -/
def expiryParam (seconds : Option ℚ) : Except KvError (Option ℤ) :=
  match seconds with
  | none => .ok none
  | some seconds =>
      let ms := trunc (seconds * 1000)
      if isMoment ms then .ok (some ms) else .error .sql

/-- A row as the driver returns it. -/
def rowToRecord (p : Platform) (row : KvRow) : KvRecord :=
  ⟨fun name => (row.value name).map p.parsed, row.version,
    row.expiresAt.map fun ms => ((ms / 1000 : ℤ) : ℚ)⟩

/-- `expires_at IS NULL OR expires_at > $now`. -/
def isLive (now : ℤ) (row : KvRow) : Bool := row.expiresAt.all fun ms => decide (now < ms)

/-- `expires_at IS NOT NULL AND expires_at < $now`. -/
def isExpired (now : ℤ) (row : KvRow) : Bool := row.expiresAt.any fun ms => decide (ms < now)

variable (table : PostgresKvStore)

def get (p : Platform) (now : ℤ) (key : String) (includeExpired : Bool) : Option KvRecord :=
  if includeExpired then (table key).map (rowToRecord p)
  else ((table key).filter (isLive now)).map (rowToRecord p)

/-- `INSERT … ON CONFLICT (namespace, key) DO UPDATE … WHERE … RETURNING
version`: a new row, or the next version of the old one if `condition`
holds of that. -/
def upsert (condition : KvRow → Bool) (key : String) (value : Fields) (expiresAt : Option ℤ)
    (indexedKey : Option String) : Option ℤ × PostgresKvStore :=
  match table key with
  | none => (some 1, Table.put table key ⟨value, 1, expiresAt, indexedKey⟩)
  | some row =>
      if condition row then
        (some (row.version + 1), Table.put table key ⟨value, row.version + 1, expiresAt, indexedKey⟩)
      else (none, table)

/-- A write that returned its row is applied; otherwise the record is the
one a `get` finds. -/
def appliedCas (p : Platform) (now : ℤ) (key : String) (value : Fields) (expiry : Option ℚ)
    (written : Option ℤ × PostgresKvStore) : Result × PostgresKvStore :=
  match written with
  | (some version, table') => (.cas true (some ⟨value, version, expiry⟩), table')
  | (none, table') => (.cas false (get table' p now key false), table')

/-- A statement with an expiry among its parameters. -/
def withExpiry (expiry : Option ℚ) (statement : Option ℤ → Result × PostgresKvStore) :
    Result × PostgresKvStore :=
  match expiryParam expiry with
  | .ok expiresAt => statement expiresAt
  | .error e => (.failed e, table)

def put (now : ℤ) (key : String) (value : Fields) (opts : KvWriteOptions) :
    Result × PostgresKvStore :=
  let expiry := resolveExpiry now opts
  withExpiry table expiry fun expiresAt =>
    let (version, table') := upsert table (fun _ => true) key value expiresAt opts.indexedKey
    (.written ⟨value, version.getD 1, expiry⟩, table')

def putIfAbsent (p : Platform) (now : ℤ) (key : String) (value : Fields) (opts : KvWriteOptions) :
    Result × PostgresKvStore :=
  let expiry := resolveExpiry now opts
  withExpiry table expiry fun expiresAt =>
    appliedCas p now key value expiry
      (upsert table (isExpired now) key value expiresAt opts.indexedKey)

/-- `UPDATE … WHERE version = $6 AND (expires_at IS NULL OR expires_at > $7)`. -/
def update (now : ℤ) (key : String) (expectedVersion : ℤ) (value : Fields) (expiresAt : Option ℤ)
    (indexedKey : Option String) : Option ℤ × PostgresKvStore :=
  match table key with
  | none => (none, table)
  | some row =>
      if row.version = expectedVersion ∧ isLive now row then
        (some (row.version + 1), Table.put table key ⟨value, row.version + 1, expiresAt, indexedKey⟩)
      else (none, table)

def compareAndSet (p : Platform) (now : ℤ) (key : String) (expectedVersion : ℤ) (value : Fields)
    (opts : KvWriteOptions) : Result × PostgresKvStore :=
  let expiry := resolveExpiry now opts
  withExpiry table expiry fun expiresAt =>
    appliedCas p now key value expiry
      (if expectedVersion = 0 then
        upsert table (isExpired now) key value expiresAt opts.indexedKey
      else update table now key expectedVersion value expiresAt opts.indexedKey)

/-- `expires_at IS NULL OR expires_at < $4`. -/
def isOlder (incoming : Option ℤ) (row : KvRow) : Bool :=
  row.expiresAt.all fun ms => incoming.any fun incoming => decide (ms < incoming)

def putIfFresher (p : Platform) (now : ℤ) (key : String) (value : Fields) (expiresAt : ℚ)
    (indexedKey : Option String) : Result × PostgresKvStore :=
  withExpiry table (some expiresAt) fun incoming =>
    appliedCas p now key value (some expiresAt)
      (upsert table (isOlder incoming) key value incoming indexedKey)

/-- `COALESCE((value ->> field)::numeric, 0)`. -/
def numeric (p : Platform) (value : Fields) (field : String) : Except KvError ℚ :=
  match value field with
  | none => .ok 0
  | some .null => .ok 0
  | some (.num n) => .ok n
  | some v =>
      match p.toNumeric v with
      | some n => .ok n
      | none => .error .sql

def increment (p : Platform) (now : ℤ) (key field : String) (delta : ℚ) (opts : KvWriteOptions) :
    Result × PostgresKvStore :=
  if !matchesFieldPattern field then (.failed invalidField, table)
  else withExpiry table (resolveExpiry now opts) fun expiresAt =>
    match table key with
    | none => (.number (some (p.number delta)),
        Table.put table key ⟨Fields.set (fun _ => none) field (.num delta), 1, expiresAt, none⟩)
    | some row =>
        match numeric p row.value field with
        | .error e => (.failed e, table)
        | .ok n => (.number (some (p.number (n + delta))), Table.put table key
            ⟨row.value.set field (.num (n + delta)), row.version + 1,
              match row.expiresAt with
              | some ms => some ms
              | none => expiresAt,
              row.indexedKey⟩)

def delete (key : String) (expectedVersion : Option ℤ) : Result × PostgresKvStore :=
  match table key with
  | none => (.deleted false, table)
  | some row =>
      if expectedVersion.all fun v => row.version = v then (.deleted true, Table.erase table key)
      else (.deleted false, table)

def queryByIndex (p : Platform) (now : ℤ) (indexValue : String) : Table String KvRecord :=
  fun key => ((table key).filter fun row =>
    row.indexedKey == some indexValue && isLive now row).map (rowToRecord p)

/-- `sweepExpiredKvEntries`. -/
def sweep (now : ℤ) : PostgresKvStore := fun key => (table key).filter fun row => !isExpired now row

/-- One operation at a time. -/
def step (p : Platform) (now : ℤ) : Op → Result × PostgresKvStore
  | .get key _ includeExpired => (.found (get table p now key includeExpired), table)
  | .put key value opts => put table now key value opts
  | .putIfAbsent key value opts => putIfAbsent table p now key value opts
  | .compareAndSet key expectedVersion value opts =>
      compareAndSet table p now key expectedVersion value opts
  | .putIfFresher key value expiresAt indexedKey =>
      putIfFresher table p now key value expiresAt indexedKey
  | .increment key field delta opts => increment table p now key field delta opts
  | .delete key expectedVersion => delete table key expectedVersion
  | .queryByIndex indexValue => (.rows (queryByIndex table p now indexValue), table)

/-! ## Present or absent

A row is live, or it has expired, or the clock stands at its expiry: then
it is not to be read and not to be overwritten. -/

section Liveness

variable {table : PostgresKvStore} {p : Platform} {now : ℤ} {key : String} {value : Fields}
  {opts : KvWriteOptions}

/-- To create a record is to find none, and the other way round. -/
structure Dichotomy (table : PostgresKvStore) (p : Platform) (now : ℤ) (key : String)
    (value : Fields) (opts : KvWriteOptions) : Prop where
  putIfAbsent_iff : get table p now key false = none ↔
    (putIfAbsent table p now key value opts).1.applied = true
  compareAndSet_iff : get table p now key false = none ↔
    (compareAndSet table p now key 0 value opts).1.applied = true
  putIfAbsent_record : ∀ record, (putIfAbsent table p now key value opts).1 = .cas false record →
    record ≠ none
  compareAndSet_record : ∀ record,
    (compareAndSet table p now key 0 value opts).1 = .cas false record → record ≠ none

/-- One statement serves both. -/
theorem compareAndSet_zero :
    compareAndSet table p now key 0 value opts = putIfAbsent table p now key value opts :=
  rfl

theorem isLive_eq_not_isExpired {row : KvRow} (h : row.expiresAt ≠ some now) :
    isLive now row = !isExpired now row := by
  unfold isLive isExpired
  cases hexpires : row.expiresAt with
  | none => rfl
  | some ms =>
      have hne : ms ≠ now := fun hms => h (by rw [hexpires, hms])
      simp only [Option.all_some, Option.any_some, ← decide_not, decide_eq_decide]
      omega

theorem get_eq_none_iff :
    get table p now key false = none ↔ ∀ row, table key = some row → isLive now row = false := by
  unfold get
  cases hrow : table key with
  | none => simp
  | some row => cases hlive : isLive now row <;> simp [hlive]

theorem putIfAbsent_error {e : KvError}
    (hexpiry : expiryParam (resolveExpiry now opts) = .error e) :
    (putIfAbsent table p now key value opts).1 = .failed e := by
  unfold putIfAbsent withExpiry
  simp only [hexpiry]

/-- What a create does, when its own expiry is a moment. -/
theorem putIfAbsent_cases {expiresAt : Option ℤ}
    (hexpiry : expiryParam (resolveExpiry now opts) = .ok expiresAt) :
    (∀ row, table key = some row → isExpired now row = true) ∧
        (∃ record, (putIfAbsent table p now key value opts).1 = .cas true record) ∨
      (∃ row, table key = some row ∧ isExpired now row = false) ∧
        (putIfAbsent table p now key value opts).1 = .cas false (get table p now key false) := by
  unfold putIfAbsent withExpiry upsert
  simp only [hexpiry]
  cases hrow : table key with
  | none => exact .inl ⟨by simp, _, rfl⟩
  | some row =>
      by_cases hexpired : isExpired now row = true
      · refine .inl ⟨fun row' hrow' => ?_, _, by simp only [hexpired, if_true]; rfl⟩
        cases hrow'
        exact hexpired
      · refine .inr ⟨⟨row, rfl, by simpa using hexpired⟩, ?_⟩
        simp only [hexpired]
        rfl

theorem dichotomy_of {applied : Prop}
    (happlied : (putIfAbsent table p now key value opts).1.applied = true ↔ applied)
    (hget : get table p now key false = none ↔ applied)
    (hrecord : ∀ record, (putIfAbsent table p now key value opts).1 = .cas false record →
      record ≠ none) : Dichotomy table p now key value opts :=
  ⟨hget.trans happlied.symm, hget.trans happlied.symm, hrecord, hrecord⟩

/-- The create and the read fall apart at the very expiry of the row; and
where the new expiry is no moment, the create fails. -/
theorem dichotomy_iff (table : PostgresKvStore) (p : Platform) (now : ℤ) (key : String)
    (value : Fields) (opts : KvWriteOptions) : Dichotomy table p now key value opts ↔
      (∀ row, table key = some row → row.expiresAt ≠ some now) ∧
        ((∃ expiresAt, expiryParam (resolveExpiry now opts) = .ok expiresAt) ∨
          ∃ row, table key = some row ∧ isLive now row = true) := by
  cases hexpiry : expiryParam (resolveExpiry now opts) with
  | error e =>
      have hfailed := @putIfAbsent_error table p now key value opts e hexpiry
      constructor
      · intro h
        have hfound : ¬ get table p now key false = none := by
          rw [h.putIfAbsent_iff, hfailed]
          exact Bool.false_ne_true
        rw [get_eq_none_iff] at hfound
        push Not at hfound
        obtain ⟨row, hrow, hlive⟩ := hfound
        refine ⟨fun row' hrow' hnow => ?_, .inr ⟨row, hrow, by simpa using hlive⟩⟩
        rw [hrow] at hrow'
        cases hrow'
        simp [isLive, hnow] at hlive
      · rintro ⟨-, ⟨expiresAt, hok⟩ | ⟨row, hrow, hlive⟩⟩
        · cases hok
        · have hfound : ¬ get table p now key false = none := fun hnone => by
            rw [get_eq_none_iff.mp hnone row hrow] at hlive
            cases hlive
          exact dichotomy_of (by rw [hfailed]; exact Iff.rfl) (iff_of_false hfound Bool.false_ne_true)
            (by simp [hfailed])
  | ok expiresAt =>
      have hcases := @putIfAbsent_cases table p now key value opts expiresAt hexpiry
      constructor
      · intro h
        refine ⟨fun row hrow hnow => ?_, .inl ⟨expiresAt, rfl⟩⟩
        have hunread : get table p now key false = none := by
          rw [get_eq_none_iff]
          intro row' hrow'
          rw [hrow] at hrow'
          cases hrow'
          simp [isLive, hnow]
        rcases hcases with ⟨hexpired, -⟩ | ⟨-, hrefused⟩
        · have := hexpired row hrow
          simp [isExpired, hnow] at this
        · exact h.putIfAbsent_record _ hrefused hunread
      · rintro ⟨hnot, -⟩
        rcases hcases with ⟨hexpired, record, happlied⟩ | ⟨⟨row, hrow, hkept⟩, hrefused⟩
        · have hunread : get table p now key false = none := by
            rw [get_eq_none_iff]
            intro row hrow
            rw [isLive_eq_not_isExpired (hnot row hrow), hexpired row hrow]
            rfl
          exact dichotomy_of (by rw [happlied]; exact Iff.rfl) (iff_of_true hunread rfl)
            (by simp [happlied])
        · have hfound : ¬ get table p now key false = none := fun hnone => by
            have := get_eq_none_iff.mp hnone row hrow
            rw [isLive_eq_not_isExpired (hnot row hrow), hkept] at this
            cases this
          refine dichotomy_of (by rw [hrefused]; exact Iff.rfl)
            (iff_of_false hfound Bool.false_ne_true) ?_
          intro record hrecord
          rw [hrefused] at hrecord
          cases hrecord
          exact hfound

end Liveness

namespace Small

/-- A row that expires at second ten. -/
def lastMoment : PostgresKvStore :=
  Table.put Table.empty "lock" ⟨fun _ => none, 1, some 10000, none⟩

/-- At ten seconds sharp it cannot be read, and cannot be taken over. -/
theorem lastMoment_stuck : ¬ ∀ (table : PostgresKvStore) (p : Platform) (now : ℤ) (key : String)
    (value : Fields) (opts : KvWriteOptions), Dichotomy table p now key value opts := by
  intro hclaim
  have hiff := (hclaim lastMoment ⟨(· + ·), id, fun _ => none, fun _ => none⟩ 10000 "lock"
    (fun _ => none) ⟨none, none, none⟩).putIfAbsent_iff
  exact Bool.false_ne_true (hiff.mp rfl)

end Small

end PostgresKvStore

end SaasFoundation.Foundation.Kv
