import SaasFoundation.Foundation.Kv.Postgres
import SaasFoundation.Lib.Evolution
import SaasFoundation.Lib.Script
import SaasFoundation.Lib.BigStep

/-!
# Clients on one `kv_entries`

The operations of `PostgresKvStore` as what they send: a few readings of the
clock and one statement, and another `SELECT` where a write was refused. The
server carries out each statement at once. With nothing in between, an
operation does what `PostgresKvStore.step` says; with other clients in
between, the rows a statement meets need not be those of any earlier moment.
-/

namespace SaasFoundation.Foundation.Kv.Sql

open Lib PostgresKvStore

/-! ## Statements -/

/-- The `WHERE` of an `ON CONFLICT DO UPDATE`. -/
inductive RowCondition where
  | always
  | expired (now : ℤ)
  | older (incoming : Option ℤ)
deriving DecidableEq, Repr

def RowCondition.holds : RowCondition → KvRow → Bool
  | .always, _ => true
  | .expired now, row => isExpired now row
  | .older incoming, row => isOlder incoming row

inductive Statement where
  /-- With the clock, the rows that are live then. -/
  | select (key : String) (now : Option ℤ)
  | selectIndex (indexValue : String) (now : ℤ)
  | upsert (condition : RowCondition) (key : String) (value : Fields) (expiresAt : Option ℤ)
      (indexedKey : Option String)
  | update (now : ℤ) (key : String) (expectedVersion : ℤ) (value : Fields)
      (expiresAt : Option ℤ) (indexedKey : Option String)
  /-- The upsert of `increment`. -/
  | add (key field : String) (delta : ℚ) (expiresAt : Option ℤ)
  | delete (key : String) (expectedVersion : Option ℤ)

/-- What a statement gives back: rows, the new version, the new number, or
whether there was a row. -/
abbrev Rows : Statement → Type
  | .select _ _ => Option KvRow
  | .selectIndex _ _ => Table String KvRow
  | .upsert _ _ _ _ _ => Option ℤ
  | .update _ _ _ _ _ _ => Option ℤ
  | .add _ _ _ _ => ℚ
  | .delete _ _ => Bool

inductive Request where
  | now
  | sql (statement : Statement)

abbrev Reply : Request → Type
  | .now => ℤ
  | .sql statement => Except KvError (Rows statement)

abbrev Handler (α : Type) := Prog Request Reply α

abbrev request (op : Request) : Handler (Reply op) := Prog.call op

/-- A row that is written under a key, or none. -/
abbrev Change := Option (String × Option KvRow)

def changed (rows : PostgresKvStore) : Change → PostgresKvStore
  | none => rows
  | some (key, some row) => Table.put rows key row
  | some (key, none) => Table.erase rows key

/-- How the server carries out a statement: what it gives and what it
changes. -/
def carryOut (p : Platform) (rows : PostgresKvStore) : (statement : Statement) →
    Except KvError (Rows statement) × Change
  | .select key now => (.ok ((rows key).filter fun row => now.all fun now => isLive now row), none)
  | .selectIndex indexValue now => (.ok fun key => (rows key).filter fun row =>
      row.indexedKey == some indexValue && isLive now row, none)
  | .upsert condition key value expiresAt indexedKey =>
      match rows key with
      | none => (.ok (some 1), some (key, some ⟨value, 1, expiresAt, indexedKey⟩))
      | some row =>
          if condition.holds row then (.ok (some (row.version + 1)),
            some (key, some ⟨value, row.version + 1, expiresAt, indexedKey⟩))
          else (.ok none, none)
  | .update now key expectedVersion value expiresAt indexedKey =>
      match rows key with
      | none => (.ok none, none)
      | some row =>
          if row.version = expectedVersion ∧ isLive now row then (.ok (some (row.version + 1)),
            some (key, some ⟨value, row.version + 1, expiresAt, indexedKey⟩))
          else (.ok none, none)
  | .add key field delta expiresAt =>
      match rows key with
      | none => (.ok delta,
          some (key, some ⟨Fields.set (fun _ => none) field (.num delta), 1, expiresAt, none⟩))
      | some row =>
          match numeric p row.value field with
          | .error e => (.error e, none)
          | .ok n => (.ok (n + delta), some (key, some
              ⟨row.value.set field (.num (n + delta)), row.version + 1,
                match row.expiresAt with
                | some ms => some ms
                | none => expiresAt,
                row.indexedKey⟩))
  | .delete key expectedVersion =>
      match rows key with
      | none => (.ok false, none)
      | some row =>
          if expectedVersion.all fun v => row.version = v then (.ok true, some (key, none))
          else (.ok false, none)

/-! ## The operations -/

section Operations

variable (p : Platform)

/-- A step that throws ends the operation. -/
def attempt {α : Type} (q : Handler (Except KvError α)) (f : α → Handler Result) :
    Handler Result := do
  let result : Except KvError α ← q
  match result with
  | .ok a => f a
  | .error e => pure (.failed e)

def query (statement : Statement) (f : Rows statement → Handler Result) : Handler Result :=
  attempt (request (.sql statement)) f

/-- A statement with an expiry among its parameters. -/
def withExpiry (expiry : Option ℚ) (f : Option ℤ → Handler Result) : Handler Result :=
  attempt (pure (expiryParam expiry)) f

def find (key : String) (f : Option KvRecord → Result) : Handler Result := do
  let now : ℤ ← request .now
  query (.select key (some now)) fun row => pure (f (row.map (rowToRecord p)))

def get (key : String) (includeExpired : Bool) : Handler Result :=
  if includeExpired then
    query (.select key none) fun row => pure (.found (row.map (rowToRecord p)))
  else find p key .found

/-- `appliedCas`, and the `get` after a write that was refused. -/
def appliedCas (key : String) (value : Fields) (expiry : Option ℚ) : Option ℤ → Handler Result
  | some version => pure (.cas true (some ⟨value, version, expiry⟩))
  | none => find p key (.cas false)

def put (key : String) (value : Fields) (opts : KvWriteOptions) : Handler Result := do
  let now : ℤ ← request .now
  let expiry := resolveExpiry now opts
  withExpiry expiry fun expiresAt =>
    query (.upsert .always key value expiresAt opts.indexedKey) fun version =>
      pure (.written ⟨value, version.getD 1, expiry⟩)

def putIfAbsent (key : String) (value : Fields) (opts : KvWriteOptions) : Handler Result := do
  let now : ℤ ← request .now
  let expiry := resolveExpiry now opts
  let now : ℤ ← request .now
  withExpiry expiry fun expiresAt =>
    query (.upsert (.expired now) key value expiresAt opts.indexedKey)
      (appliedCas p key value expiry)

/-- Version 0 asks for absence, by the statement of `putIfAbsent`. -/
def compareAndSet (key : String) (expectedVersion : ℤ) (value : Fields) (opts : KvWriteOptions) :
    Handler Result :=
  if expectedVersion = 0 then putIfAbsent p key value opts
  else do
    let now : ℤ ← request .now
    let expiry := resolveExpiry now opts
    let now : ℤ ← request .now
    withExpiry expiry fun expiresAt =>
      query (.update now key expectedVersion value expiresAt opts.indexedKey)
        (appliedCas p key value expiry)

def putIfFresher (key : String) (value : Fields) (expiresAt : ℚ) (indexedKey : Option String) :
    Handler Result :=
  withExpiry (some expiresAt) fun incoming =>
    query (.upsert (.older incoming) key value incoming indexedKey)
      (appliedCas p key value (some expiresAt))

def increment (key field : String) (delta : ℚ) (opts : KvWriteOptions) : Handler Result :=
  if !matchesFieldPattern field then pure (.failed invalidField)
  else do
    let now : ℤ ← request .now
    withExpiry (resolveExpiry now opts) fun expiresAt =>
      query (.add key field delta expiresAt) fun n => pure (.number (some (p.number n)))

def delete (key : String) (expectedVersion : Option ℤ) : Handler Result :=
  query (.delete key expectedVersion) fun applied => pure (.deleted applied)

def queryByIndex (indexValue : String) : Handler Result := do
  let now : ℤ ← request .now
  query (.selectIndex indexValue now) fun rows =>
    pure (.rows fun key => (rows key).map (rowToRecord p))

def start : Op → Handler Result
  | .get key _ includeExpired => get p key includeExpired
  | .put key value opts => put key value opts
  | .putIfAbsent key value opts => putIfAbsent p key value opts
  | .compareAndSet key expectedVersion value opts => compareAndSet p key expectedVersion value opts
  | .putIfFresher key value expiresAt indexedKey => putIfFresher p key value expiresAt indexedKey
  | .increment key field delta opts => increment p key field delta opts
  | .delete key expectedVersion => delete key expectedVersion
  | .queryByIndex indexValue => queryByIndex p indexValue

end Operations

/-! ## One operation at a time -/

/-- Nothing else happens, and nothing fails. -/
def answer (p : Platform) (now : ℤ) (rows : PostgresKvStore) : (op : Request) →
    Reply op × PostgresKvStore
  | .now => (now, rows)
  | .sql statement => ((carryOut p rows statement).1, changed rows (carryOut p rows statement).2)

section Exec

variable {p : Platform} {now : ℤ} {rows : PostgresKvStore}

theorem exec_query {statement : Statement} {f : Rows statement → Handler Result}
    {a : Rows statement} (h : (carryOut p rows statement).1 = .ok a) :
    (query statement f).exec (answer p now) rows =
      (f a).exec (answer p now) (changed rows (carryOut p rows statement).2) := by
  simp only [query, attempt, Prog.exec_bind, request, Prog.call, Prog.exec_ask, answer,
    Prog.exec_ret, h]

theorem exec_withExpiry {expiry : Option ℚ} {f : Option ℤ → Handler Result} :
    (withExpiry expiry f).exec (answer p now) rows =
      PostgresKvStore.withExpiry rows expiry fun expiresAt =>
        (f expiresAt).exec (answer p now) rows := by
  unfold withExpiry PostgresKvStore.withExpiry
  cases hparam : expiryParam expiry with
  | ok expiresAt => rfl
  | error e => rfl

theorem exec_find {key : String} {f : Option KvRecord → Result} :
    (find p key f).exec (answer p now) rows =
      (f (PostgresKvStore.get rows p now key false), rows) := by
  show (query (.select key (some now)) _).exec (answer p now) rows = _
  rw [@exec_query _ _ _ _ _ ((rows key).filter fun row => isLive now row) rfl]
  rfl

/-- A conditional write, and what it leaves. -/
theorem exec_appliedCas {key : String} {value : Fields} {expiry : Option ℚ}
    {written : Option ℤ × PostgresKvStore} :
    (appliedCas p key value expiry written.1).exec (answer p now) written.2 =
      PostgresKvStore.appliedCas p now key value expiry written := by
  rcases written with ⟨_ | version, rows'⟩
  · exact exec_find
  · rfl

theorem carryOut_upsert (condition : RowCondition) (key : String) (value : Fields)
    (expiresAt : Option ℤ) (indexedKey : Option String) :
    let written := PostgresKvStore.upsert rows condition.holds key value expiresAt indexedKey
    (carryOut p rows (.upsert condition key value expiresAt indexedKey)).1 = .ok written.1 ∧
      changed rows (carryOut p rows (.upsert condition key value expiresAt indexedKey)).2 =
        written.2 := by
  simp only [carryOut, PostgresKvStore.upsert]
  cases rows key with
  | none => exact ⟨rfl, rfl⟩
  | some row =>
      by_cases hholds : condition.holds row = true
      · simp [hholds, changed]
      · simp [hholds, changed]

theorem carryOut_update (key : String) (expectedVersion : ℤ) (value : Fields)
    (expiresAt : Option ℤ) (indexedKey : Option String) :
    let written := PostgresKvStore.update rows now key expectedVersion value expiresAt indexedKey
    (carryOut p rows (.update now key expectedVersion value expiresAt indexedKey)).1 =
        .ok written.1 ∧
      changed rows (carryOut p rows (.update now key expectedVersion value expiresAt
        indexedKey)).2 = written.2 := by
  simp only [carryOut, PostgresKvStore.update]
  cases rows key with
  | none => exact ⟨rfl, rfl⟩
  | some row =>
      by_cases hholds : row.version = expectedVersion ∧ isLive now row = true
      · simp [hholds, changed]
      · simp [hholds, changed]

theorem exec_putIfAbsent {key : String} {value : Fields} {opts : KvWriteOptions} :
    (putIfAbsent p key value opts).exec (answer p now) rows =
      PostgresKvStore.putIfAbsent rows p now key value opts := by
  show (withExpiry (resolveExpiry now opts) _).exec (answer p now) rows = _
  rw [exec_withExpiry]
  unfold PostgresKvStore.putIfAbsent
  congr 1
  funext expiresAt
  obtain ⟨hversion, hrows⟩ := @carryOut_upsert p rows (.expired now) key value expiresAt
    opts.indexedKey
  show (query (.upsert (.expired now) _ _ _ _) _).exec (answer p now) rows = _
  rw [exec_query hversion, hrows]
  exact exec_appliedCas

/-- With nothing in between, the statements are the operation. -/
theorem exec_start (op : Op) :
    (start p op).exec (answer p now) rows = PostgresKvStore.step rows p now op := by
  cases op with
  | get key consistent includeExpired =>
      cases includeExpired with
      | false => exact exec_find
      | true =>
          show (query (.select key none) _).exec (answer p now) rows = _
          rw [@exec_query _ _ _ _ _ (rows key) (by cases hrow : rows key <;> simp [carryOut, hrow])]
          rfl
  | put key value opts =>
      show (withExpiry (resolveExpiry now opts) _).exec (answer p now) rows = _
      rw [exec_withExpiry]
      unfold PostgresKvStore.step PostgresKvStore.put
      congr 1
      funext expiresAt
      obtain ⟨hversion, hrows⟩ := @carryOut_upsert p rows .always key value expiresAt
        opts.indexedKey
      rw [exec_query hversion, hrows]
      rfl
  | putIfAbsent key value opts => exact exec_putIfAbsent
  | compareAndSet key expectedVersion value opts =>
      show (compareAndSet p key expectedVersion value opts).exec (answer p now) rows = _
      unfold compareAndSet PostgresKvStore.step PostgresKvStore.compareAndSet
      by_cases hzero : expectedVersion = 0
      · simp only [hzero, if_true]
        exact exec_putIfAbsent
      · simp only [hzero, if_false]
        show (withExpiry (resolveExpiry now opts) _).exec (answer p now) rows = _
        rw [exec_withExpiry]
        congr 1
        funext expiresAt
        obtain ⟨hversion, hrows⟩ := @carryOut_update p now rows key expectedVersion value expiresAt
          opts.indexedKey
        show (query (.update now _ _ _ _ _) _).exec (answer p now) rows = _
        rw [exec_query hversion, hrows]
        exact exec_appliedCas
  | putIfFresher key value expiresAt indexedKey =>
      show (withExpiry (some expiresAt) _).exec (answer p now) rows = _
      rw [exec_withExpiry]
      unfold PostgresKvStore.step PostgresKvStore.putIfFresher
      congr 1
      funext incoming
      obtain ⟨hversion, hrows⟩ := @carryOut_upsert p rows (.older incoming) key value incoming
        indexedKey
      rw [exec_query hversion, hrows]
      exact exec_appliedCas
  | increment key field delta opts =>
      show (increment p key field delta opts).exec (answer p now) rows =
        PostgresKvStore.increment rows p now key field delta opts
      unfold increment PostgresKvStore.increment
      by_cases hfield : (!matchesFieldPattern field) = true
      · simp only [hfield, if_true]
        rfl
      · simp only [hfield]
        show (withExpiry (resolveExpiry now opts) _).exec (answer p now) rows = _
        rw [exec_withExpiry]
        congr 1
        funext expiresAt
        simp only [query, attempt, request, Prog.call, Prog.exec_bind, Prog.exec_ask, answer,
          Prog.exec_ret, carryOut]
        cases rows key with
        | none => rfl
        | some row =>
            cases hn : numeric p row.value field with
            | error e =>
                simp only [hn]
                rfl
            | ok n =>
                simp only [hn]
                rfl
  | delete key expectedVersion =>
      show (query (.delete key expectedVersion) _).exec (answer p now) rows =
        PostgresKvStore.delete rows key expectedVersion
      unfold PostgresKvStore.delete
      cases hrow : rows key with
      | none =>
          rw [@exec_query _ _ _ _ _ false (by simp [carryOut, hrow])]
          simp [carryOut, hrow, changed]
      | some row =>
          by_cases hversion : (expectedVersion.all fun v => row.version = v) = true
          · rw [@exec_query _ _ _ _ _ true (by simp [carryOut, hrow, hversion])]
            simp [carryOut, hrow, hversion, changed]
          · rw [@exec_query _ _ _ _ _ false (by simp [carryOut, hrow, hversion])]
            simp [carryOut, hrow, hversion, changed]
  | queryByIndex indexValue =>
      show (query (.selectIndex indexValue now) _).exec (answer p now) rows = _
      rw [@exec_query _ _ _ _ _ _ rfl]
      rfl

end Exec

/-! ## Any number of clients -/

structure World where
  rows : PostgresKvStore
  /-- The rows that were written under a key, newest first. -/
  past : String → List KvRow

namespace World

def change (w : World) : Change → World
  | none => w
  | some (key, some row) =>
      ⟨Table.put w.rows key row, Function.update w.past key (row :: w.past key)⟩
  | some (key, none) => { w with rows := Table.erase w.rows key }

def carriedOut (p : Platform) (w : World) (statement : Statement) : World :=
  w.change (carryOut p w.rows statement).2

theorem carriedOut_rows (p : Platform) (w : World) (statement : Statement) :
    (w.carriedOut p statement).rows = changed w.rows (carryOut p w.rows statement).2 := by
  unfold carriedOut
  rcases (carryOut p w.rows statement).2 with _ | ⟨key, _ | row⟩ <;> rfl

end World

/-- Every client has a clock of its own, which may show anything. A statement
is carried out and answered, or the connection is lost before or after. -/
def serve (p : Platform) (w : World) : (op : Request) → Reply op → World → Prop
  | .now, _, w' => w' = w
  | .sql statement, reply, w' =>
      reply = (carryOut p w.rows statement).1 ∧ w' = w.carriedOut p statement ∨
      reply = .error .transient ∧ (w' = w ∨ w' = w.carriedOut p statement)

def emptyWorld : World := ⟨Table.empty, fun _ => []⟩

/-- Nothing is removed but by a `delete`. -/
def sqlSystem {Job : Type} (p : Platform) (start : Job → Handler Result) :
    System Request Reply World Job Result where
  start := start
  permits := fun _ _ => True
  serve := serve p
  drift := fun _ _ => False
  init := fun w => w = emptyWorld

section Serve

variable {p : Platform} {w w' : World}

theorem serve_cases {op : Request} {r : Reply op} (h : serve p w op r w') :
    w' = w ∨ ∃ statement, op = .sql statement ∧ w' = w.carriedOut p statement := by
  cases op with
  | now => exact .inl h
  | sql statement =>
      rcases h with ⟨-, h⟩ | ⟨-, h | h⟩
      · exact .inr ⟨statement, rfl, h⟩
      · exact .inl h
      · exact .inr ⟨statement, rfl, h⟩

theorem serve_ok {statement : Statement} {a : Rows statement}
    (h : serve p w (.sql statement) (.ok a) w') :
    (carryOut p w.rows statement).1 = .ok a ∧ w' = w.carriedOut p statement := by
  rcases h with ⟨hreply, h⟩ | ⟨hreply, -⟩
  · exact ⟨hreply.symm, h⟩
  · cases hreply

end Serve

/-! ## How the operations go -/

section Runs

variable {p : Platform} {P : Request → Prop} {key : String} {es : List (Event Request Reply)}
  {result : Result}

theorem query_uses {statement : Statement} {f : Rows statement → Handler Result}
    (h : P (.sql statement)) (hf : ∀ a, (f a).Uses P) : (query statement f).Uses P := by
  refine ⟨h, fun reply => ?_⟩
  cases reply with
  | ok a => exact hf a
  | error e => trivial

theorem withExpiry_uses {expiry : Option ℚ} {f : Option ℤ → Handler Result}
    (hf : ∀ expiresAt, (f expiresAt).Uses P) : (withExpiry expiry f).Uses P := by
  unfold withExpiry
  cases expiryParam expiry with
  | ok expiresAt => exact hf expiresAt
  | error e => trivial

theorem find_uses {key : String} {f : Option KvRecord → Result} (hnow : P .now)
    (hselect : ∀ now, P (.sql (.select key now))) : (find p key f).Uses P :=
  ⟨hnow, fun now => query_uses (hselect (some now)) fun _ => trivial⟩

theorem appliedCas_uses {key : String} {value : Fields} {expiry : Option ℚ} (hnow : P .now)
    (hselect : ∀ now, P (.sql (.select key now))) (written : Option ℤ) :
    (appliedCas p key value expiry written).Uses P := by
  cases written with
  | some version => trivial
  | none => exact find_uses hnow hselect

theorem query_finishes {statement : Statement} {f : Rows statement → Handler Result}
    (h : (query statement f).Finishes es result) :
    (∃ a es', es = ⟨.sql statement, .ok a⟩ :: es' ∧ (f a).Finishes es' result) ∨
      ∃ e, result = .failed e := by
  obtain ⟨reply, es', rfl, hrest⟩ := Prog.finishes_ask.mp h
  cases reply with
  | ok a => exact .inl ⟨a, es', rfl, hrest⟩
  | error e => exact .inr ⟨e, (Prog.finishes_ret.mp hrest).2.symm⟩

theorem withExpiry_finishes {expiry : Option ℚ} {f : Option ℤ → Handler Result}
    (h : (withExpiry expiry f).Finishes es result) :
    (∃ expiresAt, expiryParam expiry = .ok expiresAt ∧ (f expiresAt).Finishes es result) ∨
      ∃ e, result = .failed e := by
  unfold withExpiry at h
  cases hparam : expiryParam expiry with
  | ok expiresAt =>
      rw [hparam] at h
      exact .inl ⟨expiresAt, rfl, h⟩
  | error e =>
      rw [hparam] at h
      exact .inr ⟨e, (Prog.finishes_ret.mp h).2.symm⟩

theorem find_finishes {f : Option KvRecord → Result} (h : (find p key f).Finishes es result) :
    (∃ now row, ⟨.sql (.select key (some now)), .ok row⟩ ∈ es ∧
        result = f (row.map (rowToRecord p))) ∨
      ∃ e, result = .failed e := by
  obtain ⟨now, es₁, rfl, hrest⟩ := Prog.finishes_ask.mp h
  rcases query_finishes hrest with ⟨row, es₂, rfl, hret⟩ | hfailed
  · obtain ⟨rfl, rfl⟩ := Prog.finishes_ret.mp hret
    exact .inl ⟨now, row, by simp, rfl⟩
  · exact .inr hfailed

/-- A write that was refused shows the record that is there. -/
def Refused (p : Platform) (key : String) (es : List (Event Request Reply)) (result : Result) :
    Prop :=
  (∃ now row, ⟨.sql (.select key (some now)), .ok row⟩ ∈ es ∧
      result = .cas false (row.map (rowToRecord p))) ∨
    ∃ e, result = .failed e

theorem appliedCas_finishes {value : Fields} {expiry : Option ℚ} {written : Option ℤ}
    (h : (appliedCas p key value expiry written).Finishes es result) :
    (∃ version, written = some version ∧ result = .cas true (some ⟨value, version, expiry⟩)) ∨
      Refused p key es result := by
  cases written with
  | some version => exact .inl ⟨version, rfl, (Prog.finishes_ret.mp h).2.symm⟩
  | none => exact .inr (find_finishes h)

theorem Refused.cons {ev : Event Request Reply} (h : Refused p key es result) :
    Refused p key (ev :: es) result := by
  rcases h with ⟨now, row, hmem, hresult⟩ | h
  · exact .inl ⟨now, row, List.mem_cons_of_mem _ hmem, hresult⟩
  · exact .inr h

theorem putIfAbsent_finishes {value : Fields} {opts : KvWriteOptions}
    (h : (putIfAbsent p key value opts).Finishes es result) :
    (∃ now expiresAt version expiry, ⟨.now, now⟩ ∈ es ∧
        ⟨.sql (.upsert (.expired now) key value expiresAt opts.indexedKey),
          .ok (some version)⟩ ∈ es ∧
        result = .cas true (some ⟨value, version, expiry⟩)) ∨
      Refused p key es result := by
  obtain ⟨now₁, es₁, rfl, hclock⟩ := Prog.finishes_ask.mp h
  obtain ⟨now, es₂, rfl, hrest⟩ := Prog.finishes_ask.mp hclock
  rcases withExpiry_finishes hrest with ⟨expiresAt, -, hquery⟩ | hfailed
  · rcases query_finishes hquery with ⟨written, es₃, rfl, hcas⟩ | hfailed
    · rcases appliedCas_finishes hcas with ⟨version, rfl, hresult⟩ | hrefused
      · exact .inl ⟨now, expiresAt, version, _, by simp, by simp, hresult⟩
      · exact .inr hrefused.cons.cons.cons
    · exact .inr (.inr hfailed)
  · exact .inr (.inr hfailed)

theorem compareAndSet_finishes {expectedVersion : ℤ} {value : Fields} {opts : KvWriteOptions}
    (hne : expectedVersion ≠ 0)
    (h : (compareAndSet p key expectedVersion value opts).Finishes es result) :
    (∃ now expiresAt version expiry,
        ⟨.sql (.update now key expectedVersion value expiresAt opts.indexedKey),
          .ok (some version)⟩ ∈ es ∧
        result = .cas true (some ⟨value, version, expiry⟩)) ∨
      Refused p key es result := by
  rw [compareAndSet, if_neg hne] at h
  obtain ⟨now₁, es₁, rfl, hclock⟩ := Prog.finishes_ask.mp h
  obtain ⟨now, es₂, rfl, hrest⟩ := Prog.finishes_ask.mp hclock
  rcases withExpiry_finishes hrest with ⟨expiresAt, -, hquery⟩ | hfailed
  · rcases query_finishes hquery with ⟨written, es₃, rfl, hcas⟩ | hfailed
    · rcases appliedCas_finishes hcas with ⟨version, rfl, hresult⟩ | hrefused
      · exact .inl ⟨now, expiresAt, version, _, by simp, hresult⟩
      · exact .inr hrefused.cons.cons.cons
    · exact .inr (.inr hfailed)
  · exact .inr (.inr hfailed)

theorem get_finishes {includeExpired : Bool}
    (h : (get p key includeExpired).Finishes es result) :
    (∃ now row, ⟨.sql (.select key now), .ok row⟩ ∈ es ∧
        result = .found (row.map (rowToRecord p))) ∨
      ∃ e, result = .failed e := by
  unfold get at h
  split at h
  · rcases query_finishes h with ⟨row, es₁, rfl, hret⟩ | hfailed
    · obtain ⟨rfl, rfl⟩ := Prog.finishes_ret.mp hret
      exact .inl ⟨none, row, by simp, rfl⟩
    · exact .inr hfailed
  · rcases find_finishes h with ⟨now, row, hmem, hresult⟩ | hfailed
    · exact .inl ⟨some now, row, hmem, hresult⟩
    · exact .inr hfailed

/-! ## Versions -/

/-- A statement that changes something writes the next version of a row, or
is a `DELETE`. -/
theorem carryOut_cases {rows : PostgresKvStore} {statement : Statement} {change : Option KvRow}
    (h : (carryOut p rows statement).2 = some (key, change)) :
    (∃ row, change = some row ∧ row.version = ((rows key).map KvRow.version).getD 0 + 1) ∨
      change = none ∧ ∃ expectedVersion, statement = .delete key expectedVersion := by
  cases statement with
  | select _ _ => cases h
  | selectIndex _ _ => cases h
  | upsert condition key' value expiresAt indexedKey =>
      simp only [carryOut] at h
      split at h
      · rename_i hnone
        cases h
        exact .inl ⟨_, rfl, by simp [hnone]⟩
      · rename_i old hold
        split at h
        · cases h
          exact .inl ⟨_, rfl, by simp [hold]⟩
        · cases h
  | update now key' expectedVersion value expiresAt indexedKey =>
      simp only [carryOut] at h
      split at h
      · cases h
      · rename_i old hold
        split at h
        · cases h
          exact .inl ⟨_, rfl, by simp [hold]⟩
        · cases h
  | add key' field delta expiresAt =>
      simp only [carryOut] at h
      split at h
      · rename_i hnone
        cases h
        exact .inl ⟨_, rfl, by simp [hnone]⟩
      · rename_i old hold
        split at h
        · cases h
        · cases h
          exact .inl ⟨_, rfl, by simp [hold]⟩
  | delete key' expectedVersion =>
      simp only [carryOut] at h
      split at h
      · cases h
      · split at h
        · cases h
          exact .inr ⟨rfl, expectedVersion, rfl⟩
        · cases h

/-- Every row that is written is the next version of its key. -/
theorem carryOut_version {rows : PostgresKvStore} {statement : Statement} {row : KvRow}
    (h : (carryOut p rows statement).2 = some (key, some row)) :
    row.version = ((rows key).map KvRow.version).getD 0 + 1 := by
  rcases carryOut_cases h with ⟨row', hrow, hversion⟩ | ⟨hnone, -⟩
  · rw [Option.some.inj hrow]
    exact hversion
  · cases hnone

/-- An upsert that gave back a version has written, over nothing or over a
row that meets its condition. -/
theorem upsert_wrote {rows : PostgresKvStore} {condition : RowCondition} {value : Fields}
    {expiresAt : Option ℤ} {indexedKey : Option String} {version : ℤ}
    (h : (carryOut p rows (.upsert condition key value expiresAt indexedKey)).1 =
      .ok (some version)) :
    (carryOut p rows (.upsert condition key value expiresAt indexedKey)).2 =
        some (key, some ⟨value, version, expiresAt, indexedKey⟩) ∧
      ∀ old, rows key = some old → condition.holds old = true := by
  simp only [carryOut] at h ⊢
  split at h
  · rename_i hnone
    cases h
    simp [hnone]
  · rename_i row hrow
    split at h
    · rename_i hholds
      cases h
      simp [hrow, hholds]
    · cases h

theorem update_wrote {rows : PostgresKvStore} {now expectedVersion : ℤ} {value : Fields}
    {expiresAt : Option ℤ} {indexedKey : Option String} {version : ℤ}
    (h : (carryOut p rows (.update now key expectedVersion value expiresAt indexedKey)).1 =
      .ok (some version)) :
    (carryOut p rows (.update now key expectedVersion value expiresAt indexedKey)).2 =
        some (key, some ⟨value, version, expiresAt, indexedKey⟩) ∧
      ∃ old, rows key = some old ∧ old.version = expectedVersion := by
  simp only [carryOut] at h ⊢
  split at h
  · cases h
  · rename_i row hrow
    split at h
    · rename_i hholds
      cases h
      simp [hrow, hholds]
    · cases h

theorem carryOut_removes {rows : PostgresKvStore} {statement : Statement}
    (h : (carryOut p rows statement).2 = some (key, none)) :
    ∃ expectedVersion, statement = .delete key expectedVersion := by
  rcases carryOut_cases h with ⟨row, hrow, -⟩ | ⟨-, hdelete⟩
  · cases hrow
  · exact hdelete

end Runs

end SaasFoundation.Foundation.Kv.Sql
