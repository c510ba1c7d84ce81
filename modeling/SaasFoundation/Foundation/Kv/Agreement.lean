import SaasFoundation.Foundation.Kv.Encoding

/-!
# Do the adapters agree?

As long as no operation looks at a record in the second in which it expires,
writes over a record that has expired by its version, refreshes a record, or
adds to what is not a number, the three return the same and stay in step.
Each of these takes them apart.
-/

namespace SaasFoundation.Foundation.Kv

open Lib

/-! ## One operation -/

section Operations

variable {layout : DynamoKvLayout} {p : Platform} {calls : Nat} {now : ℤ}
  {store : MemoryKvStore} {table : DynamoTable} {rows : PostgresKvStore} {key : String}

/-- The three return the same, and hold the same records. -/
def InStep (layout : DynamoKvLayout) (p : Platform) (memory : Result × MemoryKvStore)
    (dynamo : Result × DynamoTable) (postgres : Result × PostgresKvStore) : Prop :=
  dynamo.1 = memory.1 ∧ postgres.1 = memory.1 ∧ Same layout p memory.2 dynamo.2 postgres.2

theorem holds_version (key : String) (entry : MemoryEntry) (version : ℤ) :
    Condition.holds layout (some (itemOf layout key entry)) (.versionIs version) =
      decide (entry.version = version) := by
  simp [Condition.holds, itemOf, DynamoKvStore.assemble_version]

theorem holds_fresher (key : String) (entry : MemoryEntry) (incoming : ℚ) :
    Condition.holds layout (some (itemOf layout key entry)) (.fresher incoming) =
      entry.expiresAt.all fun e => decide (e < incoming) := by
  simp only [Condition.holds, itemOf, Option.bind_some, DynamoKvStore.assemble_ttl]
  cases entry.expiresAt <;> rfl

theorem liveRecord_same (h : Same layout p store table rows) (now : ℤ) (key : String) :
    DynamoKvStore.liveRecord layout p now (table (pkOf layout key)) =
      (MemoryKvStore.live store now key).map MemoryEntry.toRecord := by
  rw [h.items, DynamoKvStore.liveRecord, MemoryKvStore.live]
  cases hentry : store key with
  | none => rfl
  | some entry =>
      have hok := h.entries key entry hentry
      cases hexpired : entry.isExpired now <;>
        simp [Option.filter, isExpiredItem_itemOf, hexpired, toRecord_itemOf hok.value]

theorem get_same (h : Same layout p store table rows) {key : String}
    (hsettled : ∀ entry, store key = some entry → Settled now entry) :
    PostgresKvStore.get rows p now key false =
      (MemoryKvStore.live store now key).map MemoryEntry.toRecord := by
  rw [PostgresKvStore.get, MemoryKvStore.live, h.rows]
  cases hentry : store key with
  | none => rfl
  | some entry =>
      have hok := h.entries key entry hentry
      cases hexpired : entry.isExpired now <;>
        simp [Option.filter, isLive_rowOf hok (hsettled entry hentry), hexpired,
          rowToRecord_rowOf hok]

theorem dynamo_get {key : String} (hkey : KeyOk layout key) (consistent includeExpired : Bool) :
    DynamoKvStore.step layout p calls now table (.get key consistent includeExpired) =
      (.found (if includeExpired then (table (pkOf layout key)).map (DynamoKvStore.toRecord layout p)
        else DynamoKvStore.liveRecord layout p now (table (pkOf layout key))), table) := by
  show (DynamoKvStore.get layout p key consistent includeExpired).exec _ _ = _
  rw [DynamoKvStore.get, buildPk_ok hkey, DynamoKvStore.checked_ok, DynamoKvStore.exec_getRawItem]
  cases table (pkOf layout key) with
  | none => cases includeExpired <;> rfl
  | some item =>
      show Prog.exec _ (if !includeExpired && DynamoKvStore.isExpiredItem layout now item then _
        else _) _ = _
      cases hexpired : DynamoKvStore.isExpiredItem layout now item <;>
        cases includeExpired <;> simp [DynamoKvStore.liveRecord, hexpired, DynamoKvStore.answer]

theorem inStep_get (h : Same layout p store table rows) {key : String} (hkey : KeyOk layout key)
    {consistent includeExpired : Bool}
    (hmeets : Meets layout p now store (.get key consistent includeExpired)) :
    InStep layout p (MemoryKvStore.step store p now (.get key consistent includeExpired))
      (DynamoKvStore.step layout p calls now table (.get key consistent includeExpired))
      (PostgresKvStore.step rows p now (.get key consistent includeExpired)) := by
  rw [dynamo_get hkey]
  cases includeExpired with
  | false =>
      have hsettled := hmeets.resolve_left (by simp)
      refine ⟨?_, ?_, h⟩
      · simp [MemoryKvStore.step, MemoryKvStore.get, liveRecord_same h]
      · simp [MemoryKvStore.step, MemoryKvStore.get, PostgresKvStore.step, get_same h hsettled]
  | true =>
      refine ⟨?_, ?_, h⟩
      · simp only [MemoryKvStore.step, MemoryKvStore.get, if_true, h.items]
        cases hentry : store key with
        | none => rfl
        | some entry => simp [toRecord_itemOf (h.entries key entry hentry).value]
      · simp only [MemoryKvStore.step, MemoryKvStore.get, PostgresKvStore.step,
          PostgresKvStore.get, if_true, h.rows]
        cases hentry : store key with
        | none => rfl
        | some entry => simp [rowToRecord_rowOf (h.entries key entry hentry)]

theorem versionOf_nonneg (h : Same layout p store table rows) (key : String) :
    0 ≤ MemoryKvStore.versionOf (store key) := by
  unfold MemoryKvStore.versionOf
  cases hentry : store key with
  | none => simp
  | some entry =>
      have := (h.entries key entry hentry).version
      simp only [Option.map_some, Option.getD_some]
      omega

theorem dynamo_put (h : Same layout p store table rows) {key : String} {value : Fields}
    {opts : KvWriteOptions} (hkey : KeyOk layout key) (hvalue : ValueOk layout p value)
    (hindex : IndexOk layout key opts.indexedKey) :
    let entry : MemoryEntry := ⟨value, MemoryKvStore.versionOf (store key) + 1,
      resolveExpiry now opts, opts.indexedKey⟩
    DynamoKvStore.step layout p calls now table (.put key value opts) =
      (.written entry.toRecord, Table.put table (pkOf layout key) (itemOf layout key entry)) := by
  intro entry
  show (DynamoKvStore.put layout p key value opts).exec _ _ = _
  rw [DynamoKvStore.put, buildPk_ok hkey, DynamoKvStore.checked_ok, DynamoKvStore.exec_getRawItem]
  have hversion : ((table (pkOf layout key)).map (DynamoKvStore.versionOf layout)).getD 0 =
      MemoryKvStore.versionOf (store key) := by
    rw [h.items, MemoryKvStore.versionOf]
    cases store key with
    | none => rfl
    | some entry => simp [itemOf, DynamoKvStore.versionOf_assemble]
  show Prog.exec _ (DynamoKvStore.checked (DynamoKvStore.buildItem layout key value
    (((table (pkOf layout key)).map (DynamoKvStore.versionOf layout)).getD 0 + 1) _ _) _) _ = _
  rw [hversion, buildItem_ok hkey hvalue, DynamoKvStore.checked_ok]
  have hput := @DynamoKvStore.exec_putItem layout now table (pkOf layout key)
    (itemOf layout key entry) .always (emptyIndexKey_itemOf hindex)
  simp only [Condition.holds, if_true] at hput
  refine (DynamoKvStore.exec_attempt (congrArg Prod.fst hput)).trans ?_
  rw [hput]
  exact Prod.ext (congrArg Result.written (toRecord_assemble hvalue _ _ _ _ _)) rfl

/-- `INSERT … ON CONFLICT` that writes. -/
theorem upsert_writes (h : Same layout p store table rows) {condition : KvRow → Bool}
    {key : String} (hcondition : ∀ entry, store key = some entry → condition (rowOf entry) = true)
    (value : Fields) (expiresAt : Option ℚ) (indexedKey : Option String) :
    PostgresKvStore.upsert rows condition key value
      (expiresAt.map fun e => PostgresKvStore.trunc (e * 1000)) indexedKey =
        (some (MemoryKvStore.versionOf (store key) + 1), Table.put rows key
          (rowOf ⟨value, MemoryKvStore.versionOf (store key) + 1, expiresAt, indexedKey⟩)) := by
  rw [PostgresKvStore.upsert, h.rows]
  cases hentry : store key with
  | none => rfl
  | some entry =>
      simp only [Option.map_some, hcondition entry hentry, if_true]
      rfl

theorem upsert_refuses (h : Same layout p store table rows) {condition : KvRow → Bool}
    {key : String} {entry : MemoryEntry} (hentry : store key = some entry)
    (hcondition : condition (rowOf entry) = false) (value : Fields) (expiresAt : Option ℤ)
    (indexedKey : Option String) :
    PostgresKvStore.upsert rows condition key value expiresAt indexedKey = (none, rows) := by
  rw [PostgresKvStore.upsert, h.rows, hentry]
  simp [hcondition]

theorem withExpiry_whole {expiresAt : Option ℚ} (h : Whole expiresAt)
    (statement : Option ℤ → Result × PostgresKvStore) :
    PostgresKvStore.withExpiry rows expiresAt statement =
      statement (expiresAt.map fun e => PostgresKvStore.trunc (e * 1000)) := by
  rw [PostgresKvStore.withExpiry, expiryParam_whole h]

theorem inStep_put (h : Same layout p store table rows) {key : String} {value : Fields}
    {opts : KvWriteOptions} (hdomain : InDomain layout (.put key value opts))
    (hmeets : Meets layout p now store (.put key value opts)) :
    InStep layout p (MemoryKvStore.step store p now (.put key value opts))
      (DynamoKvStore.step layout p calls now table (.put key value opts))
      (PostgresKvStore.step rows p now (.put key value opts)) := by
  have hvalue : ValueOk layout p value := ⟨hdomain.2, hmeets.textual⟩
  rw [dynamo_put h hdomain.1 hvalue hmeets.index]
  simp only [PostgresKvStore.step, PostgresKvStore.put]
  rw [withExpiry_whole hmeets.whole, upsert_writes h fun _ _ => rfl]
  refine ⟨rfl, rfl, h.put ⟨hvalue, ?_, hmeets.whole⟩ key⟩
  have := versionOf_nonneg h key
  show 1 ≤ MemoryKvStore.versionOf (store key) + 1
  omega

/-! ### Writes on a condition -/

theorem inStep_applied (h : Same layout p store table rows) {entry : MemoryEntry}
    (hentry : EntryOk layout p entry) (key : String) :
    InStep layout p (MemoryKvStore.applied store key entry)
      (.cas true (some entry.toRecord), Table.put table (pkOf layout key) (itemOf layout key entry))
      (.cas true (some entry.toRecord), Table.put rows key (rowOf entry)) :=
  ⟨rfl, rfl, h.put hentry key⟩

theorem inStep_refused (h : Same layout p store table rows) {key : String}
    (hsettled : ∀ entry, store key = some entry → Settled now entry) :
    InStep layout p (MemoryKvStore.refused store now key)
      (.cas false (DynamoKvStore.liveRecord layout p now (table (pkOf layout key))), table)
      (.cas false (PostgresKvStore.get rows p now key false), rows) := by
  refine ⟨?_, ?_, h⟩
  · simp [MemoryKvStore.refused, liveRecord_same h]
  · simp [MemoryKvStore.refused, get_same h hsettled]

/-- A conditional put of DynamoDB, on what it finds. -/
theorem conditionalPut_entry {key : String} {entry : MemoryEntry}
    (hvalue : ValueOk layout p entry.value) (hindex : IndexOk layout key entry.indexedKey) (condition : Condition)
    (lost : Handler Result) :
    (DynamoKvStore.conditionalPut layout p (pkOf layout key) (itemOf layout key entry) condition
      lost).exec (DynamoKvStore.answer layout now) table =
        if condition.holds layout (table (pkOf layout key)) then
          (.cas true (some entry.toRecord),
            Table.put table (pkOf layout key) (itemOf layout key entry))
        else lost.exec (DynamoKvStore.answer layout now) table := by
  rw [DynamoKvStore.exec_conditionalPut (emptyIndexKey_itemOf hindex), toRecord_itemOf hvalue]

/-- On a record that has expired the takeover finds the version it has just
read. -/
theorem dynamo_putIfAbsent (h : Same layout p store table rows) {key : String} {value : Fields}
    {opts : KvWriteOptions} (hkey : KeyOk layout key) (hvalue : ValueOk layout p value)
    (hstorable : Storable layout p key value (resolveExpiry now opts) opts.indexedKey) :
    let entry : MemoryEntry := ⟨value, MemoryKvStore.versionOf (store key) + 1,
      resolveExpiry now opts, opts.indexedKey⟩
    DynamoKvStore.step layout p (calls + 1) now table (.putIfAbsent key value opts) =
      if (MemoryKvStore.live store now key).isSome then
        (.cas false (DynamoKvStore.liveRecord layout p now (table (pkOf layout key))), table)
      else (.cas true (some entry.toRecord),
        Table.put table (pkOf layout key) (itemOf layout key entry)) := by
  intro entry
  show (DynamoKvStore.putIfAbsentOnce layout p key value opts _).exec _ _ = _
  rw [DynamoKvStore.putIfAbsentOnce, DynamoKvStore.exec_now]
  dsimp only
  rw [buildItem_ok hkey hvalue, DynamoKvStore.checked_ok,
    conditionalPut_entry hvalue hstorable.index]
  have hitems := h.items key
  cases hold : store key with
  | none =>
      rw [hold] at hitems
      simp [MemoryKvStore.live, hold, Condition.holds, hitems, entry, MemoryKvStore.versionOf]
  | some old =>
      rw [hold, Option.map_some] at hitems
      have hok := h.entries key old hold
      simp only [Condition.holds, hitems, Option.isNone_some, Bool.false_eq_true, if_false]
      rw [DynamoKvStore.exec_getRawItem, hitems]
      dsimp only
      rw [DynamoKvStore.exec_now, isExpiredItem_itemOf]
      cases hexpired : old.isExpired now with
      | false =>
          simp [MemoryKvStore.live, hold, Option.filter, hexpired, DynamoKvStore.liveRecord,
            isExpiredItem_itemOf]
      | true =>
          have hversion : DynamoKvStore.versionOf layout (itemOf layout key old) = old.version :=
            DynamoKvStore.versionOf_assemble _ _ _ _ _ _
          simp only [Bool.not_true, Bool.false_eq_true, if_false, hversion]
          rw [buildItem_ok hkey hvalue, DynamoKvStore.checked_ok,
            show (⟨value, old.version + 1, resolveExpiry now opts, opts.indexedKey⟩ : MemoryEntry) =
              entry by simp [entry, MemoryKvStore.versionOf, hold],
            conditionalPut_entry hvalue hstorable.index, hitems]
          simp [holds_version, MemoryKvStore.live, hold, Option.filter, hexpired]

theorem live_eq_none (hentry : store key = none) : MemoryKvStore.live store now key = none := by
  simp [MemoryKvStore.live, hentry]

theorem live_of_some {entry : MemoryEntry} (hentry : store key = some entry) :
    MemoryKvStore.live store now key = if entry.isExpired now then none else some entry := by
  cases hexpired : entry.isExpired now <;>
    simp [MemoryKvStore.live, hentry, Option.filter, hexpired]

theorem versionOf_live_nonneg (h : Same layout p store table rows) (key : String) :
    0 ≤ MemoryKvStore.versionOf (MemoryKvStore.live store now key) := by
  cases hentry : store key with
  | none => simp [live_eq_none hentry, MemoryKvStore.versionOf]
  | some entry =>
      have hpos := (h.entries key entry hentry).version
      rw [live_of_some hentry]
      cases entry.isExpired now with
      | false =>
          show 0 ≤ entry.version
          omega
      | true => exact le_refl 0

theorem nextVersion_pos (h : Same layout p store table rows) (key : String) :
    1 ≤ MemoryKvStore.versionOf (store key) + 1 := by
  have := versionOf_nonneg h key
  omega

theorem inStep_putIfAbsent (h : Same layout p store table rows) {key : String} {value : Fields}
    {opts : KvWriteOptions} (hdomain : InDomain layout (.putIfAbsent key value opts))
    (hmeets : Meets layout p now store (.putIfAbsent key value opts)) :
    InStep layout p (MemoryKvStore.step store p now (.putIfAbsent key value opts))
      (DynamoKvStore.step layout p (calls + 1) now table (.putIfAbsent key value opts))
      (PostgresKvStore.step rows p now (.putIfAbsent key value opts)) := by
  obtain ⟨hstorable, hsettled⟩ := hmeets
  have hvalue : ValueOk layout p value := ⟨hdomain.2, hstorable.textual⟩
  rw [dynamo_putIfAbsent h hdomain.1 hvalue hstorable]
  simp only [MemoryKvStore.step, MemoryKvStore.putIfAbsent, PostgresKvStore.step,
    PostgresKvStore.putIfAbsent]
  rw [withExpiry_whole hstorable.whole]
  by_cases hlive : (MemoryKvStore.live store now key).isSome = true
  · rw [if_pos hlive, if_pos hlive]
    cases hentry : store key with
    | none => simp [live_eq_none hentry] at hlive
    | some entry =>
        have hexpired : entry.isExpired now = false := by
          rw [live_of_some hentry] at hlive
          cases hexpired : entry.isExpired now <;> simp [hexpired] at hlive ⊢
        rw [upsert_refuses h hentry
          (by rw [isExpired_rowOf (h.entries key entry hentry) (hsettled entry hentry), hexpired])]
        exact inStep_refused h hsettled
  · rw [if_neg hlive, if_neg hlive, upsert_writes h]
    · exact inStep_applied h ⟨hvalue, nextVersion_pos h key, hstorable.whole⟩ key
    · intro entry hentry
      rw [isExpired_rowOf (h.entries key entry hentry) (hsettled entry hentry)]
      rw [live_of_some hentry] at hlive
      cases hexpired : entry.isExpired now <;> simp [hexpired] at hlive ⊢

theorem dynamo_compareAndSet {key : String} {value : Fields} {expectedVersion : ℤ}
    {opts : KvWriteOptions} (hkey : KeyOk layout key) (hvalue : ValueOk layout p value)
    (hindex : IndexOk layout key opts.indexedKey) :
    let entry : MemoryEntry := ⟨value, expectedVersion + 1, resolveExpiry now opts, opts.indexedKey⟩
    DynamoKvStore.step layout p calls now table (.compareAndSet key expectedVersion value opts) =
      if (if expectedVersion = 0 then Condition.notExists else .versionIs expectedVersion).holds
          layout (table (pkOf layout key)) then
        (.cas true (some entry.toRecord),
          Table.put table (pkOf layout key) (itemOf layout key entry))
      else (.cas false (DynamoKvStore.liveRecord layout p now (table (pkOf layout key))), table) := by
  intro entry
  show (DynamoKvStore.compareAndSet layout p key expectedVersion value opts).exec _ _ = _
  rw [DynamoKvStore.compareAndSet, DynamoKvStore.exec_now, buildItem_ok hkey hvalue,
    DynamoKvStore.checked_ok, conditionalPut_entry hvalue hindex, DynamoKvStore.exec_refused]

theorem update_refuses (h : Same layout p store table rows) {expectedVersion : ℤ}
    (hversion : ∀ entry, store key = some entry → entry.version ≠ expectedVersion)
    (value : Fields) (expiresAt : Option ℤ) (indexedKey : Option String) :
    PostgresKvStore.update rows now key expectedVersion value expiresAt indexedKey =
      (none, rows) := by
  rw [PostgresKvStore.update, h.rows]
  cases hentry : store key with
  | none => rfl
  | some entry => exact if_neg fun hand => hversion entry hentry hand.1

theorem update_writes (h : Same layout p store table rows) {entry : MemoryEntry}
    (hentry : store key = some entry) (hsettled : Settled now entry)
    (hexpired : entry.isExpired now = false) (value : Fields) (expiresAt : Option ℚ)
    (indexedKey : Option String) :
    PostgresKvStore.update rows now key entry.version value
      (expiresAt.map fun e => PostgresKvStore.trunc (e * 1000)) indexedKey =
        (some (entry.version + 1), Table.put rows key
          (rowOf ⟨value, entry.version + 1, expiresAt, indexedKey⟩)) := by
  rw [PostgresKvStore.update, h.rows, hentry]
  have hlive : PostgresKvStore.isLive now (rowOf entry) = true := by
    rw [isLive_rowOf (h.entries key entry hentry) hsettled, hexpired]
    rfl
  exact if_pos ⟨rfl, hlive⟩

/-- The record may be compared by its version: it has not expired, or the
version is neither its own nor that of nothing. -/
def Comparable (now : ℤ) (store : MemoryKvStore) (key : String) (expectedVersion : ℤ) : Prop :=
  ∀ entry, store key = some entry → entry.isExpired now = true →
    expectedVersion ≠ 0 ∧ expectedVersion ≠ entry.version

/-- An entry that is to be replaced as none is not expired. -/
theorem Comparable.live_of_zero {expectedVersion : ℤ}
    (h : Comparable now store key expectedVersion) (hzero : expectedVersion = 0)
    {entry : MemoryEntry} (hentry : store key = some entry) : entry.isExpired now = false := by
  by_contra hexpired
  exact (h entry hentry (by simpa using hexpired)).1 hzero

theorem versionOf_live_none (hentry : store key = none) :
    MemoryKvStore.versionOf (MemoryKvStore.live store now key) = 0 := by
  rw [live_eq_none hentry]
  rfl

theorem versionOf_live {entry : MemoryEntry} (hentry : store key = some entry) :
    MemoryKvStore.versionOf (MemoryKvStore.live store now key) =
      if entry.isExpired now then 0 else entry.version := by
  rw [live_of_some hentry]
  cases entry.isExpired now <;> rfl

/-- The condition of the DynamoDB write is the comparison. -/
theorem holds_expected (h : Same layout p store table rows) {expectedVersion : ℤ}
    (hcomparable : Comparable now store key expectedVersion) :
    (if expectedVersion = 0 then Condition.notExists else .versionIs expectedVersion).holds
        layout (table (pkOf layout key)) =
      decide (MemoryKvStore.versionOf (MemoryKvStore.live store now key) = expectedVersion) := by
  rw [h.items]
  cases hentry : store key with
  | none =>
      rw [versionOf_live_none hentry]
      by_cases hzero : expectedVersion = 0
      · simp [hzero, Condition.holds]
      · simp [hzero, Condition.holds, Ne.symm hzero]
  | some entry =>
      have hpos := (h.entries key entry hentry).version
      rw [versionOf_live hentry, Option.map_some]
      by_cases hzero : expectedVersion = 0
      · have hexpired := hcomparable.live_of_zero hzero hentry
        have hne : entry.version ≠ 0 := by omega
        simp [hzero, Condition.holds, hexpired, hne]
      · rw [if_neg hzero, holds_version, decide_eq_decide]
        cases hexpired : entry.isExpired now with
        | false => rfl
        | true =>
            have hne := (hcomparable entry hentry hexpired).2
            simp [Ne.symm hzero, Ne.symm hne]

/-- So is that of the SQL statement. -/
theorem compareAndSet_rows (h : Same layout p store table rows) {expectedVersion : ℤ}
    (hcomparable : Comparable now store key expectedVersion)
    (hsettled : ∀ entry, store key = some entry → Settled now entry) (value : Fields)
    (expiresAt : Option ℚ) (indexedKey : Option String) :
    let ms := expiresAt.map fun e => PostgresKvStore.trunc (e * 1000)
    (if expectedVersion = 0 then
        PostgresKvStore.upsert rows (PostgresKvStore.isExpired now) key value ms indexedKey
      else PostgresKvStore.update rows now key expectedVersion value ms indexedKey) =
      if MemoryKvStore.versionOf (MemoryKvStore.live store now key) = expectedVersion then
        (some (expectedVersion + 1), Table.put rows key
          (rowOf ⟨value, expectedVersion + 1, expiresAt, indexedKey⟩))
      else (none, rows) := by
  intro ms
  cases hentry : store key with
  | none =>
      rw [versionOf_live_none hentry]
      by_cases hzero : expectedVersion = 0
      · rw [if_pos hzero, if_pos hzero.symm, upsert_writes h (by simp [hentry]), hentry, hzero]
        rfl
      · rw [if_neg hzero, if_neg (Ne.symm hzero), update_refuses h (by simp [hentry])]
  | some entry =>
      have hok := h.entries key entry hentry
      have hpos := hok.version
      rw [versionOf_live hentry]
      by_cases hzero : expectedVersion = 0
      · have hexpired := hcomparable.live_of_zero hzero hentry
        have hne : entry.version ≠ 0 := by omega
        rw [if_pos hzero, upsert_refuses h hentry
          (by rw [isExpired_rowOf hok (hsettled entry hentry), hexpired])]
        simp [hexpired, hzero, hne]
      · rw [if_neg hzero]
        by_cases hversion : entry.version = expectedVersion
        · have hexpired : entry.isExpired now = false := by
            by_contra hexpired
            exact (hcomparable entry hentry (by simpa using hexpired)).2 hversion.symm
          subst hversion
          rw [update_writes h hentry (hsettled entry hentry) hexpired]
          simp [hexpired]
        · rw [update_refuses h (by simp [hentry, hversion])]
          cases entry.isExpired now <;> simp [hversion, Ne.symm hzero]

theorem inStep_compareAndSet (h : Same layout p store table rows) {expectedVersion : ℤ}
    {value : Fields} {opts : KvWriteOptions}
    (hdomain : InDomain layout (.compareAndSet key expectedVersion value opts))
    (hmeets : Meets layout p now store (.compareAndSet key expectedVersion value opts)) :
    InStep layout p (MemoryKvStore.step store p now (.compareAndSet key expectedVersion value opts))
      (DynamoKvStore.step layout p calls now table (.compareAndSet key expectedVersion value opts))
      (PostgresKvStore.step rows p now (.compareAndSet key expectedVersion value opts)) := by
  obtain ⟨hstorable, hentries⟩ := hmeets
  have hvalue : ValueOk layout p value := ⟨hdomain.2, hstorable.textual⟩
  have hsettled : ∀ entry, store key = some entry → Settled now entry :=
    fun entry hentry => (hentries entry hentry).1
  have hcomparable : Comparable now store key expectedVersion :=
    fun entry hentry => (hentries entry hentry).2
  rw [dynamo_compareAndSet hdomain.1 hvalue hstorable.index, holds_expected h hcomparable]
  simp only [MemoryKvStore.step, MemoryKvStore.compareAndSet, PostgresKvStore.step,
    PostgresKvStore.compareAndSet]
  rw [withExpiry_whole hstorable.whole, compareAndSet_rows h hcomparable hsettled]
  by_cases hversion : MemoryKvStore.versionOf (MemoryKvStore.live store now key) = expectedVersion
  · have hnonneg : 0 ≤ expectedVersion := by
      rw [← hversion]
      exact versionOf_live_nonneg h key
    rw [if_neg (fun hne => hne hversion), if_pos (by simpa using hversion), if_pos hversion]
    exact inStep_applied h ⟨hvalue, (by omega : 1 ≤ expectedVersion + 1), hstorable.whole⟩ key
  · rw [if_pos hversion, if_neg (by simpa using hversion), if_neg hversion]
    exact inStep_refused h hsettled

theorem dynamo_putIfFresher {value : Fields} {expiresAt : ℚ} {indexedKey : Option String}
    (hkey : KeyOk layout key) (hvalue : ValueOk layout p value)
    (hindex : IndexOk layout key indexedKey) :
    let entry : MemoryEntry := ⟨value, 1, some expiresAt, indexedKey⟩
    DynamoKvStore.step layout p calls now table (.putIfFresher key value expiresAt indexedKey) =
      if (Condition.fresher expiresAt).holds layout (table (pkOf layout key)) then
        (.cas true (some entry.toRecord),
          Table.put table (pkOf layout key) (itemOf layout key entry))
      else (.cas false (DynamoKvStore.liveRecord layout p now (table (pkOf layout key))), table) := by
  intro entry
  show (DynamoKvStore.putIfFresher layout p key value expiresAt indexedKey).exec _ _ = _
  rw [DynamoKvStore.putIfFresher, buildItem_ok hkey hvalue, DynamoKvStore.checked_ok,
    conditionalPut_entry hvalue hindex, DynamoKvStore.exec_refused]

theorem inStep_putIfFresher (h : Same layout p store table rows) {value : Fields} {expiresAt : ℚ}
    {indexedKey : Option String}
    (hdomain : InDomain layout (.putIfFresher key value expiresAt indexedKey))
    (hmeets : Meets layout p now store (.putIfFresher key value expiresAt indexedKey)) :
    InStep layout p (MemoryKvStore.step store p now (.putIfFresher key value expiresAt indexedKey))
      (DynamoKvStore.step layout p calls now table (.putIfFresher key value expiresAt indexedKey))
      (PostgresKvStore.step rows p now (.putIfFresher key value expiresAt indexedKey)) := by
  obtain ⟨hstorable, hentries⟩ := hmeets
  have hvalue : ValueOk layout p value := ⟨hdomain.2, hstorable.textual⟩
  have hsettled : ∀ entry, store key = some entry → Settled now entry :=
    fun entry hentry => (hentries entry hentry).1
  rw [dynamo_putIfFresher hdomain.1 hvalue hstorable.index]
  simp only [MemoryKvStore.step, MemoryKvStore.putIfFresher, PostgresKvStore.step,
    PostgresKvStore.putIfFresher]
  rw [withExpiry_whole hstorable.whole]
  cases hentry : store key with
  | none =>
      have happlied := @inStep_applied _ _ _ _ _ h ⟨value, 1, some expiresAt, indexedKey⟩
        ⟨hvalue, le_refl _, hstorable.whole⟩ key
      have hholds : (Condition.fresher expiresAt).holds layout (table (pkOf layout key)) = true := by
        rw [h.items, hentry]
        rfl
      have hcan : MemoryKvStore.canWrite store now key expiresAt = true := by
        rw [MemoryKvStore.canWrite, live_eq_none hentry]
      rw [if_pos hcan, if_pos hholds, upsert_writes h (by simp [hentry]), hentry]
      exact happlied
  | some entry =>
      obtain ⟨-, hexpired, e, he, hle⟩ := hentries entry hentry
      have hok := h.entries key entry hentry
      have hholds : (Condition.fresher expiresAt).holds layout (table (pkOf layout key)) = false := by
        rw [h.items, hentry, Option.map_some, holds_fresher, he]
        simpa using hle
      have holder : PostgresKvStore.isOlder
          ((some expiresAt).map fun e => PostgresKvStore.trunc (e * 1000)) (rowOf entry) = false := by
        obtain ⟨n, rfl, -⟩ := hok.whole e he
        obtain ⟨m, rfl, -⟩ := hstorable.whole expiresAt rfl
        have hmn : m ≤ n := by exact_mod_cast hle
        simp only [PostgresKvStore.isOlder, rowOf, he, Option.map_some, Option.all_some,
          Option.any_some, trunc_whole, decide_eq_false_iff_not]
        omega
      have hcan : MemoryKvStore.canWrite store now key expiresAt = false := by
        simp [MemoryKvStore.canWrite, live_of_some hentry, hexpired, he, hle]
      rw [if_neg (by simp [hcan]), if_neg (by simp [hholds]), upsert_refuses h hentry holder]
      exact inStep_refused h hsettled

/-! ### Counters -/

/-- The entry that an increment starts from. -/
def entryBefore (store : MemoryKvStore) (key : String) : MemoryEntry :=
  (store key).getD ⟨fun _ => none, 0, none, none⟩

/-- And the one it leaves. -/
def entryAfter (store : MemoryKvStore) (key field : String) (sum : ℚ) (expiresAt : Option ℚ) :
    MemoryEntry :=
  ⟨(entryBefore store key).value.set field (.num sum), (entryBefore store key).version + 1,
    (entryBefore store key).expiresAt.or expiresAt, (entryBefore store key).indexedKey⟩

theorem memory_increment {field : String} {delta n : ℚ} {opts : KvWriteOptions}
    (hfield : matchesFieldPattern field = true)
    (hn : (entryBefore store key).value field = none ∧ n = 0 ∨
      (entryBefore store key).value field = some (.num n))
    (hadd : p.add n delta = n + delta) :
    MemoryKvStore.step store p now (.increment key field delta opts) =
      (.number (some (n + delta)), Table.put store key
        (entryAfter store key field (n + delta) (resolveExpiry now opts))) := by
  have hcurrent : MemoryKvStore.current p (entryBefore store key).value field = some n := by
    rcases hn with ⟨hnone, rfl⟩ | hsome
    · simp [MemoryKvStore.current, hnone]
    · simp [MemoryKvStore.current, hsome]
  simp only [MemoryKvStore.step, MemoryKvStore.increment, hfield, Bool.not_true, Bool.false_eq_true,
    if_false]
  unfold entryAfter
  cases hentry : store key with
  | none =>
      simp only [entryBefore, hentry, Option.getD_none] at hcurrent ⊢
      simp [hcurrent, hadd, MemoryKvStore.versionOf]
  | some entry =>
      simp only [entryBefore, hentry, Option.getD_some] at hcurrent ⊢
      cases he : entry.expiresAt <;> simp [hcurrent, hadd, MemoryKvStore.versionOf, he]

theorem postgres_increment (h : Same layout p store table rows) {field : String} {delta n : ℚ}
    {opts : KvWriteOptions} {ms : Option ℤ} (hfield : matchesFieldPattern field = true)
    (hexpiry : PostgresKvStore.expiryParam (resolveExpiry now opts) = .ok ms)
    (hwhole : (entryBefore store key).expiresAt = none → Whole (resolveExpiry now opts))
    (hn : (entryBefore store key).value field = none ∧ n = 0 ∨
      (entryBefore store key).value field = some (.num n))
    (hnumber : p.number (n + delta) = n + delta) :
    PostgresKvStore.step rows p now (.increment key field delta opts) =
      (.number (some (n + delta)), Table.put rows key
        (rowOf (entryAfter store key field (n + delta) (resolveExpiry now opts)))) := by
  have hms : (entryBefore store key).expiresAt = none →
      ms = (resolveExpiry now opts).map fun e => PostgresKvStore.trunc (e * 1000) := by
    intro hnone
    rw [expiryParam_whole (hwhole hnone)] at hexpiry
    injection hexpiry with hexpiry
    exact hexpiry.symm
  simp only [PostgresKvStore.step, PostgresKvStore.increment, hfield, Bool.not_true,
    Bool.false_eq_true, if_false, PostgresKvStore.withExpiry, hexpiry, h.rows]
  unfold entryAfter
  cases hentry : store key with
  | none =>
      simp only [entryBefore, hentry, Option.getD_none] at hn hms ⊢
      have hzero : n = 0 := by
        rcases hn with ⟨-, hn⟩ | hn
        · exact hn
        · cases hn
      subst hzero
      simp only [zero_add] at hnumber
      simp [hnumber, hms trivial, rowOf]
  | some entry =>
      simp only [entryBefore, hentry, Option.getD_some] at hn hms ⊢
      have hnumeric : PostgresKvStore.numeric p entry.value field = .ok n := by
        rcases hn with ⟨hnone, rfl⟩ | hsome
        · simp [PostgresKvStore.numeric, hnone]
        · simp [PostgresKvStore.numeric, hsome]
      cases he : entry.expiresAt with
      | none => simp [rowOf, hnumeric, hnumber, he, hms he]
      | some e => simp [rowOf, hnumeric, hnumber, he]

/-- What DynamoDB updates: the item, or a new one with its key only. -/
theorem itemBefore (h : Same layout p store table rows) {attr : String}
    (hattr : attr ≠ layout.versionAttr) :
    ((table (pkOf layout key)).getD (keyItem layout (pkOf layout key))) attr =
      itemOf layout key (entryBefore store key) attr := by
  rw [h.items, entryBefore]
  cases store key with
  | some entry => rfl
  | none => exact keyItem_eq hattr

theorem itemBefore_version (h : Same layout p store table rows) (item : Item)
    (hitem : item layout.versionAttr =
      (table (pkOf layout key)).getD (keyItem layout (pkOf layout key)) layout.versionAttr) :
    addTo item layout.versionAttr 1 = .ok (item.set layout.versionAttr
      (.num ((entryBefore store key).version + 1 : ℤ))) := by
  rw [h.items] at hitem
  unfold entryBefore addTo
  cases hentry : store key with
  | some entry =>
      rw [hentry] at hitem
      simp only [Option.map_some, Option.getD_some, itemOf, DynamoKvStore.assemble_version] at hitem
      rw [hitem]
      simp
  | none =>
      rw [hentry] at hitem
      simp only [Option.map_none, Option.getD_none, keyItem_version] at hitem
      rw [hitem]
      simp

/-- The item after an increment, attribute by attribute. -/
theorem itemOf_entryAfter {field : String} (hfield : field ∉ layout.reserved) (sum : ℚ)
    (expiresAt : Option ℚ) (attr : String) :
    itemOf layout key (entryAfter store key field sum expiresAt) attr =
      if attr = layout.ttlAttr then ((entryBefore store key).expiresAt.or expiresAt).map Json.num
      else if attr = layout.versionAttr then
        some (.num ((entryBefore store key).version + 1 : ℤ))
      else if attr = field then some (.num sum)
      else itemOf layout key (entryBefore store key) attr := by
  by_cases httl : attr = layout.ttlAttr
  · rw [if_pos httl, httl]
    exact DynamoKvStore.assemble_ttl _ _ _ _ _ _
  · by_cases hversion : attr = layout.versionAttr
    · rw [if_neg httl, if_pos hversion, hversion]
      exact DynamoKvStore.assemble_version _ _ _ _ _ _
    · by_cases hattr : attr = field
      · subst hattr
        rw [if_neg httl, if_neg hversion, if_pos rfl]
        exact (DynamoKvStore.assemble_value hfield _ _ _ _ _ _).trans (Fields.set_self _ _ _)
      · rw [if_neg httl, if_neg hversion, if_neg hattr]
        simp only [itemOf, DynamoKvStore.assemble, entryAfter, Fields.set_of_ne _ _ hattr, httl,
          hversion, if_false]

/-- `if_not_exists(#ttl, :ttl)`. -/
theorem expiry_kept {item : Item} {expiresAt existing : Option ℚ}
    (httl : item layout.ttlAttr = existing.map Json.num) :
    (match expiresAt, item layout.ttlAttr with
      | some expiresAt, none => pure (item.set layout.ttlAttr (.num expiresAt))
      | _, _ => pure item : Except KvError Item) =
      .ok fun attr => if attr = layout.ttlAttr then (existing.or expiresAt).map Json.num
        else item attr := by
  have hsame : ∀ expiresAt : Option ℚ, existing.or expiresAt = existing →
      item = fun attr => if attr = layout.ttlAttr then (existing.or expiresAt).map Json.num
        else item attr := by
    intro expiresAt hor
    funext attr
    by_cases hattr : attr = layout.ttlAttr
    · rw [if_pos hattr, hor, hattr, httl]
    · rw [if_neg hattr]
  cases expiresAt with
  | none => exact congrArg Except.ok (hsame none (by simp))
  | some e =>
      cases existing with
      | some old =>
          rw [httl]
          exact congrArg Except.ok (hsame (some e) rfl)
      | none =>
          rw [httl]
          refine congrArg Except.ok ?_
          funext attr
          by_cases hattr : attr = layout.ttlAttr
          · rw [if_pos hattr, hattr, Fields.set_self]
            rfl
          · rw [if_neg hattr, Fields.set_of_ne _ _ hattr]

theorem updated_eq (h : Same layout p store table rows) {field : String} {delta n : ℚ}
    {expiresAt : Option ℚ} (hfield : field ∉ layout.reserved)
    (hn : (entryBefore store key).value field = none ∧ n = 0 ∨
      (entryBefore store key).value field = some (.num n)) :
    updated layout (pkOf layout key) field delta expiresAt (table (pkOf layout key)) =
      .ok (itemOf layout key (entryAfter store key field (n + delta) expiresAt)) := by
  have hfieldVersion : field ≠ layout.versionAttr := fun h => hfield (by simp [h, DynamoKvLayout.reserved, reservedOf])
  have hfieldTtl : field ≠ layout.ttlAttr := fun h => hfield (by simp [h, DynamoKvLayout.reserved, reservedOf])
  have httlVersion := (layout_distinct layout).2.2
  set base := (table (pkOf layout key)).getD (keyItem layout (pkOf layout key)) with hbase
  have hold : ∀ attr, attr ≠ layout.versionAttr →
      base attr = itemOf layout key (entryBefore store key) attr := fun attr => itemBefore h
  have hsum : addTo base field delta = .ok (base.set field (.num (n + delta))) := by
    have hvalue : base field = (entryBefore store key).value field := by
      rw [hold field hfieldVersion]
      exact DynamoKvStore.assemble_value hfield _ _ _ _ _ _
    rcases hn with ⟨hnone, rfl⟩ | hsome
    · simp [addTo, hvalue, hnone]
    · simp [addTo, hvalue, hsome]
  have hversion : addTo (base.set field (.num (n + delta))) layout.versionAttr 1 = .ok
      ((base.set field (.num (n + delta))).set layout.versionAttr
        (.num ((entryBefore store key).version + 1 : ℤ))) :=
    itemBefore_version h _ (Fields.set_of_ne _ _ (Ne.symm hfieldVersion))
  have httl : ((base.set field (.num (n + delta))).set layout.versionAttr
      (.num ((entryBefore store key).version + 1 : ℤ))) layout.ttlAttr =
        (entryBefore store key).expiresAt.map Json.num := by
    rw [Fields.set_of_ne _ _ httlVersion, Fields.set_of_ne _ _ (Ne.symm hfieldTtl),
      hold _ httlVersion]
    exact DynamoKvStore.assemble_ttl _ _ _ _ _ _
  rw [updated, if_neg (fun hand => hfield hand.1), ← hbase, hsum]
  show (addTo _ layout.versionAttr 1 >>= _) = _
  rw [hversion]
  refine (expiry_kept httl).trans ?_
  congr 1
  funext attr
  rw [itemOf_entryAfter hfield]
  by_cases ht : attr = layout.ttlAttr
  · rw [if_pos ht, if_pos ht]
  · rw [if_neg ht, if_neg ht]
    by_cases hv : attr = layout.versionAttr
    · rw [if_pos hv, hv, Fields.set_self]
    · rw [if_neg hv, Fields.set_of_ne _ _ hv]
      by_cases hf : attr = field
      · rw [if_pos hf, hf, Fields.set_self]
      · rw [if_neg hf, Fields.set_of_ne _ _ hf, hold attr hv]

theorem dynamo_increment (h : Same layout p store table rows) {field : String} {delta n : ℚ}
    {opts : KvWriteOptions} (hkey : KeyOk layout key) (hreserved : field ∉ layout.reserved)
    (hfield : matchesFieldPattern field = true)
    (hn : (entryBefore store key).value field = none ∧ n = 0 ∨
      (entryBefore store key).value field = some (.num n))
    (hnumber : p.number (n + delta) = n + delta) :
    DynamoKvStore.step layout p calls now table (.increment key field delta opts) =
      (.number (some (n + delta)), Table.put table (pkOf layout key)
        (itemOf layout key (entryAfter store key field (n + delta) (resolveExpiry now opts)))) := by
  show (DynamoKvStore.increment layout p key field delta opts).exec _ _ = _
  rw [DynamoKvStore.increment, hfield, if_neg (by simp), DynamoKvStore.exec_now, buildPk_ok hkey,
    DynamoKvStore.checked_ok]
  set item := itemOf layout key (entryAfter store key field (n + delta) (resolveExpiry now opts))
    with hitem
  have hsend : (send (.updateItem (pkOf layout key) field delta (resolveExpiry now opts)) :
      Handler (Except KvError Item)).exec (DynamoKvStore.answer layout now) table =
        (.ok item, Table.put table (pkOf layout key) item) := by
    refine (DynamoKvStore.exec_send now table _).trans ?_
    simp only [apply, updated_eq h hreserved hn]
    rfl
  refine (DynamoKvStore.exec_attempt (congrArg Prod.fst hsend)).trans ?_
  have hresult : DynamoKvStore.resultOf p item field delta = some (n + delta) := by
    have hvalue : item field = some (.num (n + delta)) :=
      (DynamoKvStore.assemble_value hreserved _ _ _ _ _ _).trans (Fields.set_self _ _ _)
    simp only [DynamoKvStore.resultOf, hvalue, hnumber]
  rw [hsend, hresult]
  rfl

theorem entryAfter_ok (h : Same layout p store table rows) {field : String} {sum : ℚ}
    {expiresAt : Option ℚ} (hreserved : field ∉ layout.reserved) (hnumber : p.number sum = sum)
    (hwhole : (entryBefore store key).expiresAt = none → Whole expiresAt) :
    EntryOk layout p (entryAfter store key field sum expiresAt) := by
  have hbefore : ValueOk layout p (entryBefore store key).value ∧
      0 ≤ (entryBefore store key).version ∧ Whole (entryBefore store key).expiresAt := by
    unfold entryBefore
    cases hentry : store key with
    | none => exact ⟨⟨fun _ _ => rfl, fun _ => rfl⟩, le_refl 0, fun _ h => nomatch h⟩
    | some entry =>
        have hok := h.entries key entry hentry
        exact ⟨hok.value, le_trans zero_le_one hok.version, hok.whole⟩
  obtain ⟨hvalue, hversion, hexpiry⟩ := hbefore
  refine ⟨⟨?_, ?_⟩, ?_, ?_⟩
  · intro attr hattr
    have hne : attr ≠ field := fun h => hreserved (h ▸ hattr)
    exact (Fields.set_of_ne _ _ hne).trans (hvalue.clean attr hattr)
  · intro name
    by_cases hname : name = field
    · subst hname
      simp [entryAfter, Fields.set_self, Platform.parsed, hnumber]
    · simp only [entryAfter, Fields.set_of_ne _ _ hname]
      exact hvalue.parsed name
  · show 1 ≤ (entryBefore store key).version + 1
    omega
  · show Whole ((entryBefore store key).expiresAt.or expiresAt)
    cases he : (entryBefore store key).expiresAt with
    | none => exact hwhole he
    | some e =>
        rw [he] at hexpiry
        exact hexpiry

theorem inStep_increment (h : Same layout p store table rows) {field : String} {delta : ℚ}
    {opts : KvWriteOptions} (hdomain : InDomain layout (.increment key field delta opts))
    (hmeets : Meets layout p now store (.increment key field delta opts)) :
    InStep layout p (MemoryKvStore.step store p now (.increment key field delta opts))
      (DynamoKvStore.step layout p calls now table (.increment key field delta opts))
      (PostgresKvStore.step rows p now (.increment key field delta opts)) := by
  obtain ⟨hkey, hreserved⟩ := hdomain
  cases hfield : matchesFieldPattern field with
  | false =>
      -- The name is refused before anything is asked for.
      have hdynamo : DynamoKvStore.step layout p calls now table (.increment key field delta opts) =
          (.failed invalidField, table) := by
        show (DynamoKvStore.increment layout p key field delta opts).exec _ _ = _
        rw [DynamoKvStore.increment, hfield]
        rfl
      rw [hdynamo]
      simp only [MemoryKvStore.step, MemoryKvStore.increment, PostgresKvStore.step,
        PostgresKvStore.increment, hfield, Bool.not_false, if_true]
      exact ⟨rfl, rfl, h⟩
  | true =>
      obtain ⟨⟨ms, hms⟩, hwhole, n, hn, hadd, hnumber⟩ := hmeets hfield
      have hbase : (((store key).map MemoryEntry.value).getD fun _ => none) =
          (entryBefore store key).value := by
        unfold entryBefore
        cases store key <;> rfl
      have hexpires : (store key).bind MemoryEntry.expiresAt =
          (entryBefore store key).expiresAt := by
        unfold entryBefore
        cases store key <;> rfl
      rw [hbase] at hn
      rw [hexpires] at hwhole
      rw [memory_increment hfield hn hadd, dynamo_increment h hkey hreserved hfield hn hnumber,
        postgres_increment h hfield hms hwhole hn hnumber]
      exact ⟨rfl, rfl, h.put (entryAfter_ok h hreserved hnumber hwhole) key⟩

/-! ### Deletes and queries -/

theorem dynamo_delete (hkey : KeyOk layout key) (expectedVersion : Option ℤ) :
    DynamoKvStore.step layout p calls now table (.delete key expectedVersion) =
      if (deleteCondition expectedVersion).holds layout (table (pkOf layout key)) then
        (.deleted (table (pkOf layout key)).isSome, Table.erase table (pkOf layout key))
      else (.deleted false, table) := by
  show (DynamoKvStore.delete layout key expectedVersion).exec _ _ = _
  unfold DynamoKvStore.delete
  rw [buildPk_ok hkey, DynamoKvStore.checked_ok]
  show Prog.exec _ (send (.deleteItem (pkOf layout key) (deleteCondition expectedVersion)) >>= _) _
    = _
  rw [Prog.exec_bind, DynamoKvStore.exec_deleteItem]
  by_cases hholds :
      (deleteCondition expectedVersion).holds layout (table (pkOf layout key)) = true
  · rw [if_pos hholds, if_pos hholds]
    rfl
  · rw [if_neg hholds, if_neg hholds]
    rfl

theorem inStep_delete (h : Same layout p store table rows) {expectedVersion : Option ℤ}
    (hkey : KeyOk layout key) :
    InStep layout p (MemoryKvStore.step store p now (.delete key expectedVersion))
      (DynamoKvStore.step layout p calls now table (.delete key expectedVersion))
      (PostgresKvStore.step rows p now (.delete key expectedVersion)) := by
  rw [dynamo_delete hkey, h.items]
  simp only [MemoryKvStore.step, PostgresKvStore.step, PostgresKvStore.delete,
    MemoryKvStore.delete, h.rows]
  cases hentry : store key with
  | none =>
      cases expectedVersion with
      | some version => exact ⟨rfl, rfl, h⟩
      | none =>
          -- An unconditional delete of what is not there.
          have hrow : rows key = none := by rw [h.rows, hentry, Option.map_none]
          have herase := h.erase key
          rw [Table.erase_absent hentry, Table.erase_absent hrow] at herase
          exact ⟨rfl, rfl, herase⟩
  | some entry =>
      cases expectedVersion with
      | none => exact ⟨rfl, rfl, h.erase key⟩
      | some version =>
          simp only [deleteCondition, Option.map_some, holds_version, rowOf, Option.all_some]
          by_cases hversion : entry.version = version
          · simp only [hversion, decide_true, if_true, ne_eq, not_true, if_false]
            exact ⟨rfl, rfl, h.erase key⟩
          · simp only [hversion, decide_false, Bool.false_eq_true, if_false, ne_eq, not_false_iff,
              if_true]
            exact ⟨rfl, rfl, h⟩

theorem dynamo_queryByIndex {index : DynamoIndex} (hindex : layout.index = some index)
    {indexValue : String} (hnonempty : indexValue ≠ "") :
    DynamoKvStore.step layout p calls now table (.queryByIndex indexValue) =
      (.rows (DynamoKvStore.rowsOf layout p now fun pk => (table pk).filter fun item =>
        match item index.pkAttr with
        | some (.str s) => s == indexValue
        | _ => false), table) := by
  show (DynamoKvStore.queryByIndex layout p indexValue).exec _ _ = _
  unfold DynamoKvStore.queryByIndex
  rw [hindex]
  have hsend : (send (.query indexValue) : Handler (Except KvError (Table String Item))).exec
      (DynamoKvStore.answer layout now) table =
        (.ok fun pk => (table pk).filter fun item => match item index.pkAttr with
          | some (.str s) => s == indexValue
          | _ => false, table) := by
    refine (DynamoKvStore.exec_send now table _).trans ?_
    simp only [apply, if_neg hnonempty, hindex, Option.any_some] <;> rfl
  refine (DynamoKvStore.exec_attempt (congrArg Prod.fst hsend)).trans ?_
  rw [hsend]
  rfl

theorem inStep_queryByIndex (h : Same layout p store table rows) {indexValue : String}
    (hmeets : Meets layout p now store (.queryByIndex indexValue)) :
    InStep layout p (MemoryKvStore.step store p now (.queryByIndex indexValue))
      (DynamoKvStore.step layout p calls now table (.queryByIndex indexValue))
      (PostgresKvStore.step rows p now (.queryByIndex indexValue)) := by
  obtain ⟨hindex, hnonempty, hsettled⟩ := hmeets
  obtain ⟨index, hindex⟩ := Option.ne_none_iff_exists'.mp hindex
  rw [dynamo_queryByIndex hindex hnonempty]
  refine ⟨congrArg Result.rows ?_, congrArg Result.rows ?_, h⟩
  · funext key
    show ((table (pkOf layout key)).filter _).bind _ = _
    rw [h.items, MemoryKvStore.queryByIndex]
    cases hentry : store key with
    | none => simp [live_eq_none hentry]
    | some entry =>
        have hok := h.entries key entry hentry
        have hmatches : (match (itemOf layout key entry) index.pkAttr with
            | some (.str s) => s == indexValue
            | _ => false) = (entry.indexedKey == some indexValue) := by
          rw [itemOf_indexPk hindex]
          cases entry.indexedKey <;> rfl
        rw [live_of_some hentry]
        cases hexpired : entry.isExpired now <;>
          by_cases hindexed : entry.indexedKey = some indexValue <;>
            simp [Option.filter, hmatches, hindexed, isExpiredItem_itemOf, hexpired,
              toRecord_itemOf hok.value]
  · funext key
    rw [PostgresKvStore.queryByIndex, MemoryKvStore.queryByIndex, h.rows]
    cases hentry : store key with
    | none => simp [live_eq_none hentry]
    | some entry =>
        have hok := h.entries key entry hentry
        rw [live_of_some hentry]
        by_cases hindexed : entry.indexedKey = some indexValue
        · have hlive := isLive_rowOf hok (hsettled key entry hentry hindexed)
          cases hexpired : entry.isExpired now <;>
            simp [Option.filter, hindexed, hlive, hexpired, rowToRecord_rowOf hok,
              show (rowOf entry).indexedKey = entry.indexedKey from rfl]
        · cases entry.isExpired now <;>
            simp [Option.filter, hindexed,
              show (rowOf entry).indexedKey = entry.indexedKey from rfl]

theorem step_inStep (h : Same layout p store table rows) {op : Op} (hdomain : InDomain layout op)
    (hmeets : Meets layout p now store op) :
    InStep layout p (MemoryKvStore.step store p now op)
      (DynamoKvStore.step layout p (calls + 1) now table op)
      (PostgresKvStore.step rows p now op) := by
  cases op with
  | get key consistent includeExpired => exact inStep_get h hdomain hmeets
  | put key value opts => exact inStep_put h hdomain hmeets
  | putIfAbsent key value opts => exact inStep_putIfAbsent h hdomain hmeets
  | compareAndSet key expectedVersion value opts => exact inStep_compareAndSet h hdomain hmeets
  | putIfFresher key value expiresAt indexedKey => exact inStep_putIfFresher h hdomain hmeets
  | increment key field delta opts => exact inStep_increment h hdomain hmeets
  | delete key expectedVersion => exact inStep_delete h hdomain
  | queryByIndex indexValue => exact inStep_queryByIndex h hmeets

end Operations

/-! ## Runs -/

/-- What a run of operations returns, each at its moment. -/
def results {Store : Type} (step : Store → ℤ → Op → Result × Store) :
    Store → List (ℤ × Op) → List Result
  | _, [] => []
  | store, (now, op) :: ops => (step store now op).1 :: results step (step store now op).2 ops

def memoryResults (p : Platform) : List (ℤ × Op) → List Result :=
  results (fun store now => MemoryKvStore.step store p now) Table.empty

def dynamoResults (layout : DynamoKvLayout) (p : Platform) (calls : Nat) :
    List (ℤ × Op) → List Result :=
  results (fun table now => DynamoKvStore.step layout p calls now table) Table.empty

def postgresResults (p : Platform) : List (ℤ × Op) → List Result :=
  results (fun rows now => PostgresKvStore.step rows p now) Table.empty

/-- Every operation meets the condition, on the records it finds. -/
def AllMeet (layout : DynamoKvLayout) (p : Platform) : MemoryKvStore → List (ℤ × Op) → Prop
  | _, [] => True
  | store, (now, op) :: ops => Meets layout p now store op ∧
      AllMeet layout p (MemoryKvStore.step store p now op).2 ops

section Runs

variable {layout : DynamoKvLayout} {p : Platform} {calls : Nat}

theorem same_empty : Same layout p Table.empty Table.empty Table.empty where
  entries := fun _ _ h => nomatch h
  items := fun _ => rfl
  rows := fun _ => rfl

theorem results_same {store : MemoryKvStore} {table : DynamoTable} {rows : PostgresKvStore}
    {ops : List (ℤ × Op)} (h : Same layout p store table rows)
    (hdomain : ∀ call ∈ ops, InDomain layout call.2) (hmeets : AllMeet layout p store ops) :
    results (fun table now => DynamoKvStore.step layout p (calls + 1) now table) table ops =
        results (fun store now => MemoryKvStore.step store p now) store ops ∧
      results (fun rows now => PostgresKvStore.step rows p now) rows ops =
        results (fun store now => MemoryKvStore.step store p now) store ops := by
  induction ops generalizing store table rows with
  | nil => exact ⟨rfl, rfl⟩
  | cons call ops ih =>
      obtain ⟨now, op⟩ := call
      obtain ⟨hmeetsNow, hmeetsLater⟩ := hmeets
      obtain ⟨hdynamo, hpostgres, hsame⟩ := @step_inStep layout p calls now store table rows h op
        (hdomain (now, op) List.mem_cons_self) hmeetsNow
      obtain ⟨ihDynamo, ihPostgres⟩ := ih hsame
        (fun call hcall => hdomain call (List.mem_cons_of_mem _ hcall)) hmeetsLater
      exact ⟨congrArg₂ List.cons hdynamo ihDynamo, congrArg₂ List.cons hpostgres ihPostgres⟩

end Runs

/-! ## A small namespace -/

namespace Small

theorem keyOk_job : KeyOk layout "job" := .inr (by decide)

theorem clean_noFields : Clean layout noFields := fun _ _ => rfl

theorem storable_job (n : ℤ) (hn : PostgresKvStore.isMoment (n * 1000)) :
    Storable layout platform "job" noFields (some n) none where
  textual := fun _ => rfl
  whole := by
    rintro e ⟨⟩
    exact ⟨n, rfl, hn⟩
  index := fun _ h => nomatch h

def isFound : Result → Bool
  | .found record => record.isSome
  | _ => false

/-- A lock is taken, renewed and found again. -/
def renewal : List (ℤ × Op) :=
  [(0, .putIfAbsent "job" noFields (expires 60)), (5000, .compareAndSet "job" 1 noFields (expires 90)),
    (70000, .get "job" true false)]

/-- A record is read in the second in which it expires. -/
def lastSecond : List (ℤ × Op) :=
  [(0, .put "job" noFields (expires 60)), (60000, .get "job" true false)]

end Small

end SaasFoundation.Foundation.Kv
