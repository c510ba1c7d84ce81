import SaasFoundation.Foundation.Kv.Agreement
import SaasFoundation.Foundation.Kv.DynamoRuns

/-!
# Items without a version

An item written before there were versions is read as one of version 0. The
conditions of the writes know no version 0: they ask for no item at all, or
for the attribute with this very number. So what a `get` returns of such an
item can be neither replaced nor deleted under its version, and the item is
not taken over when it has expired.
-/

namespace SaasFoundation.Foundation.Kv

open Lib DynamoKvStore

section Legacy

variable {layout : DynamoKvLayout} {p : Platform} {calls : Nat} {now : ℤ} {table : DynamoTable}
  {key pk : String} {item : Item} {value : Fields} {opts : KvWriteOptions}

/-- Ends without having applied its write. -/
def Loses (layout : DynamoKvLayout) (now : ℤ) (table : DynamoTable) (q : Handler Result) : Prop :=
  (q.exec (answer layout now) table).1.applied = false

theorem loses_checked {α : Type} {result : Except KvError α} {f : α → Handler Result}
    (h : ∀ a, result = .ok a → Loses layout now table (f a)) :
    Loses layout now table (checked result f) := by
  cases result with
  | ok a => exact h a rfl
  | error e => rfl

theorem loses_refused : Loses layout now table (refused layout p pk) := by
  unfold Loses
  rw [exec_refused]
  rfl

/-- A write whose condition fails is lost, unless what follows wins. -/
theorem loses_conditionalPut {written : Item} {condition : Condition} {lost : Handler Result}
    (hcondition : condition.holds layout (table pk) = false) (hlost : Loses layout now table lost) :
    Loses layout now table (conditionalPut layout p pk written condition lost) := by
  unfold Loses at *
  cases hempty : emptyIndexKey layout written with
  | false => rwa [exec_conditionalPut hempty, if_neg (by simp [hcondition])]
  | true =>
      rw [exec_conditionalPut_empty hempty]
      rfl

theorem notExists_fails (hitem : table pk = some item) :
    Condition.notExists.holds layout (table pk) = false := by
  simp [Condition.holds, hitem]

/-- No version is not the version 0. -/
theorem versionIs_fails (hitem : table pk = some item) (hlegacy : item layout.versionAttr = none)
    (version : ℤ) : (Condition.versionIs version).holds layout (table pk) = false := by
  simp [Condition.holds, hitem, hlegacy]

theorem versionOf_legacy (hlegacy : item layout.versionAttr = none) : versionOf layout item = 0 := by
  simp [versionOf, hlegacy]

theorem compareAndSet_legacy (hitem : table (pkOf layout key) = some item)
    (hlegacy : item layout.versionAttr = none) (expectedVersion : ℤ) :
    Loses layout now table (compareAndSet layout p key expectedVersion value opts) := by
  apply loses_checked
  intro built hbuilt
  rw [buildPk_eq (buildItem_cases hbuilt).1]
  apply loses_conditionalPut _ loses_refused
  split
  · exact notExists_fails hitem
  · exact versionIs_fails hitem hlegacy _

theorem putIfAbsent_legacy (hitem : table (pkOf layout key) = some item)
    (hlegacy : item layout.versionAttr = none) :
    Loses layout now table (putIfAbsent layout p key value opts calls) := by
  cases calls with
  | zero => rfl
  | succ calls =>
      apply loses_checked
      intro create hcreate
      rw [buildPk_eq (buildItem_cases hcreate).1]
      apply loses_conditionalPut (notExists_fails hitem)
      unfold Loses
      rw [exec_getRawItem, hitem]
      dsimp only
      rw [exec_now]
      split
      · rfl
      · -- the takeover asks for the version 0
        apply loses_checked
        intro takeover htakeover
        rw [buildPk_eq (buildItem_cases htakeover).1]
        exact loses_conditionalPut (versionIs_fails hitem hlegacy _) loses_refused

theorem delete_legacy (hkey : KeyOk layout key) (hitem : table (pkOf layout key) = some item)
    (hlegacy : item layout.versionAttr = none) (version : ℤ) :
    (step layout p calls now table (.delete key (some version))).1 = .deleted false := by
  rw [dynamo_delete hkey, deleteCondition, versionIs_fails hitem hlegacy]
  rfl

/-- What the module promises of an item without a version. -/
structure NoBackfill (layout : DynamoKvLayout) (p : Platform) (calls : Nat) (table : DynamoTable)
    (key : String) (item : Item) : Prop where
  /-- The record that a read returns can be replaced. -/
  compareAndSet : ∀ now consistent includeExpired record,
    (step layout p calls now table (.get key consistent includeExpired)).1 =
      .found (some record) → ∀ value opts, ValueOk layout p value → IndexOk layout key opts.indexedKey →
      (step layout p calls now table (.compareAndSet key record.version value opts)).1.applied = true
  /-- It can be deleted. -/
  delete : ∀ now consistent includeExpired record,
    (step layout p calls now table (.get key consistent includeExpired)).1 =
      .found (some record) →
      (step layout p calls now table (.delete key (some record.version))).1 = .deleted true
  /-- Once it has expired, it is taken over. -/
  putIfAbsent : ∀ now, isExpiredItem layout now item = true → ∀ value opts, ValueOk layout p value →
    IndexOk layout key opts.indexedKey →
    (step layout p calls now table (.putIfAbsent key value opts)).1.applied = true

/-- None of it holds of any item: the record a read returns has version 0,
under which it is neither replaced nor deleted, and the item is not taken
over. -/
theorem legacy_stuck (layout : DynamoKvLayout) (p : Platform) (calls : Nat) (table : DynamoTable)
    (key : String) (item : Item) (hkey : KeyOk layout key)
    (hitem : table (pkOf layout key) = some item) (hlegacy : item layout.versionAttr = none) :
    (∀ now consistent, ∃ record,
      (step layout p calls now table (.get key consistent true)).1 = .found (some record)) ∧
    (∀ now consistent includeExpired record,
      (step layout p calls now table (.get key consistent includeExpired)).1 =
        .found (some record) → record.version = 0 ∧ ∀ later,
        (∀ value opts, (step layout p calls later table
          (.compareAndSet key record.version value opts)).1.applied = false) ∧
        (step layout p calls later table (.delete key (some record.version))).1 = .deleted false) ∧
    ∀ now value opts,
      (step layout p calls now table (.putIfAbsent key value opts)).1.applied = false := by
  refine ⟨fun now consistent => ?_, fun now consistent includeExpired record hget => ?_,
    fun now value opts => putIfAbsent_legacy hitem hlegacy⟩
  · rw [dynamo_get hkey, hitem]
    exact ⟨_, rfl⟩
  · refine ⟨?_, fun later => ⟨fun value opts => compareAndSet_legacy hitem hlegacy _,
      delete_legacy hkey hitem hlegacy _⟩⟩
    rw [dynamo_get hkey, hitem] at hget
    have hrecord : record = toRecord layout p item := by
      cases includeExpired with
      | true =>
          cases hget
          rfl
      | false =>
          simp only [liveRecord, Option.filter, Bool.false_eq_true, if_false] at hget
          split at hget <;> cases hget
          rfl
    rw [hrecord]
    exact versionOf_legacy hlegacy

end Legacy

namespace Small

/-- Units that were counted before there were versions. -/
def counted : Item := fun attr =>
  if attr = "pk" then some (.str "LOCK#job") else if attr = "units" then some (.num 5) else none

def countedTable : DynamoTable := Table.put Table.empty "LOCK#job" counted

theorem counted_legacy : countedTable (pkOf layout "job") = some counted ∧
    counted layout.versionAttr = none := by
  have hpk : pkOf layout "job" = "LOCK#job" := by decide
  exact ⟨by rw [hpk]; exact Table.put_self _ _ _, by decide⟩

theorem legacy_stuck_counted :
    (step layout platform 1 0 countedTable (.putIfAbsent "job" noFields (expires 60))).1.applied =
      false :=
  (legacy_stuck layout platform 1 countedTable "job" counted keyOk_job counted_legacy.1
    counted_legacy.2).2.2 0 noFields (expires 60)

/-- It is read as a record of version 0, and cannot be deleted as one. -/
theorem backfill_needed : ¬ ∀ (layout : DynamoKvLayout) (p : Platform) (calls : Nat)
    (table : DynamoTable) (key : String) (item : Item), KeyOk layout key →
    table (pkOf layout key) = some item → item layout.versionAttr = none →
    NoBackfill layout p calls table key item := by
  intro hclaim
  obtain ⟨hitem, hlegacy⟩ := counted_legacy
  have hworks := hclaim layout platform 1 countedTable "job" counted keyOk_job hitem hlegacy
  have hget := @dynamo_get layout platform 1 0 countedTable "job" keyOk_job true true
  rw [hitem] at hget
  have hdeleted := hworks.delete 0 true true _ (congrArg Prod.fst hget)
  rw [delete_legacy keyOk_job hitem hlegacy] at hdeleted
  cases hdeleted

end Small

end SaasFoundation.Foundation.Kv
