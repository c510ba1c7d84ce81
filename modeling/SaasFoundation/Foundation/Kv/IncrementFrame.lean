import SaasFoundation.Foundation.Kv.Agreement
import SaasFoundation.Foundation.Kv.DynamoSystem

/-!
# What an increment leaves alone

`increment` checks how its field is spelled and leaves the rest to DynamoDB,
which refuses to add to the key, to the keys of the index and to what the
same expression names already. The expiry is named only if the call brings
one: without it, the attribute of the expiry is a field like any other.
-/

namespace SaasFoundation.Foundation.Kv

open Lib DynamoKvStore

section Increment

variable {layout : DynamoKvLayout} {p : Platform} {calls : Nat} {now : ℤ} {table : DynamoTable}
  {key field : String} {delta : ℚ} {opts : KvWriteOptions} {old new : Item}

/-- A number that something was added to; nothing counts as zero. -/
def Added (before after : Option Json) (n : ℚ) : Prop :=
  ∃ m, (before = none ∧ m = 0 ∨ before = some (.num m)) ∧ after = some (.num (m + n))

/-- The old value with just this field changed. -/
def changedRecord (layout : DynamoKvLayout) (p : Platform) (field : String) (old new : Item) :
    KvRecord :=
  ⟨fun name => if name = field then (new field).map p.parsed else (toRecord layout p old).value name,
    (toRecord layout p old).version + 1, ttlOf layout new⟩

/-- The field grows by `delta` and the version by one, an expiry comes in
where there was none, and nothing else changes. -/
structure IncrementFrame (layout : DynamoKvLayout) (p : Platform) (calls : Nat)
    (after : DynamoTable) (key field : String) (delta : ℚ) (expiresAt : Option ℚ)
    (old new : Item) : Prop where
  counted : Added (old field) (new field) delta
  version : Added (old layout.versionAttr) (new layout.versionAttr) 1
  ttl : new layout.ttlAttr = (old layout.ttlAttr).or (expiresAt.map Json.num)
  others : ∀ attr, attr ≠ field → attr ≠ layout.versionAttr → attr ≠ layout.ttlAttr →
    new attr = old attr
  get : ∀ later consistent includeExpired,
    (step layout p calls later after (.get key consistent includeExpired)).1 =
      .found (if !includeExpired && isExpiredItem layout later new then none
        else some (changedRecord layout p field old new))

theorem addTo_added {item item' : Item} {attr : String} {n : ℚ} (h : addTo item attr n = .ok item') :
    Added (item attr) (item' attr) n := by
  unfold addTo at h
  split at h
  · rename_i hnone
    cases h
    exact ⟨0, .inl ⟨hnone, rfl⟩, by rw [Fields.set_self, zero_add]⟩
  · rename_i m hm
    cases h
    exact ⟨m, .inr hm, Fields.set_self _ _ _⟩
  · cases h

theorem not_reserved {attr : String} (h : attr ∉ layout.reserved) :
    attr ≠ layout.versionAttr ∧ attr ≠ layout.ttlAttr := by
  constructor
  · rintro rfl
    exact h (by simp [DynamoKvLayout.reserved, reservedOf])
  · rintro rfl
    exact h (by simp [DynamoKvLayout.reserved, reservedOf])

/-- An increment that DynamoDB carries out. -/
theorem increment_ok (hkey : KeyOk layout key) (hpattern : matchesFieldPattern field = true)
    (hupdated : updated layout (pkOf layout key) field delta (resolveExpiry now opts)
      (table (pkOf layout key)) = .ok new) :
    step layout p calls now table (.increment key field delta opts) =
      (.number (resultOf p new field delta), Table.put table (pkOf layout key) new) := by
  show (increment layout p key field delta opts).exec (answer layout now) table = _
  have hsend := @exec_send layout now table
    (.updateItem (pkOf layout key) field delta (resolveExpiry now opts))
  simp only [apply, hupdated] at hsend
  rw [increment, if_neg (by simp [hpattern]), exec_now, buildPk_ok hkey, checked_ok,
    exec_attempt (congrArg Prod.fst hsend), hsend]
  rfl

/-- An increment that came back with a number was carried out. -/
theorem increment_accepted {n : Option ℚ}
    (h : (step layout p calls now table (.increment key field delta opts)).1 = .number n) :
    KeyOk layout key ∧ matchesFieldPattern field = true ∧ ∃ new,
      updated layout (pkOf layout key) field delta (resolveExpiry now opts)
        (table (pkOf layout key)) = .ok new := by
  change ((increment layout p key field delta opts).exec (answer layout now) table).1 = _ at h
  unfold increment at h
  split at h
  · cases h
  · rename_i hpattern
    by_cases hkey : KeyOk layout key
    · refine ⟨hkey, by simpa using hpattern, ?_⟩
      rw [exec_now, buildPk_ok hkey, checked_ok] at h
      have hsend := @exec_send layout now table
        (.updateItem (pkOf layout key) field delta (resolveExpiry now opts))
      simp only [apply] at hsend
      cases hupdated : updated layout (pkOf layout key) field delta (resolveExpiry now opts)
          (table (pkOf layout key)) with
      | ok new => exact ⟨new, rfl⟩
      | error e =>
          rw [hupdated] at hsend
          rw [exec_attempt_error (congrArg Prod.fst hsend)] at h
          cases h
    · rw [exec_now, buildPk_error hkey] at h
      cases h

/-- What DynamoDB makes of the item, one attribute at a time. -/
theorem updated_frame {pk : String} {expiresAt : Option ℚ} (hfield : field ∉ layout.reserved)
    (h : updated layout pk field delta expiresAt (some old) = .ok new) :
    Added (old field) (new field) delta ∧
      Added (old layout.versionAttr) (new layout.versionAttr) 1 ∧
      new layout.ttlAttr = (old layout.ttlAttr).or (expiresAt.map Json.num) ∧
      ∀ attr, attr ≠ field → attr ≠ layout.versionAttr → attr ≠ layout.ttlAttr →
        new attr = old attr := by
  obtain ⟨hversion, httl⟩ := not_reserved hfield
  have hdistinct := (layout_distinct layout).2.2
  obtain ⟨added, bumped, hadded, hbumped, hitem⟩ := updated_cases h
  rw [Option.getD_some] at hadded
  -- the last step sets the expiry and nothing else
  have hlast : ∀ attr, attr ≠ layout.ttlAttr → new attr = bumped attr := by
    intro attr hattr
    rcases hitem with ⟨-, rfl⟩ | ⟨e, -, -, rfl⟩
    · rfl
    · exact Fields.set_of_ne _ _ hattr
  have hkept : bumped layout.ttlAttr = old layout.ttlAttr := by
    rw [addTo_of_ne hbumped hdistinct, addTo_of_ne hadded (Ne.symm httl)]
  refine ⟨?_, ?_, ?_, fun attr hattr hattrVersion hattrTtl => ?_⟩
  · rw [hlast _ httl, addTo_of_ne hbumped hversion]
    exact addTo_added hadded
  · rw [hlast _ hdistinct.symm]
    have := addTo_added hbumped
    rwa [addTo_of_ne hadded (Ne.symm hversion)] at this
  · rcases hitem with ⟨hset, rfl⟩ | ⟨e, rfl, hnone, rfl⟩
    · rw [← hkept]
      rcases hset with rfl | hset
      · rw [Option.map_none, Option.or_none]
      · obtain ⟨v, hv⟩ := Option.ne_none_iff_exists'.mp hset
        rw [hv, Option.some_or]
    · rw [Fields.set_self, ← hkept, hnone]
      rfl
  · rw [hlast _ hattrTtl, addTo_of_ne hbumped hattrVersion, addTo_of_ne hadded hattr]

/-- Where an increment is accepted, it keeps to its frame exactly if it does
not take the attribute of the expiry for a field. -/
theorem increment_frame_iff (layout : DynamoKvLayout) (p : Platform) (calls : Nat) (now : ℤ)
    (table : DynamoTable) (key field : String) (delta : ℚ) (opts : KvWriteOptions) (old : Item)
    (n : Option ℚ) (hold : table (pkOf layout key) = some old)
    (haccepted : (step layout p calls now table (.increment key field delta opts)).1 = .number n) :
    ∃ new after, (step layout p calls now table (.increment key field delta opts)).2 = after ∧
      after (pkOf layout key) = some new ∧ (∀ pk, pk ≠ pkOf layout key → after pk = table pk) ∧
      (IncrementFrame layout p calls after key field delta (resolveExpiry now opts) old new ↔
        ¬ (field = layout.ttlAttr ∧ resolveExpiry now opts = none)) := by
  obtain ⟨hkey, hpattern, new, hupdated⟩ := increment_accepted haccepted
  refine ⟨new, _, congrArg Prod.snd (increment_ok hkey hpattern hupdated), Table.put_self _ _ _, fun pk hpk => Table.put_of_ne _ _ hpk, ?_⟩
  have hget : ∀ later consistent includeExpired,
      (step layout p calls later (Table.put table (pkOf layout key) new)
        (.get key consistent includeExpired)).1 =
        .found (if !includeExpired && isExpiredItem layout later new then none
          else some (toRecord layout p new)) := by
    intro later consistent includeExpired
    rw [dynamo_get hkey, Table.put_self]
    cases hexpired : isExpiredItem layout later new <;> cases includeExpired <;>
      simp [liveRecord, Option.filter, hexpired]
  constructor
  · rintro hframe ⟨rfl, -⟩
    -- the expiry is no part of the value that is read
    have hread := hframe.get 0 true true
    rw [hget] at hread
    simp only [Bool.not_true, Bool.false_and, Bool.false_eq_true, if_false, Result.found.injEq,
      Option.some.injEq] at hread
    have hvalue := congrFun (congrArg KvRecord.value hread) layout.ttlAttr
    obtain ⟨m, -, hnew⟩ := hframe.counted
    have hreserved : layout.ttlAttr ∈ layout.reserved := by
      simp [DynamoKvLayout.reserved, reservedOf]
    simp [toRecord, changedRecord, hreserved, hnew] at hvalue
  · intro hnot
    have hfield : field ∉ layout.reserved := (updated_field hupdated).resolve_right hnot
    rw [hold] at hupdated
    obtain ⟨hcounted, hversion, httl, hothers⟩ := updated_frame hfield hupdated
    refine ⟨hcounted, hversion, httl, hothers, fun later consistent includeExpired => ?_⟩
    rw [hget]
    have hrecord : toRecord layout p new = changedRecord layout p field old new := by
      unfold toRecord changedRecord
      congr 1
      · funext name
        by_cases hname : name = field
        · rw [if_pos hname, hname, if_neg hfield]
        · by_cases hreserved : name ∈ layout.reserved
          · simp [hname, hreserved, toRecord]
          · obtain ⟨hnameVersion, hnameTtl⟩ := not_reserved hreserved
            simp [hname, hreserved, toRecord, hothers name hname hnameVersion hnameTtl]
      · have := versionOf_updated hupdated
        simpa [toRecord] using this
    rw [hrecord]

end Increment

namespace Small

/-- Three failed attempts, to be forgotten at second 100. -/
def attempts : Item := fun attr =>
  if attr = "pk" then some (.str "LOCK#job") else if attr = "_v" then some (.num 1)
  else if attr = "count" then some (.num 3) else if attr = "expiresAt" then some (.num 100) else none

def attemptsTable : DynamoTable := Table.put Table.empty (pkOf layout "job") attempts

def noExpiry : KvWriteOptions := ⟨none, none, none⟩

/-- The item after one more attempt, and after a day has been added. -/
def afterAdding (attr : String) (n : ℚ) (old : ℚ) : Item :=
  (attempts.set attr (.num (old + n))).set "_v" (.num (1 + 1))

theorem attempts_key : attemptsTable (pkOf layout "job") = some attempts := Table.put_self _ _ _

theorem updated_count : updated layout (pkOf layout "job") "count" 1 none
    (attemptsTable (pkOf layout "job")) = .ok (afterAdding "count" 1 3) := by
  rw [attempts_key, updated, if_neg (by decide)]
  rfl

theorem updated_expiresAt : updated layout (pkOf layout "job") "expiresAt" 86400 none
    (attemptsTable (pkOf layout "job")) = .ok (afterAdding "expiresAt" 86400 100) := by
  rw [attempts_key, updated, if_neg (by decide)]
  rfl

theorem increment_frame_count : ∃ new after,
    (step layout platform 1 0 attemptsTable (.increment "job" "count" 1 noExpiry)).2 = after ∧
      after (pkOf layout "job") = some new ∧
      (∀ pk, pk ≠ pkOf layout "job" → after pk = attemptsTable pk) ∧
      (IncrementFrame layout platform 1 after "job" "count" 1 none attempts new ↔
        ¬ ("count" = layout.ttlAttr ∧ (none : Option ℚ) = none)) :=
  increment_frame_iff layout platform 1 0 attemptsTable "job" "count" 1 noExpiry attempts _
    attempts_key (congrArg Prod.fst (increment_ok keyOk_job (by decide) updated_count))

/-- Adding to `expiresAt` keeps the attempts a day longer. -/
theorem increment_moves_expiry : ¬ ∀ (layout : DynamoKvLayout) (p : Platform) (calls : Nat) (now : ℤ)
    (table : DynamoTable) (key field : String) (delta : ℚ) (opts : KvWriteOptions) (old : Item)
    (n : Option ℚ), table (pkOf layout key) = some old →
    (step layout p calls now table (.increment key field delta opts)).1 = .number n →
    ∃ new, (step layout p calls now table (.increment key field delta opts)).2 (pkOf layout key) =
        some new ∧
      IncrementFrame layout p calls (step layout p calls now table
        (.increment key field delta opts)).2 key field delta (resolveExpiry now opts) old new := by
  intro hclaim
  have hstep := @increment_ok layout platform 1 0 attemptsTable "job" "expiresAt" 86400 noExpiry _
    keyOk_job (by decide) updated_expiresAt
  obtain ⟨new, hnew, hframe⟩ := hclaim layout platform 1 0 attemptsTable "job" "expiresAt" 86400
    noExpiry attempts _ attempts_key (congrArg Prod.fst hstep)
  have hsame : some (afterAdding "expiresAt" 86400 100) = some new := by
    rw [← hnew, hstep]
    exact (Table.put_self attemptsTable (pkOf layout "job") _).symm
  cases hsame
  have hkept : some (Json.num (100 + 86400)) = some (.num 100) := hframe.ttl
  simp only [Option.some.injEq, Json.num.injEq] at hkept
  norm_num at hkept

end Small

end SaasFoundation.Foundation.Kv
