import SaasFoundation.Foundation.Kv.Dynamo
import SaasFoundation.Foundation.Kv.Postgres
import Mathlib.Data.List.Pairwise

/-!
# The sweep

`sweepExpiredKvEntries` removes the rows that have expired. Reads do not show
them anyway, but a write goes on from the version, the fields and the expiry
of the row it meets, and a `delete` counts it. So a swept row is not missed
only where nothing is written or deleted over a row that has expired.

The store that is never swept is what the swept one would be had nothing been
removed; the two agree on every row that has not expired.
-/

namespace SaasFoundation.Foundation.Kv.Sweep

open Lib PostgresKvStore

inductive Action where
  | call (op : Op)
  | sweep

/-- The results of the calls, one after another. -/
def results (p : Platform) : PostgresKvStore → List (ℤ × Action) → List Result
  | _, [] => []
  | rows, (now, .call op) :: actions =>
      (step rows p now op).1 :: results p (step rows p now op).2 actions
  | rows, (now, .sweep) :: actions => results p (rows.sweep now) actions

/-- The calls alone. -/
def unswept : List (ℤ × Action) → List (ℤ × Action)
  | [] => []
  | (now, .call op) :: actions => (now, .call op) :: unswept actions
  | (_, .sweep) :: actions => unswept actions

/-- Time does not run backwards. -/
def Forwards (actions : List (ℤ × Action)) : Prop := (actions.map Prod.fst).Pairwise (· ≤ ·)

/-- No read that asks for expired records. -/
def Filtered : Action → Prop
  | .call (.get _ _ includeExpired) => includeExpired = false
  | _ => True

/-- The server accepts the parameters. -/
def accepts (now : ℤ) : Op → Bool
  | .put _ _ opts => (expiryParam (resolveExpiry now opts)).isOk
  | .putIfAbsent _ _ opts => (expiryParam (resolveExpiry now opts)).isOk
  | .compareAndSet _ _ _ opts => (expiryParam (resolveExpiry now opts)).isOk
  | .putIfFresher _ _ expiresAt _ => (expiryParam (some expiresAt)).isOk
  | .increment _ field _ opts =>
      matchesFieldPattern field && (expiryParam (resolveExpiry now opts)).isOk
  | _ => true

def expiredAt (rows : PostgresKvStore) (now : ℤ) (key : String) : Bool :=
  (rows key).any (isExpired now)

/-- The operation does not write over an expired row, nor remove one. -/
def Indifferent (rows : PostgresKvStore) (now : ℤ) (op : Op) : Prop :=
  match op with
  | .get _ _ _ => True
  | .queryByIndex _ => True
  | .compareAndSet key expectedVersion _ _ =>
      accepts now op = true → expectedVersion = 0 → expiredAt rows now key = false
  | .delete key expectedVersion => ∀ row, rows key = some row → isExpired now row = true →
      (expectedVersion.all fun v => row.version = v) = false
  | .put key _ _ => accepts now op = true → expiredAt rows now key = false
  | .putIfAbsent key _ _ => accepts now op = true → expiredAt rows now key = false
  | .putIfFresher key _ _ _ => accepts now op = true → expiredAt rows now key = false
  | .increment key _ _ _ => accepts now op = true → expiredAt rows now key = false

/-- Every call of a run without sweeps is indifferent. -/
def AllIndifferent (p : Platform) : PostgresKvStore → List (ℤ × Action) → Prop
  | _, [] => True
  | rows, (now, .call op) :: actions =>
      Indifferent rows now op ∧ AllIndifferent p (step rows p now op).2 actions
  | rows, (_, .sweep) :: actions => AllIndifferent p rows actions

/-! ## Two stores -/

/-- Rows that have expired may be missing in the second store. -/
def Swept (now : ℤ) (rows rows' : PostgresKvStore) : Prop :=
  ∀ key, rows' key = rows key ∨
    rows' key = none ∧ ∃ row, rows key = some row ∧ isExpired now row = true

section Swept

variable {now now' : ℤ} {rows rows' : PostgresKvStore} {key : String}

theorem isExpired_mono {row : KvRow} (hle : now ≤ now') (h : isExpired now row = true) :
    isExpired now' row = true := by
  unfold isExpired at *
  cases hexpiry : row.expiresAt with
  | none => simp [hexpiry] at h
  | some ms =>
      simp only [hexpiry, Option.any_some, decide_eq_true_eq] at h ⊢
      omega

theorem isLive_of_isExpired {row : KvRow} (h : isExpired now row = true) :
    isLive now row = false := by
  unfold isExpired at h
  unfold isLive
  cases hexpiry : row.expiresAt with
  | none => simp [hexpiry] at h
  | some ms =>
      simp only [hexpiry, Option.any_some, Option.all_some, decide_eq_true_eq] at h ⊢
      simp only [decide_eq_false_iff_not]
      omega

theorem Swept.refl (now : ℤ) (rows : PostgresKvStore) : Swept now rows rows := fun _ => .inl rfl

theorem Swept.mono (h : Swept now rows rows') (hle : now ≤ now') : Swept now' rows rows' := by
  intro key
  rcases h key with hsame | ⟨hnone, row, hrow, hexpired⟩
  · exact .inl hsame
  · exact .inr ⟨hnone, row, hrow, isExpired_mono hle hexpired⟩

theorem Swept.sweep (h : Swept now rows rows') : Swept now rows (rows'.sweep now) := by
  intro key
  unfold PostgresKvStore.sweep
  rcases h key with hsame | ⟨hnone, hrow⟩
  · rw [hsame]
    cases hrow : rows key with
    | none => exact .inl rfl
    | some row =>
        by_cases hexpired : isExpired now row = true
        · exact .inr ⟨by simp [Option.filter, hexpired], row, rfl, hexpired⟩
        · exact .inl (by simp [Option.filter, hexpired])
  · rw [hnone]
    exact .inr ⟨rfl, hrow⟩

theorem Swept.put (h : Swept now rows rows') (key : String) (row : KvRow) :
    Swept now (Table.put rows key row) (Table.put rows' key row) := by
  intro key'
  rw [Table.put_apply, Table.put_apply]
  by_cases hkey : key' = key
  · exact .inl (by simp [hkey])
  · simpa [hkey] using h key'

theorem Swept.erase (h : Swept now rows rows') (key : String) :
    Swept now (Table.erase rows key) (Table.erase rows' key) := by
  intro key'
  rw [Table.erase_apply, Table.erase_apply]
  by_cases hkey : key' = key
  · exact .inl (by simp [hkey])
  · simpa [hkey] using h key'

/-- Rows that have not expired are in both. -/
theorem Swept.same (h : Swept now rows rows') (hkey : expiredAt rows now key = false) :
    rows' key = rows key := by
  rcases h key with hsame | ⟨-, row, hrow, hexpired⟩
  · exact hsame
  · simp [expiredAt, hrow, hexpired] at hkey

/-- Reads see no difference. -/
theorem Swept.live (h : Swept now rows rows') (key : String) :
    (rows' key).filter (isLive now) = (rows key).filter (isLive now) := by
  rcases h key with hsame | ⟨hnone, row, hrow, hexpired⟩
  · rw [hsame]
  · rw [hnone, hrow]
    simp [Option.filter, isLive_of_isExpired hexpired]

theorem Swept.get (h : Swept now rows rows') (p : Platform) (key : String) :
    rows'.get p now key false = rows.get p now key false := by
  simp only [PostgresKvStore.get, Bool.false_eq_true, if_false, h.live key]

end Swept

/-! ## One operation -/

/-- The same result, and stores that differ in expired rows at most. -/
def Agree {α : Type} (now : ℤ) (done done' : α × PostgresKvStore) : Prop :=
  done'.1 = done.1 ∧ Swept now done.2 done'.2

section Step

variable {p : Platform} {now : ℤ} {rows rows' : PostgresKvStore} {key : String} {value : Fields}

theorem upsert_agree (h : Swept now rows rows') (hsame : rows' key = rows key)
    (condition : KvRow → Bool) (expiresAt : Option ℤ) (indexedKey : Option String) :
    Agree now (rows.upsert condition key value expiresAt indexedKey)
      (rows'.upsert condition key value expiresAt indexedKey) := by
  unfold upsert
  rw [hsame]
  cases rows key with
  | none => exact ⟨rfl, h.put key _⟩
  | some row =>
      by_cases hcondition : condition row = true
      · simp only [hcondition, if_true]
        exact ⟨rfl, h.put key _⟩
      · simp only [hcondition]
        exact ⟨rfl, h⟩

/-- Only live rows are updated. -/
theorem update_agree (h : Swept now rows rows') (expectedVersion : ℤ) (expiresAt : Option ℤ)
    (indexedKey : Option String) :
    Agree now (rows.update now key expectedVersion value expiresAt indexedKey)
      (rows'.update now key expectedVersion value expiresAt indexedKey) := by
  unfold update
  rcases h key with hsame | ⟨hnone, row, hrow, hexpired⟩
  · rw [hsame]
    cases rows key with
    | none => exact ⟨rfl, h⟩
    | some row =>
        by_cases hholds : row.version = expectedVersion ∧ isLive now row = true
        · simp only [hholds, and_self, if_true]
          exact ⟨rfl, h.put key _⟩
        · simp only [hholds, if_false]
          exact ⟨rfl, h⟩
  · rw [hnone, hrow]
    simp only [isLive_of_isExpired hexpired, Bool.false_eq_true, and_false, if_false]
    exact ⟨rfl, h⟩

theorem appliedCas_agree {expiry : Option ℚ} {written written' : Option ℤ × PostgresKvStore}
    (h : Agree now written written') :
    Agree now (appliedCas p now key value expiry written)
      (appliedCas p now key value expiry written') := by
  obtain ⟨version, after⟩ := written
  obtain ⟨version', after'⟩ := written'
  obtain ⟨rfl, hafter⟩ : version' = version ∧ Swept now after after' := h
  cases version' with
  | some version => exact ⟨rfl, hafter⟩
  | none => exact ⟨congrArg (Result.cas false) (hafter.get p key), hafter⟩

theorem withExpiry_agree {expiry : Option ℚ}
    {statement statement' : Option ℤ → Result × PostgresKvStore} (h : Swept now rows rows')
    (hstatement : ∀ expiresAt, (expiryParam expiry).isOk = true →
      Agree now (statement expiresAt) (statement' expiresAt)) :
    Agree now (withExpiry rows expiry statement) (withExpiry rows' expiry statement') := by
  unfold withExpiry
  cases hparam : expiryParam expiry with
  | ok expiresAt => exact hstatement expiresAt (by simp [hparam, Except.isOk, Except.toBool])
  | error e => exact ⟨rfl, h⟩

theorem increment_agree (h : Swept now rows rows') {field : String} {delta : ℚ}
    {opts : KvWriteOptions} (hrow : accepts now (.increment key field delta opts) = true →
      expiredAt rows now key = false) :
    Agree now (rows.increment p now key field delta opts)
      (rows'.increment p now key field delta opts) := by
  unfold increment
  by_cases hfield : matchesFieldPattern field = true
  · simp only [hfield, Bool.not_true, Bool.false_eq_true, if_false]
    refine withExpiry_agree h fun expiresAt hok => ?_
    rw [h.same (hrow (by simp [accepts, hfield, hok]))]
    cases rows key with
    | none => exact ⟨rfl, h.put key _⟩
    | some row =>
        cases hn : numeric p row.value field with
        | error e =>
            simp only [hn]
            exact ⟨rfl, h⟩
        | ok n =>
            simp only [hn]
            exact ⟨rfl, h.put key _⟩
  · simp only [hfield, Bool.not_false, if_true]
    exact ⟨rfl, h⟩

theorem delete_agree (h : Swept now rows rows') {expectedVersion : Option ℤ}
    (hrow : ∀ row, rows key = some row → isExpired now row = true →
      (expectedVersion.all fun v => row.version = v) = false) :
    Agree now (rows.delete key expectedVersion) (rows'.delete key expectedVersion) := by
  unfold delete
  rcases h key with hsame | ⟨hnone, row, hsome, hexpired⟩
  · rw [hsame]
    cases rows key with
    | none => exact ⟨rfl, h⟩
    | some row =>
        by_cases hversion : (expectedVersion.all fun v => row.version = v) = true
        · simp only [hversion, if_true]
          exact ⟨rfl, h.erase key⟩
        · simp only [hversion]
          exact ⟨rfl, h⟩
  · rw [hnone, hsome]
    simp only [hrow row hsome hexpired, Bool.false_eq_true, if_false]
    exact ⟨rfl, h⟩

theorem step_agree (h : Swept now rows rows') {op : Op} (hfiltered : Filtered (.call op))
    (hop : Indifferent rows now op) :
    Agree now (rows.step p now op) (rows'.step p now op) := by
  cases op with
  | get key consistent includeExpired =>
      rw [show includeExpired = false from hfiltered]
      exact ⟨congrArg Result.found (h.get p key), h⟩
  | put key value opts =>
      refine withExpiry_agree h fun expiresAt hok => ?_
      have hupsert : Agree now (rows.upsert (fun _ => true) key value expiresAt opts.indexedKey)
          (rows'.upsert (fun _ => true) key value expiresAt opts.indexedKey) :=
        upsert_agree h (h.same (hop hok)) _ _ _
      refine ⟨?_, hupsert.2⟩
      show Result.written _ = Result.written _
      rw [hupsert.1]
  | putIfAbsent key value opts =>
      refine withExpiry_agree h fun expiresAt hok => ?_
      exact appliedCas_agree (upsert_agree h (h.same (hop hok)) _ _ _)
  | compareAndSet key expectedVersion value opts =>
      refine withExpiry_agree h fun expiresAt hok => appliedCas_agree ?_
      by_cases hzero : expectedVersion = 0
      · simp only [hzero, if_true]
        exact upsert_agree h (h.same (hop hok hzero)) _ _ _
      · simp only [hzero, if_false]
        exact update_agree h _ _ _
  | putIfFresher key value expiresAt indexedKey =>
      refine withExpiry_agree h fun incoming hok => ?_
      exact appliedCas_agree (upsert_agree h (h.same (hop hok)) _ _ _)
  | increment key field delta opts => exact increment_agree h hop
  | delete key expectedVersion => exact delete_agree h hop
  | queryByIndex indexValue =>
      refine ⟨congrArg Result.rows ?_, h⟩
      funext key
      show ((rows' key).filter _).map _ = ((rows key).filter _).map _
      rcases h key with hsame | ⟨hnone, row, hrow, hexpired⟩
      · rw [hsame]
      · rw [hnone, hrow]
        simp [Option.filter, isLive_of_isExpired hexpired]

end Step

/-! ## Runs -/

theorem results_swept (p : Platform) {actions : List (ℤ × Action)} (hforwards : Forwards actions)
    (hfiltered : ∀ action ∈ actions, Filtered action.2) :
    ∀ {now : ℤ} {rows rows' : PostgresKvStore}, (∀ action ∈ actions, now ≤ action.1) →
      Swept now rows rows' → AllIndifferent p rows actions →
      results p rows' actions = results p rows (unswept actions) := by
  induction actions with
  | nil => intros; rfl
  | cons action actions ih =>
      obtain ⟨moment, act⟩ := action
      intro now rows rows' hnow hswept hop
      obtain ⟨hmoments, hrest⟩ := List.pairwise_cons.mp hforwards
      have hothers := fun action h => hfiltered action (List.mem_cons_of_mem _ h)
      have hlater : ∀ action ∈ actions, moment ≤ action.1 :=
        fun action h => hmoments action.1 (List.mem_map_of_mem h)
      have hswept := hswept.mono (hnow (moment, act) List.mem_cons_self)
      cases act with
      | call op =>
          obtain ⟨hresult, hstores⟩ :=
            step_agree (p := p) hswept (hfiltered (moment, .call op) List.mem_cons_self) hop.1
          simp only [results, unswept]
          rw [hresult, ih hrest hothers hlater hstores hop.2]
      | sweep =>
          simp only [results, unswept]
          exact ih hrest hothers hlater hswept.sweep hop

/-- Sweeps change no result of a run in which nothing is written or removed
over an expired row. -/
theorem sweep_transparent (p : Platform) (rows : PostgresKvStore) (actions : List (ℤ × Action))
    (hforwards : Forwards actions) (hfiltered : ∀ action ∈ actions, Filtered action.2)
    (hindifferent : AllIndifferent p rows actions) :
    results p rows actions = results p rows (unswept actions) := by
  cases actions with
  | nil => rfl
  | cons action actions =>
      have hlater := (List.pairwise_cons.mp hforwards).1
      refine results_swept p hforwards hfiltered ?_ (Swept.refl action.1 rows) hindifferent
      intro later hmem
      rcases List.mem_cons.mp hmem with rfl | hmem
      · exact le_refl _
      · exact hlater later.1 (List.mem_map_of_mem hmem)

/-! ## Two small runs -/

namespace Small

open Kv.Small

/-- Takes the lock, until this moment. -/
def lock (moment : ℚ) : Action := .call (.putIfAbsent "job" noFields (expires moment))

/-- The lock is read after it has expired, and another one is taken. -/
def readAfterSweep : List (ℤ × Action) :=
  [(0, lock 10), (60000, .sweep), (60000, .call (.get "job" false false)),
    (60000, .call (.putIfAbsent "other" noFields (expires 90)))]

theorem sweep_transparent_read :
    Forwards readAfterSweep ∧ results platform Table.empty readAfterSweep =
      results platform Table.empty (unswept readAfterSweep) := by
  have hforwards : Forwards readAfterSweep := by
    unfold Forwards
    decide
  refine ⟨hforwards, sweep_transparent platform Table.empty readAfterSweep hforwards ?_ ?_⟩
  · simp [readAfterSweep, lock, Filtered]
  · refine ⟨fun _ => rfl, trivial, fun _ => ?_, trivial⟩
    decide +kernel

/-- The holder of the expired lock gives it back after it was taken over. -/
def releasedLate : List (ℤ × Action) :=
  [(0, lock 10), (60000, .sweep), (60000, lock 90), (60000, .call (.delete "job" (some 1)))]

def isDeleted : Result → Bool
  | .deleted deleted => deleted
  | _ => false

/-- After a sweep the version of the new lock is that of the old one, and the
late release takes effect; without the sweep it does not. -/
theorem sweep_transparent_fails : ¬ ∀ p rows actions, Forwards actions →
    (∀ action ∈ actions, Filtered action.2) →
      results p rows actions = results p rows (unswept actions) := by
  intro hall
  have hforwards : Forwards releasedLate := by
    unfold Forwards
    decide
  have hsame := hall platform Table.empty releasedLate hforwards
    (by simp [releasedLate, lock, Filtered])
  have hdeleted := congrArg (List.map isDeleted) hsame
  revert hdeleted
  decide +kernel

end Small

end SaasFoundation.Foundation.Kv.Sweep
