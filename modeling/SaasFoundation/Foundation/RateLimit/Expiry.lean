import SaasFoundation.Foundation.RateLimit.Limiters
import SaasFoundation.Foundation.RateLimit.Results
import SaasFoundation.Lib.BigStep

/-!
# Rows that expire

Each write of a bucket says from which second on the store may delete the
row. By then the bucket is full, and an absent bucket is a full one: calls
made one after another return the same whether the row was deleted or not.

The outside decides what the clock says and which requests fail; both go by
the number of requests made so far, so that two runs can be compared.
-/

namespace SaasFoundation.Foundation.RateLimit

open Lib

/-! ## Calls made one after another -/

/-- A stored bucket, and the second of its `ttl` or `expires_at`. -/
structure Row where
  state : BucketState
  expiresAt : ℤ
deriving DecidableEq, Repr

/-- The clock and the failures; a write that failed may have been applied. -/
structure Outside where
  clock : ℕ → ℚ
  fault : ℕ → Option (StoreError × Bool)
  forward : Monotone clock

structure Db where
  rows : Table String Row
  requests : ℕ

def Db.empty : Db := ⟨Table.empty, 0⟩

/-- One more request was made. -/
def Db.tick (w : Db) : Db := ⟨w.rows, w.requests + 1⟩

/-- A write, if the condition holds of what is there. -/
def Db.write (outside : Outside) (w : Db) (k : String) (condition : Bool) (row : Row) :
    Except StoreError Unit × Db :=
  let written : Db := if condition then ⟨w.rows.put k row, w.requests⟩ else w
  match outside.fault w.requests with
  | some (e, applied) => (.error e, if applied then written.tick else w.tick)
  | none => (if condition then .ok () else .error .conflict, written.tick)

def Outside.step (outside : Outside) (w : Db) : (op : Request) → Reply op × Db
  | .now => (outside.clock w.requests, w.tick)
  | .sleep _ => ((), w.tick)
  | .readState k =>
      match outside.fault w.requests with
      | some (e, _) => (.error e, w.tick)
      | none => (.ok ((w.rows k).map Row.state), w.tick)
  | .insertState k s expiresAt => w.write outside k (w.rows k = none) ⟨s, expiresAt⟩
  | .updateState k s prev expiresAt =>
      w.write outside k ((w.rows k).map (fun row => row.state.lastRefillMs) = some prev)
        ⟨s, expiresAt⟩

inductive LimiterCall where
  | consume (key : String) (cost : ℚ)
  | peek (key : String)
deriving DecidableEq, Repr

def LimiterCall.program (store : Store) (opts : LimiterOptions)
    (config : Option TokenBucketConfig) : LimiterCall → Handler Output
  | .consume key cost => RateLimit.consume store opts key cost config
  | .peek key => RateLimit.peek opts key config

/-- A call, or the store deletes a row at some time. -/
inductive Moment where
  | call (c : LimiterCall)
  | delete (bucketKey : String) (nowMs : ℚ)
deriving DecidableEq, Repr

section Sequence

variable (outside : Outside) (store : Store) (opts : LimiterOptions)
  (config : Option TokenBucketConfig)

def Db.call (w : Db) (c : LimiterCall) : Output × Db :=
  (c.program store opts config).exec outside.step w

/-- What the calls return. -/
def outputs : Db → List Moment → List Output
  | _, [] => []
  | w, .call c :: ms =>
      (w.call outside store opts config c).1 :: outputs (w.call outside store opts config c).2 ms
  | w, .delete k _ :: ms => outputs ⟨w.rows.erase k, w.requests⟩ ms

/-- The calls without the deletions. -/
def callsOnly (ms : List Moment) : List Moment :=
  ms.filter fun
    | .call _ => true
    | .delete _ _ => false

/-- Every row that is deleted has reached its expiry, and the clock has
reached the time of the deletion when it is read next. -/
def Timely : Db → List Moment → Prop
  | _, [] => True
  | w, .call c :: ms => Timely (w.call outside store opts config c).2 ms
  | w, .delete k nowMs :: ms =>
      (∀ row, w.rows k = some row → row.expiresAt * 1000 ≤ nowMs) ∧
        nowMs ≤ outside.clock w.requests ∧ Timely ⟨w.rows.erase k, w.requests⟩ ms

end Sequence

/-! ## Full from the expiry on -/

/-- Full at this time and ever after. -/
def FullFrom (config : TokenBucketConfig) (s : BucketState) (nowMs : ℚ) : Prop :=
  ∀ later, nowMs ≤ later → FullAt config (some s) later

/-- The expiry a limiter stores comes after the bucket has filled: the clock
is read no earlier than for the refill, and the margin makes up for the
rounding to seconds. -/
theorem fullFrom_expiry {config : TokenBucketConfig} {s : BucketState} {clock : ℚ}
    (hclock : s.lastRefillMs ≤ clock) :
    FullFrom config s
      ((Rat.floor (clock / 1000) + computeBucketTtlSeconds s config : ℤ) * 1000) := by
  intro later hlater
  have hfloor := @Rat.lt_floor_add_one (clock / 1000)
  have hceil := @Rat.le_ceil (max 0 (config.capacity - s.tokens) / config.refillRate)
  unfold computeBucketTtlSeconds at hlater
  push_cast at hlater hfloor
  apply fullAt_iff.mpr
  apply le_max_of_le_right
  linarith

/-- The rows of `w` are those of `v`, but for some that are full from now
on. -/
structure Emptier (outside : Outside) (config : TokenBucketConfig) (w v : Db) : Prop where
  requests : w.requests = v.requests
  rows : ∀ k, w.rows k = v.rows k ∨ w.rows k = none ∧ ∃ row, v.rows k = some row ∧
    FullFrom config row.state (outside.clock v.requests)
  sound : ∀ k row, v.rows k = some row → FullFrom config row.state (row.expiresAt * 1000)

/-- A program that cannot tell which rows are missing. -/
def Same {α : Type} (outside : Outside) (config : TokenBucketConfig) (p : Handler α) : Prop :=
  ∀ w v, Emptier outside config w v →
    (p.exec outside.step w).1 = (p.exec outside.step v).1 ∧
      Emptier outside config (p.exec outside.step w).2 (p.exec outside.step v).2

section Simulation

variable {outside : Outside} {store : Store} {opts : LimiterOptions} {config : TokenBucketConfig}
  {w v : Db} {k : String}

theorem FullFrom.mono {s : BucketState} {t later : ℚ} (h : FullFrom config s t) (hle : t ≤ later) :
    FullFrom config s later :=
  fun t' ht' => h t' (hle.trans ht')

theorem Emptier.tick (h : Emptier outside config w v) :
    Emptier outside config w.tick v.tick := by
  refine ⟨congrArg (· + 1) h.requests, fun k => ?_, h.sound⟩
  rcases h.rows k with hk | ⟨hw, row, hv, hfull⟩
  · exact .inl hk
  · exact .inr ⟨hw, row, hv, hfull.mono (outside.forward (Nat.le_succ _))⟩

theorem Emptier.put (h : Emptier outside config w v) {row : Row}
    (hrow : FullFrom config row.state (row.expiresAt * 1000)) :
    Emptier outside config ⟨w.rows.put k row, w.requests⟩ ⟨v.rows.put k row, v.requests⟩ := by
  refine ⟨h.requests, fun k' => ?_, fun k' row' hk' => ?_⟩
  · by_cases hk : k' = k
    · subst hk
      simp
    · simp only [Table.put_of_ne _ _ hk]
      exact h.rows k'
  · rcases Table.put_some hk' with ⟨-, rfl⟩ | ⟨-, hold⟩
    · exact hrow
    · exact h.sound k' row' hold

/-- A row that has reached its expiry may go. -/
theorem Emptier.erase (h : Emptier outside config w v) {nowMs : ℚ}
    (hexpired : ∀ row, w.rows k = some row → row.expiresAt * 1000 ≤ nowMs)
    (hnow : nowMs ≤ outside.clock w.requests) :
    Emptier outside config ⟨w.rows.erase k, w.requests⟩ v := by
  refine ⟨h.requests, fun k' => ?_, h.sound⟩
  by_cases hk : k' = k
  · subst hk
    simp only [Table.erase_self]
    rcases h.rows k' with hsame | hgone
    · cases hv : v.rows k' with
      | none => exact .inl rfl
      | some row =>
          refine .inr ⟨trivial, row, rfl, (h.sound k' row hv).mono ?_⟩
          rw [← h.requests]
          exact (hexpired row (hsame.trans hv)).trans hnow
    · exact .inr ⟨trivial, hgone.2⟩
  · simp only [Table.erase_of_ne _ hk]
    exact h.rows k'

theorem Emptier.clock_eq (h : Emptier outside config w v) :
    outside.clock w.requests = outside.clock v.requests := by
  rw [h.requests]

theorem Emptier.fault_eq (h : Emptier outside config w v) :
    outside.fault w.requests = outside.fault v.requests := by
  rw [h.requests]

/-- Where both conditions hold or both fail, a write ends alike. -/
theorem Emptier.write (h : Emptier outside config w v) {condition : Bool} {row : Row}
    (hrow : FullFrom config row.state (row.expiresAt * 1000)) :
    (w.write outside k condition row).1 = (v.write outside k condition row).1 ∧
      Emptier outside config (w.write outside k condition row).2
        (v.write outside k condition row).2 := by
  have hwritten : Emptier outside config
      (if condition then ⟨w.rows.put k row, w.requests⟩ else w)
      (if condition then ⟨v.rows.put k row, v.requests⟩ else v) := by
    by_cases hc : condition = true
    · rw [if_pos hc, if_pos hc]
      exact h.put hrow
    · rw [if_neg hc, if_neg hc]
      exact h
  have hfault := h.fault_eq
  unfold Db.write
  simp only [hfault]
  cases outside.fault v.requests with
  | none => exact ⟨rfl, hwritten.tick⟩
  | some f =>
      refine ⟨rfl, ?_⟩
      by_cases happlied : f.2 = true
      · simp only [happlied, if_true]
        exact hwritten.tick
      · simp only [happlied]
        exact h.tick

theorem same_ret {α : Type} (a : α) : Same outside config (.ret a : Handler α) :=
  fun _ _ h => ⟨rfl, h⟩

theorem same_now {α : Type} {k : ℚ → Handler α} (hk : ∀ nowMs, Same outside config (k nowMs)) :
    Same outside config (.ask .now k) := by
  intro w v h
  have hclock := h.clock_eq
  simp only [Prog.exec_ask, Outside.step, hclock]
  exact hk _ _ _ h.tick

theorem same_sleep {α : Type} {ms : Nat} {p : Handler α} (hp : Same outside config p) :
    Same outside config (.ask (.sleep ms) fun _ => p) :=
  fun _ _ h => hp _ _ h.tick

/-- What a call reads gives the same results in both. -/
theorem Emptier.tokensAt (h : Emptier outside config w v) {nowMs : ℚ}
    (hnow : outside.clock v.requests ≤ nowMs) :
    RateLimit.tokensAt config ((w.rows k).map Row.state) nowMs =
      RateLimit.tokensAt config ((v.rows k).map Row.state) nowMs := by
  rcases h.rows k with hk | ⟨hw, row, hv, hfull⟩
  · rw [hk]
  · rw [hw, hv]
    exact tokensAt_none.trans (hfull nowMs hnow).symm

/-- Nothing came between the read and the write: the condition holds. -/
theorem exec_putState {s : BucketState} {prev : Option BucketState} {expiresAt : ℤ}
    (hprev : (w.rows k).map Row.state = prev) :
    (putState k s prev expiresAt).exec outside.step w =
      w.write outside k true ⟨s, expiresAt⟩ := by
  subst hprev
  cases hrow : w.rows k with
  | none =>
      show w.write outside k (decide (w.rows k = none)) _ = _
      rw [hrow]
      rfl
  | some row =>
      show w.write outside k
        (decide ((w.rows k).map (fun row => row.state.lastRefillMs) = some row.state.lastRefillMs))
        _ = _
      rw [hrow]
      simp

theorem Emptier.writeState (h : Emptier outside config w v) {s : BucketState}
    {prev prev' : Option BucketState} {nowMs : ℚ} (hprev : (w.rows k).map Row.state = prev)
    (hprev' : (v.rows k).map Row.state = prev') (hs : s.lastRefillMs = nowMs)
    (hnow : nowMs ≤ outside.clock w.requests) :
    ((RateLimit.writeState store k s prev config nowMs).exec outside.step w).1 =
        ((RateLimit.writeState store k s prev' config nowMs).exec outside.step v).1 ∧
      Emptier outside config
        ((RateLimit.writeState store k s prev config nowMs).exec outside.step w).2
        ((RateLimit.writeState store k s prev' config nowMs).exec outside.step v).2 := by
  cases store with
  | dynamo =>
      have hclock := h.clock_eq
      simp only [RateLimit.writeState, expiryClock, request, Prog.call_bind, Prog.exec_ask,
        Outside.step]
      rw [exec_putState (w := w.tick) hprev, exec_putState (w := v.tick) hprev', hclock]
      exact h.tick.write (fullFrom_expiry (hs.trans_le (hnow.trans hclock.le)))
  | postgres =>
      simp only [RateLimit.writeState, expiryClock, Prog.pure_def, Prog.ret_bind]
      rw [exec_putState hprev, exec_putState hprev']
      exact h.write (fullFrom_expiry hs.le)

theorem same_consumeOnce {cost : ℚ}
    {again : StoreError → Option (Handler (Except StoreError RateLimitResult))}
    (hagain : ∀ e p, again e = some p → Same outside config p) :
    Same outside config (consumeOnce store k cost config again) := by
  intro w v h
  have hclock := h.clock_eq
  have hfault := h.tick.fault_eq
  simp only [consumeOnce, request, Prog.call_bind, Prog.exec_ask, Outside.step, hclock, hfault]
  cases outside.fault v.tick.requests with
  | some f => exact ⟨rfl, h.tick.tick⟩
  | none =>
      -- both compute the same, whether they have found the row or none
      have hsame := @compute_congr config _ _ _ cost (h.tokensAt (k := k) le_rfl)
      have hnow : outside.clock v.requests ≤ outside.clock w.tick.tick.requests := by
        rw [← hclock]
        exact outside.forward (by simp only [Db.tick]; omega)
      simp only [Db.tick, Prog.exec_bind, hsame]
      obtain ⟨hwrite, hafter⟩ := @Emptier.writeState _ store _ _ _ k h.tick.tick
        (computeConsumeResult ((v.rows k).map Row.state) (outside.clock v.requests) cost
          config).newState _ _ _ rfl rfl newState_lastRefillMs hnow
      simp only [Db.tick] at hwrite hafter
      rw [hwrite]
      split
      · exact ⟨rfl, hafter⟩
      · rename_i e _
        cases hp : again e with
        | none => exact ⟨rfl, hafter⟩
        | some p => exact hagain e p hp _ _ hafter

theorem same_consumeWithRetry {cost : ℚ} (retries : Nat) :
    Same outside config (consumeWithRetry store k cost config retries) := by
  induction retries with
  | zero => exact same_consumeOnce (by simp)
  | succ retries ih =>
      apply same_consumeOnce
      intro e p hp
      split at hp
      · cases hp
        exact same_sleep ih
      · cases hp

/-- No call can tell. -/
theorem same_call (overrides : Option TokenBucketConfig) (c : LimiterCall) :
    Same outside (overrides.getD opts.defaultConfig) (c.program store opts overrides) := by
  cases c with
  | consume key cost =>
      simp only [LimiterCall.program, consume]
      split
      · exact same_now fun _ => same_ret _
      · exact same_consumeWithRetry _
  | peek key =>
      intro w v h
      have hclock := h.clock_eq
      have hfault := h.tick.fault_eq
      simp only [LimiterCall.program, peek, request, Prog.call_bind, Prog.exec_ask, Outside.step,
        hclock, hfault]
      cases outside.fault v.tick.requests with
      | some f => exact ⟨rfl, h.tick.tick⟩
      | none => exact ⟨congrArg Except.ok (peek_congr (h.tokensAt le_rfl)), h.tick.tick⟩

/-- A run with deletions returns what the run without them returns. -/
theorem Emptier.outputs (overrides : Option TokenBucketConfig) {ms : List Moment}
    (h : Emptier outside (overrides.getD opts.defaultConfig) w v)
    (htimely : Timely outside store opts overrides w ms) :
    RateLimit.outputs outside store opts overrides w ms =
      RateLimit.outputs outside store opts overrides v (callsOnly ms) := by
  induction ms generalizing w v with
  | nil => rfl
  | cons m ms ih =>
      cases m with
      | call c =>
          obtain ⟨hout, hafter⟩ := same_call overrides c w v h
          exact congrArg₂ List.cons hout (ih hafter htimely)
      | delete k nowMs => exact ih (h.erase htimely.1 htimely.2.1) htimely.2.2

end Simulation

/-- For calls one after another on either limiter, with one configuration
and a clock that does not go back: rows deleted once their expiry has come
are missed by nobody. -/
theorem expiry_sound (outside : Outside) (store : Store) (opts : LimiterOptions)
    (config : Option TokenBucketConfig) (ms : List Moment)
    (htimely : Timely outside store opts config Db.empty ms) :
    outputs outside store opts config Db.empty ms =
      outputs outside store opts config Db.empty (callsOnly ms) := by
  apply Emptier.outputs config _ htimely
  exact ⟨rfl, fun _ => .inl rfl, fun _ _ h => (nomatch h)⟩

namespace Small

/-- A request every hundred seconds, none of which fails. -/
def slow : Outside where
  clock := fun n => n * 100000
  fault := fun _ => none
  forward := fun m n h => by
    have : (m : ℚ) ≤ n := by exact_mod_cast h
    linarith

/-- The bucket is emptied, its row deleted, and the bucket emptied again. -/
def emptiedTwice : List Moment :=
  [.call (.consume "ann" 5), .delete "login#ann" 65000, .call (.consume "ann" 5)]

theorem emptiedTwice_row :
    (Db.empty.call slow .postgres opts none (.consume "ann" 5)).2.rows "login#ann" =
      some ⟨⟨0, 0⟩, 65⟩ := by decide +kernel

theorem expiry_emptiedTwice :
    outputs slow .postgres opts none Db.empty emptiedTwice =
      outputs slow .postgres opts none Db.empty (callsOnly emptiedTwice) := by
  apply expiry_sound
  refine ⟨fun row hrow => ?_, by decide +kernel, trivial⟩
  rw [emptiedTwice_row] at hrow
  cases hrow
  norm_num

end Small

end SaasFoundation.Foundation.RateLimit
