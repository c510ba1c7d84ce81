import Mathlib.Algebra.Order.BigOperators.Group.List
import Mathlib.Algebra.Order.Field.Rat
import Mathlib.Tactic.Linarith
import Mathlib.Tactic.Positivity
import Mathlib.Tactic.Ring

/-!
# The token bucket

The pure algorithm behind every limiter. A bucket holds at most `capacity`
tokens and gains `refillRate` of them a second; what a call costs is taken
out or the call is denied. Numbers are exact: the rounding of doubles is
left out.

A step either spends what it costs or keeps it, so tokens plus spendings
are what the refill left: the one balance every bound below sums up.
-/

namespace SaasFoundation.Foundation.RateLimit

/-- A configuration the schema accepts. -/
structure TokenBucketConfig where
  capacity : ℚ
  refillRate : ℚ
  capacity_pos : 0 < capacity
  refillRate_pos : 0 < refillRate

structure BucketState where
  tokens : ℚ
  lastRefillMs : ℚ
deriving DecidableEq, Repr

structure RateLimitResult where
  allowed : Bool
  remaining : ℤ
  resetAt : ℚ
  retryAfter : Option ℤ
deriving DecidableEq, Repr

structure ConsumeComputeResult where
  newState : BucketState
  result : RateLimitResult
deriving DecidableEq, Repr

/-- A clock that went backwards refills nothing. -/
def refill (config : TokenBucketConfig) (state : BucketState) (nowMs : ℚ) : ℚ :=
  let elapsedMs := max 0 (nowMs - state.lastRefillMs)
  min config.capacity (state.tokens + elapsedMs * config.refillRate / 1000)

/-- An absent bucket is a full one. -/
def effectiveState (config : TokenBucketConfig) (state : Option BucketState) (nowMs : ℚ) :
    BucketState :=
  state.getD ⟨config.capacity, nowMs⟩

def computeConsumeResult (state : Option BucketState) (nowMs cost : ℚ)
    (config : TokenBucketConfig) : ConsumeComputeResult :=
  let refilled := refill config (effectiveState config state nowMs) nowMs
  let resetAt := nowMs + Rat.ceil ((config.capacity - refilled) / config.refillRate * 1000)
  if refilled ≥ cost then
    let remaining := refilled - cost
    ⟨⟨remaining, nowMs⟩, ⟨true, Rat.floor remaining, resetAt, none⟩⟩
  else
    let retryAfterMs := Rat.ceil ((cost - refilled) / config.refillRate * 1000)
    let retryAfter := max 1 (Rat.ceil (retryAfterMs / 1000))
    ⟨⟨refilled, nowMs⟩, ⟨false, 0, resetAt, some retryAfter⟩⟩

def computePeekResult (state : Option BucketState) (nowMs : ℚ) (config : TokenBucketConfig) :
    RateLimitResult :=
  let refilled := refill config (effectiveState config state nowMs) nowMs
  let resetAt := nowMs + Rat.ceil ((config.capacity - refilled) / config.refillRate * 1000)
  ⟨decide (refilled ≥ 1), Rat.floor refilled, resetAt, none⟩

/-- How long a row is worth keeping. -/
def computeBucketTtlSeconds (state : BucketState) (config : TokenBucketConfig) : ℤ :=
  let tokensNeeded := max 0 (config.capacity - state.tokens)
  Rat.ceil (tokensNeeded / config.refillRate) + 60

/-! ## One step -/

section Step

variable {config : TokenBucketConfig} {state : Option BucketState} {nowMs cost : ℚ}

/-- What a call took out of the bucket. -/
def ConsumeComputeResult.spent (r : ConsumeComputeResult) (cost : ℚ) : ℚ :=
  if r.result.allowed then cost else 0

/-- The tokens of a state lie between empty and full. -/
def Bounded (config : TokenBucketConfig) (s : BucketState) : Prop :=
  0 ≤ s.tokens ∧ s.tokens ≤ config.capacity

theorem refill_nonneg {s : BucketState} (h : 0 ≤ s.tokens) : 0 ≤ refill config s nowMs := by
  have helapsed : 0 ≤ max 0 (nowMs - s.lastRefillMs) := le_max_left _ _
  have hgain : 0 ≤ max 0 (nowMs - s.lastRefillMs) * config.refillRate / 1000 :=
    div_nonneg (mul_nonneg helapsed config.refillRate_pos.le) (by norm_num)
  exact le_min config.capacity_pos.le (by linarith)

theorem refill_le_capacity (s : BucketState) : refill config s nowMs ≤ config.capacity :=
  min_le_left _ _

theorem refill_le (s : BucketState) : refill config s nowMs ≤
    s.tokens + max 0 (nowMs - s.lastRefillMs) * config.refillRate / 1000 :=
  min_le_right _ _

@[simp] theorem newState_lastRefillMs :
    (computeConsumeResult state nowMs cost config).newState.lastRefillMs = nowMs := by
  unfold computeConsumeResult
  simp only
  split <;> rfl

/-- The balance of a step. -/
theorem compute_balance :
    (computeConsumeResult state nowMs cost config).newState.tokens +
        (computeConsumeResult state nowMs cost config).spent cost =
      refill config (effectiveState config state nowMs) nowMs := by
  unfold ConsumeComputeResult.spent computeConsumeResult
  simp only
  split <;> simp

/-- From a stored state: at most what it had and what time added. -/
theorem compute_gain (s : BucketState) :
    (computeConsumeResult (some s) nowMs cost config).newState.tokens +
        (computeConsumeResult (some s) nowMs cost config).spent cost ≤
      s.tokens + max 0 (nowMs - s.lastRefillMs) * config.refillRate / 1000 := by
  rw [compute_balance]
  exact refill_le s

theorem compute_tokens_nonneg
    (h : 0 ≤ refill config (effectiveState config state nowMs) nowMs) :
    0 ≤ (computeConsumeResult state nowMs cost config).newState.tokens := by
  unfold computeConsumeResult
  simp only
  split
  · rename_i hallowed
    show 0 ≤ _ - cost
    linarith
  · exact h

theorem spent_nonneg (hcost : 0 < cost) :
    0 ≤ (computeConsumeResult state nowMs cost config).spent cost := by
  unfold ConsumeComputeResult.spent
  split
  · exact hcost.le
  · exact le_rfl

theorem effectiveState_bounded (h : ∀ s, state = some s → Bounded config s) :
    Bounded config (effectiveState config state nowMs) := by
  cases state with
  | none => exact ⟨config.capacity_pos.le, le_rfl⟩
  | some s => exact h s rfl

/-- A step keeps the tokens between empty and full. -/
theorem compute_bounded (hcost : 0 < cost) (h : ∀ s, state = some s → Bounded config s) :
    Bounded config (computeConsumeResult state nowMs cost config).newState := by
  have hrefill : 0 ≤ refill config (effectiveState config state nowMs) nowMs :=
    refill_nonneg (effectiveState_bounded h).1
  have hbalance := @compute_balance config state nowMs cost
  have hspent := @spent_nonneg config state nowMs cost hcost
  have hcap := @refill_le_capacity config nowMs (effectiveState config state nowMs)
  exact ⟨compute_tokens_nonneg hrefill, by linarith⟩

end Step

/-! ## Runs -/

structure Call where
  nowMs : ℚ
  cost : ℚ
deriving DecidableEq, Repr

/-- A call and what came of it. -/
structure Outcome where
  call : Call
  computed : ConsumeComputeResult
deriving DecidableEq, Repr

/-- Each new state is fed into the next call. -/
def run (config : TokenBucketConfig) : Option BucketState → List Call → List Outcome
  | _, [] => []
  | state, call :: calls =>
      let computed := computeConsumeResult state call.nowMs call.cost config
      ⟨call, computed⟩ :: run config (some computed.newState) calls

def Outcome.spent (o : Outcome) : ℚ := o.computed.spent o.call.cost

/-- The cost of the calls allowed with the clock in `[t₀, t₁]`. -/
def allowedCost (t₀ t₁ : ℚ) (os : List Outcome) : ℚ :=
  ((os.filter fun o => t₀ ≤ o.call.nowMs && o.call.nowMs ≤ t₁).map Outcome.spent).sum

/-- The clock never goes backwards. -/
def ClockMonotone (calls : List Call) : Prop := calls.Pairwise fun a b => a.nowMs ≤ b.nowMs

instance (calls : List Call) : Decidable (ClockMonotone calls) :=
  inferInstanceAs (Decidable (calls.Pairwise fun a b => a.nowMs ≤ b.nowMs))

section Runs

variable {config : TokenBucketConfig} {t₀ t₁ : ℚ}

theorem run_bounded {calls : List Call} (hcost : ∀ c ∈ calls, 0 < c.cost)
    {state : Option BucketState} (h : ∀ s, state = some s → Bounded config s) :
    ∀ o ∈ run config state calls, Bounded config o.computed.newState := by
  induction calls generalizing state with
  | nil => simp [run]
  | cons call calls ih =>
      have hnew : Bounded config (computeConsumeResult state call.nowMs call.cost config).newState :=
        compute_bounded (hcost call List.mem_cons_self) h
      intro o ho
      rcases List.mem_cons.mp ho with rfl | ho
      · exact hnew
      · apply ih (fun c hc => hcost c (List.mem_cons_of_mem _ hc)) _ o ho
        intro s hs
        cases hs
        exact hnew

theorem allowedCost_cons (o : Outcome) (os : List Outcome) :
    allowedCost t₀ t₁ (o :: os) =
      (if t₀ ≤ o.call.nowMs ∧ o.call.nowMs ≤ t₁ then o.spent else 0) + allowedCost t₀ t₁ os := by
  unfold allowedCost
  by_cases h : t₀ ≤ o.call.nowMs ∧ o.call.nowMs ≤ t₁
  · rw [List.filter_cons_of_pos (by simpa using h), if_pos h, List.map_cons, List.sum_cons]
  · rw [List.filter_cons_of_neg (by simpa using h), if_neg h, zero_add]

/-- After the window nothing counts. -/
theorem allowedCost_late {calls : List Call} (hlate : ∀ c ∈ calls, t₁ < c.nowMs)
    (state : Option BucketState) : allowedCost t₀ t₁ (run config state calls) = 0 := by
  induction calls generalizing state with
  | nil => rfl
  | cons call calls ih =>
      have hnot : ¬ (t₀ ≤ call.nowMs ∧ call.nowMs ≤ t₁) := by
        have := hlate call List.mem_cons_self
        rintro ⟨-, h⟩
        linarith
      rw [run, allowedCost_cons, if_neg hnot, zero_add]
      exact ih (fun c hc => hlate c (List.mem_cons_of_mem _ hc)) _

/-- Inside the window: what is in the bucket, and what time adds to it. -/
theorem allowedCost_from {calls : List Call} {s : BucketState}
    (hcost : ∀ c ∈ calls, 0 < c.cost) (hmono : ClockMonotone calls)
    (hlater : ∀ c ∈ calls, s.lastRefillMs ≤ c.nowMs) (hs : 0 ≤ s.tokens)
    (hend : s.lastRefillMs ≤ t₁) :
    allowedCost t₀ t₁ (run config (some s) calls) ≤
      s.tokens + (t₁ - s.lastRefillMs) * config.refillRate / 1000 := by
  induction calls generalizing s with
  | nil =>
      have hgain : 0 ≤ (t₁ - s.lastRefillMs) * config.refillRate / 1000 :=
        div_nonneg (mul_nonneg (by linarith) config.refillRate_pos.le) (by norm_num)
      show (0 : ℚ) ≤ _
      linarith
  | cons call calls ih =>
      obtain ⟨hfirst, hrest⟩ := List.pairwise_cons.mp hmono
      have hcall := hcost call List.mem_cons_self
      rw [run, allowedCost_cons]
      by_cases hin : call.nowMs ≤ t₁
      · -- the balance of the call, then the rest of the window from its clock
        have hgain := @compute_gain config call.nowMs call.cost s
        rw [max_eq_right (by linarith [hlater call List.mem_cons_self])] at hgain
        have hspent := @spent_nonneg config (some s) call.nowMs call.cost hcall
        have hnonneg := @compute_tokens_nonneg config (some s) call.nowMs call.cost
          (refill_nonneg hs)
        have htail := @ih (computeConsumeResult (some s) call.nowMs call.cost config).newState
          (fun c hc => hcost c (List.mem_cons_of_mem _ hc)) hrest (by simpa using hfirst) hnonneg
          (by simpa using hin)
        rw [newState_lastRefillMs] at htail
        have hcounted : (if t₀ ≤ call.nowMs ∧ call.nowMs ≤ t₁ then
            (computeConsumeResult (some s) call.nowMs call.cost config).spent call.cost else 0) ≤
            (computeConsumeResult (some s) call.nowMs call.cost config).spent call.cost := by
          split
          · exact le_rfl
          · exact hspent
        have hsplit : (t₁ - s.lastRefillMs) * config.refillRate / 1000 =
            (call.nowMs - s.lastRefillMs) * config.refillRate / 1000 +
              (t₁ - call.nowMs) * config.refillRate / 1000 := by ring
        simp only [Outcome.spent]
        linarith
      · have hlate : ∀ c ∈ calls, t₁ < c.nowMs := by
          intro c hc
          have := hfirst c hc
          linarith [not_le.mp hin]
        have hgain : 0 ≤ (t₁ - s.lastRefillMs) * config.refillRate / 1000 :=
          div_nonneg (mul_nonneg (by linarith) config.refillRate_pos.le) (by norm_num)
        rw [if_neg (fun h => hin h.2), allowedCost_late hlate]
        linarith

/-- Up to the window the bucket fills, at most to its capacity. -/
theorem allowedCost_le {calls : List Call} (hcost : ∀ c ∈ calls, 0 < c.cost)
    (hmono : ClockMonotone calls) {state : Option BucketState}
    (hstate : ∀ s, state = some s → Bounded config s) (hwindow : t₀ ≤ t₁) :
    allowedCost t₀ t₁ (run config state calls) ≤
      config.capacity + config.refillRate * (t₁ - t₀) / 1000 := by
  induction calls generalizing state with
  | nil =>
      have hgain : 0 ≤ config.refillRate * (t₁ - t₀) / 1000 :=
        div_nonneg (mul_nonneg config.refillRate_pos.le (by linarith)) (by norm_num)
      show (0 : ℚ) ≤ _
      linarith [config.capacity_pos]
  | cons call calls ih =>
      obtain ⟨hfirst, hrest⟩ := List.pairwise_cons.mp hmono
      have hcall := hcost call List.mem_cons_self
      have hcosts : ∀ c ∈ calls, 0 < c.cost := fun c hc => hcost c (List.mem_cons_of_mem _ hc)
      have hnew : Bounded config (computeConsumeResult state call.nowMs call.cost config).newState :=
        compute_bounded hcall hstate
      rw [run, allowedCost_cons]
      by_cases hin : t₀ ≤ call.nowMs ∧ call.nowMs ≤ t₁
      · -- the first call of the window finds at most a full bucket
        have hbalance := @compute_balance config state call.nowMs call.cost
        have hfull := @refill_le_capacity config call.nowMs
          (effectiveState config state call.nowMs)
        have htail := @allowedCost_from config t₀ t₁ calls
          (computeConsumeResult state call.nowMs call.cost config).newState hcosts hrest
          (by simpa using hfirst) hnew.1 (by simpa using hin.2)
        rw [newState_lastRefillMs] at htail
        have hless : (t₁ - call.nowMs) * config.refillRate / 1000 ≤
            config.refillRate * (t₁ - t₀) / 1000 := by
          have hmul : (t₁ - call.nowMs) * config.refillRate ≤ (t₁ - t₀) * config.refillRate :=
            mul_le_mul_of_nonneg_right (by linarith [hin.1]) config.refillRate_pos.le
          rw [mul_comm config.refillRate]
          linarith
        rw [if_pos hin]
        simp only [Outcome.spent]
        linarith
      · rw [if_neg hin, zero_add]
        apply ih hcosts hrest
        intro s hs
        cases hs
        exact hnew

/-- Every stored bucket is between empty and full, and what is allowed in a
window is at most a full bucket and the refill of the window. -/
theorem admission_bound {calls : List Call} (hcost : ∀ c ∈ calls, 0 < c.cost)
    (hmono : ClockMonotone calls) :
    (∀ o ∈ run config none calls,
      0 ≤ o.computed.newState.tokens ∧ o.computed.newState.tokens ≤ config.capacity) ∧
    ∀ t₀ t₁, t₀ ≤ t₁ → allowedCost t₀ t₁ (run config none calls) ≤
      config.capacity + config.refillRate * (t₁ - t₀) / 1000 :=
  ⟨run_bounded hcost (by simp), fun _ _ => allowedCost_le hcost hmono (by simp)⟩

end Runs

theorem one_positive : (0 : ℚ) < 1 := by norm_num

/-- One token, one a second. -/
def oneASecond : TokenBucketConfig := ⟨1, 1, one_positive, one_positive⟩

theorem admission_bound_twice : ∃ calls : List Call,
    allowedCost 0 1000 (run oneASecond none calls) = 2 ∧
    allowedCost 0 1000 (run oneASecond none calls) ≤ 1 + 1 * (1000 - 0) / 1000 :=
  ⟨[⟨0, 1⟩, ⟨500, 1⟩, ⟨1000, 1⟩], by decide +kernel,
    (admission_bound (by decide) (by decide)).2 0 1000 (by decide)⟩

/-! ## Clocks that go backwards

A step back refills nothing, but it moves `lastRefillMs` back, and the same
stretch of time is refilled again. What a run can spend is bounded by all
the steps forward of its clock, and that bound is met. -/

/-- All allowed calls. -/
def totalCost (os : List Outcome) : ℚ := (os.map Outcome.spent).sum

/-- The steps forward, from a reading on. -/
def forwardFrom (last : ℚ) : List ℚ → ℚ
  | [] => 0
  | t :: ts => max 0 (t - last) + forwardFrom t ts

/-- The steps forward of the clock over a run. -/
def forwardMs : List ℚ → ℚ
  | [] => 0
  | t :: ts => forwardFrom t ts

/-- The latest reading less the earliest. -/
def spanMs : List ℚ → ℚ
  | [] => 0
  | t :: ts => ts.foldl max t - ts.foldl min t

section Backwards

variable {config : TokenBucketConfig}

theorem forwardFrom_nonneg (last : ℚ) (ts : List ℚ) : 0 ≤ forwardFrom last ts := by
  induction ts generalizing last with
  | nil => exact le_rfl
  | cons t ts ih => exact add_nonneg (le_max_left _ _) (ih t)

theorem totalCost_from {calls : List Call} {s : BucketState} (hs : 0 ≤ s.tokens) :
    totalCost (run config (some s) calls) ≤ s.tokens +
      config.refillRate * forwardFrom s.lastRefillMs (calls.map Call.nowMs) / 1000 := by
  induction calls generalizing s with
  | nil =>
      show (0 : ℚ) ≤ s.tokens + config.refillRate * 0 / 1000
      linarith
  | cons call calls ih =>
      have hgain := @compute_gain config call.nowMs call.cost s
      have htail := @ih (computeConsumeResult (some s) call.nowMs call.cost config).newState
        (compute_tokens_nonneg (refill_nonneg hs))
      rw [newState_lastRefillMs] at htail
      have hsplit : config.refillRate * (max 0 (call.nowMs - s.lastRefillMs) +
            forwardFrom call.nowMs (calls.map Call.nowMs)) / 1000 =
          max 0 (call.nowMs - s.lastRefillMs) * config.refillRate / 1000 +
            config.refillRate * forwardFrom call.nowMs (calls.map Call.nowMs) / 1000 := by ring
      rw [List.map_cons, forwardFrom, hsplit]
      show Outcome.spent _ + totalCost _ ≤ _
      simp only [Outcome.spent]
      linarith

/-- The steps forward bound what a run spends. -/
theorem totalCost_le (calls : List Call) : totalCost (run config none calls) ≤
    config.capacity + config.refillRate * forwardMs (calls.map Call.nowMs) / 1000 := by
  cases calls with
  | nil =>
      show (0 : ℚ) ≤ config.capacity + config.refillRate * 0 / 1000
      linarith [config.capacity_pos]
  | cons call calls =>
      have hbalance := @compute_balance config none call.nowMs call.cost
      have hfull := @refill_le_capacity config call.nowMs (effectiveState config none call.nowMs)
      have hnonneg : 0 ≤ (computeConsumeResult none call.nowMs call.cost config).newState.tokens :=
        compute_tokens_nonneg (refill_nonneg config.capacity_pos.le)
      have htail := @totalCost_from config calls _ hnonneg
      rw [newState_lastRefillMs] at htail
      show Outcome.spent _ + totalCost _ ≤
        config.capacity + config.refillRate * forwardFrom call.nowMs (calls.map Call.nowMs) / 1000
      simp only [Outcome.spent]
      linarith

/-- Costs that empty the bucket at every call; where time stood still or
went back there is nothing to take, and one token is asked for. -/
def greedyCosts (last : ℚ) : List ℚ → List ℚ
  | [] => []
  | t :: ts => (if last < t then t - last else 1) :: greedyCosts t ts

theorem greedyCosts_length (last : ℚ) (ts : List ℚ) :
    (greedyCosts last ts).length = ts.length := by
  induction ts generalizing last with
  | nil => rfl
  | cons t ts ih => simp [greedyCosts, ih]

theorem greedyCosts_pos (last : ℚ) (ts : List ℚ) : ∀ x ∈ greedyCosts last ts, 0 < x := by
  induction ts generalizing last with
  | nil => simp [greedyCosts]
  | cons t ts ih =>
      intro x hx
      rcases List.mem_cons.mp hx with rfl | hx
      · split
        · rename_i hlt
          linarith
        · norm_num
      · exact ih t x hx

/-- A bucket that gains one token a millisecond. -/
def fastBucket (capacity : ℚ) (h : 0 < capacity) : TokenBucketConfig :=
  ⟨capacity, 1000, h, by norm_num⟩

theorem totalCost_greedy {capacity : ℚ} (h : 0 < capacity) {last : ℚ} {ts : List ℚ}
    (hroom : forwardFrom last ts ≤ capacity) :
    totalCost (run (fastBucket capacity h) (some ⟨0, last⟩)
      (List.zipWith Call.mk ts (greedyCosts last ts))) = forwardFrom last ts := by
  induction ts generalizing last with
  | nil => rfl
  | cons t ts ih =>
      have hrest := forwardFrom_nonneg t ts
      have hroom' : forwardFrom t ts ≤ capacity := by
        have : 0 ≤ max 0 (t - last) := le_max_left _ _
        rw [forwardFrom] at hroom
        linarith
      have hrefill : refill (fastBucket capacity h) ⟨0, last⟩ t = max 0 (t - last) := by
        have hle : max 0 (t - last) ≤ capacity := by
          rw [forwardFrom] at hroom
          linarith
        show min capacity (0 + max 0 (t - last) * 1000 / 1000) = _
        rw [zero_add, mul_div_assoc, div_self (by norm_num), mul_one, min_eq_right hle]
      -- every call leaves the bucket empty
      have hstep : ∀ cost, cost = (if last < t then t - last else 1) →
          (computeConsumeResult (some ⟨0, last⟩) t cost (fastBucket capacity h)).newState = ⟨0, t⟩ ∧
          (computeConsumeResult (some ⟨0, last⟩) t cost (fastBucket capacity h)).spent cost =
            max 0 (t - last) := by
        rintro cost rfl
        unfold ConsumeComputeResult.spent computeConsumeResult
        simp only [effectiveState, Option.getD_some, hrefill]
        by_cases hlt : last < t
        · have hmax : max 0 (t - last) = t - last := max_eq_right (by linarith)
          rw [if_pos hlt, hmax, if_pos le_rfl]
          simp
        · have hmax : max 0 (t - last) = 0 := max_eq_left (by linarith [not_lt.mp hlt])
          rw [if_neg hlt, hmax, if_neg (by norm_num)]
          simp
      obtain ⟨hstate, hspent⟩ := hstep _ rfl
      show Outcome.spent _ + totalCost _ = max 0 (t - last) + forwardFrom t ts
      simp only [Outcome.spent]
      rw [hspent, hstate, ih hroom']

/-- The first call takes the whole bucket. -/
theorem compute_first (config : TokenBucketConfig) (t : ℚ) :
    (computeConsumeResult none t config.capacity config).newState = ⟨0, t⟩ ∧
    (computeConsumeResult none t config.capacity config).spent config.capacity =
      config.capacity := by
  have hrefill : refill config (effectiveState config none t) t = config.capacity := by
    show min config.capacity (config.capacity + max 0 (t - t) * config.refillRate / 1000) = _
    simp
  unfold ConsumeComputeResult.spent computeConsumeResult
  simp [hrefill]

theorem totalCost_greedyFirst {capacity : ℚ} (h : 0 < capacity) {t : ℚ} {ts : List ℚ}
    (hroom : forwardFrom t ts ≤ capacity) :
    totalCost (run (fastBucket capacity h) none
      (List.zipWith Call.mk (t :: ts) (capacity :: greedyCosts t ts))) =
      capacity + forwardFrom t ts := by
  obtain ⟨hstate, hspent⟩ := compute_first (fastBucket capacity h) t
  change (computeConsumeResult none t capacity (fastBucket capacity h)).newState = _ at hstate
  change (computeConsumeResult none t capacity (fastBucket capacity h)).spent capacity =
    capacity at hspent
  show Outcome.spent _ + totalCost _ = _
  simp only [Outcome.spent]
  rw [hspent, hstate, totalCost_greedy h hroom]

theorem zipWith_clock {clocks costs : List ℚ} (h : costs.length = clocks.length) :
    (List.zipWith Call.mk clocks costs).map Call.nowMs = clocks := by
  induction clocks generalizing costs with
  | nil => rfl
  | cons t ts ih =>
      cases costs with
      | nil => cases h
      | cons x xs =>
          rw [List.zipWith_cons_cons, List.map_cons, ih (Nat.succ.inj h)]

/-- For every sequence of clock readings: no bucket and no costs spend more
than a full bucket and the refill of the span of the readings, exactly when
the steps forward of the clock add up to no more than that span. -/
theorem backwards_iff (clocks : List ℚ) :
    (∀ (config : TokenBucketConfig) (costs : List ℚ), costs.length = clocks.length →
      (∀ x ∈ costs, 0 < x) →
      totalCost (run config none (List.zipWith Call.mk clocks costs)) ≤
        config.capacity + config.refillRate * spanMs clocks / 1000) ↔
    forwardMs clocks ≤ spanMs clocks := by
  constructor
  · intro hbound
    cases clocks with
    | nil => exact le_rfl
    | cons t ts =>
        have hforward := forwardFrom_nonneg t ts
        have hcap : 0 < 1 + forwardFrom t ts := by linarith
        have hthis := hbound (fastBucket _ hcap) ((1 + forwardFrom t ts) :: greedyCosts t ts)
          (by simp [greedyCosts_length]) ?_
        · rw [totalCost_greedyFirst hcap (by linarith)] at hthis
          have hspan : (fastBucket _ hcap).capacity +
              (fastBucket _ hcap).refillRate * spanMs (t :: ts) / 1000 =
              1 + forwardFrom t ts + spanMs (t :: ts) := by
            show 1 + forwardFrom t ts + 1000 * spanMs (t :: ts) / 1000 = _
            ring
          show forwardFrom t ts ≤ _
          linarith
        · intro x hx
          rcases List.mem_cons.mp hx with rfl | hx
          · exact hcap
          · exact greedyCosts_pos t ts x hx
  · intro hle config costs hlength _
    have htotal := @totalCost_le config (List.zipWith Call.mk clocks costs)
    rw [zipWith_clock hlength] at htotal
    have hmul : config.refillRate * forwardMs clocks ≤ config.refillRate * spanMs clocks :=
      mul_le_mul_of_nonneg_left hle config.refillRate_pos.le
    linarith

end Backwards

/-- Twice over the same second: three tokens from a bucket of one. -/
theorem backwards_again : ¬ ∀ (config : TokenBucketConfig) (calls : List Call),
    (∀ c ∈ calls, 0 < c.cost) → totalCost (run config none calls) ≤
      config.capacity + config.refillRate * spanMs (calls.map Call.nowMs) / 1000 := by
  intro hclaim
  have hbound := hclaim oneASecond [⟨0, 1⟩, ⟨1000, 1⟩, ⟨0, 1⟩, ⟨1000, 1⟩] (by decide)
  revert hbound
  decide +kernel

end SaasFoundation.Foundation.RateLimit
