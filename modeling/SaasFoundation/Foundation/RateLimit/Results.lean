import SaasFoundation.Foundation.RateLimit.TokenBucket

/-!
# What the results of a bucket say

A result is computed from the refilled tokens and the time alone, and a
denied call stores just these: a bucket that was denied refills as it did
before. So no later result tells that there was a denied call, and what
`retryAfter` and `remaining` promise can be read off the refilled tokens.

`resetAt` promises less than it says. It is computed before the cost is
taken out, so for an allowed call it is the time at which the bucket would
have been full without it.
-/

namespace SaasFoundation.Foundation.RateLimit

/-! ## The refilled tokens -/

/-- What a call at this time finds in the bucket. -/
def tokensAt (config : TokenBucketConfig) (state : Option BucketState) (nowMs : ℚ) : ℚ :=
  refill config (effectiveState config state nowMs) nowMs

section Refill

variable {config : TokenBucketConfig} {state : Option BucketState} {nowMs cost : ℚ}

theorem compute_allowed (h : cost ≤ tokensAt config state nowMs) :
    computeConsumeResult state nowMs cost config =
      ⟨⟨tokensAt config state nowMs - cost, nowMs⟩, true,
        Rat.floor (tokensAt config state nowMs - cost),
        nowMs + Rat.ceil
          ((config.capacity - tokensAt config state nowMs) / config.refillRate * 1000), none⟩ :=
  if_pos h

theorem compute_denied (h : tokensAt config state nowMs < cost) :
    computeConsumeResult state nowMs cost config =
      ⟨⟨tokensAt config state nowMs, nowMs⟩, false, 0,
        nowMs + Rat.ceil
          ((config.capacity - tokensAt config state nowMs) / config.refillRate * 1000),
        some (max 1 (Rat.ceil (Rat.ceil
          ((cost - tokensAt config state nowMs) / config.refillRate * 1000) / 1000)))⟩ :=
  if_neg (not_le.mpr h)

theorem compute_allowed_iff :
    (computeConsumeResult state nowMs cost config).result.allowed = true ↔
      cost ≤ tokensAt config state nowMs := by
  by_cases h : cost ≤ tokensAt config state nowMs
  · simp [compute_allowed h, h]
  · simp [compute_denied (not_le.mp h), h]

theorem tokensAt_le_capacity : tokensAt config state nowMs ≤ config.capacity :=
  refill_le_capacity _

theorem tokensAt_none : tokensAt config none nowMs = config.capacity := by
  show min config.capacity (config.capacity + max 0 (nowMs - nowMs) * config.refillRate / 1000) = _
  simp

/-- Later than the last refill, time adds up to the capacity. -/
theorem tokensAt_some {tokens last : ℚ} (h : last ≤ nowMs) :
    tokensAt config (some ⟨tokens, last⟩) nowMs =
      min config.capacity (tokens + (nowMs - last) * config.refillRate / 1000) := by
  show min _ (tokens + max 0 (nowMs - last) * _ / _) = _
  rw [max_eq_right (by linarith)]

/-- To refill twice is to refill once. -/
theorem tokensAt_refilled {s : BucketState} {later : ℚ} (hs : s.lastRefillMs ≤ nowMs)
    (hlater : nowMs ≤ later) :
    tokensAt config (some ⟨tokensAt config (some s) nowMs, nowMs⟩) later =
      tokensAt config (some s) later := by
  have hgain : 0 ≤ (later - nowMs) * config.refillRate / 1000 :=
    div_nonneg (mul_nonneg (by linarith) config.refillRate_pos.le) (by norm_num)
  have hsplit : s.tokens + (later - s.lastRefillMs) * config.refillRate / 1000 =
      s.tokens + (nowMs - s.lastRefillMs) * config.refillRate / 1000 +
        (later - nowMs) * config.refillRate / 1000 := by ring
  rw [tokensAt_some hlater, tokensAt_some hs, tokensAt_some (hs.trans hlater), hsplit]
  -- what the capacity cuts off first, it cuts off at the end as well
  have hcap : min config.capacity (config.capacity + (later - nowMs) * config.refillRate / 1000) =
      config.capacity := min_eq_left (by linarith)
  rw [← min_add_add_right, ← min_assoc, hcap]

/-- A full bucket stays full. -/
theorem tokensAt_full {later : ℚ} (hlater : nowMs ≤ later) :
    tokensAt config (some ⟨config.capacity, nowMs⟩) later = config.capacity := by
  have hgain : 0 ≤ (later - nowMs) * config.refillRate / 1000 :=
    div_nonneg (mul_nonneg (by linarith) config.refillRate_pos.le) (by norm_num)
  rw [tokensAt_some hlater, min_eq_left (by linarith)]

end Refill

/-! ## Sequences of calls -/

inductive Operation where
  | consume (nowMs cost : ℚ)
  | peek (nowMs : ℚ)
deriving DecidableEq, Repr

def Operation.nowMs : Operation → ℚ
  | .consume nowMs _ => nowMs
  | .peek nowMs => nowMs

/-- What a call leaves stored and what it returns. -/
def act (config : TokenBucketConfig) (state : Option BucketState) :
    Operation → Option BucketState × RateLimitResult
  | .consume nowMs cost =>
      let computed := computeConsumeResult state nowMs cost config
      (some computed.newState, computed.result)
  | .peek nowMs => (state, computePeekResult state nowMs config)

def results (config : TokenBucketConfig) :
    Option BucketState → List Operation → List RateLimitResult
  | _, [] => []
  | state, op :: ops => (act config state op).2 :: results config (act config state op).1 ops

def stateAfter (config : TokenBucketConfig) :
    Option BucketState → List Operation → Option BucketState
  | state, [] => state
  | state, op :: ops => stateAfter config (act config state op).1 ops

/-- The clock does not go backwards, from this reading on. -/
def Forward : ℚ → List Operation → Prop
  | _, [] => True
  | last, op :: ops => last ≤ op.nowMs ∧ Forward op.nowMs ops

/-- The reading of the last call. -/
def clockAfter : ℚ → List Operation → ℚ
  | last, [] => last
  | _, op :: ops => clockAfter op.nowMs ops

/-- The call takes nothing out. -/
def Idle (config : TokenBucketConfig) (state : Option BucketState) : Operation → Prop
  | .consume nowMs cost => ¬ (computeConsumeResult state nowMs cost config).result.allowed
  | .peek _ => True

/-- None of the calls takes anything out. -/
def AllIdle (config : TokenBucketConfig) : Option BucketState → List Operation → Prop
  | _, [] => True
  | state, op :: ops => Idle config state op ∧ AllIdle config (act config state op).1 ops

/-- The state was stored by a call before now. -/
def Stored (state : Option BucketState) (nowMs : ℚ) : Prop :=
  ∀ s, state = some s → s.lastRefillMs ≤ nowMs

/-- Two states that refill alike, from a time on. -/
def Agree (config : TokenBucketConfig) (nowMs : ℚ) (state state' : Option BucketState) : Prop :=
  ∀ later, nowMs ≤ later → tokensAt config state later = tokensAt config state' later

section Calls

variable {config : TokenBucketConfig} {state state' : Option BucketState} {nowMs cost : ℚ}

/-- Nothing but the refilled tokens counts. -/
theorem compute_congr (h : tokensAt config state nowMs = tokensAt config state' nowMs) :
    computeConsumeResult state nowMs cost config =
      computeConsumeResult state' nowMs cost config := by
  by_cases hcost : cost ≤ tokensAt config state nowMs
  · rw [compute_allowed hcost, compute_allowed (h ▸ hcost), h]
  · rw [compute_denied (not_le.mp hcost), compute_denied (h ▸ not_le.mp hcost), h]

theorem peek_congr (h : tokensAt config state nowMs = tokensAt config state' nowMs) :
    computePeekResult state nowMs config = computePeekResult state' nowMs config := by
  unfold tokensAt at h
  unfold computePeekResult
  rw [h]

theorem Agree.mono {later : ℚ} (h : Agree config nowMs state state') (hle : nowMs ≤ later) :
    Agree config later state state' :=
  fun t ht => h t (hle.trans ht)

/-- A call at states that agree gives one result, and they still agree. -/
theorem Agree.act (h : Agree config nowMs state state') {op : Operation}
    (hop : nowMs ≤ op.nowMs) :
    (RateLimit.act config state op).2 = (RateLimit.act config state' op).2 ∧
      Agree config op.nowMs (RateLimit.act config state op).1
        (RateLimit.act config state' op).1 := by
  cases op with
  | consume t cost =>
      have hsame := @compute_congr config state state' t cost (h t hop)
      exact ⟨congrArg ConsumeComputeResult.result hsame,
        fun later _ => by rw [RateLimit.act, RateLimit.act, hsame]⟩
  | peek t => exact ⟨peek_congr (h t hop), h.mono hop⟩

theorem Agree.results (h : Agree config nowMs state state') {ops : List Operation}
    (hops : Forward nowMs ops) :
    RateLimit.results config state ops = RateLimit.results config state' ops := by
  induction ops generalizing nowMs state state' with
  | nil => rfl
  | cons op ops ih =>
      obtain ⟨hresult, hrest⟩ := h.act hops.1
      rw [RateLimit.results, RateLimit.results, hresult, ih hrest hops.2]

/-- A denied call stores what the bucket refills from anyway. -/
theorem agree_denied (hstate : Stored state nowMs)
    (hdenied : ¬ (computeConsumeResult state nowMs cost config).result.allowed) :
    Agree config nowMs (some (computeConsumeResult state nowMs cost config).newState) state := by
  intro later hlater
  rw [compute_denied (not_le.mp (mt compute_allowed_iff.mpr hdenied))]
  cases state with
  | none => rw [tokensAt_none, tokensAt_none, tokensAt_full hlater]
  | some s => exact tokensAt_refilled (hstate s rfl) hlater

theorem Stored.mono {later : ℚ} (h : Stored state nowMs) (hle : nowMs ≤ later) :
    Stored state later :=
  fun s hs => (h s hs).trans hle

theorem stored_act (op : Operation) (hstate : Stored state op.nowMs) :
    Stored (act config state op).1 op.nowMs := by
  cases op with
  | consume t cost =>
      intro s hs
      cases hs
      exact newState_lastRefillMs.le
  | peek t => exact hstate

theorem agree_idle {op : Operation} (hstate : Stored state op.nowMs) (hidle : Idle config state op) :
    Agree config op.nowMs (act config state op).1 state := by
  cases op with
  | consume t cost => exact agree_denied hstate hidle
  | peek t => exact fun _ _ => rfl

theorem le_clockAfter {ops : List Operation} (h : Forward nowMs ops) :
    nowMs ≤ clockAfter nowMs ops := by
  induction ops generalizing nowMs with
  | nil => exact le_rfl
  | cons op ops ih => exact h.1.trans (ih h.2)

theorem agree_allIdle {ops : List Operation} (hstate : Stored state nowMs)
    (hops : Forward nowMs ops) (hidle : AllIdle config state ops) :
    Agree config (clockAfter nowMs ops) (stateAfter config state ops) state ∧
      Stored (stateAfter config state ops) (clockAfter nowMs ops) := by
  induction ops generalizing nowMs state with
  | nil => exact ⟨fun _ _ => rfl, hstate⟩
  | cons op ops ih =>
      have hnow := hstate.mono hops.1
      obtain ⟨hrest, hstored⟩ := ih (stored_act op hnow) hops.2 hidle.2
      refine ⟨fun later hlater => ?_, hstored⟩
      rw [stateAfter, hrest later hlater]
      exact agree_idle hnow hidle.1 later ((le_clockAfter hops.2).trans hlater)

end Calls

/-! ## Denied calls -/

/-- A denied consume changes no later result. -/
def DeniedUnobservable (config : TokenBucketConfig) : Prop :=
  ∀ state nowMs cost ops, Stored state nowMs →
    ¬ (computeConsumeResult state nowMs cost config).result.allowed → Forward nowMs ops →
    results config (some (computeConsumeResult state nowMs cost config).newState) ops =
      results config state ops

/-- After `retryAfter`, and with nothing taken out since, the call is
allowed. -/
def RetryAfterSound (config : TokenBucketConfig) : Prop :=
  ∀ state nowMs cost retryAfter, cost ≤ config.capacity →
    ¬ (computeConsumeResult state nowMs cost config).result.allowed →
    (computeConsumeResult state nowMs cost config).result.retryAfter = some retryAfter →
    ∀ ops, Forward nowMs ops →
      AllIdle config (some (computeConsumeResult state nowMs cost config).newState) ops →
      ∀ later, clockAfter nowMs ops ≤ later → nowMs + 1000 * retryAfter ≤ later →
        (computeConsumeResult (stateAfter config
          (some (computeConsumeResult state nowMs cost config).newState) ops) later cost
            config).result.allowed

/-- `remaining` of a peek is what can be consumed, in whole tokens. -/
def PeekAgrees (config : TokenBucketConfig) : Prop :=
  ∀ state nowMs (cost : ℤ), 1 ≤ cost →
    (cost ≤ (computePeekResult state nowMs config).remaining ↔
      (computeConsumeResult state nowMs cost config).result.allowed)

section Denied

variable {config : TokenBucketConfig} {state : Option BucketState} {nowMs cost : ℚ}

/-- The wait is long enough, whichever way it was rounded. -/
theorem retryAfter_covers {retryAfter : ℤ}
    (hdenied : ¬ (computeConsumeResult state nowMs cost config).result.allowed)
    (hretry : (computeConsumeResult state nowMs cost config).result.retryAfter = some retryAfter) :
    cost ≤ tokensAt config state nowMs + retryAfter * config.refillRate := by
  have hlt : tokensAt config state nowMs < cost := not_le.mp (mt compute_allowed_iff.mpr hdenied)
  rw [compute_denied hlt] at hretry
  have hms := @Rat.le_ceil ((cost - tokensAt config state nowMs) / config.refillRate * 1000)
  have hs := @Rat.le_ceil
    (Rat.ceil ((cost - tokensAt config state nowMs) / config.refillRate * 1000) / 1000)
  have hround : (Rat.ceil (Rat.ceil
      ((cost - tokensAt config state nowMs) / config.refillRate * 1000) / 1000) : ℚ) ≤
      retryAfter := by
    rw [← Option.some.inj hretry]
    exact_mod_cast le_max_right _ _
  have hwait : (cost - tokensAt config state nowMs) / config.refillRate ≤ retryAfter := by
    linarith
  linarith [(div_le_iff₀ config.refillRate_pos).mp hwait]

theorem denied_unobservable (config : TokenBucketConfig) : DeniedUnobservable config :=
  fun _ _ _ _ hstate hdenied hops => (agree_denied hstate hdenied).results hops

theorem retryAfter_sound (config : TokenBucketConfig) : RetryAfterSound config := by
  intro state nowMs cost retryAfter hcost hdenied hretry ops hops hidle later hlater hwait
  have hstored : Stored (some (computeConsumeResult state nowMs cost config).newState) nowMs := by
    intro s hs
    cases hs
    exact newState_lastRefillMs.le
  rw [compute_allowed_iff, (agree_allIdle hstored hops hidle).1 later hlater,
    compute_denied (not_le.mp (mt compute_allowed_iff.mpr hdenied)),
    tokensAt_some ((le_clockAfter hops).trans hlater)]
  apply le_min hcost
  have hcovers := retryAfter_covers hdenied hretry
  have hgain : 1000 * retryAfter * config.refillRate ≤ (later - nowMs) * config.refillRate :=
    mul_le_mul_of_nonneg_right (by linarith) config.refillRate_pos.le
  linarith

theorem peek_agrees (config : TokenBucketConfig) : PeekAgrees config := by
  intro state nowMs cost _
  rw [compute_allowed_iff]
  exact Rat.le_floor_iff

end Denied

/-! ## When the bucket is full -/

/-- Full at this time, if nothing more is taken out. -/
def FullAt (config : TokenBucketConfig) (state : Option BucketState) (nowMs : ℚ) : Prop :=
  tokensAt config state nowMs = config.capacity

/-- The first millisecond at which the bucket that the call left behind is
full. -/
def ResetAtHolds (config : TokenBucketConfig) (state : Option BucketState) (op : Operation) :
    Prop :=
  FullAt config (act config state op).1 (act config state op).2.resetAt ∧
    (op.nowMs < (act config state op).2.resetAt →
      ¬ FullAt config (act config state op).1 ((act config state op).2.resetAt - 1))

/-- Whole milliseconds until this many tokens have become a full bucket. -/
def msToFull (config : TokenBucketConfig) (tokens : ℚ) : ℤ :=
  Rat.ceil (max 0 (config.capacity - tokens) / config.refillRate * 1000)

/-- A state a clock of whole milliseconds stores. -/
structure Wellformed (config : TokenBucketConfig) (s : BucketState) : Prop where
  bounded : Bounded config s
  whole : ∃ ms : ℤ, s.lastRefillMs = ms

/-- The bucket fills in the same millisecond with and without the call; the
clock has not gone back. -/
def SameReset (config : TokenBucketConfig) (state : Option BucketState) : Operation → Prop
  | .consume nowMs cost => tokensAt config state nowMs < cost ∨
      msToFull config (tokensAt config state nowMs - cost) =
        msToFull config (tokensAt config state nowMs)
  | .peek nowMs => ∀ s, state = some s → s.lastRefillMs ≤ nowMs ∨ s.tokens = config.capacity

section Reset

variable {config : TokenBucketConfig} {state : Option BucketState} {nowMs cost tokens last : ℚ}

theorem fullAt_iff : FullAt config (some ⟨tokens, last⟩) nowMs ↔
    max 0 (config.capacity - tokens) / config.refillRate * 1000 ≤ max 0 (nowMs - last) := by
  have hpos : 0 ≤ max 0 (nowMs - last) * config.refillRate / 1000 :=
    div_nonneg (mul_nonneg (le_max_left _ _) config.refillRate_pos.le) (by norm_num)
  have hfull : FullAt config (some ⟨tokens, last⟩) nowMs ↔
      config.capacity ≤ tokens + max 0 (nowMs - last) * config.refillRate / 1000 := min_eq_left_iff
  rw [hfull, ← le_div_iff₀ (by norm_num), div_le_iff₀ config.refillRate_pos, max_le_iff]
  constructor
  · intro h
    exact ⟨by linarith, by linarith⟩
  · intro h
    linarith [h.2]

theorem msToFull_nonneg : 0 ≤ msToFull config tokens := by
  have hnonneg : 0 ≤ max 0 (config.capacity - tokens) / config.refillRate * 1000 :=
    mul_nonneg (div_nonneg (le_max_left _ _) config.refillRate_pos.le) (by norm_num)
  have := hnonneg.trans Rat.le_ceil
  exact_mod_cast this

/-- Of the milliseconds from the last refill on, the first full one. -/
theorem firstFull_iff {n : ℤ} (hn : 0 ≤ n) :
    (FullAt config (some ⟨tokens, nowMs⟩) (nowMs + n) ∧
      (nowMs < nowMs + n → ¬ FullAt config (some ⟨tokens, nowMs⟩) (nowMs + n - 1))) ↔
    msToFull config tokens = n := by
  have hms := @msToFull_nonneg config tokens
  have hfull : ∀ m : ℤ, 0 ≤ m →
      (FullAt config (some ⟨tokens, nowMs⟩) (nowMs + m) ↔ msToFull config tokens ≤ m) := by
    intro m hm
    have hm' : (0 : ℚ) ≤ m := by exact_mod_cast hm
    rw [fullAt_iff, add_sub_cancel_left, max_eq_right hm', msToFull, Rat.ceil_le_iff]
  have hbefore : nowMs + n - 1 = nowMs + (n - 1 : ℤ) := by
    push_cast
    ring
  rw [hfull n hn, hbefore]
  rcases hn.eq_or_lt with rfl | hpos
  · simp only [Int.cast_zero, add_zero, lt_irrefl, false_implies, and_true]
    omega
  · have hlt : nowMs < nowMs + n := by
      have : (0 : ℚ) < n := by exact_mod_cast hpos
      linarith
    rw [hfull (n - 1) (by omega)]
    simp only [hlt, true_implies]
    omega

/-- What a result calls `resetAt`. -/
theorem resetAt_eq :
    nowMs + Rat.ceil ((config.capacity - tokensAt config state nowMs) / config.refillRate * 1000) =
      nowMs + msToFull config (tokensAt config state nowMs) := by
  rw [msToFull, max_eq_right (sub_nonneg.mpr tokensAt_le_capacity)]

theorem peek_resetAt : (computePeekResult state nowMs config).resetAt =
    nowMs + msToFull config (tokensAt config state nowMs) :=
  resetAt_eq

theorem consume_resetAt_iff :
    ResetAtHolds config state (.consume nowMs cost) ↔
      SameReset config state (.consume nowMs cost) := by
  unfold ResetAtHolds SameReset
  by_cases hcost : cost ≤ tokensAt config state nowMs
  · simp only [act, compute_allowed hcost, Operation.nowMs, resetAt_eq]
    rw [firstFull_iff msToFull_nonneg, or_iff_right (not_lt.mpr hcost)]
  · simp only [act, compute_denied (not_le.mp hcost), Operation.nowMs, resetAt_eq]
    rw [firstFull_iff msToFull_nonneg]
    exact ⟨fun _ => .inl (not_le.mp hcost), fun _ => rfl⟩

/-- A bucket filled up since the clock was read tells the same of itself as
one filled up then. -/
theorem peek_resetAt_forward (hstate : Stored state nowMs) :
    ResetAtHolds config state (.peek nowMs) := by
  have hagree : ∀ later, nowMs ≤ later →
      (FullAt config state later ↔
        FullAt config (some ⟨tokensAt config state nowMs, nowMs⟩) later) := by
    intro later hlater
    unfold FullAt
    cases state with
    | none => rw [tokensAt_none, tokensAt_none, tokensAt_full hlater]
    | some s => rw [tokensAt_refilled (hstate s rfl) hlater]
  obtain ⟨hfull, hfirst⟩ :=
    (@firstFull_iff config nowMs (tokensAt config state nowMs) _ msToFull_nonneg).mpr rfl
  have hms : (0 : ℚ) ≤ msToFull config (tokensAt config state nowMs) := by
    exact_mod_cast msToFull_nonneg
  unfold ResetAtHolds
  simp only [act, peek_resetAt, Operation.nowMs]
  rw [hagree _ (by linarith)]
  refine ⟨hfull, fun hlt => ?_⟩
  have hone : (1 : ℚ) ≤ msToFull config (tokensAt config state nowMs) := by
    have hpos : (0 : ℚ) < msToFull config (tokensAt config state nowMs) := by linarith
    have : 0 < msToFull config (tokensAt config state nowMs) := by exact_mod_cast hpos
    exact_mod_cast this
  rw [hagree _ (by linarith)]
  exact hfirst hlt

/-- A clock that has gone back refills nothing at `nowMs`, and less than
`resetAt` counts on afterwards. -/
theorem peek_resetAt_backward {t last : ℤ} (htokens : tokens ≤ config.capacity)
    (hback : t < last) :
    ResetAtHolds config (some ⟨tokens, last⟩) (.peek t) ↔ tokens = config.capacity := by
  have hback' : (t : ℚ) + 1 ≤ last := by exact_mod_cast hback
  have hkept : tokensAt config (some ⟨tokens, last⟩) t = tokens := by
    show min _ (tokens + max 0 ((t : ℚ) - last) * _ / _) = _
    rw [max_eq_left (by linarith), zero_mul, zero_div, add_zero, min_eq_right htokens]
  unfold ResetAtHolds
  simp only [act, peek_resetAt, Operation.nowMs, hkept]
  constructor
  · intro h
    by_contra hne
    have hlt : tokens < config.capacity := lt_of_le_of_ne htokens hne
    have hpos : 0 < max 0 (config.capacity - tokens) / config.refillRate * 1000 := by
      rw [max_eq_right (by linarith)]
      exact mul_pos (div_pos (by linarith) config.refillRate_pos) (by norm_num)
    -- a whole millisecond of the wait is spent before the last refill
    have hceil := @Rat.ceil_lt (max 0 (config.capacity - tokens) / config.refillRate * 1000)
    have hreached := fullAt_iff.mp h.1
    rcases le_max_iff.mp hreached with hle | hle
    · linarith
    · unfold msToFull at hle
      linarith
  · rintro rfl
    have hms : msToFull config config.capacity = 0 := by
      rw [msToFull, sub_self, max_self, zero_div, zero_mul]
      rfl
    refine ⟨?_, ?_⟩
    · rw [fullAt_iff]
      simp
    · rw [hms]
      simp

/-- Over a clock of whole milliseconds and states it stored: `resetAt` is
the first millisecond of a full bucket exactly when the call was denied, or
its cost does not move that millisecond, or the call was a peek with the
clock not before the last refill of a bucket still to be filled. -/
theorem resetAt_iff (config : TokenBucketConfig) (state : Option BucketState) (op : Operation)
    (hstate : ∀ s, state = some s → Wellformed config s) (hop : ∃ ms : ℤ, op.nowMs = ms) :
    ResetAtHolds config state op ↔ SameReset config state op := by
  cases op with
  | consume nowMs cost => exact consume_resetAt_iff
  | peek nowMs =>
      obtain ⟨t, ht⟩ := hop
      change nowMs = t at ht
      subst ht
      by_cases hforward : Stored state t
      · exact ⟨fun _ s hs => .inl (hforward s hs), fun _ => peek_resetAt_forward hforward⟩
      · unfold Stored at hforward
        push Not at hforward
        obtain ⟨⟨tokens, last⟩, rfl, hback⟩ := hforward
        obtain ⟨hbounded, ms, hms⟩ := hstate _ rfl
        change last = ms at hms
        subst hms
        change (t : ℚ) < ms at hback
        rw [peek_resetAt_backward hbounded.2 (by exact_mod_cast hback)]
        constructor
        · rintro rfl s hs
          cases hs
          exact .inr rfl
        · intro h
          exact (h _ rfl).resolve_left (not_le.mpr hback)

end Reset

/-- Ten tokens, one a second. -/
def tenTokens : TokenBucketConfig := ⟨10, 1, by norm_num, one_positive⟩

theorem resetAt_peeked : ResetAtHolds tenTokens (some ⟨5, 0⟩) (.peek 1000) :=
  (resetAt_iff tenTokens (some ⟨5, 0⟩) (.peek 1000)
    (fun s hs => by
      cases hs
      exact ⟨⟨by norm_num, by norm_num [tenTokens]⟩, 0, by norm_num⟩)
    ⟨1000, by norm_num [Operation.nowMs]⟩).mpr (fun s hs => by
      cases hs
      exact .inl (by norm_num))

/-- The first token of a full bucket: `resetAt` is now, and the bucket has
nine. -/
theorem resetAt_early : ¬ ∀ (config : TokenBucketConfig) (state : Option BucketState)
    (op : Operation), (∀ s, state = some s → Wellformed config s) →
    (∃ ms : ℤ, op.nowMs = ms) → ResetAtHolds config state op := by
  intro hclaim
  have hreset := (hclaim tenTokens none (.consume 0 1) (by simp) ⟨0, by simp [Operation.nowMs]⟩).1
  revert hreset
  unfold FullAt
  decide +kernel

end SaasFoundation.Foundation.RateLimit
