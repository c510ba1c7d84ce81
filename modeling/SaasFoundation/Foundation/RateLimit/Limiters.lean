import SaasFoundation.Foundation.RateLimit.TokenBucket
import SaasFoundation.Lib.Asks
import SaasFoundation.Lib.History
import SaasFoundation.Lib.Script
import SaasFoundation.Lib.Store

/-!
# The persistent limiters

`DynamoTokenBucketLimiter` and `PostgresTokenBucketLimiter` keep a bucket in
a row. A call reads the row, computes, and writes on the condition that
`lastRefillMs` is still what it read; a conflict is tried again. The
condition looks at the time of the last write, not at the tokens, so it
notices a write in between only if that write changed the time.

The world keeps what each row has held, newest first; the row is the head.
-/

namespace SaasFoundation.Foundation.RateLimit

open Lib

/-! ## The signature -/

inductive StoreError where
  /-- `ConditionalCheckFailedException`, or a statement that matched no
  row. -/
  | conflict
  | serializationFailure
  | deadlockDetected
  | other
deriving DecidableEq, Repr

inductive Request where
  | now
  | sleep (ms : Nat)
  | readState (bucketKey : String)
  /-- A new row, if there is none. -/
  | insertState (bucketKey : String) (newState : BucketState) (expiresAt : ℤ)
  /-- The row again, if its `lastRefillMs` is still this. -/
  | updateState (bucketKey : String) (newState : BucketState) (prevLastRefillMs : ℚ)
      (expiresAt : ℤ)
deriving DecidableEq, Repr

abbrev Reply : Request → Type
  | .now => ℚ
  | .sleep _ => Unit
  | .readState _ => Except StoreError (Option BucketState)
  | .insertState _ _ _ => Except StoreError Unit
  | .updateState _ _ _ _ => Except StoreError Unit

abbrev Handler (α : Type) := Prog Request Reply α

abbrev request (op : Request) : Handler (Reply op) := Prog.call op

/-! ## The limiters -/

inductive Store where
  | dynamo
  | postgres
deriving DecidableEq, Repr

inductive UnknownKeyStrategy where
  | sharedBucket
  | reject
  | allow
deriving DecidableEq, Repr

structure LimiterOptions where
  namespaceName : String
  defaultConfig : TokenBucketConfig
  unknownKeyStrategy : UnknownKeyStrategy

def maxRetries : Nat := 3

def baseDelayMs : Nat := 10

def isRetryable : Store → StoreError → Bool
  | .dynamo, .conflict => true
  | .postgres, .conflict => true
  | .postgres, .serializationFailure => true
  | .postgres, .deadlockDetected => true
  | _, _ => false

/-- The DynamoDB limiter reads the clock once more for the row's TTL. -/
def expiryClock (store : Store) (nowMs : ℚ) : Handler ℚ :=
  match store with
  | .dynamo => request .now
  | .postgres => pure nowMs

/-- A new row must not exist, an old one must not have moved. -/
def putState (bucketKey : String) (newState : BucketState) (prevState : Option BucketState)
    (expiresAt : ℤ) : Handler (Except StoreError Unit) :=
  match prevState with
  | none => request (.insertState bucketKey newState expiresAt)
  | some prev => request (.updateState bucketKey newState prev.lastRefillMs expiresAt)

def writeState (store : Store) (bucketKey : String) (newState : BucketState)
    (prevState : Option BucketState) (config : TokenBucketConfig) (nowMs : ℚ) :
    Handler (Except StoreError Unit) := do
  let clock ← expiryClock store nowMs
  putState bucketKey newState prevState
    (Rat.floor (clock / 1000) + computeBucketTtlSeconds newState config)

/-- One attempt. A failed read is thrown; a failed write is tried again, or
the computed result stands. -/
def consumeOnce (store : Store) (bucketKey : String) (cost : ℚ) (config : TokenBucketConfig)
    (again : StoreError → Option (Handler (Except StoreError RateLimitResult))) :
    Handler (Except StoreError RateLimitResult) := do
  let nowMs : ℚ ← request .now
  let read : Except StoreError (Option BucketState) ← request (.readState bucketKey)
  match read with
  | .error e => pure (.error e)
  | .ok state => do
      let computed := computeConsumeResult state nowMs cost config
      let written ← writeState store bucketKey computed.newState state config nowMs
      match written with
      | .ok () => pure (.ok computed.result)
      | .error e => (again e).getD (pure (.ok computed.result))

def consumeWithRetry (store : Store) (bucketKey : String) (cost : ℚ)
    (config : TokenBucketConfig) : (retries : Nat) → Handler (Except StoreError RateLimitResult)
  | 0 => consumeOnce store bucketKey cost config fun _ => none
  | retries + 1 => consumeOnce store bucketKey cost config fun e =>
      if isRetryable store e then
        some do
          let _ ← request (.sleep (baseDelayMs * 2 ^ (maxRetries - 2 - retries)))
          consumeWithRetry store bucketKey cost config retries
      else none

/-- `none` where an unknown key is rejected. -/
def resolveKey (opts : LimiterOptions) (key : String) : Option String :=
  if (key = "unknown" || key.endsWith ":unknown") && opts.unknownKeyStrategy = .reject then none
  else some key

def bucketKey (opts : LimiterOptions) (key : String) : String := opts.namespaceName ++ "#" ++ key

def consume (store : Store) (opts : LimiterOptions) (key : String) (cost : ℚ)
    (config : Option TokenBucketConfig) : Handler (Except StoreError RateLimitResult) :=
  match resolveKey opts key with
  | none => do
      let nowMs : ℚ ← request .now
      pure (.ok ⟨false, 0, nowMs, some 0⟩)
  | some key => consumeWithRetry store (bucketKey opts key) cost
      (config.getD opts.defaultConfig) (maxRetries - 1)

/-- Nothing is written; a rejected key is read like any other. -/
def peek (opts : LimiterOptions) (key : String) (config : Option TokenBucketConfig) :
    Handler (Except StoreError RateLimitResult) := do
  let resolvedKey := (resolveKey opts key).getD key
  let nowMs : ℚ ← request .now
  let read : Except StoreError (Option BucketState) ←
    request (.readState (bucketKey opts resolvedKey))
  match read with
  | .error e => pure (.error e)
  | .ok state => pure (.ok (computePeekResult state nowMs (config.getD opts.defaultConfig)))

/-! ## The store -/

structure World where
  history : String → List BucketState

def World.push (w : World) (k : String) (s : BucketState) : World :=
  ⟨Function.update w.history k (s :: w.history k)⟩

/-- What a read may give: DynamoDB reads are eventually consistent and may
lag. -/
def Readable (store : Store) (past : List BucketState) (state : Option BucketState) : Prop :=
  match store with
  | .dynamo => ∃ old, old <:+ past ∧ state = old.head?
  | .postgres => state = past.head?

def serve (store : Store) (w : World) : (op : Request) → Reply op → World → Prop
  | .readState k, reply, w' =>
      (∀ state, reply = .ok state → Readable store (w.history k) state) ∧ w' = w
  | .insertState k s _, reply, w' =>
      ConditionalWrite ((w.history k).head? = none) w (w.push k s) reply w'
  | .updateState k s prev _, reply, w' =>
      ConditionalWrite ((w.history k).head?.map BucketState.lastRefillMs = some prev) w (w.push k s)
        reply w'
  | _, _, w' => w' = w

/-- A call of `consume`. -/
structure Job where
  key : String
  cost : ℚ
  config : Option TokenBucketConfig

abbrev Output := Except StoreError RateLimitResult

/-- Concurrent calls on one store, which nothing else changes. -/
def limiter (store : Store) (opts : LimiterOptions) : System Request Reply World Job Output where
  start := fun job => consume store opts job.key job.cost job.config
  permits := fun _ _ => True
  serve := serve store
  drift := fun _ _ => False
  init := fun w => ∀ k, w.history k = []

abbrev LimiterConfig := Config Request Reply World Job Output

/-! ## What a step can change -/

/-- The row a request writes. -/
def Request.written : Request → Option (String × BucketState)
  | .insertState k s _ => some (k, s)
  | .updateState k s _ _ => some (k, s)
  | _ => none

/-- The `lastRefillMs` a write expects; none for a new row. -/
def Request.expected : Request → Option ℚ
  | .updateState _ _ prev _ => some prev
  | _ => none

def Request.isRead : Request → Prop
  | .readState _ => True
  | _ => False

theorem serve_cases {store : Store} {w w' : World} {op : Request} {r : Reply op}
    (h : serve store w op r w') : w' = w ∨ ∃ k s, op.written = some (k, s) ∧ w' = w.push k s ∧
      (w.history k).head?.map BucketState.lastRefillMs = op.expected := by
  cases op with
  | now | sleep _ => exact .inl h
  | readState k => exact .inl h.2
  | insertState k s e =>
      rcases ConditionalWrite.changed h with rfl | ⟨hguard, rfl⟩
      · exact .inl rfl
      · exact .inr ⟨k, s, rfl, rfl, by rw [hguard]; rfl⟩
  | updateState k s prev e =>
      rcases ConditionalWrite.changed h with rfl | ⟨hguard, rfl⟩
      · exact .inl rfl
      · exact .inr ⟨k, s, rfl, rfl, hguard⟩

theorem push_self (w : World) (k : String) (s : BucketState) :
    (w.push k s).history k = s :: w.history k := by
  simp [World.push]

theorem push_of_ne (w : World) {k k' : String} (s : BucketState) (h : k' ≠ k) :
    (w.push k s).history k' = w.history k' := by
  simp [World.push, h]

theorem push_suffix (w : World) (k k' : String) (s : BucketState) :
    w.history k' <:+ (w.push k s).history k' := by
  by_cases hk : k' = k
  · subst hk
    rw [push_self]
    exact List.suffix_cons _ _
  · rw [push_of_ne w s hk]

/-! ## What a call knows when it writes -/

/-- A write is computed from the last state that was read, and expects
it. -/
def Computed (opts : LimiterOptions) (job : Job) (past : List (Event Request Reply))
    (op : Request) : Prop :=
  ∀ k s, op.written = some (k, s) → ∃ nowMs state p₁ p₂,
    past = p₁ ++ ⟨.readState k, .ok state⟩ :: p₂ ∧ (∀ e ∈ p₂, ¬ e.op.isRead) ∧
    ⟨.now, nowMs⟩ ∈ p₁ ∧ state.map BucketState.lastRefillMs = op.expected ∧
    s = (computeConsumeResult state nowMs job.cost
      (job.config.getD opts.defaultConfig)).newState

section Asks

variable {store : Store} {opts : LimiterOptions} {job : Job}

theorem computed_putState {bucketKey : String} {nowMs : ℚ} {state : Option BucketState}
    {newState : BucketState} {expiresAt : ℤ} {p₁ p₂ : List (Event Request Reply)}
    (hnow : ⟨.now, nowMs⟩ ∈ p₁) (hp₂ : ∀ e ∈ p₂, ¬ e.op.isRead)
    (hnew : newState = (computeConsumeResult state nowMs job.cost
      (job.config.getD opts.defaultConfig)).newState) :
    Prog.Asks (Computed opts job) (p₁ ++ ⟨.readState bucketKey, .ok state⟩ :: p₂)
      (putState bucketKey newState state expiresAt) := by
  cases state with
  | none =>
      refine ⟨?_, fun _ => trivial⟩
      intro k s hs
      cases hs
      exact ⟨nowMs, none, p₁, p₂, rfl, hp₂, hnow, rfl, hnew⟩
  | some prev =>
      refine ⟨?_, fun _ => trivial⟩
      intro k s hs
      cases hs
      exact ⟨nowMs, some prev, p₁, p₂, rfl, hp₂, hnow, rfl, hnew⟩

theorem computed_writeState {bucketKey : String} {nowMs : ℚ} {state : Option BucketState}
    {newState : BucketState} {config : TokenBucketConfig} {p₁ : List (Event Request Reply)}
    (hnow : ⟨.now, nowMs⟩ ∈ p₁) (hnew : newState = (computeConsumeResult state nowMs job.cost
      (job.config.getD opts.defaultConfig)).newState) :
    Prog.Asks (Computed opts job) (p₁ ++ [⟨.readState bucketKey, .ok state⟩])
      (writeState store bucketKey newState state config nowMs) := by
  cases store with
  | dynamo =>
      refine ⟨fun k s hs => (nomatch hs), fun clock => ?_⟩
      rw [List.append_assoc, List.singleton_append]
      refine computed_putState hnow ?_ hnew
      intro e he
      rw [List.mem_singleton.mp he]
      exact id
  | postgres => exact computed_putState hnow (by simp) hnew

theorem computed_consumeOnce {bucketKey : String} {past : List (Event Request Reply)}
    {again : StoreError → Option (Handler (Except StoreError RateLimitResult))}
    (hagain : ∀ e p past, again e = some p → Prog.Asks (Computed opts job) past p) :
    Prog.Asks (Computed opts job) past (consumeOnce store bucketKey job.cost
      (job.config.getD opts.defaultConfig) again) := by
  simp only [consumeOnce, Prog.call_bind, Prog.asks_ask]
  refine ⟨(fun k s hs => by cases hs), fun nowMs =>
    ⟨(fun k s hs => by cases hs), fun read => ?_⟩⟩
  split
  · trivial
  · refine Prog.Asks.bind (computed_writeState (by simp) rfl) fun es written _ => ?_
    cases written with
    | ok u => trivial
    | error e =>
        simp only
        cases hp : again e with
        | none => trivial
        | some p => exact hagain e p _ hp

theorem computed_consumeWithRetry {bucketKey : String} (retries : Nat)
    (past : List (Event Request Reply)) :
    Prog.Asks (Computed opts job) past (consumeWithRetry store bucketKey job.cost
      (job.config.getD opts.defaultConfig) retries) := by
  induction retries generalizing past with
  | zero => exact computed_consumeOnce (by simp)
  | succ retries ih =>
      apply computed_consumeOnce
      intro e p past hp
      split at hp
      · cases hp
        exact ⟨fun k s hs => (nomatch hs), fun _ => ih _⟩
      · cases hp

theorem consume_computed (job : Job) :
    Prog.Asks (Computed opts job) [] (consume store opts job.key job.cost job.config) := by
  unfold consume
  split
  · exact ⟨fun k s hs => (nomatch hs), fun _ => trivial⟩
  · exact computed_consumeWithRetry _ _

end Asks

/-! ## Schedules -/

/-- The world after a reply it may give; reads are up to date. -/
def World.serve (w : World) : Event Request Reply → Option World
  | ⟨.readState k, .ok state⟩ => if state = (w.history k).head? then some w else none
  | ⟨.insertState k s _, .ok _⟩ =>
      if (w.history k).head? = none then some (w.push k s) else none
  | ⟨.updateState k s prev _, .ok _⟩ =>
      if (w.history k).head?.map BucketState.lastRefillMs = some prev then some (w.push k s)
      else none
  | _ => some w

theorem World.serve_sound (store : Store) (w : World) (e : Event Request Reply) (w' : World)
    (h : w.serve e = some w') : RateLimit.serve store w e.op e.res w' := by
  obtain ⟨op, r⟩ := e
  cases op with
  | now | sleep _ =>
      cases h
      rfl
  | readState k =>
      cases r with
      | error e =>
          cases h
          exact ⟨fun _ h => (nomatch h), rfl⟩
      | ok state =>
          simp only [World.serve, Option.ite_none_right_eq_some, Option.some.injEq] at h
          obtain ⟨hstate, rfl⟩ := h
          refine ⟨fun state' h => ?_, rfl⟩
          cases h
          cases store with
          | dynamo => exact ⟨_, List.suffix_rfl, hstate⟩
          | postgres => exact hstate
  | insertState _ _ _ | updateState _ _ _ _ =>
      cases r with
      | error e =>
          cases h
          exact .inl rfl
      | ok u =>
          simp only [World.serve, Option.ite_none_right_eq_some, Option.some.injEq] at h
          exact ⟨h.1, h.2.symm⟩

def interpreter (store : Store) (opts : LimiterOptions) :
    Interpreter (limiter store opts) Empty where
  permits := fun _ _ => true
  serve := World.serve
  drift := fun _ m => nomatch m
  permits_sound := fun _ _ _ => trivial
  serve_sound := World.serve_sound store
  drift_sound := fun _ m => nomatch m

namespace Small

/-- Five tokens, one a second. -/
def opts : LimiterOptions := ⟨"login", ⟨5, 1, by norm_num, one_positive⟩, .sharedBucket⟩

def world : World := ⟨fun _ => []⟩

theorem world_init (store : Store) : (limiter store opts).init world := fun _ => rfl

/-- A store that works, at a given time. -/
def outside (nowMs : ℚ) (w : World) : (op : Request) → Reply op
  | .now => nowMs
  | .sleep _ => ()
  | .readState k => .ok (w.history k).head?
  | .insertState k _ _ => if (w.history k).head? = none then .ok () else .error .conflict
  | .updateState k _ prev _ =>
      if (w.history k).head?.map BucketState.lastRefillMs = some prev then .ok ()
      else .error .conflict

abbrev Schedule := List (Action Request Reply World Job Empty)

/-- The next `n` requests of call `i`, at this time. -/
def answers (i n : Nat) (nowMs : ℚ) : Schedule := List.replicate n (.answer i (outside nowMs))

def call : Job := ⟨"ann", 1, none⟩

end Small

end SaasFoundation.Foundation.RateLimit
