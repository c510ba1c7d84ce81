import SaasFoundation.Foundation.RateLimit.Limiters

/-!
# Lost updates

A write commits only if `lastRefillMs` is what the call has read. Where no
row gets the same `lastRefillMs` twice, that is to say that the state is the
one that was read: every committed write replaces what it was computed from,
and no two are computed from the same state. Two calls in one millisecond
are enough to break it.
-/

namespace SaasFoundation.Foundation.RateLimit

open Lib

/-- The row of the key was written. -/
def Commits (k : String) (w : Entry Request Reply World) : Prop :=
  w.post.history k ≠ w.pre.history k

/-- The last read of thread `i` in a log. -/
def LastRead (log : List (Entry Request Reply World)) (i : Nat) (r : Entry Request Reply World) :
    Prop :=
  r.tid = i ∧ r.ev.op.isRead ∧
    ∃ l₁ l₂, log = l₁ ++ r :: l₂ ∧ ∀ e ∈ l₂, e.tid = i → ¬ e.ev.op.isRead

/-- The read gave the row as it was when `old` was all it had held. -/
def Saw (k : String) (r : Entry Request Reply World) (old : List BucketState) : Prop :=
  r.ev = ⟨.readState k, .ok old.head?⟩ ∧ old <:+ r.pre.history k

/-- No two writes of a row commit after having read the same state of it,
and each commits what follows from the state it replaces. -/
structure NoLostDecrement (opts : LimiterOptions) (c : LimiterConfig) : Prop where
  distinct : ∀ l₁ w₁ l₂ w₂ l₃, c.log = l₁ ++ w₁ :: (l₂ ++ w₂ :: l₃) → ∀ k, Commits k w₁ →
    Commits k w₂ → ∀ r₁ old₁ r₂ old₂, LastRead l₁ w₁.tid r₁ → Saw k r₁ old₁ →
      LastRead (l₁ ++ w₁ :: l₂) w₂.tid r₂ → Saw k r₂ old₂ → old₁ ≠ old₂
  decrement : ∀ l₁ w l₂, c.log = l₁ ++ w :: l₂ → ∀ k, Commits k w → ∃ t nowMs,
    c.threads[w.tid]? = some t ∧ ⟨.now, nowMs⟩ ∈ localLog l₁ w.tid ∧
      w.post.history k = (computeConsumeResult (w.pre.history k).head? nowMs t.job.cost
        (t.job.config.getD opts.defaultConfig)).newState :: w.pre.history k

/-- No write brings a `lastRefillMs`, which is the clock reading of its
call, that the row has had before. -/
def FreshReadings (c : LimiterConfig) : Prop :=
  ∀ e ∈ c.log, ∀ k s, e.ev.op.written = some (k, s) → ∀ old ∈ e.pre.history k,
    old.lastRefillMs ≠ s.lastRefillMs

section Runs

variable {store : Store} {opts : LimiterOptions} {c : LimiterConfig}

/-- A row only grows. -/
theorem history_suffix (h : (limiter store opts).Reachable c) : ∀ e ∈ c.log, ∀ k,
    e.pre.history k <:+ c.world.history k ∧ e.post.history k <:+ c.world.history k := by
  induction h with
  | init _ => simp
  | @step c d _ hs ih =>
      cases hs with
      | spawn _ => exact ih
      | @request i job op k r w _ hserve =>
          have hgrow : ∀ k, c.world.history k <:+ w.history k := by
            intro k
            rcases serve_cases hserve with rfl | ⟨k', s, -, rfl, -⟩
            · exact List.suffix_rfl
            · exact push_suffix _ _ _ _
          intro e he key
          rcases List.mem_append.mp he with he | he
          · obtain ⟨hpre, hpost⟩ := ih e he key
            exact ⟨hpre.trans (hgrow key), hpost.trans (hgrow key)⟩
          · rw [List.mem_singleton.mp he]
            exact ⟨hgrow key, List.suffix_rfl⟩
      | drift hd => cases hd

theorem history_distinct (h : (limiter store opts).Reachable c) (hfresh : FreshReadings c) :
    ∀ k, ((c.world.history k).map BucketState.lastRefillMs).Nodup := by
  induction h with
  | init hw =>
      intro k
      rw [hw k]
      exact List.nodup_nil
  | @step c d _ hs ih =>
      cases hs with
      | spawn _ => exact ih hfresh
      | @request i job op k r w _ hserve =>
          have hold := ih fun e he => hfresh e (List.mem_append_left _ he)
          have hnew := hfresh _ (List.mem_append_right _ List.mem_cons_self)
          rcases serve_cases hserve with rfl | ⟨k', s, hwritten, rfl, -⟩
          · exact hold
          · intro key
            by_cases hk : key = k'
            · subst hk
              simp only [push_self, List.map_cons, List.nodup_cons]
              refine ⟨?_, hold key⟩
              intro hmem
              obtain ⟨old, hmem, hsame⟩ := List.mem_map.mp hmem
              exact hnew key s hwritten old hmem hsame
            · simp only [push_of_ne _ _ hk]
              exact hold key
      | drift hd => cases hd

/-- What a committed write has to do with the state its call has read. -/
structure Follows (opts : LimiterOptions) (c : LimiterConfig)
    (l₁ : List (Entry Request Reply World)) (w : Entry Request Reply World) (k : String)
    (t : Thread Request Reply Job Output) (nowMs : ℚ) (state : Option BucketState) : Prop where
  thread : c.threads[w.tid]? = some t
  clock : ⟨.now, nowMs⟩ ∈ localLog l₁ w.tid
  guard : state.map BucketState.lastRefillMs =
    (w.pre.history k).head?.map BucketState.lastRefillMs
  post : w.post.history k = (computeConsumeResult state nowMs t.job.cost
    (t.job.config.getD opts.defaultConfig)).newState :: w.pre.history k
  read : ∀ r, LastRead l₁ w.tid r → r.ev = ⟨.readState k, .ok state⟩
  seen : ∃ old, old <:+ w.pre.history k ∧ state = old.head?

theorem commits_follows (h : (limiter store opts).Reachable c)
    {l₁ l₂ : List (Entry Request Reply World)} {w : Entry Request Reply World}
    (hlog : c.log = l₁ ++ w :: l₂) {k : String} (hcommit : Commits k w) :
    ∃ t nowMs state, Follows opts c l₁ w k t nowMs state := by
  obtain ⟨t, ht, hcomputed⟩ := h.asked consume_computed l₁ w l₂ hlog
  have hw : w ∈ c.log := by
    rw [hlog]
    exact List.mem_append_right _ List.mem_cons_self
  rcases serve_cases (h.served w hw) with hsame | ⟨k', s, hwritten, hpost, hguard⟩
  · exact absurd (by rw [hsame]) hcommit
  · have hk : k = k' := by
      by_contra hne
      exact hcommit (by rw [hpost, push_of_ne _ _ hne])
    subst hk
    obtain ⟨nowMs, state, p₁, p₂, hpast, hp₂, hnow, hexpected, hs⟩ := hcomputed k s hwritten
    refine ⟨t, nowMs, state, ht, ?_, ?_, ?_, ?_, ?_⟩
    · rw [hpast]
      exact List.mem_append_left _ hnow
    · rw [hexpected, hguard]
    · rw [hpost, push_self, hs]
    · rintro r ⟨htid, hread, a, b, rfl, hb⟩
      have hlocal : localLog (a ++ r :: b) w.tid =
          localLog a w.tid ++ r.ev :: localLog b w.tid := by
        simp [localLog, htid]
      rw [hlocal] at hpast
      refine @last_unique _ (fun e : Event Request Reply => e.op.isRead) _ _ _ _ _ _ hpast hread
        trivial ?_ hp₂
      intro ev hev
      obtain ⟨e, he, hei, rfl⟩ := mem_localLog.mp hev
      exact hb e he hei
    · -- the read gave a state of some earlier moment
      obtain ⟨d, hd, rfl, hworld⟩ := h.before l₁ w l₂ hlog
      have hmem : (⟨.readState k, .ok state⟩ : Event Request Reply) ∈ localLog d.log w.tid := by
        rw [hpast]
        exact List.mem_append_right _ List.mem_cons_self
      obtain ⟨r, hr, -, hev⟩ := mem_localLog.mp hmem
      have hserve := hd.served r hr
      rw [hev] at hserve
      have hreadable := hserve.1 state rfl
      have hearlier := (history_suffix hd r hr k).1
      rw [hworld] at hearlier
      cases store with
      | dynamo =>
          obtain ⟨old, hold, hstate⟩ := hreadable
          exact ⟨old, hold.trans hearlier, hstate⟩
      | postgres => exact ⟨_, hearlier, hreadable⟩

/-- With fresh readings a state is known by its `lastRefillMs`. -/
theorem seen_current (h : (limiter store opts).Reachable c) (hfresh : FreshReadings c)
    {l₁ l₂ : List (Entry Request Reply World)} {w : Entry Request Reply World}
    (hlog : c.log = l₁ ++ w :: l₂) {k : String} {old : List BucketState}
    (hold : old <:+ w.pre.history k) (hguard : old.head?.map BucketState.lastRefillMs =
      (w.pre.history k).head?.map BucketState.lastRefillMs) : old = w.pre.history k := by
  obtain ⟨d, hd, rfl, hworld⟩ := h.before l₁ w l₂ hlog
  have hdistinct := history_distinct hd (fun e he => hfresh e (by
    rw [hlog]
    exact List.mem_append_left _ he)) k
  rw [hworld] at hdistinct
  exact history_eq_of_tag BucketState.lastRefillMs hold hdistinct hguard

/-- A commit was computed from the state it replaced, however that state was
cut out of the history. -/
theorem saw_current (h : (limiter store opts).Reachable c) (hfresh : FreshReadings c)
    {l₁ l₂ : List (Entry Request Reply World)} {w r : Entry Request Reply World}
    (hlog : c.log = l₁ ++ w :: l₂) {k : String} (hcommit : Commits k w)
    {old : List BucketState} (hread : LastRead l₁ w.tid r) (hsaw : Saw k r old) :
    old = w.pre.history k := by
  obtain ⟨t, nowMs, state, hfollows⟩ := commits_follows h hlog hcommit
  have hstate : old.head? = state := by
    have hev := hsaw.1.symm.trans (hfollows.read r hread)
    cases hev
    rfl
  have hearlier : old <:+ w.pre.history k := by
    obtain ⟨d, hd, rfl, hworld⟩ := h.before l₁ w l₂ hlog
    obtain ⟨-, -, a, b, hd₁, -⟩ := hread
    have hr : r ∈ d.log := by
      rw [hd₁]
      exact List.mem_append_right _ List.mem_cons_self
    rw [← hworld]
    exact hsaw.2.trans (history_suffix hd r hr k).1
  exact seen_current h hfresh hlog hearlier (by rw [hstate, hfollows.guard])

/-- On either store: in every run whose writes bring fresh readings, no
decrement is lost. -/
theorem no_lost_decrement (h : (limiter store opts).Reachable c) (hfresh : FreshReadings c) :
    NoLostDecrement opts c := by
  constructor
  · intro l₁ w₁ l₂ w₂ l₃ hlog k hcommit₁ hcommit₂ r₁ old₁ r₂ old₂ hread₁ hsaw₁ hread₂ hsaw₂ hsame
    have hlog₂ : c.log = (l₁ ++ w₁ :: l₂) ++ w₂ :: l₃ := by simp [hlog]
    have hold₁ := saw_current h hfresh hlog hcommit₁ hread₁ hsaw₁
    have hold₂ := saw_current h hfresh hlog₂ hcommit₂ hread₂ hsaw₂
    obtain ⟨t, nowMs, state, hfollows⟩ := commits_follows h hlog hcommit₁
    obtain ⟨d, hd, hdlog, hworld⟩ := h.before _ w₂ l₃ hlog₂
    have hlonger := (history_suffix hd w₁ (by rw [hdlog]; simp) k).2.length_le
    rw [hworld, hfollows.post, ← hold₂, ← hsame, hold₁, List.length_cons] at hlonger
    omega
  · intro l₁ w l₂ hlog k hcommit
    obtain ⟨t, nowMs, state, hfollows⟩ := commits_follows h hlog hcommit
    obtain ⟨old, hold, rfl⟩ := hfollows.seen
    refine ⟨t, nowMs, hfollows.thread, hfollows.clock, ?_⟩
    rw [hfollows.post, seen_current h hfresh hlog hold hfollows.guard]

end Runs

/-! ## Two small runs -/

def freshReadings (c : LimiterConfig) : Bool :=
  c.log.all fun e => e.ev.op.written.all fun (k, s) =>
    (e.pre.history k).all fun old => old.lastRefillMs != s.lastRefillMs

theorem freshReadings_sound {c : LimiterConfig} (h : freshReadings c = true) :
    FreshReadings c := by
  intro e he k s hwritten old hold
  have hall := List.all_eq_true.mp h e he
  rw [hwritten, Option.all_some] at hall
  exact bne_iff_ne.mp (List.all_eq_true.mp hall old hold)

/-- The read was answered with the row it met. -/
def sawCurrent (k : String) (r : Entry Request Reply World) : Bool :=
  match r.ev with
  | ⟨.readState k', .ok state⟩ => k' == k && state == (r.pre.history k).head?
  | _ => false

theorem sawCurrent_sound {k : String} {r : Entry Request Reply World}
    (h : sawCurrent k r = true) : r.ev.op.isRead ∧ Saw k r (r.pre.history k) := by
  unfold sawCurrent at h
  split at h
  · rename_i k' state hev
    obtain ⟨hk, hstate⟩ := Bool.and_eq_true_iff.mp h
    rw [beq_iff_eq.mp hk, beq_iff_eq.mp hstate] at hev
    exact ⟨by rw [hev]; trivial, hev, List.suffix_rfl⟩
  · cases h

namespace Small

/-- Two calls: the second finds that the first has been there, and tries
again. -/
def contended : Schedule :=
  [.spawn call, .spawn call] ++ answers 0 2 1000 ++ answers 1 2 1001 ++ answers 0 1 1001 ++
    answers 1 5 1002

theorem no_lost_decrement_contended : ∃ c, (limiter .postgres opts).Reachable c ∧
    (c.world.history "login#ann").length = 2 ∧ NoLostDecrement opts c := by
  obtain ⟨c, hc, hchecks⟩ := (interpreter .postgres opts).exists_reachable (world_init _) contended
    (fun c => freshReadings c && (c.world.history "login#ann").length == 2) (by decide +kernel)
  obtain ⟨hfresh, htwo⟩ := Bool.and_eq_true_iff.mp hchecks
  exact ⟨c, hc, beq_iff_eq.mp htwo, no_lost_decrement hc (freshReadings_sound hfresh)⟩

/-- Three calls in one millisecond: the second and the third read what the
first has written, and both commit. -/
def sameMillisecond : Schedule :=
  [.spawn call, .spawn call, .spawn call] ++ answers 0 3 1000 ++ answers 1 2 1000 ++
    answers 2 2 1000 ++ answers 1 1 1000 ++ answers 2 1 1000

/-- The last two entries are commits of threads 1 and 2, which have read the
same row. -/
def bothCommit (c : LimiterConfig) : Bool :=
  let k := "login#ann"
  match c.log with
  | [_, _, _, _, r₁, e, r₂, w₁, w₂] =>
      r₁.tid == 1 && e.tid == 2 && r₂.tid == 2 && w₁.tid == 1 && w₂.tid == 2 &&
        sawCurrent k r₁ && sawCurrent k r₂ && r₁.pre.history k == r₂.pre.history k &&
        w₁.post.history k != w₁.pre.history k && w₂.post.history k != w₂.pre.history k
  | _ => false

theorem bothCommit_lost {c : LimiterConfig} (h : bothCommit c = true) :
    ¬ NoLostDecrement opts c := by
  unfold bothCommit at h
  split at h
  · rename_i e₀ e₁ e₂ e₃ r₁ e r₂ w₁ w₂ hlog
    simp only [Bool.and_eq_true, beq_iff_eq, bne_iff_ne] at h
    obtain ⟨⟨⟨⟨⟨⟨⟨⟨⟨hr₁, he⟩, hr₂⟩, hw₁⟩, hw₂⟩, hsaw₁⟩, hsaw₂⟩, hsame⟩, hcommit₁⟩, hcommit₂⟩ := h
    obtain ⟨hread₁, hsaw₁⟩ := sawCurrent_sound hsaw₁
    obtain ⟨hread₂, hsaw₂⟩ := sawCurrent_sound hsaw₂
    intro hno
    have hlast₁ : LastRead [e₀, e₁, e₂, e₃, r₁, e, r₂] w₁.tid r₁ :=
      ⟨by rw [hr₁, hw₁], hread₁, [e₀, e₁, e₂, e₃], [e, r₂], rfl, by simp [he, hr₂, hw₁]⟩
    have hlast₂ : LastRead [e₀, e₁, e₂, e₃, r₁, e, r₂, w₁] w₂.tid r₂ :=
      ⟨by rw [hr₂, hw₂], hread₂, [e₀, e₁, e₂, e₃, r₁, e], [w₁], rfl, by simp [hw₁, hw₂]⟩
    exact hno.distinct [e₀, e₁, e₂, e₃, r₁, e, r₂] w₁ [] w₂ [] hlog _ hcommit₁ hcommit₂ r₁ _ r₂ _
      hlast₁ hsaw₁ hlast₂ hsaw₂ hsame
  · cases h

theorem no_lost_decrement_fails : ¬ ∀ store opts c, (limiter store opts).Reachable c →
    NoLostDecrement opts c := by
  intro hall
  obtain ⟨c, hc, hlost⟩ := (interpreter .postgres opts).exists_reachable (world_init _)
    sameMillisecond bothCommit (by decide +kernel)
  exact bothCommit_lost hlost (hall _ _ c hc)

end Small

end SaasFoundation.Foundation.RateLimit
