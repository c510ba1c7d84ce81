import SaasFoundation.Lib.Later
import SaasFoundation.Vestibulum.SharedDistribution.Edge

/-!
# Concurrent calls of `getJwks`

One edge container, any number of calls of `getJwks` on its one cache.
Misses are not coalesced: each starts a fetch of its own, and whichever is
answered replaces the cached set. Fetches are numbered in the order in
which they are started; the number goes with the set, and is not known to
the code.
-/

namespace SaasFoundation.Vestibulum.SharedDistribution.EdgeKeys

open Lib Edge

/-! ## `getJwks` -/

/-- What a call finds when it is made. A miss starts a fetch, and the clock
it has read is the time its set will be cached with. -/
inductive Lookup where
  | hit (fetch : Nat) (keys : List Json)
  | miss (fetch : Nat) (now : Int)

inductive Request where
  | lookup
  /-- The response of the fetch, read to its end. -/
  | fetch (fetch : Nat)
  | replace (fetch : Nat) (keys : List Json) (now : Int)
  | clear

abbrev Reply : Request → Type
  | .lookup => Lookup
  | .fetch _ => Except String FetchResponse
  | .replace _ _ _ => Unit
  | .clear => Unit

/-- A set of keys with the fetch that has brought it. -/
inductive Output where
  | keys (fetch : Nat) (keys : List Json)
  | thrown (message : String)

abbrev Handler (α : Type) := Prog Request Reply α

/-- Make one request. -/
abbrev request (op : Request) : Handler (Reply op) := Prog.call op

/-- What the call does with its response. -/
def settle (fetch : Nat) (now : Int) (response : Except String FetchResponse) : Handler Output :=
  match response.bind FetchResponse.keys with
  | .error message => do
      let _ ← request .clear
      pure (.thrown message)
  | .ok keys => do
      let _ ← request (.replace fetch keys now)
      pure (.keys fetch keys)

def getJwks : Handler Output := do
  let found : Lookup ← request .lookup
  match found with
  | .hit fetch keys => pure (.keys fetch keys)
  | .miss fetch now => do
      let response : Except String FetchResponse ← request (.fetch fetch)
      settle fetch now response

/-! ## The container -/

structure World where
  cachedKeys : Option (Nat × List Json)
  cachedAt : Int
  now : Int
  /-- How many fetches have been started. -/
  started : Nat

def World.miss (w : World) : Lookup × World :=
  (.miss w.started w.now, { w with started := w.started + 1 })

def World.lookup (ttlMs : Int) (w : World) : Lookup × World :=
  match w.cachedKeys with
  | none => w.miss
  | some (fetch, keys) => if w.now - w.cachedAt < ttlMs then (.hit fetch keys, w) else w.miss

def serve (ttlMs : Int) (w : World) : (op : Request) → Reply op → World → Prop
  | .lookup, r, w' => (r, w') = w.lookup ttlMs
  | .fetch _, _, w' => w' = w
  | .replace fetch keys now, _, w' => w' = { w with cachedKeys := some (fetch, keys), cachedAt := now }
  | .clear, _, w' => w' = { w with cachedKeys := none, cachedAt := 0 }

/-- Calls on one empty cache, on any clock. -/
def container (ttlMs : Int) : System Request Reply World Unit Output where
  start := fun _ => getJwks
  permits := fun _ _ => True
  serve := serve ttlMs
  drift := fun w w' => ∃ now, w' = { w with now := now }
  init := fun w => w.cachedKeys = none ∧ w.cachedAt = 0 ∧ w.started = 0

abbrev KeysThread := Thread Request Reply Unit Output
abbrev KeysConfig := Config Request Reply World Unit Output

/-! ## The sequential model -/

def respond (ttlMs : Int) (w : World) (response : Except String FetchResponse) :
    (op : Request) → Reply op × World
  | .lookup => w.lookup ttlMs
  | .fetch _ => (response, w)
  | .replace fetch keys now => ((), { w with cachedKeys := some (fetch, keys), cachedAt := now })
  | .clear => ((), { w with cachedKeys := none, cachedAt := 0 })

/-- The cache without the number. -/
def World.cache (w : World) : JwksCache := ⟨w.cachedKeys.map Prod.snd, w.cachedAt⟩

def Output.result : Output → Except String (List Json)
  | .keys _ set => .ok set
  | .thrown message => .error message

/-- What a call that runs alone leaves and returns. -/
def alone (ttlMs : Int) (response : Except String FetchResponse) (p : Handler Output) (w : World) :
    JwksCache × Except String (List Json) :=
  let ran := p.solo (fun w => respond ttlMs w response) w
  (ran.1.cache, ran.2.result)

theorem settle_alone (ttlMs : Int) (w : World) (fetch : Nat) (now : Int)
    (response : Except String FetchResponse) :
    alone ttlMs response (settle fetch now response) w =
      JwksCache.getJwks.refresh now response := by
  cases response with
  | error e => rfl
  | ok response =>
      cases hkeys : response.keys with
      | error message | ok keys =>
          simp only [settle, Except.bind, hkeys, JwksCache.getJwks.refresh]
          rfl

/-- It is what the sequential model says. -/
theorem getJwks_alone (ttlMs : Int) (w : World) (response : Except String FetchResponse) :
    alone ttlMs response getJwks w = w.cache.getJwks ttlMs w.now response := by
  obtain ⟨cachedKeys, cachedAt, now, started⟩ := w
  cases cachedKeys with
  | none => exact settle_alone ttlMs _ _ _ response
  | some cached =>
      by_cases hyoung : now - cachedAt < ttlMs
      · have hseq : JwksCache.getJwks ⟨some cached.2, cachedAt⟩ ttlMs now response =
            (⟨some cached.2, cachedAt⟩, .ok cached.2) := if_pos hyoung
        have hlookup : World.lookup ttlMs ⟨some cached, cachedAt, now, started⟩ =
            (.hit cached.1 cached.2, ⟨some cached, cachedAt, now, started⟩) := if_pos hyoung
        refine Eq.trans ?_ hseq.symm
        simp only [alone, getJwks, request, Prog.call_bind, Prog.solo, respond, hlookup]
        rfl
      · have hseq : JwksCache.getJwks ⟨some cached.2, cachedAt⟩ ttlMs now response =
            JwksCache.getJwks.refresh now response := if_neg hyoung
        have hlookup : World.lookup ttlMs ⟨some cached, cachedAt, now, started⟩ =
            World.miss ⟨some cached, cachedAt, now, started⟩ := if_neg hyoung
        refine Eq.trans ?_ hseq.symm
        simp only [alone, getJwks, request, Prog.call_bind, Prog.solo, respond, hlookup]
        exact settle_alone ttlMs _ _ _ response

/-! ## Freshness -/

/-- Once a call has returned the set of a fetch, no call that is started
later returns that of an earlier fetch. -/
def NoRollback (c d : KeysConfig) : Prop :=
  ∀ (i j : Nat) (t u : KeysThread) (f g : Nat) (keys keys' : List Json),
    c.threads[i]? = some t → t.prog = .ret (.keys f keys) →
    c.threads.length ≤ j → d.threads[j]? = some u → u.prog = .ret (.keys g keys') → f ≤ g

/-- The set that is cached is replaced. -/
def Replaces (e : Entry Request Reply World) (fetch : Nat) : Prop :=
  ∃ keys now, e.ev.op = .replace fetch keys now

/-- No fetch brings its set after one that was started later has. -/
def FetchesInOrder (c : KeysConfig) : Prop :=
  ∀ l₁ e l₂, c.log = l₁ ++ e :: l₂ → ∀ f, Replaces e f → ∀ x ∈ l₁, ∀ g, Replaces x g → g ≤ f

variable {ttlMs : Int} {c d : KeysConfig}

/-- A set is put into the cache under the number the call was given. -/
def OwnFetch (past : List (Event Request Reply)) (op : Request) : Prop :=
  ∀ fetch keys now, op = .replace fetch keys now → ⟨.lookup, .miss fetch now⟩ ∈ past

theorem getJwks_asks : Prog.Asks OwnFetch [] getJwks := by
  refine ⟨by simp [OwnFetch], ?_⟩
  intro found
  cases found with
  | hit fetch keys => trivial
  | miss fetch now =>
      refine ⟨by simp [OwnFetch], ?_⟩
      intro response
      change Prog.Asks OwnFetch _ (settle fetch now response)
      unfold settle
      split
      · exact ⟨by simp [OwnFetch], fun _ => trivial⟩
      · refine ⟨?_, fun _ => trivial⟩
        intro f keys' now' hop
        cases hop
        simp

/-- A call that returns a set has found it, or has fetched it and put it
into the cache. -/
theorem getJwks_returns {es : List (Event Request Reply)} {f : Nat} {keys : List Json}
    (h : getJwks.Finishes es (.keys f keys)) : ⟨.lookup, .hit f keys⟩ ∈ es ∨
      ∃ now, ⟨.lookup, .miss f now⟩ ∈ es ∧ ⟨.replace f keys now, ()⟩ ∈ es := by
  simp only [getJwks, Prog.call_bind, Prog.finishes_ask] at h
  obtain ⟨found, fs, rfl, h⟩ := h
  cases found with
  | hit fetch set =>
      simp only [Prog.pure_def, Prog.finishes_ret, Output.keys.injEq] at h
      obtain ⟨rfl, rfl, rfl⟩ := h
      exact .inl (by simp)
  | miss fetch now =>
      simp only [Prog.finishes_ask] at h
      obtain ⟨response, gs, rfl, h⟩ := h
      unfold settle at h
      split at h
      · simp only [Prog.call_bind, Prog.finishes_ask, Prog.pure_def, Prog.finishes_ret] at h
        obtain ⟨_, _, -, -, hret⟩ := h
        cases hret
      · simp only [Prog.call_bind, Prog.finishes_ask, Prog.pure_def, Prog.finishes_ret] at h
        obtain ⟨_, _, rfl, rfl, hret⟩ := h
        cases hret
        exact .inr ⟨now, by simp, by simp⟩

theorem lookup_hit {w w' : World} {f : Nat} {keys : List Json}
    (h : (Lookup.hit f keys, w') = w.lookup ttlMs) : w.cachedKeys = some (f, keys) := by
  unfold World.lookup at h
  split at h
  · cases h
  · rename_i hcached
    split at h
    · cases h
      exact hcached
    · cases h

theorem lookup_miss {w w' : World} {f : Nat} {now : Int}
    (h : (Lookup.miss f now, w') = w.lookup ttlMs) : f = w.started ∧ f < w'.started := by
  unfold World.lookup at h
  split at h
  · cases h
    exact ⟨rfl, Nat.lt_succ_self _⟩
  · split at h
    · cases h
    · cases h
      exact ⟨rfl, Nat.lt_succ_self _⟩

theorem lookup_world {w w' : World} {found : Lookup} (h : (found, w') = w.lookup ttlMs) :
    w.started ≤ w'.started ∧ w'.cachedKeys = w.cachedKeys := by
  unfold World.lookup at h
  split at h
  · cases h
    exact ⟨Nat.le_succ _, rfl⟩
  · split at h
    · cases h
      exact ⟨Nat.le_refl _, rfl⟩
    · cases h
      exact ⟨Nat.le_succ _, rfl⟩

theorem serve_started {w w' : World} {op : Request} {r : Reply op} (h : serve ttlMs w op r w') :
    w.started ≤ w'.started := by
  cases op with
  | lookup => exact (lookup_world h).1
  | fetch f | replace f keys now | clear =>
      rw [show w' = _ from h]

/-- A cached set has just been put there, or it was there and no set was. -/
theorem serve_cached {w w' : World} {op : Request} {r : Reply op} (h : serve ttlMs w op r w')
    {f : Nat} {keys : List Json} (hcached : w'.cachedKeys = some (f, keys)) :
    (∃ now, op = .replace f keys now) ∨
      (∀ g keys' now, op ≠ .replace g keys' now) ∧ w.cachedKeys = some (f, keys) := by
  cases op with
  | lookup =>
      rw [(lookup_world h).2] at hcached
      exact .inr ⟨by simp, hcached⟩
  | fetch n =>
      rw [show w' = _ from h] at hcached
      exact .inr ⟨by simp, hcached⟩
  | replace n set now =>
      rw [show w' = _ from h] at hcached
      cases hcached
      exact .inl ⟨now, rfl⟩
  | clear =>
      rw [show w' = _ from h] at hcached
      cases hcached

/-- Numbers that were given have been counted. -/
theorem missed_lt (h : (container ttlMs).Reachable c) :
    ∀ e ∈ c.log, ∀ f now, e.ev = ⟨.lookup, .miss f now⟩ → f < c.world.started := by
  induction h with
  | init _ => simp
  | step _ hs ih =>
      cases hs with
      | spawn _ => exact ih
      | drift hd =>
          obtain ⟨now, rfl⟩ := hd
          exact ih
      | request _ hserve =>
          intro e he f now hev
          rcases List.mem_append.mp he with he | he
          · exact (ih e he f now hev).trans_le (serve_started hserve)
          · rw [List.mem_singleton.mp he] at hev
            cases hev
            exact (lookup_miss hserve).2

theorem replaces_lt (h : (container ttlMs).Reachable c) {e : Entry Request Reply World}
    (he : e ∈ c.log) {f : Nat} (hrep : Replaces e f) : f < c.world.started := by
  obtain ⟨keys, now, hop⟩ := hrep
  obtain ⟨l₁, l₂, hlog⟩ := List.append_of_mem he
  obtain ⟨-, -, hJ⟩ := h.asked (J := fun _ => OwnFetch) (fun _ => getJwks_asks) l₁ e l₂ hlog
  obtain ⟨x, hx, -, hev⟩ := mem_localLog.mp (hJ f keys now hop)
  exact missed_lt h x (by rw [hlog]; simp [hx]) f now hev

/-- The cached set is that of the latest fetch that has brought one. -/
theorem cached_latest (h : (container ttlMs).Reachable c) (horder : FetchesInOrder c) :
    ∀ f keys, c.world.cachedKeys = some (f, keys) →
      (∃ e ∈ c.log, Replaces e f) ∧ ∀ e ∈ c.log, ∀ g, Replaces e g → g ≤ f := by
  induction h with
  | init hw =>
      intro f keys hcached
      rw [hw.1] at hcached
      cases hcached
  | @step c d hc hs ih =>
      cases hs with
      | spawn _ => exact ih horder
      | drift hd =>
          obtain ⟨now, rfl⟩ := hd
          exact ih horder
      | @request i job op k r w hi hserve =>
          have hlast : (⟨i, c.world, ⟨op, r⟩, w⟩ : Entry Request Reply World) ∈
              c.log ++ [⟨i, c.world, ⟨op, r⟩, w⟩] := List.mem_append_right _ List.mem_cons_self
          intro f keys hcached
          rcases serve_cached hserve hcached with ⟨now, hop⟩ | ⟨hnot, hold⟩
          · -- the set is new: it is in order
            refine ⟨⟨_, hlast, keys, now, hop⟩, ?_⟩
            intro e he g hrep
            rcases List.mem_append.mp he with he | he
            · exact horder c.log _ [] rfl f ⟨keys, now, hop⟩ e he g hrep
            · rw [List.mem_singleton.mp he] at hrep
              obtain ⟨keys', now', hop'⟩ := hrep
              have hsame := hop.symm.trans hop'
              cases hsame
              exact Nat.le_refl _
          · have hbefore : FetchesInOrder c := fun l₁ e l₂ hlog =>
              horder l₁ e (l₂ ++ [⟨i, c.world, ⟨op, r⟩, w⟩]) (by rw [hlog, List.append_assoc]; rfl)
            obtain ⟨⟨e, he, hrep⟩, hmax⟩ := ih hbefore f keys hold
            refine ⟨⟨e, List.mem_append_left _ he, hrep⟩, ?_⟩
            intro x hx g hrep'
            rcases List.mem_append.mp hx with hx | hx
            · exact hmax x hx g hrep'
            · rw [List.mem_singleton.mp hx] at hrep'
              obtain ⟨keys', now', hop'⟩ := hrep'
              exact absurd hop' (hnot g keys' now')

/-- Every set that was returned had been put into the cache. -/
theorem returned_replaced (h : (container ttlMs).Reachable c) (horder : FetchesInOrder c)
    {i : Nat} {t : KeysThread} {f : Nat} {keys : List Json} (ht : c.threads[i]? = some t)
    (hret : t.prog = .ret (.keys f keys)) : ∃ e ∈ c.log, Replaces e f := by
  have hrun := h.local_run i t ht
  rw [hret] at hrun
  rcases getJwks_returns hrun with hhit | ⟨now, -, hreplace⟩
  · obtain ⟨e, he, -, hev⟩ := mem_localLog.mp hhit
    obtain ⟨l₁, l₂, hlog⟩ := List.append_of_mem he
    obtain ⟨b, hb, hblog, hpre⟩ := h.before l₁ e l₂ hlog
    have hserve := h.served e he
    rw [hev, ← hpre] at hserve
    have hprior : FetchesInOrder b := fun m₁ x m₂ hm =>
      horder m₁ x (m₂ ++ e :: l₂) (by rw [hlog, ← hblog, hm, List.append_assoc]; rfl)
    obtain ⟨⟨x, hx, hrep⟩, -⟩ := cached_latest hb hprior f keys (lookup_hit hserve)
    exact ⟨x, by rw [hlog, ← hblog]; simp [hx], hrep⟩
  · obtain ⟨e, he, -, hev⟩ := mem_localLog.mp hreplace
    exact ⟨e, he, keys, now, by rw [hev]⟩

/-- In a run where sets arrive in the order of their fetches, no call goes
back behind a set that was returned before it was started. -/
theorem no_rollback (hc : (container ttlMs).Reachable c) (hlater : (container ttlMs).Later c d)
    (horder : FetchesInOrder d) : NoRollback c d := by
  intro i j t u f g keys keys' ht hret hj hu hret'
  have hd := hlater.reachable hc
  obtain ⟨new, hsince⟩ := hlater.since
  have horderc : FetchesInOrder c := fun l₁ e l₂ hlog =>
    horder l₁ e (l₂ ++ new) (by rw [hsince.log, hlog, List.append_assoc]; rfl)
  obtain ⟨e, he, hrep⟩ := returned_replaced hc horderc ht hret
  -- the lookup of call `j` comes after that
  have hlookup : ∀ found : Lookup, ⟨.lookup, found⟩ ∈ localLog d.log j → ∃ b,
      (container ttlMs).Reachable b ∧ FetchesInOrder b ∧ e ∈ b.log ∧
        ∃ w', (found, w') = b.world.lookup ttlMs := by
    intro found hmem
    rw [hsince.localLog_new hc hj] at hmem
    obtain ⟨x, hx, -, hev⟩ := mem_localLog.mp hmem
    obtain ⟨n₁, n₂, hnew⟩ := List.append_of_mem hx
    have hlog : d.log = (c.log ++ n₁) ++ x :: n₂ := by
      rw [hsince.log, hnew, List.append_assoc]
    obtain ⟨b, hb, hblog, hpre⟩ := hd.before _ _ _ hlog
    have hserve := hd.served x (by rw [hlog]; simp)
    rw [hev, ← hpre] at hserve
    refine ⟨b, hb, ?_, by rw [hblog]; exact List.mem_append_left _ he, _, hserve⟩
    intro m₁ y m₂ hm
    exact horder m₁ y (m₂ ++ x :: n₂) (by rw [hlog, ← hblog, hm, List.append_assoc]; rfl)
  have hrun := hd.local_run j u hu
  rw [hret'] at hrun
  rcases getJwks_returns hrun with hhit | ⟨now, hmiss, -⟩
  · obtain ⟨b, hb, hob, heb, w', hfound⟩ := hlookup _ hhit
    exact (cached_latest hb hob g keys' (lookup_hit hfound)).2 e heb f hrep
  · obtain ⟨b, hb, -, heb, w', hfound⟩ := hlookup _ hmiss
    rw [(lookup_miss hfound).1]
    exact (replaces_lt hb heb hrep).le

/-! ## Two fetches in the wrong order -/

namespace Small

def responder (ttlMs : Int) : Responder (container ttlMs) (Except String FetchResponse) Int where
  permits := fun _ _ => true
  respond := respond ttlMs
  drift := fun w now => some { w with now := now }
  permits_sound := fun _ _ _ => trivial
  respond_sound := by
    intro w response op
    cases op with
    | lookup => rfl
    | fetch f | replace f keys now | clear => rfl
  drift_sound := fun w now w' h => ⟨now, (Option.some.inj h).symm⟩

/-- A document with one key. -/
def document (kid : String) : Except String FetchResponse :=
  .ok ⟨true, 200, .ok (.obj [("keys", .arr [.obj [("kid", .str kid)]])])⟩

def returns (fetch : Nat) (t : KeysThread) : Bool :=
  match t.prog with
  | .ret (.keys f _) => f == fetch
  | _ => false

theorem returns_keys {fetch : Nat} {t : KeysThread} (h : returns fetch t = true) :
    ∃ keys, t.prog = .ret (.keys fetch keys) := by
  unfold returns at h
  split at h
  · rename_i f keys heq
    exact ⟨keys, by rw [heq, eq_of_beq h]⟩
  · cases h

/-- Calls 0 and 1 start a fetch each; the second is answered first. -/
def before : List (Turn Unit (Except String FetchResponse) Int) :=
  [.spawn (), .answer 0 (document "old"), .spawn (), .answer 1 (document "old"),
    .answer 1 (document "new"), .answer 1 (document "new")]

/-- The first is answered, and call 2 hits what it has brought. -/
def after : List (Turn Unit (Except String FetchResponse) Int) :=
  [.answer 0 (document "old"), .answer 0 (document "old"), .spawn (), .answer 2 (document "new")]

theorem rollback : ¬ ∀ (ttlMs : Int) (c d : KeysConfig), 0 < ttlMs →
    (container ttlMs).Reachable c → (container ttlMs).Later c d → NoRollback c d := by
  intro hall
  obtain ⟨c, d, hc, hlater, hwrong⟩ := (responder 900000).exists_later
    (w := ⟨none, 0, 0, 0⟩) ⟨rfl, rfl, rfl⟩ before after
    (fun c d => c.threads.length == 2 && c.threads[1]?.any (returns 1) &&
      d.threads[2]?.any (returns 0)) (by decide +kernel)
  simp only [Bool.and_eq_true, beq_iff_eq, Option.any_eq_true] at hwrong
  obtain ⟨⟨hlen, t, ht, hfirst⟩, u, hu, hsecond⟩ := hwrong
  obtain ⟨keys, hret⟩ := returns_keys hfirst
  obtain ⟨keys', hret'⟩ := returns_keys hsecond
  have := hall 900000 c d (by decide) hc hlater 1 2 t u 1 0 keys keys' ht hret (by omega) hu hret'
  omega

/-- Is the number of a set that is put into the cache, if one is. -/
def replaced (e : Entry Request Reply World) : Option Nat :=
  match e.ev.op with
  | .replace f _ _ => some f
  | _ => none

theorem replaced_of {e : Entry Request Reply World} {f : Nat} (h : Replaces e f) :
    replaced e = some f := by
  obtain ⟨keys, now, hop⟩ := h
  rw [replaced, hop]

/-- A call that fetches and one, after the TTL, that fetches again. -/
theorem no_rollback_refresh : ∃ c d, (container 900000).Reachable c ∧
    (container 900000).Later c d ∧ (∃ u ∈ d.threads, ∃ keys, u.prog = .ret (.keys 1 keys)) ∧
      NoRollback c d := by
  obtain ⟨c, d, hc, hlater, hruns⟩ := (responder 900000).exists_later
    (w := ⟨none, 0, 0, 0⟩) ⟨rfl, rfl, rfl⟩
    [.spawn (), .answer 0 (document "old"), .answer 0 (document "old"), .answer 0 (document "old")]
    [.drift 900000, .spawn (), .answer 1 (document "new"), .answer 1 (document "new"),
      .answer 1 (document "new")]
    (fun _ d => d.threads[1]?.any (returns 1) && d.log.filterMap replaced == [0, 1])
    (by decide +kernel)
  simp only [Bool.and_eq_true, beq_iff_eq, Option.any_eq_true] at hruns
  obtain ⟨⟨u, hu, hsecond⟩, horder⟩ := hruns
  refine ⟨c, d, hc, hlater, ⟨u, List.mem_of_getElem? hu, returns_keys hsecond⟩,
    no_rollback hc hlater ?_⟩
  intro l₁ e l₂ hlog f hrep x hx g hrep'
  -- the numbers in the log are sorted
  have hsorted : (d.log.filterMap replaced).Pairwise (· ≤ ·) := by
    rw [horder]
    decide
  rw [hlog, List.filterMap_append, List.pairwise_append] at hsorted
  exact hsorted.2.2 g (List.mem_filterMap.mpr ⟨x, hx, replaced_of hrep'⟩) f
    (List.mem_filterMap.mpr ⟨e, List.mem_cons_self, replaced_of hrep⟩)

end Small

end SaasFoundation.Vestibulum.SharedDistribution.EdgeKeys
