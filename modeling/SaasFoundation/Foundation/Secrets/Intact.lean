import SaasFoundation.Foundation.Secrets.Resolve

/-!
# Whose buffer it is

A buffer that a call has returned holds what was fetched until the term of
its entry is over. The cache keeps that promise as long as no reply is
stored over an entry whose term is not.
-/

namespace SaasFoundation.Foundation.Secrets

open Lib SecretCache

/-- A reply that was decoded to these bytes. -/
def Fetched (past : List (Event Request Reply)) (key : String) (bytes : List UInt8) : Prop :=
  (∃ ref response, secretCacheKey ref = key ∧ secretBytes ref response = .ok bytes ∧
    ⟨.getSecretValue ref, response⟩ ∈ past) ∨
  ∃ name decrypted response, parameterCacheKey name decrypted = key ∧
    parameterBytes name response = .ok bytes ∧ ⟨.getParameter name decrypted, response⟩ ∈ past

/-- Every buffer that was returned was made of a reply for the caller's
reference, and still holds it or its term is over. -/
def Intact (options : SecretCacheOptions) (c : SecretsConfig) : Prop :=
  ∀ t ∈ c.threads, ∀ value, t.prog = .ret (.buffer value) → ∃ key l₁ e l₂ bytes,
    t.job.key = some key ∧ c.log = l₁ ++ e :: l₂ ∧ e.ev = ⟨.store key bytes, value⟩ ∧
      Fetched (localLog l₁ e.tid) key bytes ∧
      (c.world.cache.buffers[value]? = some bytes ∨
        c.world.cache.Over c.world.latest value (e.pre.now + options.ttlMs))

def Job.isFresh : Job → Bool
  | .resolveSecret _ fresh => fresh
  | .resolveParameter _ _ fresh => fresh
  | _ => false

/-- No reply is stored while the cache has an entry of its key whose TTL
has not passed. -/
def NoOverlap (c : SecretsConfig) : Prop :=
  ∀ e ∈ c.log, ∀ key bytes, e.ev.op = .store key bytes → e.pre.cache.Vacant e.pre.latest key

variable {options : SecretCacheOptions} {c : SecretsConfig} {w w' : World}

/-! ## What a request does -/

section Serve

variable {op : Request} {r : Reply op}

theorem serve_clock (h : serve options w op r w') : w'.now = w.now ∧ w'.latest = w.latest := by
  cases op with
  | get key | invalidate key | store key bytes =>
      rw [h.2]
      exact ⟨rfl, rfl⟩
  | clear | getSecretValue ref | getParameter name decrypted =>
      rw [show w' = _ from h]
      exact ⟨rfl, rfl⟩

/-- A new buffer belongs to no entry. -/
theorem alloc_fresh (h : w.cache.WF) (bytes : List UInt8) :
    (∀ p ∈ (w.cache.alloc bytes).2.entries, p.2.value ≠ (w.cache.alloc bytes).1) ∧
      (w.cache.alloc bytes).1 < (w.cache.alloc bytes).2.buffers.length := by
  refine ⟨?_, by simp [alloc]⟩
  intro p hp hsame
  have := h.allocated p hp
  simp only [alloc] at hsame
  omega

theorem serve_keeps (h : serve options w op r w') (hwf : w.cache.WF) (hclock : w.now ≤ w.latest)
    (hvacant : ∀ key bytes, op = .store key bytes → w.cache.Vacant w.latest key) :
    Keeps w.latest w.cache w'.cache := by
  cases op with
  | get key =>
      rw [h.2]
      exact get_keeps hwf hclock
  | invalidate key =>
      rw [h.2]
      exact evictKey_keeps hwf rfl
  | clear =>
      rw [show w' = _ from h]
      exact clear_keeps
  | store key bytes =>
      obtain ⟨rfl, rfl⟩ := h
      have halloc : Keeps w.latest w.cache (w.cache.alloc bytes).2 := alloc_keeps hwf bytes
      obtain ⟨hvalue, hlt⟩ := alloc_fresh hwf bytes
      exact halloc.trans (set_keeps halloc.wf (hvacant key bytes rfl) options w.now hvalue hlt).1
  | getSecretValue ref | getParameter name decrypted =>
      rw [show w' = _ from h]
      exact .refl hwf

/-- An entry that is new is that of a store. -/
theorem serve_entries (h : serve options w op r w') : ∀ p ∈ w'.cache.entries,
    p ∈ w.cache.entries ∨ ∃ bytes, (⟨op, r⟩ : Event Request Reply) = ⟨.store p.1 bytes, p.2.value⟩ ∧
      p.2.expiresAt = w.now + options.ttlMs := by
  intro p hp
  cases op with
  | get key =>
      rw [h.2] at hp
      exact .inl (get_entries p hp)
  | invalidate key =>
      rw [h.2] at hp
      exact .inl (evictKey_entries p hp)
  | clear =>
      rw [show w' = _ from h] at hp
      cases hp
  | store key bytes =>
      obtain ⟨rfl, rfl⟩ := h
      rcases set_entries p hp with hp | rfl
      · exact .inl hp
      · exact .inr ⟨bytes, rfl, rfl⟩
  | getSecretValue ref | getParameter name decrypted =>
      rw [show w' = _ from h] at hp
      exact .inl hp

/-- A buffer in its entry, or past its term. -/
def Held (w : World) (key : String) (bytes : List UInt8) (value : Nat) (expiresAt : ℚ) : Prop :=
  ((key, ⟨value, expiresAt⟩) ∈ w.cache.entries ∧ w.cache.buffers[value]? = some bytes) ∨
    w.cache.Over w.latest value expiresAt

theorem serve_store {key : String} {bytes : List UInt8} {value : Nat}
    (h : serve options w (.store key bytes) value w') (hwf : w.cache.WF)
    (hvacant : w.cache.Vacant w.latest key) :
    Held w' key bytes value (w.now + options.ttlMs) := by
  obtain ⟨rfl, rfl⟩ := h
  have halloc : Keeps w.latest w.cache (w.cache.alloc bytes).2 := alloc_keeps hwf bytes
  obtain ⟨hvalue, hlt⟩ := alloc_fresh hwf bytes
  rcases (set_keeps halloc.wf hvacant options w.now hvalue hlt).2 with ⟨hmem, hbuf⟩ | hover
  · exact .inl ⟨hmem, hbuf.trans (by simp [alloc])⟩
  · exact .inr hover

theorem Held.keeps {key : String} {bytes : List UInt8} {value : Nat} {expiresAt : ℚ}
    (h : Held w key bytes value expiresAt) (hkeeps : Keeps w.latest w.cache w'.cache)
    (hle : w.latest ≤ w'.latest) : Held w' key bytes value expiresAt := by
  rcases h with ⟨hmem, hbuf⟩ | hover
  · rcases hkeeps.kept _ hmem with ⟨hmem', hbuf'⟩ | hover
    · exact .inl ⟨hmem', hbuf'.trans hbuf⟩
    · exact .inr (hover.mono hle fun _ hz => hz)
  · exact .inr (hover.mono hle hkeeps.zeroed)

end Serve

/-! ## What holds of every run -/

/-- Entries come from stores, hits return buffers of stores, and what was
stored is held. -/
structure Inv (options : SecretCacheOptions) (c : SecretsConfig) : Prop where
  wf : c.world.cache.WF
  clock : c.world.now ≤ c.world.latest
  entries : ∀ p ∈ c.world.cache.entries, ∃ e ∈ c.log, ∃ bytes,
    e.ev = ⟨.store p.1 bytes, p.2.value⟩ ∧ p.2.expiresAt = e.pre.now + options.ttlMs
  hits : ∀ e ∈ c.log, ∀ key value, e.ev = ⟨.get key, some value⟩ →
    ∃ e' ∈ c.log, ∃ bytes, e'.ev = ⟨.store key bytes, value⟩
  held : ∀ e ∈ c.log, ∀ key bytes value, e.ev = ⟨.store key bytes, value⟩ →
    Held c.world key bytes value (e.pre.now + options.ttlMs)

theorem Inv.request {i : Nat} {op : Request} {r : Reply op} {w : World} (h : Inv options c)
    (hserve : serve options c.world op r w)
    (hvacant : ∀ key bytes, op = .store key bytes → c.world.cache.Vacant c.world.latest key)
    {threads : List (Thread Request Reply Job Output)} :
    Inv options ⟨w, threads, c.log ++ [⟨i, c.world, ⟨op, r⟩, w⟩]⟩ := by
  have hkeeps := serve_keeps hserve h.wf h.clock hvacant
  obtain ⟨hnow, hlatest⟩ := serve_clock hserve
  have hmem : ∀ e ∈ c.log, e ∈ c.log ++ [⟨i, c.world, ⟨op, r⟩, w⟩] :=
    fun e he => List.mem_append_left _ he
  have hlast : (⟨i, c.world, ⟨op, r⟩, w⟩ : Lib.Entry Request Reply World) ∈
      c.log ++ [⟨i, c.world, ⟨op, r⟩, w⟩] := List.mem_append_right _ List.mem_cons_self
  refine ⟨hkeeps.wf, by rw [hnow, hlatest]; exact h.clock, ?_, ?_, ?_⟩
  · intro p hp
    rcases serve_entries hserve p hp with hp | ⟨bytes, hev, hexp⟩
    · obtain ⟨e, he, hrest⟩ := h.entries p hp
      exact ⟨e, hmem e he, hrest⟩
    · exact ⟨_, hlast, bytes, hev, hexp⟩
  · intro e he key value hev
    rcases List.mem_append.mp he with he | he
    · obtain ⟨e', he', hrest⟩ := h.hits e he key value hev
      exact ⟨e', hmem e' he', hrest⟩
    · -- the hit is the new one: the entry it met had been stored
      rw [List.mem_singleton.mp he] at hev
      cases hev
      obtain ⟨entry, hentry, rfl⟩ := get_hit hserve.1.symm
      obtain ⟨e', he', bytes, hev', -⟩ := h.entries _ hentry
      exact ⟨e', hmem e' he', bytes, hev'⟩
  · intro e he key bytes value hev
    rcases List.mem_append.mp he with he | he
    · exact (h.held e he key bytes value hev).keeps hkeeps (le_of_eq hlatest.symm)
    · rw [List.mem_singleton.mp he] at hev ⊢
      cases hev
      exact serve_store hserve h.wf (hvacant key bytes rfl)

theorem Reachable.inv (h : (process options).Reachable c) (hno : NoOverlap c) :
    Inv options c := by
  induction h with
  | @init w hw =>
      obtain ⟨hcache, hlatest⟩ := hw
      refine ⟨by rw [hcache]; exact empty_wf, le_of_eq hlatest.symm, ?_, by simp, by simp⟩
      intro p hp
      rw [hcache] at hp
      cases hp
  | step _ hs ih =>
      cases hs with
      | spawn _ =>
          have := ih hno
          exact ⟨this.wf, this.clock, this.entries, this.hits, this.held⟩
      | request _ hserve =>
          refine (ih fun e he => hno e (List.mem_append_left _ he)).request hserve ?_
          intro key bytes hop
          exact hno _ (List.mem_append_right _ List.mem_cons_self) key bytes hop
      | drift hd =>
          obtain ⟨now, rfl⟩ := hd
          have := ih hno
          refine ⟨this.wf, le_max_right _ _, this.entries, this.hits, ?_⟩
          intro e he key bytes value hev
          exact (this.held e he key bytes value hev).keeps (.refl this.wf) (le_max_left _ _)

/-! ## What a call does -/

/-- Bytes are stored that were fetched for their key. -/
def StoresFetched (past : List (Event Request Reply)) (op : Request) : Prop :=
  ∀ key bytes, op = .store key bytes → Fetched past key bytes

/-- The fetch of a call, with what its reply is decoded to. -/
inductive Fetch : String → (fetch : Request) →
    (Reply fetch → Except SecretsResolveError (List UInt8)) → Prop
  | secret (ref : SecretRef) : Fetch (secretCacheKey ref) (.getSecretValue ref) (secretBytes ref)
  | parameter (name : String) (decrypted : Bool) :
      Fetch (parameterCacheKey name decrypted) (.getParameter name decrypted) (parameterBytes name)

section Calls

variable {key : String} {fetch : Request}
  {finish : Reply fetch → Except SecretsResolveError (List UInt8)}

theorem Fetch.fetched (h : Fetch key fetch finish) {past : List (Event Request Reply)}
    {response : Reply fetch} {bytes : List UInt8} (hmem : ⟨fetch, response⟩ ∈ past)
    (hok : finish response = .ok bytes) : Fetched past key bytes := by
  cases h with
  | secret ref => exact .inl ⟨ref, response, rfl, hok, hmem⟩
  | parameter name decrypted => exact .inr ⟨name, decrypted, response, rfl, hok, hmem⟩

theorem Fetch.not_store (h : Fetch key fetch finish) (past : List (Event Request Reply)) :
    StoresFetched past fetch := by
  intro _ _ hop
  cases h <;> cases hop

theorem load_asks (h : Fetch key fetch finish) (past : List (Event Request Reply)) :
    Prog.Asks StoresFetched past (load key fetch finish) := by
  simp only [load, Prog.call_bind, Prog.asks_ask]
  refine ⟨h.not_store past, ?_⟩
  intro response
  split
  · trivial
  · rename_i bytes hok
    refine ⟨?_, fun _ => trivial⟩
    intro key' bytes' hop
    cases hop
    exact h.fetched (List.mem_append_right _ List.mem_cons_self) hok

theorem resolve_asks (h : Fetch key fetch finish) (fresh : Bool) :
    Prog.Asks StoresFetched [] (resolve key fresh fetch finish) := by
  unfold resolve
  split
  · exact ⟨by simp [StoresFetched], fun _ => load_asks h _⟩
  · refine ⟨by simp [StoresFetched], ?_⟩
    intro hit
    cases hit with
    | some value => trivial
    | none => exact load_asks h _

theorem start_asks (job : Job) : Prog.Asks StoresFetched [] (start job) := by
  cases job with
  | resolveSecret ref fresh => exact resolve_asks (.secret ref) fresh
  | resolveParameter name withDecryption fresh => exact resolve_asks (.parameter name _) fresh
  | invalidate key => exact ⟨by simp [StoresFetched], fun _ => trivial⟩
  | clear => exact ⟨by simp [StoresFetched], fun _ => trivial⟩

/-- A buffer that is returned was a hit or has just been stored. -/
def Gives (es : List (Event Request Reply)) (key : String) (value : Nat) : Prop :=
  ⟨.get key, some value⟩ ∈ es ∨ ∃ bytes, ⟨.store key bytes, value⟩ ∈ es

theorem load_gives {es : List (Event Request Reply)} {value : Nat}
    (h : (load key fetch finish).Finishes es (.buffer value)) : Gives es key value := by
  simp only [load, Prog.call_bind, Prog.finishes_ask] at h
  obtain ⟨response, fs, rfl, h⟩ := h
  split at h
  · simp at h
  · rename_i bytes _
    simp only [Prog.finishes_ask, Prog.pure_def, Prog.finishes_ret] at h
    obtain ⟨stored, gs, rfl, rfl, hvalue⟩ := h
    cases hvalue
    exact .inr ⟨bytes, by simp⟩

theorem resolve_gives {es : List (Event Request Reply)} {fresh : Bool} {value : Nat}
    (h : (resolve key fresh fetch finish).Finishes es (.buffer value)) : Gives es key value := by
  have hlater : ∀ {e : Event Request Reply} {fs : List (Event Request Reply)},
      (load key fetch finish).Finishes fs (.buffer value) → Gives (e :: fs) key value := by
    intro e fs hload
    rcases load_gives hload with hget | ⟨bytes, hstore⟩
    · exact .inl (List.mem_cons_of_mem _ hget)
    · exact .inr ⟨bytes, List.mem_cons_of_mem _ hstore⟩
  unfold resolve at h
  split at h
  · simp only [Prog.call_bind, Prog.finishes_ask] at h
    obtain ⟨_, fs, rfl, h⟩ := h
    exact hlater h
  · simp only [Prog.call_bind, Prog.finishes_ask] at h
    obtain ⟨hit, fs, rfl, h⟩ := h
    cases hit with
    | some found =>
        simp only [Prog.pure_def, Prog.finishes_ret] at h
        obtain ⟨rfl, hvalue⟩ := h
        cases hvalue
        exact .inl (by simp)
    | none => exact hlater h

theorem start_gives {job : Job} {es : List (Event Request Reply)} {value : Nat}
    (h : (start job).Finishes es (.buffer value)) :
    ∃ key, job.key = some key ∧ Gives es key value := by
  cases job with
  | resolveSecret ref fresh => exact ⟨_, rfl, resolve_gives h⟩
  | resolveParameter name withDecryption fresh => exact ⟨_, rfl, resolve_gives h⟩
  | invalidate key => simp [start] at h
  | clear => simp [start] at h

end Calls

/-! ## The result -/

/-- A store in the log was preceded by its fetch. -/
theorem stored_fetched (h : (process options).Reachable c) {e : Lib.Entry Request Reply World}
    (he : e ∈ c.log) {key : String} {bytes : List UInt8} {value : Nat}
    (hev : e.ev = ⟨.store key bytes, value⟩) : ∃ l₁ l₂, c.log = l₁ ++ e :: l₂ ∧
      Fetched (localLog l₁ e.tid) key bytes := by
  obtain ⟨l₁, l₂, hlog⟩ := List.append_of_mem he
  obtain ⟨t, -, hJ⟩ := h.asked (J := fun _ => StoresFetched) start_asks l₁ e l₂ hlog
  exact ⟨l₁, l₂, hlog, hJ key bytes (by rw [hev])⟩

/-- In a run where no reply is stored over an entry whose term is not over,
every returned buffer keeps what was fetched until its own term is. -/
theorem buffers_intact (h : (process options).Reachable c) (hno : NoOverlap c) :
    Intact options c := by
  intro t ht value hret
  have hinv := Reachable.inv h hno
  obtain ⟨i, hi⟩ := List.getElem?_of_mem ht
  have hrun := h.local_run i t hi
  rw [hret] at hrun
  obtain ⟨key, hkey, hgives⟩ := start_gives hrun
  -- wherever the buffer came from, a store made it
  have hstore : ∃ e ∈ c.log, ∃ bytes, e.ev = ⟨.store key bytes, value⟩ := by
    rcases hgives with hget | ⟨bytes, hput⟩
    · obtain ⟨e, he, -, hev⟩ := mem_localLog.mp hget
      exact hinv.hits e he key value hev
    · obtain ⟨e, he, -, hev⟩ := mem_localLog.mp hput
      exact ⟨e, he, bytes, hev⟩
  obtain ⟨e, he, bytes, hev⟩ := hstore
  obtain ⟨l₁, l₂, hlog, hfetched⟩ := stored_fetched h he hev
  refine ⟨key, l₁, e, l₂, bytes, hkey, hlog, hev, hfetched, ?_⟩
  rcases hinv.held e he key bytes value hev with ⟨-, hbuf⟩ | hover
  · exact .inl hbuf
  · exact .inr hover

/-! ## Two misses that overlap -/

namespace Small

/-- What the stores answer; the rest is computed. -/
def respond (options : SecretCacheOptions) (w : World) (choice : Except AwsError SecretValue) :
    (op : Request) → Reply op × World
  | .get key => ((w.cache.get w.now key).1, { w with cache := (w.cache.get w.now key).2 })
  | .invalidate key =>
      ((w.cache.invalidate key).1, { w with cache := (w.cache.invalidate key).2 })
  | .clear => ((), { w with cache := w.cache.clear })
  | .store key bytes =>
      ((w.cache.alloc bytes).1, { w with
        cache := (w.cache.alloc bytes).2.set options w.now key (w.cache.alloc bytes).1 })
  | .getSecretValue _ => (choice, w)
  | .getParameter _ _ => (choice.map SecretValue.secretString, w)

def responder (options : SecretCacheOptions) :
    Responder (process options) (Except AwsError SecretValue) ℚ where
  permits := fun _ _ => true
  respond := respond options
  drift := fun w now => some (w.tick now)
  permits_sound := fun _ _ _ => trivial
  respond_sound := by
    intro w choice op
    cases op with
    | get key | invalidate key | store key bytes => exact ⟨rfl, rfl⟩
    | clear | getSecretValue ref | getParameter name decrypted => rfl
  drift_sound := by
    intro w now w' h
    exact ⟨now, (Option.some.inj h).symm⟩

def defaults : SecretCacheOptions := ⟨none, none⟩

def ref : SecretRef := ⟨"arn:aws:secretsmanager:db", none⟩

def world : World := ⟨.empty, 0, 0⟩

/-- The one byte that both calls fetch. -/
def plaintext : Except AwsError SecretValue := .ok ⟨none, some [115]⟩

/-- Both calls miss before either stores; the second store zeroes what the
first call has returned. -/
def schedule : List (Turn Job (Except AwsError SecretValue) ℚ) :=
  [.spawn (.resolveSecret ref false), .spawn (.resolveSecret ref false),
    .answer 0 plaintext, .answer 1 plaintext, .answer 0 plaintext, .answer 1 plaintext,
    .answer 0 plaintext, .answer 1 plaintext]

/-- The first call has a zeroed buffer that nothing has announced. -/
def lost (c : SecretsConfig) : Bool :=
  (match c.threads with
    | ⟨_, .ret out⟩ :: _ => out == .buffer 0
    | _ => false) &&
  c.world.cache.buffers == [[0], [115]] && c.world.cache.zeroed == [(0, .replaced)] &&
  c.world.latest == 0 && (c.threads.all fun t => !t.job.isFresh) && c.log.all fun e => e.pre.now == 0 &&
    match e.ev with
    | ⟨.store _ bytes, _⟩ => bytes == [115]
    | _ => true

theorem buffers_lost : ¬ ∀ (options : SecretCacheOptions) (c : SecretsConfig),
    (process options).Reachable c → (∀ t ∈ c.threads, t.job.isFresh = false) →
      Intact options c := by
  intro hall
  obtain ⟨c, hc, hlost⟩ := (responder defaults).exists_reachable (w := world) ⟨rfl, rfl⟩ schedule
    lost (by decide +kernel)
  simp only [lost, Bool.and_eq_true, beq_iff_eq, List.all_eq_true] at hlost
  obtain ⟨⟨⟨⟨⟨hret, hbuffers⟩, hzeroed⟩, hlatest⟩, hfresh⟩, hlog⟩ := hlost
  split at hret
  · rename_i job out rest hthreads
    obtain ⟨key, l₁, e, l₂, bytes, -, hsplit, hev, -, hbuf⟩ := hall defaults c hc
      (fun t ht => by simpa using hfresh t ht) ⟨job, .ret out⟩ (by rw [hthreads]; exact List.mem_cons_self) 0 (by rw [eq_of_beq hret])
    obtain ⟨hnow, hbytes⟩ := hlog e (by rw [hsplit]; simp)
    rw [hev] at hbytes
    rcases hbuf with hbuf | hexp | ⟨cause, hcause, hz⟩
    · rw [hbuffers, eq_of_beq hbytes] at hbuf
      cases hbuf
    · rw [hnow, hlatest] at hexp
      exact absurd hexp (by decide +kernel)
    · rw [hzeroed, List.mem_singleton] at hz
      cases hz
      cases hcause
  · cases hret

/-- No store finds an entry, and the second call has the first one's
buffer. -/
def shared (c : SecretsConfig) : Bool :=
  (c.log.all fun e => match e.ev.op with
    | .store key _ => (e.pre.cache.entries.lookup key).isNone
    | _ => true) &&
  match c.threads with
  | [⟨_, .ret first⟩, ⟨_, .ret second⟩] => first == .buffer 0 && second == .buffer 0
  | _ => false

theorem buffers_intact_shared : ∃ c, (process defaults).Reachable c ∧
    (∃ t ∈ c.threads, t.prog = .ret (.buffer 0)) ∧ Intact defaults c := by
  obtain ⟨c, hc, hshared⟩ := (responder defaults).exists_reachable (w := world) ⟨rfl, rfl⟩
    [.spawn (.resolveSecret ref false), .answer 0 plaintext, .answer 0 plaintext,
      .answer 0 plaintext, .spawn (.resolveSecret ref false), .answer 1 plaintext]
    shared (by decide +kernel)
  simp only [shared, Bool.and_eq_true, List.all_eq_true] at hshared
  obtain ⟨hlog, hret⟩ := hshared
  refine ⟨c, hc, ?_, buffers_intact hc ?_⟩
  · split at hret
    · rename_i first _ _ hthreads
      rw [Bool.and_eq_true, beq_iff_eq, beq_iff_eq] at hret
      exact ⟨_, by rw [hthreads]; exact List.mem_cons_self, by rw [hret.1]⟩
    · cases hret
  · intro e he key bytes hop entry hentry
    have hnone := hlog e he
    rw [hop] at hnone
    simp only [hentry, Option.isNone_some, Bool.false_eq_true] at hnone

end Small

end SaasFoundation.Foundation.Secrets
