import SaasFoundation.Foundation.FeatureToggles.Prisma
import SaasFoundation.Lib.Later
import SaasFoundation.Lib.Script

/-!
# Reading one's own writes

Once a write has resolved, a later `isEnabled` should give what it has
established. The cache is the difficulty: a read that was answered before
the write may fill it after the write has taken the key out.
-/

namespace SaasFoundation.Foundation.FeatureToggles

open Lib

/-! ## Writes -/

/-- The key that a statement writes, and what the row says from then on. -/
def Request.establishes : Request → Option (String × Bool)
  | .upsert input => some (input.key, input.enabled)
  | .deleteRow key => some (key, false)
  | _ => none

def Job.establishes : Job → Option (String × Bool)
  | .set input => some (input.key, input.enabled)
  | .delete key => some (key, false)
  | .isEnabled _ => none

/-- The statement writes the row of the key. -/
def Request.writes (op : Request) (key : String) : Prop := op.establishes.map Prod.fst = some key

def Job.writes (job : Job) (key : String) : Prop := job.establishes.map Prod.fst = some key

def Resolved (t : ToggleThread) : Prop := ∃ out, t.prog = .ret out

/-- Whatever was written last is what is read. Call `i` is a write of the
key that has resolved in `c`; no other write of the key is started between
`c` and `d`; call `j` is, and has resolved in `d`. -/
def ReadsWrite (c d : ToggleConfig) (i j : Nat) (key : String) (value : Bool) : Prop :=
  ∀ (t u : ToggleThread) (b : Bool), c.threads[i]? = some t → t.job.establishes = some (key, value) → Resolved t →
    (∀ (m : Nat) (v : ToggleThread), c.threads.length ≤ m → d.threads[m]? = some v → ¬ v.job.writes key) →
    c.threads.length ≤ j → d.threads[j]? = some u → u.job = .isEnabled key →
    u.prog = .ret (.enabled b) → b = value

/-- A write of the key has been executed and has not yet taken the key out
of the cache. -/
def InvalidationPending (log : List (Entry Request Reply World)) (key : String) : Prop :=
  ∃ m, (∃ e ∈ log, e.tid = m ∧ e.ev.op.writes key) ∧
    ∀ e ∈ log, e.tid = m → e.ev.op ≠ .cacheDelete key

/-- Whenever a value is put into the cache, the row still says so, or the
write that has changed it is yet to take the key out. -/
def FreshFills (c : ToggleConfig) : Prop :=
  ∀ l₁ e l₂, c.log = l₁ ++ e :: l₂ → ∀ key value, e.ev.op = .cacheSet key value →
    rowEnabled (e.pre.table key) = value ∨ InvalidationPending l₁ key

/-- Call `i` is the last to have written the key: no write of it is in
flight, and no statement on it came later. -/
structure LastWrite (c : ToggleConfig) (i : Nat) (key : String) : Prop where
  resolved : ∀ (m : Nat) (t : ToggleThread), c.threads[m]? = some t → t.job.writes key → Resolved t
  last : ∀ l₁ e l₂, c.log = l₁ ++ e :: l₂ → e.tid = i → e.ev.op.writes key →
    ∀ x ∈ l₂, ¬ x.ev.op.writes key

variable {options : FeatureToggleStoreOptions} {c d : ToggleConfig} {key : String}

/-! ## What a call does -/

/-- A call writes what its job says, before it takes the key out. -/
def Orderly (job : Job) (past : List (Event Request Reply)) (op : Request) : Prop :=
  (∀ key value, op.establishes = some (key, value) → job.establishes = some (key, value) ∧
    ∀ e ∈ past, e.op ≠ .cacheDelete key)

theorem readEnabled_asks (job : Job) (past : List (Event Request Reply)) :
    Prog.Asks (Orderly job) past (readEnabled options key) := by
  simp only [readEnabled, Prog.call_bind, Prog.asks_ask]
  refine ⟨by simp [Orderly, Request.establishes], ?_⟩
  intro found
  split
  · trivial
  · split
    · trivial
    · exact ⟨by simp [Orderly, Request.establishes], fun _ => trivial⟩

/-- A toggle is set once its row has been looked up. -/
theorem upsert_asks (input : SetToggleInput) (found : Except PrismaError (Option ToggleRow))
    (previous : Option FeatureToggle) :
    Prog.Asks (Orderly (.set input)) [⟨.findUnique input.key, found⟩] (do
      let upserted : Except PrismaError ToggleRow ← request (.upsert input)
      match upserted with
      | .error e => pure (.thrown e)
      | .ok row => do
          let _ ← request (.cacheDelete input.key)
          pure (.changed previous (toFeatureToggle row)) : Handler Output) := by
  refine ⟨?_, ?_⟩
  · intro key value hop
    exact ⟨hop, by simp⟩
  · intro upserted
    cases upserted with
    | error e => trivial
    | ok row => exact ⟨by simp [Orderly, Request.establishes], fun _ => trivial⟩

theorem start_asks (job : Job) : Prog.Asks (Orderly job) [] (start options job) := by
  cases job with
  | isEnabled key =>
      simp only [start, isEnabled]
      split
      · exact readEnabled_asks _ _
      · refine ⟨by simp [Orderly, Request.establishes], ?_⟩
        intro cached
        cases cached with
        | some value => trivial
        | none => exact readEnabled_asks _ _
  | set input =>
      refine ⟨by simp [Orderly, Request.establishes], ?_⟩
      intro found
      cases found with
      | error e => exact upsert_asks input (.error e) none
      | ok row => exact upsert_asks input (.ok row) (row.map toFeatureToggle)
  | delete key =>
      refine ⟨?_, ?_⟩
      · intro key' value hop
        exact ⟨hop, by simp⟩
      · intro result
        refine ⟨by simp [Orderly, Request.establishes], fun _ => ?_⟩
        dsimp only
        split
        · split <;> trivial
        · trivial

/-- A write that has resolved has executed its statement and taken the key
out, or its statement has failed. -/
theorem start_writes {job : Job} {value : Bool} {es : List (Event Request Reply)} {out : Output}
    (h : (start options job).Finishes es out) (hjob : job.establishes = some (key, value)) :
    (∃ input e, ⟨.upsert input, .error e⟩ ∈ es) ∨
      (∃ e ∈ es, e.op.establishes = some (key, value)) ∧ ∃ e ∈ es, e.op = .cacheDelete key := by
  cases job with
  | isEnabled key' => cases hjob
  | set input =>
      obtain ⟨rfl, rfl⟩ := Prod.mk.inj (Option.some.inj hjob)
      simp only [start, set] at h
      obtain ⟨es₁, es₂, previous, rfl, -, hrest⟩ := Prog.finishes_bind.mp h
      change (Prog.ask (.upsert input) _).Finishes es₂ out at hrest
      obtain ⟨result, fs, rfl, hlast⟩ := Prog.finishes_ask.mp hrest
      cases result with
      | error e => exact .inl ⟨input, e, by simp⟩
      | ok row =>
          change (Prog.ask (.cacheDelete input.key) _).Finishes fs out at hlast
          obtain ⟨u, gs, rfl, -⟩ := Prog.finishes_ask.mp hlast
          exact .inr ⟨⟨⟨.upsert input, .ok row⟩, by simp, rfl⟩,
            ⟨⟨.cacheDelete input.key, u⟩, by simp, rfl⟩⟩
  | delete key' =>
      obtain ⟨rfl, rfl⟩ := Prod.mk.inj (Option.some.inj hjob)
      simp only [start, delete, Prog.call_bind, Prog.finishes_ask] at h
      obtain ⟨result, _, rfl, u, gs, rfl, -⟩ := h
      exact .inr ⟨⟨⟨.deleteRow key', result⟩, by simp, rfl⟩,
        ⟨⟨.cacheDelete key', u⟩, by simp, rfl⟩⟩

/-- Where the answer of `isEnabled` comes from. -/
def Answers (es : List (Event Request Reply)) (key : String) (b : Bool) : Prop :=
  ⟨.cacheGet key, some b⟩ ∈ es ∨ (∃ row, ⟨.findUnique key, .ok row⟩ ∈ es ∧ rowEnabled row = b) ∨
    ∃ e, ⟨.findUnique key, .error e⟩ ∈ es

theorem readEnabled_answers {es : List (Event Request Reply)} {b : Bool}
    (h : (readEnabled options key).Finishes es (.enabled b)) : Answers es key b := by
  simp only [readEnabled, Prog.call_bind, Prog.finishes_ask] at h
  obtain ⟨found, fs, rfl, h⟩ := h
  cases found with
  | error e => exact .inr (.inr ⟨e, by simp⟩)
  | ok row =>
      refine .inr (.inl ⟨row, by simp, ?_⟩)
      dsimp only at h
      split at h
      · simp only [Prog.pure_def, Prog.finishes_ret] at h
        exact Output.enabled.inj h.2
      · simp only [Prog.finishes_ask, Prog.pure_def, Prog.finishes_ret] at h
        obtain ⟨_, _, -, -, hret⟩ := h
        exact Output.enabled.inj hret

theorem isEnabled_answers {es : List (Event Request Reply)} {b : Bool}
    (h : (isEnabled options key).Finishes es (.enabled b)) : Answers es key b := by
  unfold isEnabled at h
  split at h
  · exact readEnabled_answers h
  · simp only [Prog.call_bind, Prog.finishes_ask] at h
    obtain ⟨cached, fs, rfl, h⟩ := h
    cases cached with
    | some value =>
        simp only [Prog.pure_def, Prog.finishes_ret] at h
        rw [Output.enabled.inj h.2]
        exact .inl (by simp)
    | none =>
        rcases readEnabled_answers h with hget | ⟨row, hread, hrow⟩ | ⟨e, hfail⟩
        · exact .inl (List.mem_cons_of_mem _ hget)
        · exact .inr (.inl ⟨row, List.mem_cons_of_mem _ hread, hrow⟩)
        · exact .inr (.inr ⟨e, List.mem_cons_of_mem _ hfail⟩)

/-! ## What a request does -/

section Serve

variable {w w' : World} {op : Request} {r : Reply op}

theorem serve_row (h : serve options w op r w') (hop : ¬ op.writes key) :
    w'.table key = w.table key := by
  cases op with
  | cacheGet k | findUnique k =>
      rw [h.2]
  | cacheSet k v | cacheDelete k =>
      rw [show w' = _ from h]
  | upsert input =>
      obtain ⟨changedAt, -, rfl⟩ := h
      exact Table.put_of_ne _ _ fun hk => hop (by rw [hk]; rfl)
  | deleteRow k =>
      cases r with
      | error e => rw [h.2.2]
      | ok u =>
          rw [h.2]
          exact Table.erase_of_ne _ fun hk => hop (by rw [hk]; rfl)

theorem serve_establishes {value : Bool} (h : serve options w op r w')
    (hop : op.establishes = some (key, value)) : rowEnabled (w'.table key) = value := by
  cases op with
  | cacheGet k | findUnique k | cacheSet k v | cacheDelete k => cases hop
  | upsert input =>
      obtain ⟨rfl, rfl⟩ := Prod.mk.inj (Option.some.inj hop)
      obtain ⟨changedAt, -, rfl⟩ := h
      simp [rowEnabled, upserted]
  | deleteRow k =>
      obtain ⟨rfl, rfl⟩ := Prod.mk.inj (Option.some.inj hop)
      cases r with
      | error e =>
          rw [h.2.2, h.1]
          rfl
      | ok u =>
          rw [h.2]
          simp [rowEnabled]

/-- The entry of a key after a request: the value that was put, nothing
where it was taken out, or what it was. -/
theorem serve_cache (h : serve options w op r w') {entry : CacheEntry}
    (hentry : w'.cache key = some entry) :
    op = .cacheSet key entry.value ∨ (op ≠ .cacheDelete key ∧ w.cache key = some entry) := by
  cases op with
  | cacheGet k | findUnique k =>
      rw [h.2] at hentry
      exact .inr ⟨by simp, hentry⟩
  | cacheSet k v =>
      rw [show w' = _ from h] at hentry
      rcases Table.put_some hentry with ⟨rfl, rfl⟩ | ⟨-, hold⟩
      · exact .inl rfl
      · exact .inr ⟨by simp, hold⟩
  | cacheDelete k =>
      rw [show w' = _ from h] at hentry
      obtain ⟨hne, hold⟩ := Table.erase_some hentry
      exact .inr ⟨fun hop => hne (Request.cacheDelete.inj hop).symm, hold⟩
  | upsert input =>
      obtain ⟨changedAt, -, rfl⟩ := h
      exact .inr ⟨by simp, hentry⟩
  | deleteRow k =>
      cases r with
      | error e =>
          rw [h.2.2] at hentry
          exact .inr ⟨by simp, hentry⟩
      | ok u =>
          rw [h.2] at hentry
          exact .inr ⟨by simp, hentry⟩

end Serve

/-! ## What holds of every run -/

/-- The row says what the last statement on it has established. -/
theorem row_of_last (h : (store options).Reachable c) {value : Bool} :
    ∀ l₁ e l₂, c.log = l₁ ++ e :: l₂ → e.ev.op.establishes = some (key, value) →
      (∀ x ∈ l₂, ¬ x.ev.op.writes key) → rowEnabled (c.world.table key) = value := by
  induction h with
  | init _ => simp
  | step _ hs ih =>
      intro l₁ e l₂ hlog hop hlater
      cases hs with
      | spawn _ => exact ih l₁ e l₂ hlog hop hlater
      | drift hd =>
          obtain ⟨now, rfl⟩ := hd
          exact ih l₁ e l₂ hlog hop hlater
      | request _ hserve =>
          rcases List.eq_nil_or_concat l₂ with rfl | ⟨l₃, x, rfl⟩
          · obtain ⟨-, he⟩ := List.append_inj' hlog rfl
            cases he
            exact serve_establishes hserve hop
          · rw [List.concat_eq_append] at hlog hlater
            rw [← List.cons_append, ← List.append_assoc] at hlog
            obtain ⟨hfront, hlast⟩ := List.append_inj' hlog rfl
            cases hlast
            rw [serve_row hserve (hlater _ (List.mem_append_right _ List.mem_cons_self))]
            exact ih l₁ e l₃ hfront hop fun y hy => hlater y (by simp [hy])

/-- An entry says what the row says, or is about to be taken out. -/
def Coherent (c : ToggleConfig) (key : String) : Prop :=
  (∀ entry, c.world.cache key = some entry → entry.value = rowEnabled (c.world.table key)) ∨
    InvalidationPending c.log key

theorem InvalidationPending.snoc {log : List (Entry Request Reply World)}
    {e : Entry Request Reply World} (h : InvalidationPending log key)
    (he : e.ev.op ≠ .cacheDelete key) : InvalidationPending (log ++ [e]) key := by
  obtain ⟨m, ⟨x, hx, htid, hwrites⟩, hnone⟩ := h
  refine ⟨m, ⟨x, List.mem_append_left _ hx, htid, hwrites⟩, ?_⟩
  intro y hy hm
  rcases List.mem_append.mp hy with hy | hy
  · exact hnone y hy hm
  · rw [List.mem_singleton.mp hy]
    exact he

theorem coherent (h : (store options).Reachable c) (hfresh : FreshFills c) (key : String) :
    Coherent c key := by
  induction h with
  | init hw =>
      refine .inl fun entry hentry => ?_
      rw [hw] at hentry
      cases hentry
  | @step c d hc hs ih =>
      cases hs with
      | spawn _ => exact ih hfresh
      | drift hd =>
          obtain ⟨now, rfl⟩ := hd
          exact ih hfresh
      | @request i job op k r w hi hserve =>
          have hbefore : FreshFills c := by
            intro l₁ e l₂ hlog
            exact hfresh l₁ e (l₂ ++ [⟨i, c.world, ⟨op, r⟩, w⟩])
              (by rw [hlog, List.append_assoc]; rfl)
          by_cases hwrites : op.writes key
          · -- a statement on the row: its call has not touched the entry yet
            have hstep := hc.step (.request hi hserve)
            obtain ⟨t, -, hJ⟩ := hstep.asked start_asks c.log _ [] rfl
            obtain ⟨⟨k', value⟩, hop, hk⟩ := Option.map_eq_some_iff.mp hwrites
            cases hk
            refine .inr ⟨i, ⟨_, List.mem_append_right _ List.mem_cons_self, rfl, hwrites⟩, ?_⟩
            intro y hy htid
            rcases List.mem_append.mp hy with hy | hy
            · exact (hJ _ _ hop).2 y.ev (mem_localLog.mpr ⟨y, hy, htid, rfl⟩)
            · rw [List.mem_singleton.mp hy]
              intro hdelete
              rw [show op = _ from hdelete] at hop
              cases hop
          · have hrow : w.table key = c.world.table key := serve_row hserve hwrites
            by_cases hdelete : op = .cacheDelete key
            · -- the entry is taken out
              refine .inl fun entry hentry => ?_
              rcases serve_cache hserve hentry with hset | ⟨hnot, -⟩
              · rw [hdelete] at hset
                cases hset
              · exact absurd hdelete hnot
            · by_cases hset : ∃ value, op = .cacheSet key value
              · obtain ⟨value, hop⟩ := hset
                rcases hfresh c.log _ [] rfl key value hop with hsame | hpending
                · refine .inl fun entry hentry => ?_
                  rw [hrow]
                  subst hop
                  rw [show w = _ from hserve] at hentry
                  simp only [Table.put_self, Option.some.injEq] at hentry
                  rw [← hentry]
                  exact hsame.symm
                · exact .inr (hpending.snoc hdelete)
              · rcases ih hbefore with hsame | hpending
                · refine .inl fun entry hentry => ?_
                  rw [hrow]
                  rcases serve_cache hserve hentry with heq | ⟨-, hold⟩
                  · exact absurd ⟨_, heq⟩ hset
                  · exact hsame entry hold
                · exact .inr (hpending.snoc hdelete)

/-! ## The result -/

/-- A statement on the key is asked by a call that writes it. -/
theorem writes_of_log (h : (store options).Reachable c) {e : Entry Request Reply World}
    (he : e ∈ c.log) (hop : e.ev.op.writes key) :
    ∃ t value, c.threads[e.tid]? = some t ∧ t.job.establishes = some (key, value) := by
  obtain ⟨l₁, l₂, hsplit⟩ := List.append_of_mem he
  obtain ⟨t, ht, hJ⟩ := h.asked start_asks l₁ e l₂ hsplit
  obtain ⟨⟨key', value⟩, hest, hkey⟩ := Option.map_eq_some_iff.mp hop
  cases hkey
  exact ⟨t, value, ht, (hJ _ _ hest).1⟩

/-- A write that has resolved has executed its statement and taken the key
out: statements succeed. -/
theorem resolved_wrote (h : (store options).Reachable c) {i : Nat} {t : ToggleThread} {value : Bool}
    (ht : c.threads[i]? = some t) (hjob : t.job.establishes = some (key, value))
    (hresolved : Resolved t) :
    (∃ e ∈ c.log, e.tid = i ∧ e.ev.op.establishes = some (key, value)) ∧
      ∃ e ∈ c.log, e.tid = i ∧ e.ev.op = .cacheDelete key := by
  obtain ⟨out, hout⟩ := hresolved
  have hrun := h.local_run i t ht
  rw [hout] at hrun
  rcases start_writes hrun hjob with ⟨input, err, hfailed⟩ | ⟨⟨x, hx, hop⟩, y, hy, hdelete⟩
  · obtain ⟨e, he, -, hev⟩ := mem_localLog.mp hfailed
    have hserve := h.served e he
    rw [hev] at hserve
    obtain ⟨_, hreply, -⟩ := hserve
    cases hreply
  · obtain ⟨e, he, htid, rfl⟩ := mem_localLog.mp hx
    obtain ⟨f, hf, hftid, rfl⟩ := mem_localLog.mp hy
    exact ⟨⟨e, he, htid, hop⟩, f, hf, hftid, hdelete⟩

/-- Where all writes of a key have resolved, none is pending, whatever else
is in the log. -/
theorem not_pending (h : (store options).Reachable c) {log : List (Entry Request Reply World)}
    (hlog : ∀ e ∈ c.log, e ∈ log) (hwrites : ∀ e ∈ log, e.ev.op.writes key → e ∈ c.log)
    (hresolved : ∀ (m : Nat) (t : ToggleThread), c.threads[m]? = some t → t.job.writes key →
      Resolved t) :
    ¬ InvalidationPending log key := by
  rintro ⟨m, ⟨e, he, rfl, hop⟩, hnone⟩
  obtain ⟨t, value, ht, hjob⟩ := writes_of_log h (hwrites e he hop) hop
  have hout := hresolved e.tid t ht (by rw [Job.writes, hjob]; rfl)
  obtain ⟨-, f, hf, htid, hdelete⟩ := resolved_wrote h ht hjob hout
  exact hnone f (hlog f hf) htid hdelete

section LastWrite

variable {i : Nat} {new : List (Entry Request Reply World)}

/-- Nobody writes the row later, if no write of it is started. -/
theorem LastWrite.quiet (hlast : LastWrite c i key) (hd : (store options).Reachable d)
    (hsince : System.Since c d new) (hnone : ∀ (m : Nat) (v : ToggleThread),
      c.threads.length ≤ m → d.threads[m]? = some v → ¬ v.job.writes key) :
    ∀ e ∈ new, ¬ e.ev.op.writes key := by
  intro e he hop
  obtain ⟨v, value, hv, hjob⟩ := writes_of_log hd (by rw [hsince.log]; simp [he]) hop
  have hwrites : v.job.writes key := by rw [Job.writes, hjob]; rfl
  rcases Nat.lt_or_ge e.tid c.threads.length with hlt | hge
  · have hthread := List.getElem?_eq_getElem hlt
    obtain ⟨v', hv', hsame, -⟩ := hsince.progress _ _ hthread
    rw [hv] at hv'
    cases hv'
    obtain ⟨out, hout⟩ := hlast.resolved e.tid _ hthread (by rwa [← hsame])
    exact hsince.active e he _ out hthread hout
  · exact hnone e.tid v hge hv hwrites

/-- What the last write has established is what the row and the cache say
to every later request. -/
theorem LastWrite.established (hlast : LastWrite c i key) (hc : (store options).Reachable c)
    (hd : (store options).Reachable d) (hsince : System.Since c d new) (hfresh : FreshFills d)
    (hquiet : ∀ e ∈ new, ¬ e.ev.op.writes key) {t : ToggleThread} {value : Bool}
    (ht : c.threads[i]? = some t) (hjob : t.job.establishes = some (key, value))
    (hresolved : Resolved t) : ∀ x ∈ new, rowEnabled (x.pre.table key) = value ∧
      ∀ entry, x.pre.cache key = some entry → entry.value = value := by
  obtain ⟨⟨e, he, htid, hop⟩, -⟩ := resolved_wrote hc ht hjob hresolved
  obtain ⟨l₁, l₂, hsplit⟩ := List.append_of_mem he
  have hafter := hlast.last l₁ e l₂ hsplit htid (by rw [Request.writes, hop]; rfl)
  intro x hx
  obtain ⟨n₁, n₂, hnew⟩ := List.append_of_mem hx
  have hdlog : d.log = (c.log ++ n₁) ++ x :: n₂ := by
    rw [hsince.log, hnew, List.append_assoc]
  obtain ⟨f, hf, hflog, hpre⟩ := hd.before _ _ _ hdlog
  have hquiet₁ : ∀ y ∈ n₁, ¬ y.ev.op.writes key := fun y hy => hquiet y (by simp [hnew, hy])
  have hrow : rowEnabled (f.world.table key) = value := by
    refine row_of_last hf l₁ e (l₂ ++ n₁) (by rw [hflog, hsplit, List.append_assoc]; rfl) hop ?_
    intro y hy
    rcases List.mem_append.mp hy with hy | hy
    · exact hafter y hy
    · exact hquiet₁ y hy
  have hfills : FreshFills f := by
    intro m₁ y m₂ hm
    exact hfresh m₁ y (m₂ ++ x :: n₂) (by rw [hdlog, ← hflog, hm, List.append_assoc]; rfl)
  rw [← hpre]
  refine ⟨hrow, ?_⟩
  rcases coherent hf hfills key with hsame | hpending
  · intro entry hentry
    rw [hsame entry hentry, hrow]
  · refine absurd hpending (not_pending hc ?_ ?_ hlast.resolved)
    · rw [hflog]
      exact fun y hy => List.mem_append_left _ hy
    · rw [hflog]
      intro y hy hwrites
      rcases List.mem_append.mp hy with hy | hy
      · exact hy
      · exact absurd hwrites (hquiet₁ y hy)

/-- In a run where the cache is filled with what the rows say, an
`isEnabled` reads the last write that has resolved before it was started. -/
theorem reads_last_write {j : Nat} {value : Bool} (hc : (store options).Reachable c)
    (hlater : (store options).Later c d) (hfresh : FreshFills d) (hlast : LastWrite c i key) :
    ReadsWrite c d i j key value := by
  intro t u b ht hjob hresolved hnone hj hu hread hret
  have hd : (store options).Reachable d := hlater.reachable hc
  obtain ⟨new, hsince⟩ := hlater.since
  have hquiet := hlast.quiet hd hsince hnone
  have hworld := hlast.established hc hd hsince hfresh hquiet ht hjob hresolved
  -- all that call `j` has asked is new
  have hrun := hd.local_run j u hu
  rw [hret, hread, hsince.localLog_new hc hj] at hrun
  have hserved : ∀ x ∈ new, serve options x.pre x.ev.op x.ev.res x.post :=
    fun x hx => hd.served x (by rw [hsince.log]; simp [hx])
  rcases isEnabled_answers hrun with hhit | ⟨row, hfound, rfl⟩ | ⟨err, hfailed⟩
  · obtain ⟨x, hx, -, hev⟩ := mem_localLog.mp hhit
    have hserve := hserved x hx
    rw [hev] at hserve
    obtain ⟨entry, hentry, rfl⟩ := Option.map_eq_some_iff.mp hserve.1.symm
    exact (hworld x hx).2 entry (Option.mem_filter_iff.mp hentry).1
  · obtain ⟨x, hx, -, hev⟩ := mem_localLog.mp hfound
    have hserve := hserved x hx
    rw [hev] at hserve
    rw [show row = x.pre.table key from Except.ok.inj hserve.1]
    exact (hworld x hx).1
  · obtain ⟨x, hx, -, hev⟩ := mem_localLog.mp hfailed
    have hserve := hserved x hx
    rw [hev] at hserve
    cases hserve.1

end LastWrite

/-! ## A read that comes back late -/

namespace Small

def respond (options : FeatureToggleStoreOptions) (w : World) (changedAt : ℤ) :
    (op : Request) → Reply op × World
  | .cacheGet key =>
      (((w.cache key).filter fun entry => w.now < entry.expires).map CacheEntry.value, w)
  | .cacheSet key value => ((), { w with cache := w.cache.put key ⟨value, w.now + options.ttl⟩ })
  | .cacheDelete key => ((), { w with cache := w.cache.erase key })
  | .findUnique key => (.ok (w.table key), w)
  | .upsert input =>
      (.ok (upserted (w.table input.key) input changedAt),
        { w with table := w.table.put input.key (upserted (w.table input.key) input changedAt) })
  | .deleteRow key =>
      match w.table key with
      | none => (.error ⟨some "P2025", "Record to delete does not exist."⟩, w)
      | some _ => (.ok (), { w with table := w.table.erase key })

def responder (options : FeatureToggleStoreOptions) : Responder (store options) ℤ ℚ where
  permits := fun _ _ => true
  respond := respond options
  drift := fun w now => some { w with now := now }
  permits_sound := fun _ _ _ => trivial
  respond_sound := by
    intro w changedAt op
    cases op with
    | cacheGet key | findUnique key => exact ⟨rfl, rfl⟩
    | cacheSet key value | cacheDelete key => rfl
    | upsert input => exact ⟨changedAt, rfl, rfl⟩
    | deleteRow key =>
        simp only [respond]
        cases hrow : w.table key with
        | none => exact ⟨hrow, rfl, rfl⟩
        | some row => exact ⟨by rw [hrow]; rfl, rfl⟩
  drift_sound := fun w now w' h => ⟨now, (Option.some.inj h).symm⟩

def defaults : FeatureToggleStoreOptions := ⟨none, none⟩

def world : World := ⟨Table.empty, Table.empty, 0⟩

def input : SetToggleInput := ⟨"beta", true, "admin", none⟩

/-- The read of call 0 is answered, then call 1 sets the toggle. -/
def before : List (Turn Job ℤ ℚ) :=
  [.spawn (.isEnabled "beta"), .answer 0 0, .answer 0 0, .spawn (.set input), .answer 1 0,
    .answer 1 0, .answer 1 0]

/-- Call 0 fills the cache with what it has read, and call 2 reads that. -/
def after : List (Turn Job ℤ ℚ) := [.answer 0 0, .spawn (.isEnabled "beta"), .answer 2 0]

def returned (t : ToggleThread) : Option Output :=
  match t.prog with
  | .ret out => some out
  | .ask _ _ => none

def missed (c d : ToggleConfig) : Bool :=
  (c.threads.length == 2) &&
  (c.threads[1]?.any fun t => t.job == .set input && (returned t).isSome) &&
  (d.threads.length == 3) &&
  d.threads[2]?.any fun t => t.job == .isEnabled "beta" && returned t == some (.enabled false)

theorem returned_eq {t : ToggleThread} {out : Output} (h : returned t = some out) :
    t.prog = .ret out := by
  unfold returned at h
  split at h
  · rename_i heq
    rw [heq, Option.some.inj h]
  · cases h

theorem reads_write_fails : ¬ ∀ (options : FeatureToggleStoreOptions) (c d : ToggleConfig) (i j : Nat)
    (key : String) (value : Bool), (store options).Reachable c → (store options).Later c d →
      ReadsWrite c d i j key value := by
  intro hall
  obtain ⟨c, d, hc, hlater, hmissed⟩ := (responder defaults).exists_later (w := world) rfl before
    after missed (by decide +kernel)
  simp only [missed, Bool.and_eq_true, beq_iff_eq, Option.any_eq_true,
    Option.isSome_iff_exists] at hmissed
  obtain ⟨⟨⟨hclen, t, ht, hjob, out, hout⟩, hdlen⟩, u, hu, hread, hret⟩ := hmissed
  have hvalue := hall defaults c d 1 2 "beta" true hc hlater t u false ht (by rw [hjob]; rfl)
    ⟨out, returned_eq hout⟩ ?_ (by omega) hu hread (returned_eq hret)
  · cases hvalue
  · intro m v hm hv hwrites
    have hlt := (List.getElem?_eq_some_iff.mp hv).1
    have hm2 : m = 2 := by omega
    rw [hm2, hu] at hv
    cases hv
    rw [hread] at hwrites
    cases hwrites

/-- The same without the late read. -/
def settled (c d : ToggleConfig) : Bool :=
  (c.threads.length == 1) && (c.threads.all fun t => (returned t).isSome) &&
  (c.threads[0]?.any fun t => t.job == .set input) &&
  (c.log.countP fun e => e.ev.op.establishes.isSome) == 1 &&
  (d.threads.length == 2) &&
  (d.threads[1]?.any fun t => t.job == .isEnabled "beta" && returned t == some (.enabled true)) &&
  d.log.all fun e => match e.ev.op with
    | .cacheSet key value => rowEnabled (e.pre.table key) == value
    | _ => true

theorem reads_last_write_set : ∃ c d, (store defaults).Reachable c ∧ (store defaults).Later c d ∧
    (∃ u : ToggleThread, d.threads[1]? = some u ∧ u.prog = .ret (.enabled true)) ∧
      ReadsWrite c d 0 1 "beta" true := by
  obtain ⟨c, d, hc, hlater, hsettled⟩ := (responder defaults).exists_later (w := world) rfl
    [.spawn (.set input), .answer 0 0, .answer 0 0, .answer 0 0]
    [.spawn (.isEnabled "beta"), .answer 1 0, .answer 1 0, .answer 1 0] settled (by decide +kernel)
  simp only [settled, Bool.and_eq_true, beq_iff_eq, Option.any_eq_true, List.all_eq_true,
    Option.isSome_iff_exists] at hsettled
  obtain ⟨⟨⟨⟨⟨⟨-, hreturned⟩, -⟩, hcount⟩, -⟩, u, hu, -, hret⟩, hfills⟩ := hsettled
  refine ⟨c, d, hc, hlater, ⟨u, hu, returned_eq hret⟩, reads_last_write hc hlater ?_ ?_⟩
  · intro l₁ e l₂ hlog key value hop
    have := hfills e (by rw [hlog]; simp)
    rw [hop] at this
    exact .inl (by simpa using this)
  · refine ⟨?_, ?_⟩
    · intro m t ht _
      obtain ⟨out, hout⟩ := hreturned t (List.mem_of_getElem? ht)
      exact ⟨out, returned_eq hout⟩
    · -- there is one statement only
      intro l₁ e l₂ hlog _ hop x hx hxop
      have hsome : ∀ {op : Request}, op.writes "beta" → op.establishes.isSome = true := by
        intro op h
        obtain ⟨p, hp, -⟩ := Option.map_eq_some_iff.mp h
        rw [hp]
        rfl
      have hone : 0 < l₂.countP fun e => e.ev.op.establishes.isSome :=
        List.countP_pos_iff.mpr ⟨x, hx, hsome hxop⟩
      have hfirst : (e :: l₂).countP (fun e => e.ev.op.establishes.isSome) =
          l₂.countP (fun e => e.ev.op.establishes.isSome) + 1 :=
        List.countP_cons_of_pos (hsome hop)
      rw [hlog, List.countP_append, hfirst] at hcount
      omega

end Small

end SaasFoundation.Foundation.FeatureToggles
