import SaasFoundation.Foundation.Kv.Encoding
import SaasFoundation.Foundation.Kv.DynamoRuns
import SaasFoundation.Foundation.Kv.PostgresSystem

/-!
# Fresher entries stay

`putIfFresher` is to write only over what expires earlier, so that a stale
entry never replaces a fresher one. On DynamoDB it does. Postgres keeps the
expiry in milliseconds and refuses an entry that is fresher by less. The
memory adapter takes an expired entry for an absent one: an entry that has
expired even longer replaces it.
-/

namespace SaasFoundation.Foundation.Kv.Freshness

open Lib

/-- A call of `putIfFresher`. -/
structure Call where
  key : String
  value : Fields
  expiresAt : ℚ
  indexedKey : Option String

/-- What is stored under a key: nothing, or a record with its expiry. -/
abbrev Held := Option (Option ℚ)

/-- The key is absent, has no expiry, or expires earlier. -/
def Fresher (held : Held) (incoming : ℚ) : Prop :=
  ∀ e, held = some (some e) → e < incoming

/-- The expiry has not decreased. -/
def Kept (held held' : Held) : Prop :=
  ∀ e, held = some (some e) → ∃ e', held' = some (some e') ∧ e ≤ e'

theorem Kept.refl (held : Held) : Kept held held := fun e he => ⟨e, he, le_refl e⟩

theorem Kept.trans {a b c : Held} (h : Kept a b) (h' : Kept b c) : Kept a c := by
  intro e he
  obtain ⟨e₁, he₁, hle₁⟩ := h e he
  obtain ⟨e₂, he₂, hle₂⟩ := h' e₁ he₁
  exact ⟨e₂, he₂, hle₁.trans hle₂⟩

theorem Kept.of_fresher {held : Held} {incoming : ℚ} (h : Fresher held incoming) :
    Kept held (some (some incoming)) :=
  fun e he => ⟨incoming, rfl, le_of_lt (h e he)⟩

def isApplied : Result → Bool
  | .cas applied _ => applied
  | _ => false

/-! ## Memory -/

section Memory

open MemoryKvStore

def memoryHeld (store : MemoryKvStore) (key : String) : Held :=
  (store key).map MemoryEntry.expiresAt

def memoryCall (now : ℤ) (store : MemoryKvStore) (call : Call) : Result × MemoryKvStore :=
  putIfFresher store now call.key call.value call.expiresAt call.indexedKey

/-- The store after some calls; the clock may show anything. -/
def memoryAfter (store : MemoryKvStore) : List (ℤ × Call) → MemoryKvStore
  | [] => store
  | (now, call) :: calls => memoryAfter (memoryCall now store call).2 calls

/-- In every run, at every call. -/
structure MemoryFresh (store : MemoryKvStore) (calls : List (ℤ × Call)) : Prop where
  kept : ∀ l₁ l₂, calls = l₁ ++ l₂ → ∀ key,
    Kept (memoryHeld (memoryAfter store l₁) key) (memoryHeld (memoryAfter store calls) key)
  reports : ∀ l₁ now call l₂, calls = l₁ ++ (now, call) :: l₂ →
    (isApplied (memoryCall now (memoryAfter store l₁) call).1 = true ↔
      Fresher (memoryHeld (memoryAfter store l₁) call.key) call.expiresAt)

/-- No call meets an expired record that expires no earlier than its own. -/
def MemoryMeets (store : MemoryKvStore) (calls : List (ℤ × Call)) : Prop :=
  ∀ l₁ now call l₂, calls = l₁ ++ (now, call) :: l₂ →
    ∀ entry, memoryAfter store l₁ call.key = some entry → entry.isExpired now = true →
      ∀ e, entry.expiresAt = some e → e < call.expiresAt

theorem memoryAfter_append (store : MemoryKvStore) (l₁ l₂ : List (ℤ × Call)) :
    memoryAfter store (l₁ ++ l₂) = memoryAfter (memoryAfter store l₁) l₂ := by
  induction l₁ generalizing store with
  | nil => rfl
  | cons call l₁ ih => exact ih _

theorem canWrite_iff {store : MemoryKvStore} {now : ℤ} {key : String} {incoming : ℚ}
    (hmeets : ∀ entry, store key = some entry → entry.isExpired now = true →
      ∀ e, entry.expiresAt = some e → e < incoming) :
    canWrite store now key incoming = true ↔ Fresher (memoryHeld store key) incoming := by
  unfold canWrite live memoryHeld Fresher
  cases hentry : store key with
  | none => simp
  | some entry =>
      cases hexpired : entry.isExpired now with
      | true =>
          simp only [Option.filter_some, hexpired, Bool.not_true, Bool.false_eq_true, if_false,
            Option.map_some, Option.some.injEq, true_iff]
          exact hmeets entry hentry hexpired
      | false =>
          simp only [Option.filter_some, hexpired, Bool.not_false, if_true, Option.map_some,
            Option.some.injEq]
          cases hexpiry : entry.expiresAt with
          | none => simp
          | some e => simp

theorem memoryCall_cases {store : MemoryKvStore} {now : ℤ} {call : Call}
    (hmeets : ∀ entry, store call.key = some entry → entry.isExpired now = true →
      ∀ e, entry.expiresAt = some e → e < call.expiresAt) :
    (isApplied (memoryCall now store call).1 = true ↔
        Fresher (memoryHeld store call.key) call.expiresAt) ∧
      ∀ key, Kept (memoryHeld store key) (memoryHeld (memoryCall now store call).2 key) := by
  have hiff := canWrite_iff hmeets
  unfold memoryCall putIfFresher
  by_cases hwrite : canWrite store now call.key call.expiresAt = true
  · rw [if_pos hwrite]
    refine ⟨⟨fun _ => hiff.mp hwrite, fun _ => rfl⟩, fun key => ?_⟩
    by_cases hkey : key = call.key
    · subst hkey
      have hheld : memoryHeld (applied store call.key
          ⟨call.value, 1, some call.expiresAt, call.indexedKey⟩).2 call.key =
            some (some call.expiresAt) := by
        simp [memoryHeld, applied]
      rw [hheld]
      exact Kept.of_fresher (hiff.mp hwrite)
    · have hheld : memoryHeld (applied store call.key
          ⟨call.value, 1, some call.expiresAt, call.indexedKey⟩).2 key = memoryHeld store key := by
        simp [memoryHeld, applied, Table.put_of_ne _ _ hkey]
      rw [hheld]
      exact Kept.refl _
  · rw [if_neg hwrite]
    refine ⟨⟨fun h => (by cases h), fun h => absurd (hiff.mpr h) hwrite⟩, fun key => Kept.refl _⟩

theorem memory_fresh {store : MemoryKvStore} {calls : List (ℤ × Call)}
    (hmeets : MemoryMeets store calls) : MemoryFresh store calls where
  kept := by
    intro l₁ l₂ hcalls
    -- from the end of `l₁` on, one call after another
    induction l₂ generalizing l₁ with
    | nil =>
        intro key
        rw [hcalls, List.append_nil]
        exact Kept.refl _
    | cons call l₂ ih =>
        obtain ⟨now, call⟩ := call
        intro key
        have hstep := (memoryCall_cases (hmeets l₁ now call l₂ hcalls)).2 key
        have hrest := ih (l₁ ++ [(now, call)]) (by simp [hcalls]) key
        rw [memoryAfter_append] at hrest
        exact hstep.trans hrest
  reports := fun l₁ now call l₂ hcalls => (memoryCall_cases (hmeets l₁ now call l₂ hcalls)).1

/-- An expired record is overwritten whatever it says. -/
theorem memoryCall_expired {store : MemoryKvStore} {now : ℤ} {call : Call} {entry : MemoryEntry}
    (hentry : store call.key = some entry) (hexpired : entry.isExpired now = true) :
    isApplied (memoryCall now store call).1 = true := by
  have hwrite : canWrite store now call.key call.expiresAt = true := by
    simp [canWrite, live, hentry, Option.filter, hexpired]
  unfold memoryCall putIfFresher
  rw [if_pos hwrite]
  rfl

theorem memory_fresh_iff {store : MemoryKvStore} {calls : List (ℤ × Call)} :
    MemoryFresh store calls ↔ MemoryMeets store calls := by
  refine ⟨?_, memory_fresh⟩
  intro hfresh l₁ now call l₂ hcalls entry hentry hexpired e he
  have hreports := (hfresh.reports l₁ now call l₂ hcalls).mp (memoryCall_expired hentry hexpired)
  exact hreports e (by simp [memoryHeld, hentry, he])

end Memory

/-! ## DynamoDB -/

section Dynamo

open DynamoKvStore

variable (layout : DynamoKvLayout) (p : Platform)

def dynamoHeld (w : World) (pk : String) : Held := (w.table pk).map (ttlOf layout)

/-- Expiries are numbers. -/
def Timed (w : World) : Prop :=
  ∀ pk item, w.table pk = some item → item layout.ttlAttr = (ttlOf layout item).map Json.num

/-- Any number of callers; each has a clock of its own, which may show
anything. The table may hold any items to begin with. -/
def freshers : System Request Reply World Call Result where
  start := fun call => putIfFresher layout p call.key call.value call.expiresAt call.indexedKey
  permits := fun _ _ => True
  serve := fun w op r w' =>
    match op, r with
    | .now, _ => w' = w
    | .dynamo command, reply => serve layout False w (.dynamo command) reply w'
  drift := fun _ _ => False
  init := Timed layout

abbrev FresherConfig := Config Request Reply World Call Result

structure DynamoFresh (c : FresherConfig) : Prop where
  kept : ∀ e ∈ c.log, ∀ pk, Kept (dynamoHeld layout e.pre pk) (dynamoHeld layout e.post pk) ∧
    Kept (dynamoHeld layout e.post pk) (dynamoHeld layout c.world pk)
  /-- The report is about the item that the write has met. -/
  reports : ∀ i call applied record,
    c.threads[i]? = some ⟨call, .ret (.cas applied record)⟩ → ∃ e ∈ c.log, e.tid = i ∧
      (applied = true ↔ Fresher (dynamoHeld layout e.pre (pkOf layout call.key)) call.expiresAt) ∧
      (applied = true → dynamoHeld layout e.post (pkOf layout call.key) = some (some call.expiresAt))

/-- The requests of `putIfFresher`. -/
def Guarded : Request → Prop
  | .now => True
  | .dynamo (.getItem _ _) => True
  | .dynamo (.putItem _ item (.fresher incoming)) => item layout.ttlAttr = some (.num incoming)
  | _ => False

variable {layout p} {c : FresherConfig}

theorem holds_fresher {w : World} (hw : Timed layout w) (pk : String) (incoming : ℚ) :
    (Condition.fresher incoming).holds layout (w.table pk) = true ↔
      Fresher (dynamoHeld layout w pk) incoming := by
  unfold Fresher dynamoHeld
  cases hitem : w.table pk with
  | none => simp [Condition.holds]
  | some item =>
      simp only [Condition.holds, Option.bind_some, hw pk item hitem, Option.map_some,
        Option.some.injEq]
      cases httl : ttlOf layout item with
      | none => simp
      | some ttl => simp

theorem ttlOf_num {item : Item} {e : ℚ} (h : item layout.ttlAttr = some (.num e)) :
    ttlOf layout item = some e := by
  simp [ttlOf, h]

theorem held_put (w : World) {pk : String} {item : Item} {incoming : ℚ}
    (h : item layout.ttlAttr = some (.num incoming)) :
    dynamoHeld layout (w.put pk item) pk = some (some incoming) := by
  simp [dynamoHeld, World.put, ttlOf_num h]

theorem putIfFresher_guarded (call : Call) : (putIfFresher layout p call.key call.value
    call.expiresAt call.indexedKey).Uses (Guarded layout) := by
  refine checked_uses fun built hbuilt => conditionalPut_uses ?_ (refused_uses trivial trivial)
  unfold buildItem at hbuilt
  split at hbuilt
  · cases hbuilt
  · cases hpk : buildPk layout call.key with
    | error e =>
        rw [hpk] at hbuilt
        cases hbuilt
    | ok pk =>
        rw [hpk] at hbuilt
        cases hbuilt
        exact assemble_ttl _ _ _ _ _ _

/-- One request keeps what is fresher. -/
theorem guarded_serve {w w' : World} {op : Request} {r : Reply op} (hw : Timed layout w)
    (hop : Guarded layout op) (hserve : (freshers layout p).serve w op r w') :
    Timed layout w' ∧ ∀ pk, Kept (dynamoHeld layout w pk) (dynamoHeld layout w' pk) := by
  have hcases : w' = w ∨ ∃ pk item incoming, item layout.ttlAttr = some (.num incoming) ∧
      Fresher (dynamoHeld layout w pk) incoming ∧ w' = w.put pk item := by
    cases op with
    | now => exact .inl hserve
    | dynamo command =>
        replace hserve : serve layout False w (.dynamo command) r w' := hserve
        rcases serve_cases hserve with hsame | ⟨command', hcommand, hdone⟩
        · exact .inl hsame
        · cases hcommand
          cases command with
          | getItem _ _ => exact .inl hdone
          | putItem pk item condition =>
              cases condition with
              | fresher incoming =>
                  simp only [World.carriedOut, effect] at hdone
                  split at hdone
                  · exact .inl hdone
                  · split at hdone
                    · rename_i hholds
                      exact .inr ⟨pk, item, incoming, hop, (holds_fresher hw pk incoming).mp hholds,
                        hdone⟩
                    · exact .inl hdone
              | _ => exact hop.elim
          | _ => exact hop.elim
  rcases hcases with rfl | ⟨pk, item, incoming, httl, hfresher, rfl⟩
  · exact ⟨hw, fun _ => Kept.refl _⟩
  · refine ⟨?_, ?_⟩
    · intro pk' item' hitem'
      by_cases hpk : pk' = pk
      · subst hpk
        have hsame : item = item' := by simpa [World.put] using hitem'
        rw [← hsame, ttlOf_num httl]
        exact httl
      · refine hw pk' item' ?_
        rw [← hitem']
        exact (Table.put_of_ne _ _ hpk).symm
    · intro pk'
      by_cases hpk : pk' = pk
      · subst hpk
        rw [held_put w httl]
        exact Kept.of_fresher hfresher
      · have hsame : dynamoHeld layout (w.put pk item) pk' = dynamoHeld layout w pk' := by
          simp [dynamoHeld, World.put, Table.put_of_ne _ _ hpk]
        rw [hsame]
        exact Kept.refl _

theorem timed (h : (freshers layout p).Reachable c) : Timed layout c.world := by
  induction h with
  | init hw => exact hw
  | @step c d hc hs ih =>
      cases hs with
      | spawn _ => exact ih
      | drift hd => exact hd.elim
      | @request i call op k r w hi hserve =>
          have hop := (hc.step (.request hi hserve)).requests putIfFresher_guarded
            ⟨i, c.world, ⟨op, r⟩, w⟩ (List.mem_append_right _ List.mem_cons_self)
          exact (guarded_serve ih hop hserve).1

theorem timed_entry (h : (freshers layout p).Reachable c) {e : Entry Request Reply World}
    (he : e ∈ c.log) : Timed layout e.pre := by
  obtain ⟨l₁, l₂, hlog⟩ := List.append_of_mem he
  obtain ⟨d, hd, -, hworld⟩ := h.before l₁ e l₂ hlog
  rw [← hworld]
  exact timed hd

theorem dynamo_directed (layout : DynamoKvLayout) (p : Platform) :
    (freshers layout p).Directed (Guarded layout) fun w w' => Timed layout w →
      Timed layout w' ∧ ∀ pk, Kept (dynamoHeld layout w pk) (dynamoHeld layout w' pk) where
  uses := putIfFresher_guarded
  refl := fun _ hw => ⟨hw, fun _ => Kept.refl _⟩
  trans := by
    intro u v w huv hvw hu
    obtain ⟨hv, hkept⟩ := huv hu
    obtain ⟨hw, hkept'⟩ := hvw hv
    exact ⟨hw, fun pk => (hkept pk).trans (hkept' pk)⟩
  serve := fun w op r w' hop hserve hw => guarded_serve hw hop hserve
  drift := fun _ _ h => h.elim

theorem dynamo_fresh (h : (freshers layout p).Reachable c) : DynamoFresh layout c where
  kept := by
    intro e he pk
    have hop := h.requests putIfFresher_guarded e he
    obtain ⟨hpost, hkept⟩ := guarded_serve (timed_entry h he) hop (h.served e he)
    exact ⟨hkept pk, (((dynamo_directed layout p).reaches h e he).2 hpost).2 pk⟩
  reports := by
    intro i call applied record ht
    have hrun : (putIfFresher layout p call.key call.value call.expiresAt call.indexedKey).Finishes
      (localLog c.log i) (.cas applied record) := h.local_run i _ ht
    rcases checked_finishes hrun with ⟨built, hbuilt, hput⟩ | ⟨e, hr⟩
    · rw [buildPk_eq (buildItem_cases hbuilt).1] at hput
      rcases conditionalPut_finishes hput with
        ⟨fs, hes, -, hr⟩ | ⟨fs, es₂, hes, -, hlost⟩ | ⟨e, hr⟩
      · -- the write was acknowledged
        cases hr
        obtain ⟨e, he, hi, hev⟩ := mem_localLog.mp
          (show ⟨.dynamo (.putItem (pkOf layout call.key) built.2 (.fresher call.expiresAt)),
            .ok ()⟩ ∈ localLog c.log i by rw [hes]; simp)
        have hserve := h.served e he
        have hop := h.requests putIfFresher_guarded e he
        rw [hev] at hserve hop
        have hdone := put_ok hserve
        have hholds := put_holds hserve hdone
        refine ⟨e, he, hi, ⟨fun _ => ?_, fun _ => rfl⟩, fun _ => ?_⟩
        · exact (holds_fresher (timed_entry h he) _ _).mp hholds
        · rw [hdone]
          exact held_put e.pre hop
      · -- the condition has failed
        have happlied : applied = false := by
          cases applied with
          | false => rfl
          | true => exact absurd hlost refused_finishes
        obtain ⟨e, he, hi, hev⟩ := mem_localLog.mp
          (show ⟨.dynamo (.putItem (pkOf layout call.key) built.2 (.fresher call.expiresAt)),
            .error .conditionalCheckFailed⟩ ∈ localLog c.log i by rw [hes]; simp)
        have hserve := h.served e he
        rw [hev] at hserve
        have hholds : ¬ (Condition.fresher call.expiresAt).holds layout
            (e.pre.table (pkOf layout call.key)) = true := by
          rcases hserve with ⟨hanswer, -⟩ | ⟨hlossy, -⟩
          · intro hholds
            have herror : (.error .conditionalCheckFailed : Except KvError Unit) =
              (apply layout e.pre.table (.putItem (pkOf layout call.key) built.2
                (.fresher call.expiresAt))).1 := hanswer
            simp only [apply, hholds, if_true] at herror
            split at herror <;> cases herror
          · exact hlossy.elim
        refine ⟨e, he, hi, ⟨fun h => (by rw [happlied] at h; cases h), fun hfresher => ?_⟩,
          fun h => (by rw [happlied] at h; cases h)⟩
        exact absurd ((holds_fresher (timed_entry h he) _ _).mpr hfresher) hholds
      · cases hr
    · cases hr

end Dynamo

/-! ## Postgres -/

section Postgres

open PostgresKvStore

variable (p : Platform)

/-- The expiry in seconds. -/
def postgresHeld (w : Sql.World) (key : String) : Held :=
  (w.rows key).map fun row => row.expiresAt.map fun ms : ℤ => (ms : ℚ) / 1000

def sqlFreshers : System Sql.Request Sql.Reply Sql.World Call Result where
  start := fun call => Sql.putIfFresher p call.key call.value call.expiresAt call.indexedKey
  permits := fun _ _ => True
  serve := Sql.serve p
  drift := fun _ _ => False
  init := fun _ => True

abbrev SqlConfig := Config Sql.Request Sql.Reply Sql.World Call Result

def isUpsert : Sql.Request → Bool
  | .sql (.upsert _ _ _ _ _) => true
  | _ => false

/-- The write of a call. -/
def Attempt (c : SqlConfig) (i : Nat) (e : Entry Sql.Request Sql.Reply Sql.World) : Prop :=
  e ∈ c.log ∧ e.tid = i ∧ isUpsert e.ev.op = true

structure PostgresFresh (c : SqlConfig) : Prop where
  kept : ∀ e ∈ c.log, ∀ key, Kept (postgresHeld e.pre key) (postgresHeld e.post key) ∧
    Kept (postgresHeld e.post key) (postgresHeld c.world key)
  /-- The report is about the row that the write has met. -/
  reports : ∀ i call applied record,
    c.threads[i]? = some ⟨call, .ret (.cas applied record)⟩ → (∃ e, Attempt c i e) ∧
      ∀ e, Attempt c i e →
        (applied = true ↔ Fresher (postgresHeld e.pre call.key) call.expiresAt)

/-- Where a stored expiry is earlier than that of the call, it is earlier than
the whole milliseconds of it. -/
def PostgresMeets (c : SqlConfig) : Prop :=
  ∀ i call applied record, c.threads[i]? = some ⟨call, .ret (.cas applied record)⟩ →
    ∀ e, Attempt c i e → ∀ row ms, e.pre.rows call.key = some row → row.expiresAt = some ms →
      (ms : ℚ) < call.expiresAt * 1000 → ms < trunc (call.expiresAt * 1000)

/-- The statements of `putIfFresher`. -/
def Raises : Sql.Request → Prop
  | .sql (.upsert (.older incoming) _ _ expiresAt _) => incoming = expiresAt ∧ incoming.isSome = true
  | .sql (.select _ _) => True
  | .now => True
  | _ => False

variable {p} {c : SqlConfig}

theorem lt_of_lt_trunc {ms : ℤ} {q : ℚ} (h : ms < trunc q) : (ms : ℚ) < q := by
  unfold trunc at h
  split at h
  · have hle : ((⌊q⌋ : ℤ) : ℚ) ≤ q := Int.floor_le q
    have hlt : (ms : ℚ) < (⌊q⌋ : ℤ) := by exact_mod_cast h
    exact hlt.trans_le hle
  · exact Int.lt_ceil.mp h

theorem expiryParam_some {q : ℚ} {expiresAt : Option ℤ}
    (h : expiryParam (some q) = .ok expiresAt) : expiresAt = some (trunc (q * 1000)) := by
  unfold expiryParam at h
  simp only at h
  split at h
  · exact (Except.ok.inj h).symm
  · cases h

theorem putIfFresher_raises (call : Call) : (Sql.putIfFresher p call.key call.value call.expiresAt
    call.indexedKey).Uses Raises := by
  unfold Sql.putIfFresher Sql.withExpiry
  cases hparam : expiryParam (some call.expiresAt) with
  | error e => trivial
  | ok expiresAt =>
      refine Sql.query_uses ⟨rfl, ?_⟩ fun written =>
        Sql.appliedCas_uses trivial (fun _ => trivial) written
      rw [expiryParam_some hparam]
      rfl

/-- One write, and reads. -/
theorem putIfFresher_finishes {call : Call} {es : List (Event Sql.Request Sql.Reply)}
    {applied : Bool} {record : Option KvRecord}
    (h : (Sql.putIfFresher p call.key call.value call.expiresAt call.indexedKey).Finishes es
      (.cas applied record)) :
    ∃ ms written es', ms = trunc (call.expiresAt * 1000) ∧
      es = ⟨.sql (.upsert (.older (some ms)) call.key call.value (some ms) call.indexedKey),
        .ok written⟩ :: es' ∧
      applied = written.isSome ∧ ∀ ev ∈ es', isUpsert ev.op = false := by
  rcases Sql.withExpiry_finishes h with ⟨expiresAt, hparam, hquery⟩ | ⟨e, hr⟩
  · rw [expiryParam_some hparam] at hquery
    rcases Sql.query_finishes hquery with ⟨written, es', rfl, hcas⟩ | ⟨e, hr⟩
    · refine ⟨_, written, es', rfl, rfl, ?_, ?_⟩
      · rcases Sql.appliedCas_finishes hcas with
          ⟨version, rfl, hr⟩ | ⟨now, row, hmem, hr⟩ | ⟨e, hr⟩
        · cases hr
          rfl
        · cases hr
          cases written with
          | none => rfl
          | some version => cases (Prog.finishes_ret.mp hcas).2
        · cases hr
      · exact (Sql.appliedCas_uses (P := fun op => isUpsert op = false) rfl (fun _ => rfl)
          written).finishes hcas
    · cases hr
  · cases hr

theorem held_change (w : Sql.World) (key key' : String) (row : KvRow) :
    postgresHeld (w.change (some (key, some row))) key' =
      if key' = key then some (row.expiresAt.map fun ms : ℤ => (ms : ℚ) / 1000)
      else postgresHeld w key' := by
  unfold postgresHeld
  simp only [Sql.World.change, Table.put_apply]
  split <;> rfl

/-- One statement keeps what is fresher, in milliseconds. -/
theorem raises_serve {w w' : Sql.World} {op : Sql.Request} {r : Sql.Reply op} (hop : Raises op)
    (hserve : Sql.serve p w op r w') (key : String) :
    Kept (postgresHeld w key) (postgresHeld w' key) := by
  rcases Sql.serve_cases hserve with rfl | ⟨statement, rfl, rfl⟩
  · exact Kept.refl _
  · unfold Sql.World.carriedOut
    cases statement with
    | select _ _ => exact Kept.refl _
    | upsert condition key' value expiresAt indexedKey =>
        cases condition with
        | older incoming =>
            obtain ⟨rfl, hsome⟩ := hop
            obtain ⟨ms, rfl⟩ := Option.isSome_iff_exists.mp hsome
            simp only [Sql.carryOut]
            split
            · rename_i hnone
              rw [held_change]
              split
              · rename_i hkey
                intro e he
                simp [postgresHeld, hkey, hnone] at he
              · exact Kept.refl _
            · rename_i row hrow
              split
              · rename_i hholds
                rw [held_change]
                split
                · rename_i hkey
                  intro e he
                  simp only [postgresHeld, hkey, hrow, Option.map_some, Option.some.injEq,
                    Option.map_eq_some_iff] at he
                  obtain ⟨old, hold, rfl⟩ := he
                  have hlt : old < ms := by
                    simpa [Sql.RowCondition.holds, isOlder, hold] using hholds
                  refine ⟨(ms : ℚ) / 1000, rfl, ?_⟩
                  have hcast : (old : ℚ) ≤ ms := by exact_mod_cast hlt.le
                  exact div_le_div_of_nonneg_right hcast (by norm_num)
                · exact Kept.refl _
              · exact Kept.refl _
        | _ => exact hop.elim
    | _ => exact hop.elim

theorem sql_directed (p : Platform) : (sqlFreshers p).Directed Raises fun w w' =>
    ∀ key, Kept (postgresHeld w key) (postgresHeld w' key) where
  uses := putIfFresher_raises
  refl := fun _ _ => Kept.refl _
  trans := fun _ _ _ huv hvw key => (huv key).trans (hvw key)
  serve := fun _ _ _ _ hop hserve key => raises_serve hop hserve key
  drift := fun _ _ h => h.elim

/-- What a finished call has done: its only write was applied exactly if
there was no row of an expiry that is as late, in milliseconds. -/
theorem attempt_iff (h : (sqlFreshers p).Reachable c) {i : Nat} {call : Call} {applied : Bool}
    {record : Option KvRecord}
    (ht : c.threads[i]? = some ⟨call, .ret (.cas applied record)⟩) :
    (∃ e, Attempt c i e) ∧ ∀ e, Attempt c i e → (applied = true ↔
      ∀ row ms, e.pre.rows call.key = some row → row.expiresAt = some ms →
        ms < trunc (call.expiresAt * 1000)) := by
  obtain ⟨ms, written, es', hms, hes, happlied, hreads⟩ :=
    putIfFresher_finishes (h.local_run i _ ht)
  rw [hms] at hes
  rw [happlied]
  have hes' : localLog c.log i = [] ++ _ :: es' := hes
  obtain ⟨l₁, e₀, l₂, hlog, hi, hev, hl₁, hl₂⟩ := localLog_split hes'
  have he₀ : e₀ ∈ c.log := by rw [hlog]; simp
  have hattempt : Attempt c i e₀ := ⟨he₀, hi, by rw [hev]; rfl⟩
  refine ⟨⟨e₀, hattempt⟩, fun e he => ?_⟩
  -- the thread has no other write
  have hunique : e = e₀ := by
    obtain ⟨hmem, rfl, hupsert⟩ := he
    rw [hlog] at hmem
    rcases List.mem_append.mp hmem with hmem | hmem
    · have := Entry.mem_localLog hmem
      rw [hl₁] at this
      cases this
    · rcases List.mem_cons.mp hmem with rfl | hmem
      · rfl
      · have hread := Entry.mem_localLog hmem
        rw [hl₂] at hread
        rw [hreads _ hread] at hupsert
        cases hupsert
  subst hunique
  have hserve : Sql.serve p e.pre e.ev.op e.ev.res e.post := h.served e he₀
  rw [hev] at hserve
  have hanswer := (Sql.serve_ok hserve).1
  simp only [Sql.carryOut] at hanswer
  split at hanswer
  · rename_i hnone
    cases hanswer
    simp [hnone]
  · rename_i row hrow
    have hholds : (Sql.RowCondition.older (some (trunc (call.expiresAt * 1000)))).holds row = true ↔
        ∀ ms, row.expiresAt = some ms → ms < trunc (call.expiresAt * 1000) := by
      cases hexpiry : row.expiresAt with
      | none => simp [Sql.RowCondition.holds, isOlder, hexpiry]
      | some ms => simp [Sql.RowCondition.holds, isOlder, hexpiry]
    have honly : (∀ row' ms, e.pre.rows call.key = some row' → row'.expiresAt = some ms →
        ms < trunc (call.expiresAt * 1000)) ↔
          ∀ ms, row.expiresAt = some ms → ms < trunc (call.expiresAt * 1000) := by
      rw [hrow]
      constructor
      · intro h ms
        exact h row ms rfl
      · rintro h row' ms ⟨⟩
        exact h ms
    rw [honly, ← hholds]
    split at hanswer
    · rename_i hcondition
      cases hanswer
      simp [hcondition]
    · rename_i hcondition
      cases hanswer
      simp [hcondition]

theorem fresher_iff (w : Sql.World) (key : String) (incoming : ℚ) :
    Fresher (postgresHeld w key) incoming ↔
      ∀ row ms, w.rows key = some row → row.expiresAt = some ms → (ms : ℚ) < incoming * 1000 := by
  unfold Fresher postgresHeld
  constructor
  · intro h row ms hrow hexpiry
    have hlt := h ((ms : ℚ) / 1000) (by simp [hrow, hexpiry])
    rwa [div_lt_iff₀ (by norm_num)] at hlt
  · intro h e he
    obtain ⟨row, hrow, hexpiry⟩ := Option.map_eq_some_iff.mp he
    obtain ⟨ms, hms, rfl⟩ := Option.map_eq_some_iff.mp hexpiry
    rw [div_lt_iff₀ (by norm_num)]
    exact h row ms hrow hms

theorem postgres_fresh_iff (h : (sqlFreshers p).Reachable c) :
    PostgresFresh c ↔ PostgresMeets c := by
  constructor
  · intro hfresh i call applied record ht e he row ms hrow hexpiry hlt
    -- the only row of the key is earlier, so the call was applied
    have hfresher : Fresher (postgresHeld e.pre call.key) call.expiresAt := by
      rw [fresher_iff]
      intro row' ms' hrow' hexpiry'
      rw [hrow] at hrow'
      cases hrow'
      rw [hexpiry] at hexpiry'
      cases hexpiry'
      exact hlt
    have happlied := ((hfresh.reports i call applied record ht).2 e he).mpr hfresher
    exact ((attempt_iff h ht).2 e he).mp happlied row ms hrow hexpiry
  · intro hmeets
    refine ⟨?_, ?_⟩
    · intro e he key
      have hop := h.requests putIfFresher_raises e he
      exact ⟨raises_serve hop (h.served e he) key, ((sql_directed p).reaches h e he).2 key⟩
    · intro i call applied record ht
      obtain ⟨hexists, hattempt⟩ := attempt_iff h ht
      refine ⟨hexists, fun e he => ?_⟩
      rw [hattempt e he, fresher_iff]
      constructor
      · intro hlt row ms hrow hexpiry
        exact lt_of_lt_trunc (hlt row ms hrow hexpiry)
      · intro hlt row ms hrow hexpiry
        exact hmeets i call applied record ht e he row ms hrow hexpiry (hlt row ms hrow hexpiry)

end Postgres

/-- On each adapter: in every run of `putIfFresher` calls, at any clock, the
expiries do not decrease and the reports are right, exactly if no call meets
an expired record that is as fresh (memory) or a row that is earlier by less
than a millisecond (Postgres). -/
theorem fresher_iff_meets (p : Platform) :
    (∀ store calls, MemoryFresh store calls ↔ MemoryMeets store calls) ∧
    (∀ layout c, (freshers layout p).Reachable c → DynamoFresh layout c) ∧
    ∀ c, (sqlFreshers p).Reachable c → (PostgresFresh c ↔ PostgresMeets c) :=
  ⟨fun _ _ => memory_fresh_iff, fun _ _ => dynamo_fresh, fun _ => postgres_fresh_iff⟩

/-! ## Small runs -/

/-- With expiries in whole seconds nothing is lost. -/
theorem postgresMeets_whole {c : SqlConfig} (h : ∀ t ∈ c.threads, t.job.expiresAt.den = 1) :
    PostgresMeets c := by
  intro i call applied record ht e he row ms hrow hexpiry hlt
  have hwhole : ((call.expiresAt.num : ℤ) : ℚ) = call.expiresAt :=
    (Rat.den_eq_one_iff _).mp (h _ (List.mem_of_getElem? ht))
  rw [← hwhole] at hlt ⊢
  rw [trunc_whole]
  exact_mod_cast hlt

namespace Small

open Kv.Small

def claims (expiresAt : ℚ) : Call := ⟨"claims", noFields, expiresAt, none⟩

def schedules : Responder (freshers layout platform) ℤ Empty where
  permits := fun _ _ => true
  respond := fun w now op =>
    match op with
    | .now => (now, w)
    | .dynamo command => ((apply layout w.table command).1, w.carriedOut layout command)
  drift := fun _ m => nomatch m
  permits_sound := fun _ _ _ => trivial
  respond_sound := by
    intro w now op
    cases op with
    | now => rfl
    | dynamo command => exact .inl ⟨answers_apply layout w command, rfl⟩
  drift_sound := fun _ m => nomatch m

def sqlSchedules : Responder (sqlFreshers platform) ℤ Empty where
  permits := fun _ _ => true
  respond := fun w now op =>
    match op with
    | .now => (now, w)
    | .sql statement =>
        ((Sql.carryOut platform w.rows statement).1, w.carriedOut platform statement)
  drift := fun _ m => nomatch m
  permits_sound := fun _ _ _ => trivial
  respond_sound := by
    intro w now op
    cases op with
    | now => rfl
    | sql statement => exact .inl ⟨rfl, rfl⟩
  drift_sound := fun _ m => nomatch m

def isReported {Rq : Type} {Rs : Rq → Type} (applied : Bool) :
    Option (Thread Rq Rs Call Result) → Bool
  | some ⟨_, .ret (.cas reported _)⟩ => reported == applied
  | _ => false

/-- Two calls, one after the other, each with so many requests. -/
def inTurn (first second : ℚ) (n m : Nat) : List (Turn Call ℤ Empty) :=
  [.spawn (claims first), .spawn (claims second)] ++ List.replicate n (.answer 0 0) ++
    List.replicate m (.answer 1 0)

/-- A stale entry after a fresher one. -/
theorem fresher_iff_meets_stale :
    MemoryFresh Table.empty [(0, claims 20), (1000, claims 10)] ∧
    (∃ c, (freshers layout platform).Reachable c ∧ isReported false c.threads[1]? = true ∧
      DynamoFresh layout c) ∧
    ∃ c, (sqlFreshers platform).Reachable c ∧ isReported false c.threads[1]? = true ∧
      PostgresFresh c := by
  obtain ⟨hmemory, hdynamo, hpostgres⟩ := fresher_iff_meets platform
  refine ⟨(hmemory _ _).mpr ?_, ?_, ?_⟩
  · intro l₁ now call l₂ hcalls entry hentry hexpired
    rcases l₁ with _ | ⟨first, _ | ⟨second, l₁⟩⟩
    · cases hcalls
      cases hentry
    · -- the second call meets the first entry, which is live
      cases hcalls
      have hheld : entry = ⟨noFields, 1, some 20, none⟩ := (Option.some.inj hentry).symm
      rw [hheld] at hexpired
      exact absurd hexpired (by decide +kernel)
    · cases l₁ <;> cases hcalls
  · obtain ⟨c, hc, hreported⟩ := schedules.exists_reachable (w := emptyWorld 0)
      (fun _ _ h => nomatch h) (inTurn 20 10 1 3) (fun c => isReported false c.threads[1]?)
      (by decide +kernel)
    exact ⟨c, hc, hreported, hdynamo layout c hc⟩
  · obtain ⟨c, hc, hchecks⟩ := sqlSchedules.exists_reachable (w := Sql.emptyWorld) trivial
      (inTurn 20 10 1 3) (fun c => isReported false c.threads[1]? &&
        c.threads.all fun t => t.job.expiresAt.den == 1) (by decide +kernel)
    obtain ⟨hreported, hwhole⟩ := Bool.and_eq_true_iff.mp hchecks
    refine ⟨c, hc, hreported, (hpostgres c hc).mpr (postgresMeets_whole fun t ht => ?_)⟩
    simpa using List.all_eq_true.mp hwhole t ht

/-- The second call was refused, though what it met expires earlier. -/
def refusedFresher (c : SqlConfig) : Bool :=
  match (c.threads[1]? : Option (Thread Sql.Request Sql.Reply Call Result)) with
  | some ⟨call, .ret (.cas false _)⟩ => c.log.any fun e => e.tid == 1 && isUpsert e.ev.op &&
      (e.pre.rows call.key).any fun row => row.expiresAt.any fun ms : ℤ =>
        decide ((ms : ℚ) / 1000 < call.expiresAt)
  | _ => false

theorem refusedFresher_wrong {c : SqlConfig} (h : refusedFresher c = true) : ¬ PostgresFresh c := by
  intro hfresh
  unfold refusedFresher at h
  split at h
  · rename_i call record ht
    obtain ⟨e, he, hchecks⟩ := List.any_eq_true.mp h
    obtain ⟨hupsert, hrows⟩ := Bool.and_eq_true_iff.mp hchecks
    obtain ⟨htid, hupsert⟩ := Bool.and_eq_true_iff.mp hupsert
    obtain ⟨row, hrow, hexpiries⟩ := (Option.any_eq_true _ _).mp hrows
    obtain ⟨ms, hexpiry, hlt⟩ := (Option.any_eq_true _ _).mp hexpiries
    have hreport := (hfresh.reports 1 call false record ht).2 e ⟨he, beq_iff_eq.mp htid, hupsert⟩
    have hfresher : Fresher (postgresHeld e.pre call.key) call.expiresAt := by
      intro expiry hexpiry'
      simp only [postgresHeld, hrow, hexpiry, Option.map_some, Option.some.injEq] at hexpiry'
      rw [← hexpiry']
      exact of_decide_eq_true hlt
    cases hreport.mpr hfresher
  · cases h

/-- In memory a stale entry replaces an expired one that was fresher, and
Postgres refuses an entry that is fresher by half a millisecond. -/
theorem fresher_fails :
    (¬ ∀ store calls, MemoryFresh store calls) ∧
      ¬ ∀ p c, (sqlFreshers p).Reachable c → PostgresFresh c := by
  constructor
  · intro hall
    have hkept := (hall Table.empty [(0, claims 10), (60000, claims 5)]).kept [(0, claims 10)]
      [(60000, claims 5)] rfl "claims"
    obtain ⟨e, he, hle⟩ := hkept 10 rfl
    have hheld : e = 5 := by
      have hlast : memoryHeld (memoryAfter Table.empty [(0, claims 10), (60000, claims 5)])
          "claims" = some (some 5) := by decide +kernel
      rw [hlast] at he
      exact (Option.some.inj (Option.some.inj he)).symm
    rw [hheld] at hle
    exact absurd hle (by norm_num)
  · intro hall
    obtain ⟨c, hc, hwrong⟩ := sqlSchedules.exists_reachable (w := Sql.emptyWorld) trivial
      (inTurn 10 (10 + 1 / 2000) 1 3) refusedFresher (by decide +kernel)
    exact refusedFresher_wrong hwrong (hall platform c hc)

end Small

end SaasFoundation.Foundation.Kv.Freshness
