import SaasFoundation.Foundation.Kv.DynamoRuns

/-!
# Locks

`putIfAbsent` takes a lock, `delete` with the version it was given gives it
back. A lock that has expired may be taken over: the caller reads it, and
writes on the condition that the version is the one it has read.

Versions start again at 1 where the item has been removed. A version then
tells nothing about the record any more, and the guard lets a caller
overwrite a lock that another has just taken, or give back one that is not
its own. Where no item is removed between the read and the write, or between
the taking and the giving back, there is one holder at most.
-/

namespace SaasFoundation.Foundation.Kv.Locks

open Lib DynamoKvStore

inductive Job where
  | acquire (key : String) (value : Fields) (opts : KvWriteOptions) (calls : Nat)
  /-- The delete of a thread that has acquired the lock. -/
  | release (holder : Nat) (key : String) (version : ℤ)

def start (layout : DynamoKvLayout) (p : Platform) : Job → Handler Result
  | .acquire key value opts calls => putIfAbsent layout p key value opts calls
  | .release _ key version => delete layout key (some version)

/-- Only what was acquired is released. -/
def permits (threads : List (Thread Request Reply Job Result)) : Job → Prop
  | .acquire _ _ _ _ => True
  | .release holder key version => ∃ value opts calls record,
      threads[holder]? = some ⟨.acquire key value opts calls, .ret (.cas true (some record))⟩ ∧
        record.version = version

/-- Any number of callers, over a table from which DynamoDB deletes what has
expired. -/
def locks (layout : DynamoKvLayout) (p : Platform) : System Request Reply World Job Result :=
  dynamoSystem layout True True (start layout p) permits

abbrev LockConfig := Config Request Reply World Job Result

abbrev LockEntry := Entry Request Reply World

/-! ## Safety, and the condition -/

/-- The thread was told that it has the lock, the lock has not expired, and
the thread has not begun to release it. -/
def Holds (c : LockConfig) (i : Nat) (key : String) (record : KvRecord) : Prop :=
  (∃ value opts calls,
    c.threads[i]? = some ⟨.acquire key value opts calls, .ret (.cas true (some record))⟩) ∧
  (∀ e, record.expiresAt = some e → ¬ e < (nowSeconds c.world.now : ℚ)) ∧
  ∀ t ∈ c.threads, ∀ k version, t.job ≠ .release i k version

structure LockSafe (layout : DynamoKvLayout) (c : LockConfig) : Prop where
  /-- No live record is overwritten. -/
  overwrites : ∀ e ∈ c.log, ∀ pk item condition, e.ev.op = .dynamo (.putItem pk item condition) →
    e.post = e.pre.put pk item → ∀ old, e.pre.table pk = some old →
      isExpiredItem layout e.pre.now old = true
  /-- A lock has one holder. -/
  holders : ∀ key i j record record', Holds c i key record → Holds c j key record' → i = j

def isRead : Request → Prop
  | .dynamo (.getItem _ _) => True
  | _ => False

/-- The last read of thread `i` in a log. -/
def LastRead (log : List LockEntry) (i : Nat) (r : LockEntry) : Prop :=
  r.tid = i ∧ isRead r.ev.op ∧ ∃ l₁ l₂, log = l₁ ++ r :: l₂ ∧ ∀ e ∈ l₂, e.tid = i → ¬ isRead e.ev.op

/-- The item was removed neither between the read and the write of a
takeover, nor between the taking of a lock and its release. -/
structure Undisturbed (c : LockConfig) : Prop where
  takeovers : ∀ l₁ w l₂, c.log = l₁ ++ w :: l₂ → ∀ pk item version,
    w.ev.op = .dynamo (.putItem pk item (.versionIs version)) → w.post = w.pre.put pk item →
      ∀ r, LastRead l₁ w.tid r → r.pre.removals pk = w.pre.removals pk
  releases : ∀ l₁ w l₂, c.log = l₁ ++ w :: l₂ → ∀ pk version,
    w.ev.op = .dynamo (.deleteItem pk (.versionIs version)) → w.post = w.pre.remove pk →
      ∀ t holder key, c.threads[w.tid]? = some t → t.job = .release holder key version →
        ∀ a ∈ l₁, a.tid = holder → ∀ item condition,
          a.ev = ⟨.dynamo (.putItem pk item condition), .ok ()⟩ →
            a.post.removals pk = w.pre.removals pk

/-! ## What the callers know -/

section Knows

variable {layout : DynamoKvLayout} {p : Platform} {past : List (Event Request Reply)}

/-- The last read has given an expired item of this version. -/
def ReadExpired (layout : DynamoKvLayout) (past : List (Event Request Reply)) (pk : String)
    (version : ℤ) : Prop :=
  ∃ p₁ p₂ current now, past = p₁ ++ ⟨.dynamo (.getItem pk true), .ok (some current)⟩ :: p₂ ∧
    (∀ ev ∈ p₂, ¬ isRead ev.op) ∧ ⟨.now, now⟩ ∈ p₂ ∧
    isExpiredItem layout now current = true ∧ versionOf layout current = version

def Knows (layout : DynamoKvLayout) (job : Job) (past : List (Event Request Reply)) :
    Request → Prop
  | .now => True
  | .dynamo (.getItem _ true) => True
  | .dynamo (.putItem _ _ .notExists) => True
  | .dynamo (.putItem pk _ (.versionIs version)) => ReadExpired layout past pk version
  | .dynamo (.deleteItem pk (.versionIs version)) =>
      ∃ holder key, job = .release holder key version ∧ buildPk layout key = .ok pk
  | _ => False

theorem refused_knows {job : Job} (pk : String) :
    Prog.Asks (Knows layout job) past (refused layout p pk) := by
  refine attempt_asks (send_asks fun _ _ => trivial) fun es current _ => ?_
  cases current with
  | none => trivial
  | some item => exact ⟨trivial, fun _ => trivial⟩

theorem takeover_knows {job : Job} {pk : String} {current item : Item} {now : ℤ}
    (hexpired : isExpiredItem layout now current = true) :
    Prog.Asks (Knows layout job)
      (past ++ [⟨.dynamo (.getItem pk true), .ok (some current)⟩] ++ [⟨.now, now⟩])
      (conditionalPut layout p pk item (.versionIs (versionOf layout current))
        (refused layout p pk)) := by
  refine conditionalPut_asks ?_ fun es => refused_knows pk
  intro fs hfs
  refine ⟨past, ⟨.now, now⟩ :: fs, current, now, by simp, ?_, List.mem_cons_self, hexpired, rfl⟩
  intro ev hev
  rcases List.mem_cons.mp hev with rfl | hev
  · exact id
  · obtain ⟨e, -, rfl⟩ := hfs ev hev
    exact id

theorem putIfAbsent_knows {job : Job} (key : String) (value : Fields) (opts : KvWriteOptions)
    (calls : Nat) (past : List (Event Request Reply)) :
    Prog.Asks (Knows layout job) past (putIfAbsent layout p key value opts calls) := by
  induction calls generalizing past with
  | zero => trivial
  | succ calls ih =>
      refine ⟨trivial, fun now => checked_asks fun create hcreate => ?_⟩
      refine conditionalPut_asks (fun _ _ => trivial) fun es => ?_
      refine attempt_asks (send_asks fun _ _ => trivial) fun es' current hread => ?_
      cases current with
      | none => exact ih _
      | some current =>
          refine ⟨trivial, fun now => ?_⟩
          show Prog.Asks _ _ (if !isExpiredItem layout now current then _ else _)
          split
          · trivial
          · rename_i hexpired
            have hexpired : isExpiredItem layout now current = true := by simpa using hexpired
            refine checked_asks fun takeover htakeover => ?_
            obtain ⟨fs, rfl, -⟩ := send_finishes hread
            have hpk : takeover.1 = create.1 := by
              have hcreated := (buildItem_cases hcreate).1
              rw [(buildItem_cases htakeover).1] at hcreated
              exact Except.ok.inj hcreated
            rw [hpk, ← List.append_assoc]
            exact takeover_knows hexpired

theorem release_knows (holder : Nat) (key : String) (version : ℤ) :
    Prog.Asks (Knows layout (.release holder key version)) past
      (delete layout key (some version)) := by
  refine checked_asks fun pk hpk => Prog.Asks.bind (send_asks fun _ _ => ?_) fun es reply _ => ?_
  · exact ⟨holder, key, rfl, hpk⟩
  · rcases reply with (_ | _ | _ | _ | _) | a <;> trivial

theorem start_knows (job : Job) : Prog.Asks (Knows layout job) [] (start layout p job) := by
  cases job with
  | acquire key value opts calls => exact putIfAbsent_knows key value opts calls []
  | release holder key version => exact release_knows holder key version

theorem start_versioned (job : Job) : (start layout p job).Uses (Versioned layout) := by
  cases job with
  | acquire key value opts calls => exact putIfAbsent_versioned key value opts calls
  | release holder key version => exact delete_versioned key (some version)

end Knows

/-! ## Runs -/

section Runs

variable {layout : DynamoKvLayout} {p : Platform} {c : LockConfig}

theorem isExpiredItem_mono {now now' : ℤ} {item : Item} (hle : now ≤ now')
    (h : isExpiredItem layout now item = true) : isExpiredItem layout now' item = true := by
  unfold isExpiredItem at *
  cases httl : ttlOf layout item with
  | none => simp [httl] at h
  | some ttl =>
      have hseconds : nowSeconds now ≤ nowSeconds now' := Int.ediv_le_ediv (by norm_num) hle
      have hcast : (nowSeconds now : ℚ) ≤ nowSeconds now' := by exact_mod_cast hseconds
      simp only [httl, Option.any_some, decide_eq_true_eq] at h ⊢
      exact h.trans_le hcast

theorem evolves (layout : DynamoKvLayout) (p : Platform) (pk : String) :
    (locks layout p).Directed (Versioned layout) (Evolves layout pk) :=
  evolves_directed start_versioned pk

/-- A takeover that takes effect overwrites what was read, and that had
expired. -/
theorem overwrites_expired (h : (locks layout p).Reachable c) (hundisturbed : Undisturbed c) :
    ∀ l₁ e l₂, c.log = l₁ ++ e :: l₂ → ∀ pk item condition,
      e.ev.op = .dynamo (.putItem pk item condition) → e.post = e.pre.put pk item →
        ∀ old, e.pre.table pk = some old → isExpiredItem layout e.pre.now old = true := by
  intro l₁ e l₂ hlog pk item condition hop hput old hold
  obtain ⟨t, -, hknows⟩ := h.asked start_knows l₁ e l₂ hlog
  have hmem : e ∈ c.log := by simp [hlog]
  have hserve : serve layout True e.pre e.ev.op e.ev.res e.post := h.served e hmem
  obtain ⟨tid, pre, ⟨op, res⟩, post⟩ := e
  cases hop
  have hholds := put_holds hserve hput
  cases condition with
  | always => exact hknows.elim
  | fresher _ => exact hknows.elim
  | notExists =>
      simp only at hold
      simp [Condition.holds, hold] at hholds
  | versionIs version =>
      obtain ⟨p₁, p₂, current, now, hpast, hp₂, hnow, hexpired, hversion⟩ := hknows
      obtain ⟨m₁, r, m₂, rfl, hrtid, hrev, -, hm₂⟩ := localLog_split hpast
      -- the item that is there is the one that was read
      have hlast : LastRead (m₁ ++ r :: m₂) tid r := by
        refine ⟨hrtid, by rw [hrev]; trivial, m₁, m₂, rfl, ?_⟩
        intro x hx hxtid
        exact hp₂ x.ev (by rw [← hm₂]; exact mem_localLog.mpr ⟨x, hx, hxtid, rfl⟩)
      have hsame := hundisturbed.takeovers _ _ _ hlog pk item version rfl hput r hlast
      have hread : r.pre.table pk = some current := by
        have hserved : serve layout True r.pre r.ev.op r.ev.res r.post :=
          h.served r (by simp [hlog])
        rw [hrev] at hserved
        exact (Except.ok.inj (serve_ok hserved).1).symm
      have hevolves := ((evolves layout p pk).between h hlog r (by simp)).1
      obtain ⟨old', hold', hcase⟩ := hevolves.kept hsame current hread
      rw [show pre.table pk = some old' from hold'] at hholds
      obtain ⟨x, hx, hxversion⟩ := versionOf_of_holds hholds
      cases hx
      have hcurrent : old' = current := by
        rcases hcase with heq | hlt
        · exact heq
        · omega
      -- and it had expired by then
      obtain ⟨n, hn, -, hnev⟩ := mem_localLog.mp (show (⟨.now, now⟩ : Event Request Reply) ∈
        localLog (m₁ ++ r :: m₂) tid by rw [hpast]; simp [hnow])
      have hclock : now = n.pre.now := by
        have hserved : serve layout True n.pre n.ev.op n.ev.res n.post :=
          h.served n (by rw [hlog]; exact List.mem_append_left _ hn)
        rw [hnev] at hserved
        exact hserved.1
      have hle := ((evolves layout p pk).between h hlog n hn).1.clock
      rw [show pre.table pk = some old from hold] at hold'
      cases hold'
      rw [hcurrent]
      exact isExpiredItem_mono (by rw [hclock]; exact hle) hexpired

theorem Undisturbed.before {d : LockConfig} (hs : (locks layout p).Step c d)
    (h : Undisturbed d) : Undisturbed c := by
  have hlog : ∃ es, d.log = c.log ++ es := by
    cases hs with
    | spawn _ => exact ⟨[], by simp⟩
    | request _ _ => exact ⟨_, rfl⟩
    | drift _ => exact ⟨[], by simp⟩
  obtain ⟨es, hlog⟩ := hlog
  constructor
  · intro l₁ w l₂ hc
    exact h.takeovers l₁ w (l₂ ++ es) (by simp [hlog, hc])
  · intro l₁ w l₂ hc pk version hop hremove t holder key ht hjob
    obtain ⟨u, hu, hujob, -⟩ := hs.progress w.tid t ht
    exact h.releases l₁ w (l₂ ++ es) (by simp [hlog, hc]) pk version hop hremove u holder key hu
      (hujob.trans hjob)

theorem permits_mono (ts us : List (Thread Request Reply Job Result)) (job : Job)
    (hprogress : System.Progress ts us) (h : permits ts job) : permits us job := by
  cases job with
  | acquire _ _ _ _ => trivial
  | release holder key version =>
      obtain ⟨value, opts, calls, record, hholder, hversion⟩ := h
      obtain ⟨⟨job, prog⟩, hu, hjob, hret⟩ := hprogress holder _ hholder
      cases hjob
      cases hret _ rfl
      exact ⟨value, opts, calls, record, hu, hversion⟩

/-- A thread that holds or held a lock has made the put, and it took
effect. -/
theorem acquired (h : (locks layout p).Reachable c) {i : Nat} {key : String} {value : Fields}
    {opts : KvWriteOptions} {calls : Nat} {record : KvRecord}
    (ht : c.threads[i]? = some ⟨.acquire key value opts calls, .ret (.cas true (some record))⟩) :
    ∃ a ∈ c.log, a.tid = i ∧ ∃ pk item condition, buildPk layout key = .ok pk ∧
      a.ev = ⟨.dynamo (.putItem pk item condition), .ok ()⟩ ∧ record = toRecord layout p item := by
  obtain ⟨pk, item, condition, hpk, hrecord, hmem, -⟩ := putIfAbsent_applied (h.local_run i _ ht)
  obtain ⟨a, ha, hai, hev⟩ := mem_localLog.mp hmem
  exact ⟨a, ha, hai, pk, item, condition, hpk, hev, Option.some.inj hrecord⟩

theorem acquired_put (h : (locks layout p).Reachable c) {a : LockEntry} (ha : a ∈ c.log)
    {pk : String} {item : Item} {condition : Condition}
    (hev : a.ev = ⟨.dynamo (.putItem pk item condition), .ok ()⟩) :
    a.post = a.pre.put pk item ∧ versionOf layout item = versionAt layout a.pre pk + 1 := by
  have hserve : serve layout True a.pre a.ev.op a.ev.res a.post := h.served a ha
  have hversioned := h.requests (S := locks layout p) start_versioned a ha
  rw [hev] at hserve hversioned
  have hput := put_ok hserve
  refine ⟨hput, effect_version hversioned ?_⟩
  have hholds := put_holds hserve hput
  have hdone := (serve_ok hserve).2
  rw [hput, World.carriedOut] at hdone
  simp only [effect, hholds, if_true] at hdone ⊢
  by_cases hempty : emptyIndexKey layout item = true
  · rw [if_pos hempty] at hdone
    exact absurd hdone (put_ne _ _ _)
  · rw [if_neg hempty]

/-- A release that takes effect removes the record its holder has put; so
nobody else has taken the lock since. -/
theorem release_own (h : (locks layout p).Reachable c) {l₁ l₂ : List LockEntry} {a b : LockEntry}
    (hlog : c.log = l₁ ++ a :: l₂) {pk : String} {item item' : Item}
    {condition condition' : Condition}
    (ha : a.ev = ⟨.dynamo (.putItem pk item condition), .ok ()⟩) (hb : b ∈ l₁)
    (hbev : b.ev = ⟨.dynamo (.putItem pk item' condition'), .ok ()⟩)
    (hsame : b.post.removals pk = c.world.removals pk) :
    versionOf layout item' < versionOf layout item := by
  obtain ⟨-, hversion⟩ := acquired_put h (by simp [hlog]) ha
  obtain ⟨hput, -⟩ := acquired_put h (by simp [hlog, hb]) hbev
  have hbefore := ((evolves layout p pk).between h hlog b hb).2
  have hafter := ((evolves layout p pk).reaches h a (by simp [hlog])).1
  have hle₁ := hbefore.removals
  have hle₂ := hafter.removals
  obtain ⟨x, hx, hcase⟩ := hbefore.kept (by omega) item' (by rw [hput]; simp [World.put])
  rw [versionAt, hx] at hversion
  simp only [Option.map_some, Option.getD_some] at hversion
  rcases hcase with rfl | hlt <;> omega

/-- A release that takes effect on a lock that is held is that of its
holder. -/
theorem release_foreign (hc : (locks layout p).Reachable c) {i : Nat} {job : Job} {pk : String}
    {version : ℤ} {k : Reply (.dynamo (.deleteItem pk (.versionIs version))) → Handler Result}
    {r : Reply (.dynamo (.deleteItem pk (.versionIs version)))} {w : World}
    (hi : c.threads[i]? = some ⟨job, .ask _ k⟩)
    (hundisturbed : Undisturbed ⟨w, c.threads.set i ⟨job, k r⟩,
      c.log ++ [⟨i, c.world, ⟨_, r⟩, w⟩]⟩) (hcu : Undisturbed c)
    {l₁ l₂ : List LockEntry} {a : LockEntry} (hlog : c.log = l₁ ++ a :: l₂)
    {item : Item} {condition : Condition}
    (hev : a.ev = ⟨.dynamo (.putItem pk item condition), .ok ()⟩)
    (hlive : isExpiredItem layout c.world.now item = false)
    (hheld : ∀ t ∈ c.threads, ∀ k version, t.job ≠ .release a.tid k version)
    (htable : c.world.table pk = some item) (hbetween : ∀ b ∈ l₂, b.pre.table pk = some item)
    {holder : Nat} {key : String} (hjob : job = .release holder key version)
    (hpk : buildPk layout key = .ok pk) (hremove : w = c.world.remove pk)
    (hholds : (Condition.versionIs version).holds layout (c.world.table pk) = true) : False := by
  have hthread : (⟨job, .ask _ k⟩ : Thread Request Reply Job Result) ∈ c.threads :=
    List.mem_of_getElem? hi
  have hpermitted : permits c.threads job := hc.permitted permits_mono _ hthread
  rw [hjob] at hpermitted
  obtain ⟨value, opts, calls, record, hholder, hversion⟩ := hpermitted
  obtain ⟨b, hb, hbtid, pk', item', condition', hpk', hbev, rfl⟩ := acquired hc hholder
  rw [hpk] at hpk'
  cases hpk'
  have hne : holder ≠ a.tid := by
    rintro rfl
    exact hheld _ hthread key version hjob
  have hsame := hundisturbed.releases c.log _ [] rfl pk version rfl hremove ⟨job, k r⟩ holder key
    (List.getElem?_set_self (List.getElem?_eq_some_iff.mp hi).1) hjob b hb hbtid item' condition' hbev
  have hitem : versionOf layout item = version := by
    rw [htable] at hholds
    obtain ⟨old, hold, hold'⟩ := versionOf_of_holds hholds
    cases hold
    exact hold'
  rw [hlog] at hb
  rcases List.mem_append.mp hb with hb₁ | hb₂
  · -- the holder was there before: the lock has a higher version by now
    have hlt := release_own hc hlog hev hb₁ hbev hsame
    have hitem' : versionOf layout item' = version := hversion
    omega
  · rcases List.mem_cons.mp hb₂ with rfl | hb₂
    · exact hne hbtid.symm
    · -- the holder came later: it has overwritten a live record
      obtain ⟨m₁, m₂, rfl⟩ := List.append_of_mem hb₂
      have hlog' : c.log = (l₁ ++ a :: m₁) ++ b :: m₂ := by simp [hlog]
      have hput := (acquired_put hc (by simp [hlog']) hbev).1
      have hexpired := overwrites_expired hc hcu _ _ _ hlog' pk item' condition' (by rw [hbev])
        hput item (hbetween b hb₂)
      have hle := ((evolves layout p pk).reaches hc b (by simp [hlog'])).1.clock
      rw [isExpiredItem_mono hle hexpired] at hlive
      cases hlive

/-- No request takes a lock away that is held. -/
theorem kept_by_request (hc : (locks layout p).Reachable c) {i : Nat} {job : Job} {op : Request}
    {k : Reply op → Handler Result} {r : Reply op} {w : World}
    (hi : c.threads[i]? = some ⟨job, .ask op k⟩) (hserve : serve layout True c.world op r w)
    (hundisturbed : Undisturbed ⟨w, c.threads.set i ⟨job, k r⟩,
      c.log ++ [⟨i, c.world, ⟨op, r⟩, w⟩]⟩)
    {l₁ l₂ : List LockEntry} {a : LockEntry} (hlog : c.log = l₁ ++ a :: l₂) {pk : String}
    {item : Item} {condition : Condition}
    (hev : a.ev = ⟨.dynamo (.putItem pk item condition), .ok ()⟩)
    (hlive : isExpiredItem layout c.world.now item = false)
    (hheld : ∀ t ∈ c.threads, ∀ k version, t.job ≠ .release a.tid k version)
    (htable : c.world.table pk = some item) (hbetween : ∀ b ∈ l₂, b.pre.table pk = some item) :
    w.table pk = some item := by
  have hstep := System.Step.request (S := locks layout p) hi hserve
  have hd := hc.step hstep
  rcases serve_cases hserve with rfl | ⟨command, rfl, rfl⟩
  · exact htable
  · rcases World.change_cases c.world (effect layout c.world.table command) pk with
      hsame | ⟨change, heffect⟩
    · exact hsame.trans htable
    · obtain ⟨t, ht, hknows⟩ := hd.asked start_knows c.log _ [] rfl
      exfalso
      have hdone : c.world.carriedOut layout command = c.world.change (some (pk, change)) := by
        rw [World.carriedOut, heffect]
      cases effect_cases heffect with
      | updated _ => exact hknows.elim
      | put _ _ =>
          -- a live record would be overwritten
          have hexpired := overwrites_expired hd hundisturbed c.log _ [] rfl _ _ _
            rfl hdone item htable
          rw [show isExpiredItem layout c.world.now item = false from hlive] at hexpired
          cases hexpired
      | @deleted _ condition' hholds _ =>
          -- a lock that another holder has put would be removed
          cases condition' with
          | always => exact hknows.elim
          | notExists => exact hknows.elim
          | fresher _ => exact hknows.elim
          | versionIs version =>
              obtain ⟨holder, key, hjob, hpk⟩ := hknows
              have hself : (c.threads.set i ⟨job, k r⟩)[i]? = some ⟨job, k r⟩ :=
                List.getElem?_set_self (List.getElem?_eq_some_iff.mp hi).1
              cases hself.symm.trans ht
              exact release_foreign hc hi hundisturbed (hundisturbed.before hstep) hlog hev hlive
                hheld htable hbetween hjob hpk hdone hholds

/-- A lock stays in the table until it expires or its holder begins to
release it. -/
theorem persists (h : (locks layout p).Reachable c) (hundisturbed : Undisturbed c) :
    ∀ l₁ a l₂, c.log = l₁ ++ a :: l₂ → ∀ pk item condition,
      a.ev = ⟨.dynamo (.putItem pk item condition), .ok ()⟩ →
      isExpiredItem layout c.world.now item = false →
      (∀ t ∈ c.threads, ∀ k version, t.job ≠ .release a.tid k version) →
        c.world.table pk = some item ∧ ∀ b ∈ l₂, b.pre.table pk = some item := by
  induction h with
  | init _ => simp
  | @step c d hc hs ih =>
      have hd := hc.step hs
      have hcu := hundisturbed.before hs
      intro l₁ a l₂ hlog pk item condition hev hlive hheld
      cases hs with
      | spawn _ =>
          exact ih hcu l₁ a l₂ hlog pk item condition hev hlive
            fun t ht => hheld t (List.mem_append_left _ ht)
      | @drift w hdrift =>
          have hold := ih hcu l₁ a l₂ hlog pk item condition hev
          rcases hdrift with ⟨now, hle, rfl⟩ | ⟨-, pk', item', hitem', hexpired, rfl⟩
          · refine hold ?_ hheld
            by_contra hexpired
            have hexpired' : isExpiredItem layout c.world.now item = true := by
              simpa using hexpired
            rw [isExpiredItem_mono hle hexpired'] at hlive
            cases hlive
          · obtain ⟨htable, hbetween⟩ := hold hlive hheld
            refine ⟨?_, hbetween⟩
            have hpk : pk ≠ pk' := by
              rintro rfl
              rw [htable] at hitem'
              cases hitem'
              rw [show isExpiredItem layout c.world.now item = false from hlive] at hexpired
              cases hexpired
            exact (Table.erase_of_ne _ hpk).trans htable
      | @request i job op k r w hi hserve =>
          have hheldc : ∀ t ∈ c.threads, ∀ k version, t.job ≠ .release a.tid k version := by
            intro t ht
            obtain ⟨j, hj, rfl⟩ := List.getElem_of_mem ht
            obtain ⟨u, hu, hujob, -⟩ := (System.Step.request hi hserve).progress j _
              (List.getElem?_eq_getElem hj)
            rw [← hujob]
            exact hheld u (List.mem_of_getElem? hu)
          have hnow : w.now = c.world.now := by
            rcases serve_cases hserve with rfl | ⟨command, -, rfl⟩
            · rfl
            · exact World.change_now _ _
          rcases List.eq_nil_or_concat l₂ with rfl | ⟨l₃, x, rfl⟩
          · -- the lock has just been taken
            obtain ⟨rfl, ha⟩ := List.append_inj' hlog rfl
            cases ha
            obtain ⟨hput, -⟩ := acquired_put hd (by simp) hev
            refine ⟨?_, by simp⟩
            simp only at hput
            rw [hput]
            simp [World.put]
          · rw [List.concat_eq_append, ← List.cons_append, ← List.append_assoc] at hlog
            obtain ⟨hlogc, hx⟩ := List.append_inj' hlog rfl
            cases hx
            have hlivec : isExpiredItem layout c.world.now item = false := by
              rw [← hnow]
              exact hlive
            obtain ⟨htable, hbetween⟩ := ih hcu l₁ a l₃ hlogc pk item condition hev hlivec hheldc
            refine ⟨?_, ?_⟩
            · exact kept_by_request hc hi hserve hundisturbed hlogc hev hlivec hheldc htable hbetween
            · intro b hb
              rw [List.concat_eq_append] at hb
              rcases List.mem_append.mp hb with hb | hb
              · exact hbetween b hb
              · rw [List.mem_singleton.mp hb]
                exact htable

theorem holds_unique (h : (locks layout p).Reachable c) (hundisturbed : Undisturbed c)
    {key pk : String} {l₁ l₂ : List LockEntry} {a b : LockEntry} (hlog : c.log = l₁ ++ a :: l₂)
    {item item' : Item} {condition condition' : Condition}
    (ha : a.ev = ⟨.dynamo (.putItem pk item condition), .ok ()⟩) (hb : b ∈ l₂)
    (hbev : b.ev = ⟨.dynamo (.putItem pk item' condition'), .ok ()⟩)
    (hholds : Holds c a.tid key (toRecord layout p item)) : False := by
  obtain ⟨-, hlive, hheld⟩ := hholds
  have hunexpired : isExpiredItem layout c.world.now item = false := by
    rw [isExpiredItem, ← Bool.not_eq_true, Option.any_eq_true]
    rintro ⟨e, he, hexpired⟩
    exact hlive e he (of_decide_eq_true hexpired)
  have htable := (persists h hundisturbed l₁ a l₂ hlog pk item condition ha hunexpired hheld).2 b hb
  obtain ⟨m₁, m₂, rfl⟩ := List.append_of_mem hb
  have hlog' : c.log = (l₁ ++ a :: m₁) ++ b :: m₂ := by simp [hlog]
  have hput := (acquired_put h (by simp [hlog']) hbev).1
  have hexpired := overwrites_expired h hundisturbed _ _ _ hlog' pk item' condition'
    (by rw [hbev]) hput item htable
  have hle := ((evolves layout p pk).reaches h b (by simp [hlog'])).1.clock
  rw [isExpiredItem_mono hle hexpired] at hunexpired
  cases hunexpired

/-- In every run in which no item is removed at the wrong moment, no live
record is overwritten and a lock has one holder at most. -/
theorem locks_safe (h : (locks layout p).Reachable c) (hundisturbed : Undisturbed c) :
    LockSafe layout c := by
  constructor
  · intro e he
    obtain ⟨l₁, l₂, hlog⟩ := List.append_of_mem he
    exact overwrites_expired h hundisturbed l₁ e l₂ hlog
  · intro key i j record record' hi hj
    by_contra hne
    obtain ⟨value, opts, calls, hthread⟩ := hi.1
    obtain ⟨value', opts', calls', hthread'⟩ := hj.1
    obtain ⟨a, ha, rfl, pk, item, condition, hpk, hev, rfl⟩ := acquired h hthread
    obtain ⟨b, hb, rfl, pk', item', condition', hpk', hev', rfl⟩ := acquired h hthread'
    rw [hpk] at hpk'
    cases hpk'
    -- one of the two puts was the first
    obtain ⟨l₁, l₂, hlog⟩ := List.append_of_mem ha
    rw [hlog] at hb
    rcases List.mem_append.mp hb with hb₁ | hb₂
    · obtain ⟨m₁, m₂, rfl⟩ := List.append_of_mem hb₁
      have hlog' : c.log = m₁ ++ b :: (m₂ ++ a :: l₂) := by simp [hlog]
      exact holds_unique h hundisturbed hlog' hev' (by simp) hev hj
    · rcases List.mem_cons.mp hb₂ with rfl | hb₂
      · exact hne rfl
      · exact holds_unique h hundisturbed hlog hev hb₂ hev' hi

end Runs

/-! ## Two small runs -/

def permitted (threads : List (Thread Request Reply Job Result)) : Job → Bool
  | .acquire _ _ _ _ => true
  | .release holder key version =>
      match threads[holder]? with
      | some ⟨.acquire key' _ _ _, .ret (.cas true (some record))⟩ =>
          key' == key && record.version == version
      | _ => false

theorem permitted_sound (threads : List (Thread Request Reply Job Result)) (job : Job)
    (h : permitted threads job = true) : permits threads job := by
  cases job with
  | acquire _ _ _ _ => trivial
  | release holder key version =>
      simp only [permitted] at h
      split at h
      · rename_i key' value opts calls record hthread
        rw [Bool.and_eq_true, beq_iff_eq, beq_iff_eq] at h
        obtain ⟨rfl, hversion⟩ := h
        exact ⟨value, opts, calls, record, hthread, hversion⟩
      · cases h

/-- No item had been removed when a takeover or a release was asked for. -/
def neverRemoved (c : LockConfig) : Bool :=
  c.log.all fun e => match e.ev.op with
    | .dynamo (.putItem pk _ _) => e.pre.removals pk == 0
    | .dynamo (.deleteItem pk _) => e.pre.removals pk == 0
    | _ => true

theorem neverRemoved_undisturbed {layout : DynamoKvLayout} {p : Platform} {c : LockConfig}
    (h : (locks layout p).Reachable c) (hnever : neverRemoved c = true) : Undisturbed c := by
  constructor
  · intro l₁ w l₂ hlog pk item version hop _ r hlast
    have hzero := List.all_eq_true.mp hnever w (by simp [hlog])
    rw [hop, beq_iff_eq] at hzero
    obtain ⟨-, -, m₁, m₂, rfl, -⟩ := hlast
    have := ((evolves layout p pk).between h hlog r (by simp)).1.removals
    omega
  · intro l₁ w l₂ hlog pk version hop _ t holder key _ _ a ha _ item condition _
    have hzero := List.all_eq_true.mp hnever w (by simp [hlog])
    rw [hop, beq_iff_eq] at hzero
    have := ((evolves layout p pk).between h hlog a ha).2.removals
    omega

/-- The last put has overwritten a live record. -/
def overwroteLive (layout : DynamoKvLayout) (c : LockConfig) : Bool :=
  match c.log.getLast? with
  | some ⟨_, pre, ⟨.dynamo (.putItem pk _ _), _⟩, post⟩ =>
      (pre.past pk).length != (post.past pk).length &&
        (pre.table pk).any fun old => !isExpiredItem layout pre.now old
  | _ => false

theorem overwroteLive_unsafe {layout : DynamoKvLayout} {p : Platform} {c : LockConfig}
    (h : (locks layout p).Reachable c) (hlive : overwroteLive layout c = true) :
    ¬ LockSafe layout c := by
  intro hsafe
  unfold overwroteLive at hlive
  split at hlive
  · rename_i tid pre pk item condition res post hlast
    rw [Bool.and_eq_true, bne_iff_ne, Option.any_eq_true] at hlive
    obtain ⟨hlength, old, hold, hunexpired⟩ := hlive
    have hmem := List.mem_of_getLast? hlast
    have hserve : serve layout True pre (.dynamo (.putItem pk item condition)) res post :=
      h.served _ hmem
    have hput : post = pre.put pk item := by
      rcases serve_cases hserve with rfl | ⟨command, hcommand, rfl⟩
      · exact absurd rfl hlength
      · cases hcommand
        simp only [World.carriedOut, effect] at hlength ⊢
        split
        · rename_i hempty
          simp [hempty, World.change] at hlength
        · split
          · rfl
          · rename_i hempty hholds
            simp [hempty, hholds, World.change] at hlength
    have hexpired := hsafe.overwrites _ hmem pk item condition rfl hput old hold
    simp [hexpired] at hunexpired
  · cases hlive

namespace Small

open Kv.Small

def lock (expiresAt : ℚ) : Job := .acquire "job" noFields (expires expiresAt) 1

abbrev Schedule := List (Turn Job Delivery Move)

/-- The next `n` requests of a thread are answered. -/
def answers (i n : Nat) : Schedule := List.replicate n (.answer i .answered)

def schedules := responder layout (start layout platform) permits permitted permitted_sound

/-- A lock expires, is taken over and released; a third caller is
refused. -/
def takeover : Schedule :=
  [.spawn (lock 1)] ++ answers 0 2 ++ [.drift (.clock 5000), .spawn (lock 100)] ++ answers 1 5 ++
    [.spawn (lock 200)] ++ answers 2 4 ++ [.spawn (.release 1 "job" 2)] ++ answers 3 1

theorem locks_safe_takeover : ∃ c, (locks layout platform).Reachable c ∧ c.log.length = 12 ∧
    LockSafe layout c := by
  obtain ⟨c, hc, hchecks⟩ := schedules.exists_reachable (w := emptyWorld 0) ⟨0, rfl⟩ takeover
    (fun c => neverRemoved c && c.log.length == 12) (by decide +kernel)
  obtain ⟨hnever, hlength⟩ := Bool.and_eq_true_iff.mp hchecks
  exact ⟨c, hc, beq_iff_eq.mp hlength, locks_safe hc (neverRemoved_undisturbed hc hnever)⟩

/-- The second caller reads the expired lock; DynamoDB deletes it, the third
caller takes it anew, and the second takes over what it has not read. -/
def staleTakeover : Schedule :=
  [.spawn (lock 1)] ++ answers 0 2 ++ [.drift (.clock 5000), .spawn (lock 100)] ++ answers 1 4 ++
    [.drift (.expire "LOCK#job"), .spawn (lock 200)] ++ answers 2 2 ++ answers 1 1

theorem locks_safe_fails : ¬ ∀ layout p c, (locks layout p).Reachable c → LockSafe layout c := by
  intro hall
  obtain ⟨c, hc, hlive⟩ := schedules.exists_reachable (w := emptyWorld 0) ⟨0, rfl⟩ staleTakeover
    (overwroteLive layout) (by decide +kernel)
  exact overwroteLive_unsafe hc hlive (hall _ _ c hc)

end Small

end SaasFoundation.Foundation.Kv.Locks
