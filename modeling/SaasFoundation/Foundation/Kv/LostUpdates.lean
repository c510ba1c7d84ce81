import SaasFoundation.Foundation.Kv.Encoding
import SaasFoundation.Foundation.Kv.DynamoRuns
import SaasFoundation.Foundation.Kv.PostgresSystem
import SaasFoundation.Lib.Revisions

/-!
# No update is lost

Clients that read, create, replace by version and count, on one table and at
once. Nothing is removed and nobody writes without looking, so a version is
that of one record for good; a write that expects it replaces that record.

Clocks may show anything and answers may be lost: the versions do not depend
on either.
-/

namespace SaasFoundation.Foundation.Kv.LostUpdates

open Lib

/-- No plain `put`, no `putIfFresher`, nothing that removes. -/
def Allowed (reserved : List String) : Op → Prop
  | .get _ _ _ => True
  | .putIfAbsent _ _ _ => True
  | .compareAndSet _ _ _ _ => True
  | .increment _ field _ _ => field ∉ reserved
  | _ => False

abbrev Job (reserved : List String) := {op : Op // Allowed reserved op}

/-- The key of a write that expects no record. -/
def creates : Op → Option String
  | .putIfAbsent key _ _ => some key
  | .compareAndSet key expectedVersion _ _ => if expectedVersion = 0 then some key else none
  | _ => none

/-- How an adapter keeps its records. -/
structure Durable (Rq : Type) (Rs : Rq → Type) (W R F : Type) extends
    Revisions Rq W String R F where
  rowKey : String → String
  stored : W → String → Option R
  /-- A record that a caller is given of this row. -/
  shows : KvRecord → R → Prop
  /-- A caller with this past has found the row to be expired. -/
  foundExpired : List (Event Rq Rs) → String → R → Prop

section Safe

variable {Rq : Type} {Rs : Rq → Type} {W R F : Type} {reserved : List String}

/-- The row that is stored is the last one of the history. -/
def Durable.Stores (A : Durable Rq Rs W R F) (w : W) : Prop :=
  ∀ k, A.stored w k = (A.history w k).head?

structure Safe [DecidableEq F] (A : Durable Rq Rs W R F) (c : Config Rq Rs W (Job reserved) Result) : Prop where
  updates : A.NoLostUpdate c
  stores : A.Stores c.world ∧ ∀ e ∈ c.log, A.Stores e.pre ∧ A.Stores e.post
  /-- A write by version has replaced the row of that version, and every
  record of the version that anyone was given is one of this row. -/
  replaces : ∀ i key version value opts h written,
    c.threads[i]? = some ⟨⟨.compareAndSet key version value opts, h⟩, .ret (.cas true written)⟩ →
    version ≠ 0 → ∃ old new, A.Replaced c i (A.rowKey key) (some old) new ∧
      A.version old = version ∧ (∀ record, written = some record → A.shows record new) ∧
      ∀ (j : Nat) (job : Job reserved) (result : Result) record,
        c.threads[j]? = some ⟨job, .ret result⟩ → job.val.key = some key →
        result.record = some record → record.version = version → A.shows record old
  /-- A write that expects no record has replaced none, or the row that it
  has found to be expired. -/
  creates : ∀ i job key written, c.threads[i]? = some ⟨job, .ret (.cas true written)⟩ →
    creates job.val = some key → ∃ old new, A.Replaced c i (A.rowKey key) old new ∧
      (∀ record, written = some record → A.shows record new) ∧
      ∀ row, old = some row → A.foundExpired (localLog c.log i) (A.rowKey key) row

end Safe

/-! ## DynamoDB -/

section Dynamo

open DynamoKvStore

variable (layout : DynamoKvLayout) (p : Platform)

def dynamo : Durable Request Reply World Item {field : String // field ∉ layout.reserved} where
  history := World.past
  version := versionOf layout
  counter := fun item field => counterOf item field.val
  adds := fun
    | .dynamo (.updateItem pk field delta _) =>
        if h : field ∉ layout.reserved then some (pk, ⟨field, h⟩, delta) else none
    | _ => none
  rowKey := pkOf layout
  stored := World.table
  shows := fun record item => record = toRecord layout p item
  foundExpired := fun past pk item => ⟨.dynamo (.getItem pk true), .ok (some item)⟩ ∈ past ∧
    ∃ now, ⟨.now, now⟩ ∈ past ∧ isExpiredItem layout now item = true

/-- Every client has a clock of its own, which may show anything. -/
def anyClock (w : World) : (op : Request) → Reply op → World → Prop
  | .now, _, w' => w' = w
  | .dynamo command, reply, w' => serve layout True w (.dynamo command) reply w'

def dynamoClients (calls : Nat) :
    System Request Reply World (Job layout.reserved) Result where
  start := fun job => start layout p calls job.val
  permits := fun _ _ => True
  serve := anyClock layout
  drift := fun _ _ => False
  init := fun w => ∃ now, w = emptyWorld now

/-- The item that is there is the one that was put last. -/
def Current (w : World) : Prop := ∀ pk, w.table pk = (w.past pk).head?

variable {layout p} {calls : Nat}

theorem anyClock_cases {w w' : World} {op : Request} {r : Reply op}
    (h : anyClock layout w op r w') :
    w' = w ∨ ∃ command, op = .dynamo command ∧ w' = w.carriedOut layout command := by
  cases op with
  | now => exact .inl h
  | dynamo command => exact serve_cases h

/-- An update adds to no other field of the value. -/
theorem counterOf_updated_of_ne {pk field : String} {delta : ℚ} {expiresAt : Option ℚ}
    {existing : Option Item} {item : Item}
    (h : updated layout pk field delta expiresAt existing = .ok item) {name : String}
    (hname : name ∉ layout.reserved) (hne : name ≠ field) :
    counterOf item name = (existing.map fun old => counterOf old name).getD (some 0) := by
  obtain ⟨added, bumped, hadded, hbumped, hitem⟩ := updated_cases h
  have hversion : name ≠ layout.versionAttr := by
    rintro rfl
    exact hname (by simp [DynamoKvLayout.reserved, reservedOf])
  have httl : name ≠ layout.ttlAttr := by
    rintro rfl
    exact hname (by simp [DynamoKvLayout.reserved, reservedOf])
  have hitem' : item name = existing.getD (keyItem layout pk) name := by
    rw [← addTo_of_ne hadded hne, ← addTo_of_ne hbumped hversion]
    rcases hitem with ⟨-, rfl⟩ | ⟨e, -, -, rfl⟩
    · rfl
    · exact Fields.set_of_ne _ _ httl
  unfold counterOf
  rw [hitem']
  cases existing with
  | none => simp [keyItem_free (.inl hname)]
  | some old => rfl

theorem effect_removes {table : DynamoTable} {command : Command} {pk : String}
    (h : effect layout table command = some (pk, none)) :
    ∃ condition, command = .deleteItem pk condition := by
  cases effect_cases h with
  | @deleted _ condition _ _ => exact ⟨condition, rfl⟩

theorem versionAt_current {w : World} (hw : Current w) (pk : String) :
    (dynamo layout p).versionAt w pk = versionAt layout w pk := by
  unfold Revisions.versionAt versionAt
  rw [hw pk]
  rfl

theorem counterAt_current {w : World} (hw : Current w) (pk : String)
    (name : {field : String // field ∉ layout.reserved}) :
    (dynamo layout p).counterAt w pk name =
      ((w.table pk).map fun old => counterOf old name.val).getD (some 0) := by
  have hpast : (dynamo layout p).history w pk = w.past pk := rfl
  unfold Revisions.counterAt
  rw [hw pk, hpast]
  cases (w.past pk).head? <;> rfl

/-- A put of the next version is a revision of its key. -/
theorem put_revises {w : World} {command : Command} {pk : String} {item : Item} (hw : Current w)
    (hop : Versioned layout (.dynamo command))
    (heffect : effect layout w.table command = some (pk, some item)) :
    (dynamo layout p).Revises (.dynamo command) w (w.put pk item) pk item where
  history := by simp [dynamo, World.put]
  version := by
    rw [versionAt_current hw]
    exact effect_version hop heffect
  adds := by
    intro pk' field δ hadds
    cases command with
    | updateItem pk'' field' delta expiresAt =>
        have hfree : field' ∉ layout.reserved := hop
        simp only [dynamo, hfree, not_false_eq_true, dite_true, Option.some.injEq,
          Prod.mk.injEq] at hadds
        obtain ⟨rfl, rfl, rfl⟩ := hadds
        cases effect_cases heffect with
        | updated hupdated =>
            refine ⟨rfl, fun name => ?_⟩
            rw [counterAt_current hw, counterAt_current hw]
            by_cases hname : name = ⟨field', hfree⟩
            · subst hname
              rw [if_pos rfl]
              exact counterOf_updated hupdated
            · rw [if_neg hname]
              exact counterOf_updated_of_ne hupdated name.property fun h => hname (Subtype.ext h)
    | _ => cases hadds

theorem start_writing (job : Job layout.reserved) :
    (start layout p calls job.val).Uses (Writing layout) := by
  obtain ⟨op, hop⟩ := job
  cases op with
  | get key consistent includeExpired => exact get_writing key consistent includeExpired
  | putIfAbsent key value opts => exact putIfAbsent_writing key value opts calls
  | compareAndSet key expectedVersion value opts =>
      exact compareAndSet_writing key expectedVersion value opts
  | increment key field delta opts => exact increment_writing hop key delta opts
  | _ => exact hop.elim

theorem dynamo_keeps :
    (dynamo layout p).Keeps (dynamoClients layout p calls) (Writing layout) Current where
  uses := start_writing
  init := by
    rintro _ ⟨now, rfl⟩
    exact ⟨fun _ => rfl, fun _ => rfl⟩
  serve := by
    intro w op r w' hw hop hserve
    rcases anyClock_cases hserve with rfl | ⟨command, rfl, rfl⟩
    · exact ⟨hw, fun _ => .inl rfl⟩
    · unfold World.carriedOut
      cases heffect : effect layout w.table command with
      | none => exact ⟨hw, fun _ => .inl rfl⟩
      | some change =>
          obtain ⟨pk, _ | item⟩ := change
          · obtain ⟨condition, rfl⟩ := effect_removes heffect
            exact absurd rfl (hop.2 pk condition)
          · refine ⟨?_, ?_⟩
            · intro pk'
              by_cases hpk : pk' = pk
              · subst hpk
                simp [World.change, World.put]
              · simp [World.change, World.put, Table.put_of_ne _ _ hpk, hpk, hw pk']
            · intro pk'
              by_cases hpk : pk' = pk
              · subst hpk
                exact .inr ⟨item, put_revises hw hop.1 heffect⟩
              · left
                simp [dynamo, World.change, World.put, hpk]
  drift := fun _ _ _ h => h.elim

variable {c : Config Request Reply World (Job layout.reserved) Result}

/-- An acknowledged put has replaced what met its condition. -/
theorem put_replaced (h : (dynamoClients layout p calls).Reachable c) {i : Nat} {pk : String}
    {item : Item} {condition : Condition}
    (hmem : ⟨.dynamo (.putItem pk item condition), .ok ()⟩ ∈ localLog c.log i) :
    ∃ old, (dynamo layout p).Replaced c i pk old item ∧ condition.holds layout old = true := by
  obtain ⟨e, he, hi, hev⟩ := mem_localLog.mp hmem
  have hserve : anyClock layout e.pre e.ev.op e.ev.res e.post := h.served e he
  rw [hev] at hserve
  have hput := put_ok hserve
  have hcurrent := (dynamo_keeps.entry h he).1 pk
  refine ⟨_, ⟨e, he, hi, rfl, ?_⟩, ?_⟩
  · rw [hput]
    simp [dynamo, World.put]
  · rw [show (dynamo layout p).history e.pre pk = e.pre.past pk from rfl, ← hcurrent]
    exact put_holds hserve hput

/-- What was read or written is part of the history for good. -/
theorem met_past (h : (dynamoClients layout p calls).Reachable c) {i : Nat} {pk : String}
    {item : Item} (hmet : Met pk item (localLog c.log i)) :
    item ∈ (dynamo layout p).history c.world pk := by
  rcases hmet with ⟨consistent, hmem⟩ | ⟨condition, hmem⟩
  · obtain ⟨e, he, hi, hev⟩ := mem_localLog.mp hmem
    have hserve : anyClock layout e.pre e.ev.op e.ev.res e.post := h.served e he
    rw [hev] at hserve
    obtain ⟨hanswer, hpost⟩ := serve_ok hserve
    have hcurrent := (dynamo_keeps.entry h he).1 pk
    have hthere : e.pre.table pk = some item → item ∈ e.pre.past pk := by
      intro htable
      rw [hcurrent] at htable
      exact List.mem_of_mem_head? htable
    apply (dynamo_keeps.grows h e he pk).subset
    rw [hpost]
    show item ∈ e.pre.past pk
    cases consistent with
    | true => exact hthere (Except.ok.inj hanswer).symm
    | false =>
        obtain ⟨found, hfound, hlag⟩ := hanswer
        cases hfound
        rcases hlag with hlag | hlag | ⟨old, hold, hlag⟩
        · exact hthere hlag.symm
        · cases hlag
        · cases hlag
          exact hold
  · obtain ⟨e, he, hi, hev⟩ := mem_localLog.mp hmem
    have hserve : anyClock layout e.pre e.ev.op e.ev.res e.post := h.served e he
    rw [hev] at hserve
    apply (dynamo_keeps.grows h e he pk).subset
    rw [put_ok hserve]
    simp [dynamo, World.put]

theorem start_met {job : Job layout.reserved} {es : List (Event Request Reply)} {result : Result}
    {record : KvRecord} {key : String} (h : (start layout p calls job.val).Finishes es result)
    (hkey : job.val.key = some key) (hrecord : result.record = some record) :
    ∃ item, record = toRecord layout p item ∧ Met (pkOf layout key) item es := by
  have hmet : ∃ pk item, buildPk layout key = .ok pk ∧ record = toRecord layout p item ∧
      Met pk item es := by
    obtain ⟨op, hop⟩ := job
    cases op with
    | get key' consistent includeExpired =>
        cases hkey
        exact get_met h hrecord
    | putIfAbsent key' value opts =>
        cases hkey
        exact putIfAbsent_met h hrecord
    | compareAndSet key' expectedVersion value opts =>
        cases hkey
        exact compareAndSet_met h hrecord
    | increment key' field delta opts =>
        -- a number, and no record
        exfalso
        replace h : (increment layout p key' field delta opts).Finishes es result := h
        unfold increment at h
        split at h
        · obtain ⟨-, rfl⟩ := Prog.finishes_ret.mp h
          cases hrecord
        · obtain ⟨now, es₁, rfl, hrest⟩ := Prog.finishes_ask.mp h
          rcases checked_finishes hrest with ⟨pk, -, hsend⟩ | ⟨e, rfl⟩
          · rcases attempt_finishes hsend with ⟨es₂, es₃, attrs, rfl, -, hret⟩ | ⟨e, -, rfl⟩
            · obtain ⟨-, rfl⟩ := Prog.finishes_ret.mp hret
              cases hrecord
            · cases hrecord
          · cases hrecord
    | _ => exact hop.elim
  obtain ⟨pk, item, hpk, hitem, hmet⟩ := hmet
  rw [buildPk_eq hpk] at hmet
  exact ⟨item, hitem, hmet⟩

theorem dynamo_safe (h : (dynamoClients layout p calls).Reachable c) :
    Safe (dynamo layout p) c where
  updates := dynamo_keeps.noLostUpdate h
  stores := by
    refine ⟨dynamo_keeps.invariant h, fun e he => ?_⟩
    obtain ⟨hpre, hpost, -⟩ := dynamo_keeps.entry h he
    exact ⟨hpre, hpost⟩
  replaces := by
    intro i key version value opts hjob written ht hne
    obtain ⟨pk, item, hpk, rfl, hmem⟩ := compareAndSet_applied (h.local_run i _ ht)
    rw [buildPk_eq hpk, if_neg hne] at hmem
    obtain ⟨old, hreplaced, hholds⟩ := put_replaced h hmem
    obtain ⟨row, rfl, hversion⟩ := versionOf_of_holds hholds
    refine ⟨row, item, hreplaced, hversion, fun _ hrecord => (Option.some.inj hrecord).symm, ?_⟩
    intro j job result record hj hkey hrecord hsame
    obtain ⟨seen, rfl, hmet⟩ := start_met (h.local_run j _ hj) hkey hrecord
    have hrow : seen = row := dynamo_keeps.determined h (met_past h hmet)
      (dynamo_keeps.replaced_mem h hreplaced) (hsame.trans hversion.symm)
    rw [hrow]
    rfl
  creates := by
    intro i job key written ht hcreates
    obtain ⟨op, hop⟩ := job
    cases op with
    | putIfAbsent key' value opts =>
        cases hcreates
        obtain ⟨pk, item, condition, hpk, rfl, hmem, hover⟩ :=
          putIfAbsent_applied (h.local_run i _ ht)
        rw [buildPk_eq hpk] at hmem hover
        obtain ⟨old, hreplaced, hholds⟩ := put_replaced h hmem
        refine ⟨old, item, hreplaced, fun _ hrecord => (Option.some.inj hrecord).symm, ?_⟩
        rintro row rfl
        rcases hover with rfl | ⟨current, now, rfl, hread, hnow, hexpired⟩
        · simp [Condition.holds] at hholds
        · obtain ⟨row', hrow', hversion⟩ := versionOf_of_holds hholds
          cases hrow'
          have hsame : row = current := dynamo_keeps.determined h
            (dynamo_keeps.replaced_mem h hreplaced) (met_past h (.inl ⟨true, hread⟩)) hversion
          rw [hsame]
          exact ⟨hread, now, hnow, hexpired⟩
    | compareAndSet key' expectedVersion value opts =>
        simp only [LostUpdates.creates, Option.ite_none_right_eq_some, Option.some.injEq] at hcreates
        obtain ⟨rfl, rfl⟩ := hcreates
        obtain ⟨pk, item, hpk, rfl, hmem⟩ := compareAndSet_applied (h.local_run i _ ht)
        rw [buildPk_eq hpk, if_pos rfl] at hmem
        obtain ⟨old, hreplaced, hholds⟩ := put_replaced h hmem
        refine ⟨old, item, hreplaced, fun _ hrecord => (Option.some.inj hrecord).symm, ?_⟩
        rintro row rfl
        simp [Condition.holds] at hholds
    | _ => cases hcreates

end Dynamo

/-! ## Postgres -/

section Postgres

open PostgresKvStore

variable (p : Platform)

def postgres : Durable Sql.Request Sql.Reply Sql.World KvRow String where
  history := Sql.World.past
  version := KvRow.version
  counter := fun row field => (numeric p row.value field).toOption
  adds := fun
    | .sql (.add key field delta _) => some (key, field, delta)
    | _ => none
  rowKey := id
  stored := Sql.World.rows
  -- what was just written is given back as the caller has passed it
  shows := fun record row => record.version = row.version ∧
    (record = rowToRecord p row ∨ record.value = row.value)
  foundExpired := fun past _ row => ∃ now, ⟨.now, now⟩ ∈ past ∧ isExpired now row = true

def postgresClients : System Sql.Request Sql.Reply Sql.World (Job []) Result :=
  Sql.sqlSystem p fun job => Sql.start p job.val

/-- Requests that remove nothing. -/
def KeepsRows (op : Sql.Request) : Prop :=
  ∀ key expectedVersion, op ≠ .sql (.delete key expectedVersion)

/-- The row that is there is the one that was written last. -/
def LastRow (w : Sql.World) : Prop := ∀ key, w.rows key = (w.past key).head?

variable {p}

theorem find_keepsRows (key : String) (f : Option KvRecord → Result) :
    (Sql.find p key f).Uses KeepsRows :=
  Sql.find_uses (fun _ _ h => nomatch h) fun _ _ _ h => nomatch h

theorem appliedCas_keepsRows (key : String) (value : Fields) (expiry : Option ℚ)
    (written : Option ℤ) : (Sql.appliedCas p key value expiry written).Uses KeepsRows :=
  Sql.appliedCas_uses (fun _ _ h => nomatch h) (fun _ _ _ h => nomatch h) written

theorem putIfAbsent_keepsRows (key : String) (value : Fields) (opts : KvWriteOptions) :
    (Sql.putIfAbsent p key value opts).Uses KeepsRows := by
  refine ⟨fun _ _ h => (nomatch h), fun _ => ⟨fun _ _ h => (nomatch h), fun _ => ?_⟩⟩
  refine Sql.withExpiry_uses fun _ => Sql.query_uses (fun _ _ h => nomatch h) fun written => ?_
  exact appliedCas_keepsRows key value _ written

theorem start_keepsRows (job : Job []) : (Sql.start p job.val).Uses KeepsRows := by
  obtain ⟨op, hop⟩ := job
  cases op with
  | get key consistent includeExpired =>
      show (Sql.get p key includeExpired).Uses KeepsRows
      unfold Sql.get
      split
      · exact Sql.query_uses (fun _ _ h => nomatch h) fun _ => trivial
      · exact find_keepsRows key _
  | putIfAbsent key value opts => exact putIfAbsent_keepsRows key value opts
  | compareAndSet key expectedVersion value opts =>
      show (Sql.compareAndSet p key expectedVersion value opts).Uses KeepsRows
      unfold Sql.compareAndSet
      split
      · exact putIfAbsent_keepsRows key value opts
      · refine ⟨fun _ _ h => (nomatch h), fun _ => ⟨fun _ _ h => (nomatch h), fun _ => ?_⟩⟩
        refine Sql.withExpiry_uses fun _ => Sql.query_uses (fun _ _ h => nomatch h) fun written => ?_
        exact appliedCas_keepsRows key value _ written
  | increment key field delta opts =>
      show (Sql.increment p key field delta opts).Uses KeepsRows
      unfold Sql.increment
      split
      · trivial
      · exact ⟨fun _ _ h => (nomatch h), fun _ => Sql.withExpiry_uses fun _ =>
          Sql.query_uses (fun _ _ h => nomatch h) fun _ => trivial⟩
  | _ => exact hop.elim

/-- `jsonb_set` of the sum. -/
theorem numeric_set (value : Fields) (field name : String) (n : ℚ) :
    (numeric p (value.set field (.num n)) name).toOption =
      if name = field then some n else (numeric p value name).toOption := by
  unfold numeric
  by_cases hname : name = field
  · subst hname
    simp [Fields.set_self, Except.toOption]
  · rw [Fields.set_of_ne _ _ hname, if_neg hname]

theorem counterAt_lastRow {w : Sql.World} (hw : LastRow w) (key field : String) :
    (postgres p).counterAt w key field =
      ((w.rows key).map fun row => (numeric p row.value field).toOption).getD (some 0) := by
  have hpast : (postgres p).history w key = w.past key := rfl
  unfold Revisions.counterAt
  rw [hw key, hpast]
  cases (w.past key).head? <;> rfl

theorem row_revises {w : Sql.World} {statement : Sql.Statement} {key : String} {row : KvRow}
    (hw : LastRow w) (hchange : (Sql.carryOut p w.rows statement).2 = some (key, some row)) :
    (postgres p).Revises (.sql statement) w (w.change (some (key, some row))) key row where
  history := by simp [postgres, Sql.World.change]
  version := by
    have hversion := Sql.carryOut_version hchange
    rw [hw key] at hversion
    exact hversion
  adds := by
    intro key' field δ hadds
    cases statement with
    | add key'' field' delta expiresAt =>
        cases hadds
        simp only [Sql.carryOut] at hchange
        split at hchange
        · rename_i hnone
          cases hchange
          refine ⟨rfl, fun name => ?_⟩
          rw [counterAt_lastRow hw, counterAt_lastRow hw, hnone]
          show (numeric p (Fields.set _ field (.num δ)) name).toOption = _
          rw [numeric_set]
          by_cases hname : name = field
          · simp [hname]
          · simp [hname, numeric, Except.toOption]
        · rename_i old hold
          split at hchange
          · cases hchange
          · rename_i n hn
            cases hchange
            refine ⟨rfl, fun name => ?_⟩
            rw [counterAt_lastRow hw, counterAt_lastRow hw, hold]
            show (numeric p (old.value.set field (.num (n + δ))) name).toOption = _
            rw [numeric_set]
            by_cases hname : name = field
            · simp [hname, hn, Except.toOption]
            · simp [hname]
    | _ => cases hadds

theorem postgres_keeps : (postgres p).Keeps (postgresClients p) KeepsRows LastRow where
  uses := start_keepsRows
  init := by
    rintro _ rfl
    exact ⟨fun _ => rfl, fun _ => rfl⟩
  serve := by
    intro w op r w' hw hop hserve
    rcases Sql.serve_cases hserve with rfl | ⟨statement, rfl, rfl⟩
    · exact ⟨hw, fun _ => .inl rfl⟩
    · unfold Sql.World.carriedOut
      cases hchange : (Sql.carryOut p w.rows statement).2 with
      | none => exact ⟨hw, fun _ => .inl rfl⟩
      | some change =>
          obtain ⟨key, _ | row⟩ := change
          · obtain ⟨expectedVersion, rfl⟩ := Sql.carryOut_removes hchange
            exact absurd rfl (hop key expectedVersion)
          · refine ⟨?_, ?_⟩
            · intro key'
              by_cases hkey : key' = key
              · subst hkey
                simp [Sql.World.change]
              · simp [Sql.World.change, Table.put_of_ne _ _ hkey, hkey, hw key']
            · intro key'
              by_cases hkey : key' = key
              · subst hkey
                exact .inr ⟨row, row_revises hw hchange⟩
              · left
                simp [postgres, Sql.World.change, hkey]
  drift := fun _ _ _ h => h.elim

variable {c : Config Sql.Request Sql.Reply Sql.World (Job []) Result}

/-- A statement that was answered was carried out. -/
theorem answered (h : (postgresClients p).Reachable c) {i : Nat} {statement : Sql.Statement}
    {a : Sql.Rows statement} (hmem : ⟨.sql statement, .ok a⟩ ∈ localLog c.log i) :
    ∃ e ∈ c.log, e.tid = i ∧ (Sql.carryOut p e.pre.rows statement).1 = .ok a ∧
      e.post = e.pre.change (Sql.carryOut p e.pre.rows statement).2 ∧ LastRow e.pre := by
  obtain ⟨e, he, hi, hev⟩ := mem_localLog.mp hmem
  have hserve : Sql.serve p e.pre e.ev.op e.ev.res e.post := h.served e he
  rw [hev] at hserve
  obtain ⟨hanswer, hpost⟩ := Sql.serve_ok hserve
  exact ⟨e, he, hi, hanswer, hpost, (postgres_keeps.entry h he).1⟩

theorem upsert_replaced (h : (postgresClients p).Reachable c) {i : Nat} {key : String}
    {condition : Sql.RowCondition} {value : Fields} {expiresAt : Option ℤ}
    {indexedKey : Option String} {version : ℤ}
    (hmem : ⟨.sql (.upsert condition key value expiresAt indexedKey), .ok (some version)⟩ ∈
      localLog c.log i) :
    ∃ old, (postgres p).Replaced c i key old ⟨value, version, expiresAt, indexedKey⟩ ∧
      ∀ row, old = some row → condition.holds row = true := by
  obtain ⟨e, he, hi, hanswer, hpost, hlast⟩ := answered h hmem
  obtain ⟨hchange, hmet⟩ := Sql.upsert_wrote hanswer
  refine ⟨_, ⟨e, he, hi, rfl, ?_⟩, ?_⟩
  · rw [hpost, hchange]
    simp [postgres, Sql.World.change]
  · intro row hrow
    exact hmet row ((hlast key).trans hrow)

theorem update_replaced (h : (postgresClients p).Reachable c) {i : Nat} {key : String}
    {now expectedVersion : ℤ} {value : Fields} {expiresAt : Option ℤ}
    {indexedKey : Option String} {version : ℤ}
    (hmem : ⟨.sql (.update now key expectedVersion value expiresAt indexedKey),
      .ok (some version)⟩ ∈ localLog c.log i) :
    ∃ old, (postgres p).Replaced c i key (some old) ⟨value, version, expiresAt, indexedKey⟩ ∧
      old.version = expectedVersion := by
  obtain ⟨e, he, hi, hanswer, hpost, hlast⟩ := answered h hmem
  obtain ⟨hchange, old, hold, hversion⟩ := Sql.update_wrote hanswer
  refine ⟨old, ⟨e, he, hi, ?_, ?_⟩, hversion⟩
  · exact (hlast key).symm.trans hold
  · rw [hpost, hchange]
    simp [postgres, Sql.World.change]

theorem replaced_new (h : (postgresClients p).Reachable c) {i : Nat} {key : String}
    {old : Option KvRow} {new : KvRow} (hreplaced : (postgres p).Replaced c i key old new) :
    new ∈ (postgres p).history c.world key := by
  obtain ⟨e, he, -, -, hnew⟩ := hreplaced
  apply (postgres_keeps.grows h e he key).subset
  rw [hnew]
  exact List.mem_cons_self

theorem selected_past (h : (postgresClients p).Reachable c) {i : Nat} {key : String}
    {now : Option ℤ} {row : KvRow}
    (hmem : ⟨.sql (.select key now), .ok (some row)⟩ ∈ localLog c.log i) :
    row ∈ (postgres p).history c.world key := by
  obtain ⟨e, he, hi, hanswer, hpost, hlast⟩ := answered h hmem
  have hrow : e.pre.rows key = some row := (Option.filter_eq_some_iff.mp (Except.ok.inj hanswer)).1
  apply (postgres_keeps.grows h e he key).subset
  rw [hpost]
  rw [hlast key] at hrow
  exact List.mem_of_mem_head? hrow

theorem refused_shown (h : (postgresClients p).Reachable c) {i : Nat} {key : String}
    {result : Result} {record : KvRecord} (hrefused : Sql.Refused p key (localLog c.log i) result)
    (hrecord : result.record = some record) :
    ∃ row ∈ (postgres p).history c.world key, (postgres p).shows record row := by
  rcases hrefused with ⟨now, row, hmem, rfl⟩ | ⟨e, rfl⟩
  · obtain ⟨row, rfl, rfl⟩ := Option.map_eq_some_iff.mp hrecord
    exact ⟨row, selected_past h hmem, rfl, .inl rfl⟩
  · cases hrecord

theorem created_shown (h : (postgresClients p).Reachable c) {i : Nat} {key : String}
    {value : Fields} {opts : KvWriteOptions} {result : Result} {record : KvRecord}
    (hrun : (Sql.putIfAbsent p key value opts).Finishes (localLog c.log i) result)
    (hrecord : result.record = some record) :
    ∃ row ∈ (postgres p).history c.world key, (postgres p).shows record row := by
  rcases Sql.putIfAbsent_finishes hrun with
    ⟨now, expiresAt, version, expiry, -, hmem, rfl⟩ | hrefused
  · cases hrecord
    obtain ⟨old, hreplaced, -⟩ := upsert_replaced h hmem
    exact ⟨_, replaced_new h hreplaced, rfl, .inr rfl⟩
  · exact refused_shown h hrefused hrecord

/-- Every record that is returned is that of a row that is or was there. -/
theorem record_shown (h : (postgresClients p).Reachable c) {i : Nat} {job : Job []}
    {result : Result} {record : KvRecord} {key : String}
    (ht : c.threads[i]? = some ⟨job, .ret result⟩) (hkey : job.val.key = some key)
    (hrecord : result.record = some record) :
    ∃ row ∈ (postgres p).history c.world key, (postgres p).shows record row := by
  have hrun : (Sql.start p job.val).Finishes (localLog c.log i) result := h.local_run i _ ht
  obtain ⟨op, hop⟩ := job
  cases op with
  | get key' consistent includeExpired =>
      cases hkey
      rcases Sql.get_finishes hrun with ⟨now, row, hmem, rfl⟩ | ⟨e, rfl⟩
      · obtain ⟨row, rfl, rfl⟩ := Option.map_eq_some_iff.mp hrecord
        exact ⟨row, selected_past h hmem, rfl, .inl rfl⟩
      · cases hrecord
  | putIfAbsent key' value opts =>
      cases hkey
      exact created_shown h hrun hrecord
  | compareAndSet key' expectedVersion value opts =>
      cases hkey
      replace hrun : (Sql.compareAndSet p key expectedVersion value opts).Finishes
        (localLog c.log i) result := hrun
      by_cases hzero : expectedVersion = 0
      · rw [Sql.compareAndSet, if_pos hzero] at hrun
        exact created_shown h hrun hrecord
      · rcases Sql.compareAndSet_finishes hzero hrun with
          ⟨now, expiresAt, version, expiry, hmem, rfl⟩ | hrefused
        · cases hrecord
          obtain ⟨old, hreplaced, -⟩ := update_replaced h hmem
          exact ⟨_, replaced_new h hreplaced, rfl, .inr rfl⟩
        · exact refused_shown h hrefused hrecord
  | increment key' field delta opts =>
      -- a number, and no record
      exfalso
      replace hrun : (Sql.increment p key' field delta opts).Finishes (localLog c.log i) result :=
        hrun
      unfold Sql.increment at hrun
      split at hrun
      · obtain ⟨-, rfl⟩ := Prog.finishes_ret.mp hrun
        cases hrecord
      · obtain ⟨now, es₁, -, hrest⟩ := Prog.finishes_ask.mp hrun
        rcases Sql.withExpiry_finishes hrest with ⟨expiresAt, -, hquery⟩ | ⟨e, rfl⟩
        · rcases Sql.query_finishes hquery with ⟨n, es₂, -, hret⟩ | ⟨e, rfl⟩
          · obtain ⟨-, rfl⟩ := Prog.finishes_ret.mp hret
            cases hrecord
          · cases hrecord
        · cases hrecord
  | _ => exact hop.elim

theorem created_expired (h : (postgresClients p).Reachable c) {i : Nat} {key : String}
    {value : Fields} {opts : KvWriteOptions} {written : Option KvRecord}
    (hrun : (Sql.putIfAbsent p key value opts).Finishes (localLog c.log i) (.cas true written)) :
    ∃ old new, (postgres p).Replaced c i key old new ∧
      (∀ record, written = some record → (postgres p).shows record new) ∧
      ∀ row, old = some row → (postgres p).foundExpired (localLog c.log i) key row := by
  rcases Sql.putIfAbsent_finishes hrun with
    ⟨now, expiresAt, version, expiry, hnow, hmem, hresult⟩ | hrefused
  · cases hresult
    obtain ⟨old, hreplaced, hexpired⟩ := upsert_replaced h hmem
    refine ⟨old, _, hreplaced, ?_, fun row hrow => ⟨now, hnow, hexpired row hrow⟩⟩
    rintro record ⟨⟩
    exact ⟨rfl, .inr rfl⟩
  · rcases hrefused with ⟨now, row, -, hresult⟩ | ⟨e, hresult⟩ <;> cases hresult

theorem postgres_safe (h : (postgresClients p).Reachable c) : Safe (postgres p) c where
  updates := postgres_keeps.noLostUpdate h
  stores := by
    refine ⟨postgres_keeps.invariant h, fun e he => ?_⟩
    obtain ⟨hpre, hpost, -⟩ := postgres_keeps.entry h he
    exact ⟨hpre, hpost⟩
  replaces := by
    intro i key version value opts hjob written ht hne
    rcases Sql.compareAndSet_finishes hne (h.local_run i _ ht) with
      ⟨now, expiresAt, newVersion, expiry, hmem, hresult⟩ | hrefused
    · cases hresult
      obtain ⟨old, hreplaced, hversion⟩ := update_replaced h hmem
      refine ⟨old, _, hreplaced, hversion, ?_, ?_⟩
      · rintro record ⟨⟩
        exact ⟨rfl, .inr rfl⟩
      · intro j job result record hj hkey hrecord hsame
        obtain ⟨row, hrow, hshows⟩ := record_shown h hj hkey hrecord
        have hversions : row.version = old.version := by
          rw [← hshows.1, hsame, hversion]
        rw [← postgres_keeps.determined h hrow (postgres_keeps.replaced_mem h hreplaced) hversions]
        exact hshows
    · rcases hrefused with ⟨now, row, -, hresult⟩ | ⟨e, hresult⟩ <;> cases hresult
  creates := by
    intro i job key written ht hcreates
    have hrun : (Sql.start p job.val).Finishes (localLog c.log i) (.cas true written) :=
      h.local_run i _ ht
    obtain ⟨op, hop⟩ := job
    cases op with
    | putIfAbsent key' value opts =>
        cases hcreates
        exact created_expired h hrun
    | compareAndSet key' expectedVersion value opts =>
        simp only [LostUpdates.creates, Option.ite_none_right_eq_some, Option.some.injEq] at hcreates
        obtain ⟨rfl, rfl⟩ := hcreates
        exact created_expired h hrun
    | _ => cases hcreates

end Postgres

/-- In every run of the clients of either adapter, every write that takes
effect is the next version, a write by version replaces the record that was
read, a takeover replaces the record that had expired, and increments add
up. -/
theorem no_lost_update (p : Platform) :
    (∀ layout calls c, (dynamoClients layout p calls).Reachable c → Safe (dynamo layout p) c) ∧
      ∀ c, (postgresClients p).Reachable c → Safe (postgres p) c :=
  ⟨fun _ _ _ => dynamo_safe, fun _ => postgres_safe⟩

/-! ## A small run -/

namespace Small

open Kv.Small

def clients : Responder (dynamoClients layout platform 1) (Delivery × ℤ) Empty where
  permits := fun _ _ => true
  respond := fun w choice op =>
    match op with
    | .now => (choice.2, w)
    | .dynamo command => respond layout w choice.1 (.dynamo command)
  drift := fun _ m => nomatch m
  permits_sound := fun _ _ _ => trivial
  respond_sound := by
    intro w choice op
    cases op with
    | now => rfl
    | dynamo command => exact respond_sound layout w choice.1 (.dynamo command)
  drift_sound := fun _ m => nomatch m

def sqlClients : Responder (postgresClients platform) ℤ Empty where
  permits := fun _ _ => true
  respond := fun w now op =>
    match op with
    | .now => (now, w)
    | .sql statement =>
        ((Sql.carryOut platform w.rows statement).1, w.carriedOut platform statement)
  drift := fun _ m => nomatch m
  permits_sound := fun _ _ _ => trivial
  respond_sound := by
    intro w now op
    cases op with
    | now => rfl
    | sql statement => exact .inl ⟨rfl, rfl⟩
  drift_sound := fun _ m => nomatch m

def locked {reserved : List String} (moment : ℚ) : Job reserved :=
  ⟨.putIfAbsent "job" noFields (expires moment), trivial⟩

def counted {reserved : List String} (h : "hits" ∉ reserved) : Job reserved :=
  ⟨.increment "job" "hits" 5 (expires 100), h⟩

def replaced {reserved : List String} : Job reserved :=
  ⟨.compareAndSet "job" 3 noFields (expires 100), trivial⟩

def isApplied {Rq : Type} {Rs : Rq → Type} {J : Type} :
    Option (Thread Rq Rs J Result) → Bool
  | some ⟨_, .ret (.cas applied _)⟩ => applied
  | _ => false

/-- The next `n` requests of a thread, at this moment. -/
def answers {J C : Type} (i n : Nat) (choice : C) : List (Turn J C Empty) :=
  List.replicate n (.answer i choice)

/-- A lock, a second client that takes it over, an increment and a write by
the third version. -/
def schedule : List (Turn (Job layout.reserved) (Delivery × ℤ) Empty) :=
  [.spawn (locked 1), .spawn (locked 100), .spawn (counted (by decide)), .spawn replaced] ++
    answers 0 2 (.answered, 0) ++ answers 1 2 (.answered, 5000) ++ answers 3 1 (.answered, 5000) ++
    answers 1 3 (.answered, 5000) ++ answers 2 2 (.answered, 5000) ++ answers 3 1 (.answered, 5000)

def sqlSchedule : List (Turn (Job []) ℤ Empty) :=
  [.spawn (locked 1), .spawn (locked 100), .spawn (counted (by decide)), .spawn replaced] ++
    answers 0 3 0 ++ answers 1 2 5000 ++ answers 3 2 5000 ++ answers 1 1 5000 ++
    answers 2 2 5000 ++ answers 3 1 5000

theorem no_lost_update_takeover :
    (∃ c, (dynamoClients layout platform 1).Reachable c ∧ isApplied c.threads[3]? = true ∧
      Safe (dynamo layout platform) c) ∧
    ∃ c, (postgresClients platform).Reachable c ∧ isApplied c.threads[3]? = true ∧
      Safe (postgres platform) c := by
  constructor
  · obtain ⟨c, hc, happlied⟩ := clients.exists_reachable (w := emptyWorld 0) ⟨0, rfl⟩ schedule
      (fun c => isApplied c.threads[3]?) (by decide +kernel)
    exact ⟨c, hc, happlied, (no_lost_update platform).1 layout 1 c hc⟩
  · obtain ⟨c, hc, happlied⟩ := sqlClients.exists_reachable (w := Sql.emptyWorld) rfl sqlSchedule
      (fun c => isApplied c.threads[3]?) (by decide +kernel)
    exact ⟨c, hc, happlied, (no_lost_update platform).2 c hc⟩

end Small

end SaasFoundation.Foundation.Kv.LostUpdates
