import SaasFoundation.Foundation.Kv.Encoding
import SaasFoundation.Foundation.Kv.DynamoRuns
import SaasFoundation.Lib.Touches

/-!
# What a version tells

`KvRecord.version` is to increase with every write of a key, so that a
caller who was given a version can later delete or replace that very record.
It starts again at 1 when the key has been removed in between, and on some
adapters also when a write does not look at the version: what has the
version of a write is then not what was written.

The three adapters are told apart only by how they keep a row, what removes
rows behind their back, and which writes start again.
-/

namespace SaasFoundation.Foundation.Kv

open Lib

/-! ## Operations and their effect -/

def Op.isDelete : Op → Bool
  | .delete _ _ => true
  | _ => false

/-- The operation says that it has changed something. -/
def Op.takesEffect : Op → Result → Bool
  | .put _ _ _, .written _ => true
  | .putIfAbsent _ _ _, .cas applied _ => applied
  | .compareAndSet _ _ _ _, .cas applied _ => applied
  | .putIfFresher _ _ _ _, .cas applied _ => applied
  | .increment _ _ _ _, .number _ => true
  | .delete _ _, .deleted applied => applied
  | _, _ => false

/-- The version that a write has returned. -/
def Result.version : Result → Option ℤ
  | .written record => some record.version
  | .cas true record => record.map KvRecord.version
  | _ => none

/-- The version that a `delete` or a `compareAndSet` expects. -/
def Op.guard : Op → Option ℤ
  | .delete _ expectedVersion => expectedVersion
  | .compareAndSet _ expectedVersion _ _ => if 0 < expectedVersion then some expectedVersion else none
  | _ => none

/-! ## Adapters -/

structure Adapter where
  Store : Type
  Row : Type
  /-- Removals that no operation asks for. -/
  Removal : Type
  empty : Store
  step : ℤ → Store → Op → Result × Store
  remove : ℤ → Store → Removal → Store
  rowAt : Store → String → Option Row
  version : Row → ℤ
  /-- Writes that do not go on from the version that is there. -/
  restarts : Op → Bool

namespace Adapter

inductive Action (A : Adapter) where
  | call (op : Op)
  | remove (removal : A.Removal)

/-- One step of a run. -/
structure Moment (A : Adapter) where
  before : A.Store
  now : ℤ
  action : A.Action
  result : Option Result
  after : A.Store

variable (A : Adapter)

def act (now : ℤ) (store : A.Store) : A.Action → A.Moment
  | .call op =>
      let (result, store') := A.step now store op
      ⟨store, now, .call op, some result, store'⟩
  | .remove removal => ⟨store, now, .remove removal, none, A.remove now store removal⟩

def trace : A.Store → List (ℤ × A.Action) → List A.Moment
  | _, [] => []
  | store, (now, action) :: actions =>
      let moment := A.act now store action
      moment :: trace moment.after actions

variable {A}

/-- The moment has written or removed the record of the key. -/
def Moment.TakesEffect (m : A.Moment) (key : String) (op : Op) : Prop :=
  m.action = .call op ∧ op.key = some key ∧ ∃ result, m.result = some result ∧
    op.takesEffect result = true

def Moment.Writes (m : A.Moment) (key : String) : Prop :=
  ∃ op, m.TakesEffect key op ∧ op.isDelete = false

/-- Versions identify writes in a run. -/
structure VersionsIdentify (run : List A.Moment) : Prop where
  /-- They increase strictly. -/
  increasing : ∀ l₁ m l₂ m' l₃, run = l₁ ++ m :: (l₂ ++ m' :: l₃) → ∀ key, m.Writes key →
    m'.Writes key → ∃ row row', A.rowAt m.after key = some row ∧ A.rowAt m'.after key = some row' ∧
      A.version row < A.version row'
  /-- A later operation that expects the version of a write, and takes
  effect, finds what the write has left. -/
  identifies : ∀ l₁ m l₂ m' l₃, run = l₁ ++ m :: (l₂ ++ m' :: l₃) → ∀ key version, m.Writes key →
    m.result.bind Result.version = some version → ∀ op, m'.TakesEffect key op →
      op.guard = some version → A.rowAt m'.before key = A.rowAt m.after key ∧
        ∀ x ∈ l₂, ∀ op', ¬ x.TakesEffect key op'

/-- No write that takes effect starts the versions of a key again that has
had a record. -/
def NeverRestarts (run : List A.Moment) : Prop :=
  ∀ l₁ m l₂, run = l₁ ++ m :: l₂ → ∀ key op, m.TakesEffect key op → op.isDelete = false →
    (∃ m' ∈ l₁, m'.Writes key) → A.rowAt m.before key ≠ none ∧ A.restarts op = false

/-! ## What the adapters have in common -/

/-- What a call may do to the rows: nothing, one write, one removal. -/
inductive Effect (A : Adapter) (store : A.Store) (op : Op) (result : Result) (store' : A.Store) :
    Prop
  | kept : op.takesEffect result = false → (∀ key, A.rowAt store' key = A.rowAt store key) →
      Effect A store op result store'
  | wrote (key : String) (row : A.Row) : op.key = some key → op.isDelete = false →
      op.takesEffect result = true →
      (∀ key', A.rowAt store' key' = if key' = key then some row else A.rowAt store key') →
      (∀ version, result.version = some version → A.version row = version) →
      (∀ old, A.rowAt store key = some old → A.restarts op = false →
        A.version row = A.version old + 1) →
      (∀ version, op.guard = some version →
        ∃ old, A.rowAt store key = some old ∧ A.version old = version) →
      Effect A store op result store'
  | removed (key : String) : op.key = some key → op.isDelete = true →
      op.takesEffect result = true →
      (∀ key', A.rowAt store' key' = if key' = key then none else A.rowAt store key') →
      (∀ version, op.guard = some version →
        ∃ old, A.rowAt store key = some old ∧ A.version old = version) →
      Effect A store op result store'

structure Lawful (A : Adapter) : Prop where
  empty : ∀ key, A.rowAt A.empty key = none
  step : ∀ now store op, A.Effect store op (A.step now store op).1 (A.step now store op).2
  remove : ∀ now store removal key, A.rowAt (A.remove now store removal) key = A.rowAt store key ∨
    A.rowAt (A.remove now store removal) key = none

/-! ## Touches of a key -/

section Touches

open Classical in
/-- What a moment does to the record of a key. -/
noncomputable def Moment.touch (m : A.Moment) (key : String) : Touch A.Row :=
  if ∃ op, m.TakesEffect key op then
    match A.rowAt m.after key with
    | some row => .wrote row
    | none => .removed
  else
    match A.rowAt m.before key, A.rowAt m.after key with
    | some _, none => .removed
    | _, _ => .kept

variable {run : List A.Moment} {m : A.Moment} {key : String}

/-- The moment is one of the adapter's own. -/
def Moment.Sound (m : A.Moment) : Prop := ∃ now action, m = A.act now m.before action

/-- An operation that takes effect on another key changes nothing here. -/
theorem Effect.of_not {store store' : A.Store} {op : Op} {result : Result}
    (h : A.Effect store op result store')
    (hnot : ¬ (op.key = some key ∧ op.takesEffect result = true)) :
    A.rowAt store' key = A.rowAt store key := by
  cases h with
  | kept _ hsame => exact hsame key
  | wrote key' row hkey _ heffect hrows _ _ _ =>
      have hne : key ≠ key' := fun h => hnot ⟨by rw [h]; exact hkey, heffect⟩
      rw [hrows, if_neg hne]
  | removed key' hkey _ heffect hrows _ =>
      have hne : key ≠ key' := fun h => hnot ⟨by rw [h]; exact hkey, heffect⟩
      rw [hrows, if_neg hne]

theorem Moment.Sound.effect (hA : A.Lawful) (h : m.Sound) {op : Op}
    (heffect : m.TakesEffect key op) : ∃ result, m.result = some result ∧
      A.Effect m.before op result m.after ∧ op.key = some key ∧ op.takesEffect result = true := by
  obtain ⟨now, action, hm⟩ := h
  obtain ⟨haction, hkey, result, hresult, htakes⟩ := heffect
  refine ⟨result, hresult, ?_, hkey, htakes⟩
  cases action with
  | remove removal =>
      rw [hm] at haction
      cases haction
  | call op' =>
      have hstep := hA.step now m.before op'
      rw [hm] at haction hresult
      cases haction
      cases hresult
      have hafter : m.after = (A.step now m.before op).2 := by rw [hm]; rfl
      rw [hafter]
      exact hstep

/-- A write leaves a row, of the version it has returned. -/
theorem Moment.Sound.writes (hA : A.Lawful) (h : m.Sound) (hwrites : m.Writes key) :
    ∃ row, A.rowAt m.after key = some row ∧
      ∀ version, m.result.bind Result.version = some version → A.version row = version := by
  obtain ⟨op, heffect, hdelete⟩ := hwrites
  obtain ⟨result, hresult, hrows, hkey, htakes⟩ := h.effect hA heffect
  rw [hresult]
  cases hrows with
  | kept hnot _ =>
      rw [htakes] at hnot
      cases hnot
  | removed _ _ hdelete' _ _ _ =>
      rw [hdelete] at hdelete'
      cases hdelete'
  | wrote key' row hkey' _ _ hrows hversion _ _ =>
      rw [hkey] at hkey'
      cases hkey'
      exact ⟨row, by rw [hrows, if_pos rfl], hversion⟩

/-- A delete leaves none. -/
theorem Moment.Sound.deletes (hA : A.Lawful) (h : m.Sound) {op : Op}
    (heffect : m.TakesEffect key op) (hdelete : op.isDelete = true) :
    A.rowAt m.after key = none := by
  obtain ⟨result, -, hrows, hkey, htakes⟩ := h.effect hA heffect
  cases hrows with
  | kept hnot _ =>
      rw [htakes] at hnot
      cases hnot
  | wrote _ _ _ hdelete' _ _ _ _ _ =>
      rw [hdelete] at hdelete'
      cases hdelete'
  | removed key' hkey' _ _ hrows _ =>
      rw [hkey] at hkey'
      cases hkey'
      rw [hrows, if_pos rfl]

/-- What expects a version finds it. -/
theorem Moment.Sound.guarded (hA : A.Lawful) (h : m.Sound) {op : Op}
    (heffect : m.TakesEffect key op) {version : ℤ} (hguard : op.guard = some version) :
    ∃ old, A.rowAt m.before key = some old ∧ A.version old = version := by
  obtain ⟨result, -, hrows, hkey, htakes⟩ := h.effect hA heffect
  cases hrows with
  | kept hnot _ =>
      rw [htakes] at hnot
      cases hnot
  | wrote key' _ hkey' _ _ _ _ _ hfound =>
      rw [hkey] at hkey'
      cases hkey'
      exact hfound version hguard
  | removed key' hkey' _ _ _ hfound =>
      rw [hkey] at hkey'
      cases hkey'
      exact hfound version hguard

theorem Moment.Sound.bumps (hA : A.Lawful) (h : m.Sound) {op : Op}
    (heffect : m.TakesEffect key op) (hdelete : op.isDelete = false)
    (hrestarts : A.restarts op = false) {old row : A.Row} (hold : A.rowAt m.before key = some old)
    (hrow : A.rowAt m.after key = some row) : A.version row = A.version old + 1 := by
  obtain ⟨result, -, hrows, hkey, htakes⟩ := h.effect hA heffect
  cases hrows with
  | kept hnot _ =>
      rw [htakes] at hnot
      cases hnot
  | removed _ _ hdelete' _ _ _ =>
      rw [hdelete] at hdelete'
      cases hdelete'
  | wrote key' row' hkey' _ _ hrows _ hbumps _ =>
      rw [hkey] at hkey'
      cases hkey'
      rw [hrows, if_pos rfl] at hrow
      cases hrow
      exact hbumps old hold hrestarts

theorem Moment.Sound.touch_wrote (hA : A.Lawful) (h : m.Sound) {row : A.Row} :
    m.touch key = .wrote row ↔ m.Writes key ∧ A.rowAt m.after key = some row := by
  unfold Moment.touch
  split
  · rename_i heffect
    obtain ⟨op, heffect⟩ := heffect
    cases hdelete : op.isDelete with
    | true =>
        have hnone := h.deletes hA heffect hdelete
        simp [hnone]
    | false =>
        have hwrites : m.Writes key := ⟨op, heffect, hdelete⟩
        obtain ⟨row', hrow', -⟩ := h.writes hA hwrites
        simp [hrow', hwrites]
  · rename_i hno
    constructor
    · intro htouch
      split at htouch <;> cases htouch
    · rintro ⟨⟨op, heffect, -⟩, -⟩
      exact absurd ⟨op, heffect⟩ hno

theorem Moment.touch_kept (hkept : m.touch key = .kept) : ∀ op, ¬ m.TakesEffect key op := by
  intro op heffect
  unfold Moment.touch at hkept
  rw [if_pos ⟨op, heffect⟩] at hkept
  split at hkept <;> cases hkept

theorem Moment.Sound.next (hA : A.Lawful) (h : m.Sound) (key : String) :
    A.rowAt m.after key = (m.touch key).next (A.rowAt m.before key) := by
  unfold Moment.touch
  split
  · cases A.rowAt m.after key <;> rfl
  · rename_i hno
    have hsame : A.rowAt m.after key = A.rowAt m.before key ∨ A.rowAt m.after key = none := by
      obtain ⟨now, action, hm⟩ := h
      cases action with
      | remove removal =>
          have hremove := hA.remove now m.before removal key
          rw [hm]
          exact hremove
      | call op =>
          left
          have hstep := hA.step now m.before op
          have hnot : ¬ (op.key = some key ∧
              op.takesEffect (A.step now m.before op).1 = true) := by
            rintro ⟨hkey, htakes⟩
            apply hno
            refine ⟨op, ?_, hkey, (A.step now m.before op).1, ?_, htakes⟩
            · rw [hm]
              rfl
            · rw [hm]
              rfl
          rw [hm]
          exact hstep.of_not hnot
    rcases hsame with hsame | hnone
    · rw [hsame]
      cases A.rowAt m.before key <;> rfl
    · rw [hnone]
      cases A.rowAt m.before key <;> rfl

theorem trace_sound (store : A.Store) (actions : List (ℤ × A.Action)) :
    ∀ m ∈ A.trace store actions, m.Sound := by
  induction actions generalizing store with
  | nil => simp [trace]
  | cons action actions ih =>
      obtain ⟨now, action⟩ := action
      intro m hm
      rcases List.mem_cons.mp hm with rfl | hm
      · refine ⟨now, action, ?_⟩
        cases action <;> rfl
      · exact ih _ m hm

/-- The touches of a key give its row. -/
theorem trace_rows (hA : A.Lawful) {store : A.Store} {actions : List (ℤ × A.Action)}
    {l₁ l₂ : List A.Moment} (h : A.trace store actions = l₁ ++ m :: l₂) (key : String) :
    A.rowAt m.before key = (l₁.map fun m => m.touch key).foldl Touch.next (A.rowAt store key) := by
  induction actions generalizing store l₁ with
  | nil => simp [trace] at h
  | cons action actions ih =>
      obtain ⟨now, action⟩ := action
      have hbefore : (A.act now store action).before = store := by cases action <;> rfl
      cases l₁ with
      | nil =>
          have hm := (List.cons.inj h).1
          rw [← hm, hbefore]
          rfl
      | cons x l₁ =>
          obtain ⟨rfl, hrest⟩ := List.cons.inj h
          have hsound : (A.act now store action).Sound :=
            trace_sound store ((now, action) :: actions) _ List.mem_cons_self
          rw [ih hrest, hsound.next hA key, hbefore]
          rfl

theorem run_after (hA : A.Lawful) {actions : List (ℤ × A.Action)} {l₁ l₂ : List A.Moment}
    (h : A.trace A.empty actions = l₁ ++ m :: l₂) (key : String) :
    A.rowAt m.before key = Touch.after (l₁.map fun m => m.touch key) := by
  rw [trace_rows hA h key, hA.empty, Touch.after]

/-- What starts again nowhere, starts again at no key. -/
theorem noRestart (hA : A.Lawful) {actions : List (ℤ × A.Action)}
    (hrun : NeverRestarts (A.trace A.empty actions)) (key : String) :
    Touch.NoRestart A.version ((A.trace A.empty actions).map fun m => m.touch key) := by
  intro t₁ row t₂ htouches
  obtain ⟨l₁, rest, hl, rfl, hrest⟩ := List.map_eq_append_iff.mp htouches
  obtain ⟨m, l₂, rfl, hm, rfl⟩ := List.map_eq_cons_iff.mp hrest
  have hsound := trace_sound A.empty actions
  have hmsound := hsound m (by simp [hl])
  obtain ⟨⟨op, heffect, hdelete⟩, hrow⟩ := (hmsound.touch_wrote hA).mp hm
  by_cases hearlier : ∃ m' ∈ l₁, m'.Writes key
  · left
    obtain ⟨hpresent, hgoes⟩ := hrun l₁ m l₂ hl key op heffect hdelete hearlier
    obtain ⟨old, hold⟩ := Option.ne_none_iff_exists'.mp hpresent
    refine ⟨old, ?_, hmsound.bumps hA heffect hdelete hgoes hold hrow⟩
    rw [← run_after hA hl key, hold]
  · right
    intro old hold
    obtain ⟨m', hm', htouch⟩ := List.mem_map.mp hold
    exact hearlier ⟨m', hm', ((hsound m' (by simp [hl, hm'])).touch_wrote hA).mp htouch |>.1⟩

theorem versionsIdentify (hA : A.Lawful) {actions : List (ℤ × A.Action)}
    (hrun : NeverRestarts (A.trace A.empty actions)) :
    VersionsIdentify (A.trace A.empty actions) := by
  have hsound := trace_sound A.empty actions
  constructor
  · intro l₁ m l₂ m' l₃ hl key hm hm'
    have hnoRestart := noRestart hA hrun key
    have hms := hsound m (by simp [hl])
    have hms' := hsound m' (by simp [hl])
    obtain ⟨row, hrow, -⟩ := hms.writes hA hm
    obtain ⟨row', hrow', -⟩ := hms'.writes hA hm'
    have htouches : (A.trace A.empty actions).map (fun m => m.touch key) =
        (l₁.map fun m => m.touch key) ++ .wrote row ::
          ((l₂.map fun m => m.touch key) ++ .wrote row' :: l₃.map fun m => m.touch key) := by
      rw [hl, List.map_append, List.map_cons, List.map_append, List.map_cons,
        (hms.touch_wrote hA).mpr ⟨hm, hrow⟩, (hms'.touch_wrote hA).mpr ⟨hm', hrow'⟩]
    exact ⟨row, row', hrow, hrow', hnoRestart.increasing htouches⟩
  · intro l₁ m l₂ m' l₃ hl key version hm hversion op heffect hguard
    have hnoRestart := noRestart hA hrun key
    have hms := hsound m (by simp [hl])
    have hms' := hsound m' (by simp [hl])
    obtain ⟨row, hrow, hreturned⟩ := hms.writes hA hm
    obtain ⟨old, hold, holdVersion⟩ := hms'.guarded hA heffect hguard
    have hcut : A.trace A.empty actions = (l₁ ++ m :: l₂) ++ m' :: l₃ := by simp [hl]
    have htouches : (l₁ ++ m :: l₂).map (fun m => m.touch key) = (l₁.map fun m => m.touch key) ++
        .wrote row :: l₂.map fun m => m.touch key := by
      rw [List.map_append, List.map_cons, (hms.touch_wrote hA).mpr ⟨hm, hrow⟩]
    have hafter := run_after hA hcut key
    rw [hold, htouches] at hafter
    rw [hcut, List.map_append, htouches] at hnoRestart
    obtain ⟨hkept, hsame⟩ := hnoRestart.of_append.identifies hafter.symm
      (by rw [holdVersion, hreturned version hversion])
    refine ⟨by rw [hold, hrow, hsame], ?_⟩
    intro x hx
    exact Moment.touch_kept (hkept _ (List.mem_map_of_mem hx))

end Touches

end Adapter

/-! ## The three adapters -/

/-- Nothing is removed that is not deleted. A freshness write starts again,
and so does one that expects nothing and finds an expired record. -/
def memoryAdapter (p : Platform) : Adapter where
  Store := MemoryKvStore
  Row := MemoryEntry
  Removal := Empty
  empty := Table.empty
  step := fun now store op => MemoryKvStore.step store p now op
  remove := fun _ _ removal => nomatch removal
  rowAt := fun store key => store key
  version := MemoryEntry.version
  restarts := fun op => match op with
    | .putIfFresher _ _ _ _ => true
    | .compareAndSet _ expectedVersion _ _ => expectedVersion == 0
    | _ => false

/-- DynamoDB deletes single items that have expired; a freshness write
starts again. -/
def dynamoAdapter (layout : DynamoKvLayout) (p : Platform) (calls : Nat) : Adapter where
  Store := DynamoTable
  Row := Item
  Removal := String
  empty := Table.empty
  step := fun now table op => DynamoKvStore.step layout p calls now table op
  remove := fun now table pk =>
    if (table pk).any (DynamoKvStore.isExpiredItem layout now) then Table.erase table pk else table
  rowAt := fun table key => table (pkOf layout key)
  version := DynamoKvStore.versionOf layout
  restarts := fun op => match op with
    | .putIfFresher _ _ _ _ => true
    | _ => false

/-- Expired rows are swept; every write goes on from the version that is
there. -/
def postgresAdapter (p : Platform) : Adapter where
  Store := PostgresKvStore
  Row := KvRow
  Removal := Unit
  empty := Table.empty
  step := fun now rows op => PostgresKvStore.step rows p now op
  remove := fun now rows _ => PostgresKvStore.sweep rows now
  rowAt := fun rows key => rows key
  version := KvRow.version
  restarts := fun _ => false

section Memory

variable {p : Platform} {now : ℤ} {store : MemoryKvStore}

theorem memory_kept {op : Op} {result : Result} (h : op.takesEffect result = false) :
    (memoryAdapter p).Effect store op result store :=
  .kept h fun _ => rfl

/-- A write that goes on from the version that is there. -/
theorem memory_next {op : Op} {result : Result} {key : String} {entry : MemoryEntry}
    (hkey : op.key = some key) (hdelete : op.isDelete = false) (hguard : op.guard = none)
    (htakes : op.takesEffect result = true)
    (hversion : ∀ version, result.version = some version → entry.version = version)
    (hnext : entry.version = MemoryKvStore.versionOf (store key) + 1) :
    (memoryAdapter p).Effect store op result (Table.put store key entry) := by
  refine .wrote key entry hkey hdelete htakes (Table.put_apply store key · entry) hversion ?_
    (by simp [hguard])
  intro old hold _
  show entry.version = _
  rw [hnext, show store key = some old from hold]
  rfl

theorem live_some {key : String} {entry : MemoryEntry}
    (h : MemoryKvStore.live store now key = some entry) : store key = some entry := by
  unfold MemoryKvStore.live at h
  exact (Option.filter_eq_some_iff.mp h).1

theorem memory_step (p : Platform) (now : ℤ) (store : MemoryKvStore) (op : Op) :
    (memoryAdapter p).Effect store op (MemoryKvStore.step store p now op).1
      (MemoryKvStore.step store p now op).2 := by
  cases op with
  | get key consistent includeExpired => exact memory_kept rfl
  | queryByIndex indexValue => exact memory_kept rfl
  | put key value opts =>
      refine memory_next rfl rfl rfl rfl ?_ rfl
      rintro version ⟨⟩
      rfl
  | putIfAbsent key value opts =>
      simp only [MemoryKvStore.step, MemoryKvStore.putIfAbsent]
      split
      · exact memory_kept rfl
      · refine memory_next rfl rfl rfl rfl ?_ rfl
        rintro version ⟨⟩
        rfl
  | compareAndSet key expectedVersion value opts =>
      simp only [MemoryKvStore.step, MemoryKvStore.compareAndSet]
      split
      · exact memory_kept rfl
      · rename_i hversion
        rw [not_not] at hversion
        -- the version of what is live is the one that is there, unless it is 0
        have hfound : expectedVersion ≠ 0 →
            ∃ old, store key = some old ∧ old.version = expectedVersion := by
          intro hzero
          cases hlive : MemoryKvStore.live store now key with
          | none =>
              rw [hlive] at hversion
              exact absurd hversion.symm hzero
          | some old =>
              rw [hlive] at hversion
              exact ⟨old, live_some hlive, hversion⟩
        refine .wrote key _ rfl rfl rfl (Table.put_apply store key · _) ?_ ?_ ?_
        · rintro version ⟨⟩
          rfl
        · intro old hold hrestarts
          obtain ⟨old', hold', hversion'⟩ := hfound (by simpa [memoryAdapter] using hrestarts)
          cases (show store key = some old from hold).symm.trans hold'
          show expectedVersion + 1 = _
          rw [← hversion']
          rfl
        · intro version hguard
          simp only [Op.guard, Option.ite_none_right_eq_some, Option.some.injEq] at hguard
          obtain ⟨hpos, rfl⟩ := hguard
          exact hfound (by omega)
  | putIfFresher key value expiresAt indexedKey =>
      simp only [MemoryKvStore.step, MemoryKvStore.putIfFresher]
      split
      · refine .wrote key _ rfl rfl rfl (Table.put_apply store key · _) ?_ (fun _ _ h => by cases h)
          (fun _ h => by cases h)
        rintro version ⟨⟩
        rfl
      · exact memory_kept rfl
  | increment key field delta opts =>
      simp only [MemoryKvStore.step, MemoryKvStore.increment]
      split
      · exact memory_kept rfl
      · exact memory_next rfl rfl rfl rfl (fun _ h => by cases h) rfl
  | delete key expectedVersion =>
      simp only [MemoryKvStore.step, MemoryKvStore.delete]
      split
      · exact memory_kept rfl
      · exact .removed key rfl rfl rfl (Table.erase_apply store key ·) (fun _ h => by cases h)
      · rename_i existing v hexisting
        split
        · exact memory_kept rfl
        · rename_i hversion
          rw [not_not] at hversion
          refine .removed key rfl rfl rfl (Table.erase_apply store key ·) ?_
          rintro version ⟨⟩
          exact ⟨existing, hexisting, hversion⟩

end Memory

section Postgres

variable {p : Platform} {now : ℤ} {rows : PostgresKvStore}

theorem postgres_kept {op : Op} {result : Result} (h : op.takesEffect result = false) :
    (postgresAdapter p).Effect rows op result rows :=
  .kept h fun _ => rfl

/-- Every statement that writes goes on from the version that is there. -/
theorem postgres_next {op : Op} {result : Result} {key : String} {row : KvRow}
    (hkey : op.key = some key) (hdelete : op.isDelete = false)
    (htakes : op.takesEffect result = true)
    (hversion : ∀ version, result.version = some version → row.version = version)
    (hnext : row.version = ((rows key).map KvRow.version).getD 0 + 1)
    (hguard : ∀ version, op.guard = some version →
      ∃ old, rows key = some old ∧ old.version = version) :
    (postgresAdapter p).Effect rows op result (Table.put rows key row) := by
  refine .wrote key row hkey hdelete htakes (Table.put_apply rows key · row) hversion ?_ hguard
  intro old hold _
  show row.version = _
  rw [hnext, show rows key = some old from hold]
  rfl

theorem upsert_cases (rows : PostgresKvStore) (condition : KvRow → Bool) (key : String)
    (value : Fields) (expiresAt : Option ℤ) (indexedKey : Option String) :
    PostgresKvStore.upsert rows condition key value expiresAt indexedKey = (none, rows) ∨
      PostgresKvStore.upsert rows condition key value expiresAt indexedKey =
        (some (((rows key).map KvRow.version).getD 0 + 1), Table.put rows key
          ⟨value, ((rows key).map KvRow.version).getD 0 + 1, expiresAt, indexedKey⟩) := by
  unfold PostgresKvStore.upsert
  cases rows key with
  | none => exact .inr rfl
  | some row =>
      cases hcondition : condition row with
      | false => exact .inl (by simp [hcondition])
      | true => exact .inr (by simp [hcondition])

theorem postgres_upsert {op : Op} {key : String} {value : Fields} {expiry : Option ℚ}
    {condition : KvRow → Bool} {expiresAt : Option ℤ} {indexedKey : Option String}
    (hkey : op.key = some key) (hdelete : op.isDelete = false) (hguard : op.guard = none)
    (hcas : ∀ applied record, op.takesEffect (.cas applied record) = applied) :
    let out := PostgresKvStore.appliedCas p now key value expiry
      (PostgresKvStore.upsert rows condition key value expiresAt indexedKey)
    (postgresAdapter p).Effect rows op out.1 out.2 := by
  intro out
  rcases upsert_cases rows condition key value expiresAt indexedKey with hupsert | hupsert
  · simp only [out, hupsert]
    exact postgres_kept (hcas _ _)
  · simp only [out, hupsert]
    refine postgres_next hkey hdelete (hcas _ _) ?_ rfl (by simp [hguard])
    rintro version ⟨⟩
    rfl

theorem postgres_withExpiry {op : Op} {expiry : Option ℚ}
    {statement : Option ℤ → Result × PostgresKvStore}
    (hfailed : ∀ e, op.takesEffect (.failed e) = false)
    (h : ∀ expiresAt, (postgresAdapter p).Effect rows op (statement expiresAt).1
      (statement expiresAt).2) :
    (postgresAdapter p).Effect rows op (PostgresKvStore.withExpiry rows expiry statement).1
      (PostgresKvStore.withExpiry rows expiry statement).2 := by
  unfold PostgresKvStore.withExpiry
  split
  · exact h _
  · exact postgres_kept (hfailed _)

theorem postgres_step (p : Platform) (now : ℤ) (rows : PostgresKvStore) (op : Op) :
    (postgresAdapter p).Effect rows op (PostgresKvStore.step rows p now op).1
      (PostgresKvStore.step rows p now op).2 := by
  cases op with
  | get key consistent includeExpired => exact postgres_kept rfl
  | queryByIndex indexValue => exact postgres_kept rfl
  | put key value opts =>
      refine postgres_withExpiry (fun _ => rfl) fun expiresAt => ?_
      rcases upsert_cases rows (fun _ => true) key value expiresAt opts.indexedKey with
        hupsert | hupsert
      · -- without a condition there is no refusal
        exfalso
        unfold PostgresKvStore.upsert at hupsert
        cases hrow : rows key <;> simp [hrow] at hupsert
      · simp only [hupsert]
        refine postgres_next rfl rfl rfl ?_ rfl (fun _ h => by cases h)
        rintro version ⟨⟩
        rfl
  | putIfAbsent key value opts =>
      exact postgres_withExpiry (fun _ => rfl) fun expiresAt =>
        postgres_upsert rfl rfl rfl fun _ _ => rfl
  | putIfFresher key value expiresAt indexedKey =>
      exact postgres_withExpiry (fun _ => rfl) fun expiresAt =>
        postgres_upsert rfl rfl rfl fun _ _ => rfl
  | compareAndSet key expectedVersion value opts =>
      refine postgres_withExpiry (fun _ => rfl) fun expiresAt => ?_
      by_cases hzero : expectedVersion = 0
      · simp only [hzero, if_true]
        exact postgres_upsert rfl rfl (by simp [Op.guard]) fun _ _ => rfl
      · simp only [hzero, if_false, PostgresKvStore.update]
        cases hrow : rows key with
        | none => exact postgres_kept rfl
        | some row =>
            simp only
            split
            · rename_i hmatches
              refine postgres_next rfl rfl rfl ?_ (by simp [hrow]) ?_
              · rintro version ⟨⟩
                rfl
              · intro version hguard
                simp only [Op.guard, Option.ite_none_right_eq_some, Option.some.injEq] at hguard
                exact ⟨row, hrow, hmatches.1.trans hguard.2⟩
            · exact postgres_kept rfl
  | increment key field delta opts =>
      simp only [PostgresKvStore.step, PostgresKvStore.increment]
      split
      · exact postgres_kept rfl
      · refine postgres_withExpiry (fun _ => rfl) fun expiresAt => ?_
        cases hrow : rows key with
        | none =>
            exact postgres_next rfl rfl rfl (fun _ h => by cases h) (by simp [hrow])
              (fun _ h => by cases h)
        | some row =>
            simp only
            split
            · exact postgres_kept rfl
            · exact postgres_next rfl rfl rfl (fun _ h => by cases h) (by simp [hrow])
                (fun _ h => by cases h)
  | delete key expectedVersion =>
      simp only [PostgresKvStore.step, PostgresKvStore.delete]
      cases hrow : rows key with
      | none => exact postgres_kept rfl
      | some row =>
          simp only
          split
          · rename_i hversion
            refine .removed key rfl rfl rfl (Table.erase_apply rows key ·) ?_
            intro version hguard
            rw [show expectedVersion = some version from hguard] at hversion
            have hsame : row.version = version := by simpa using hversion
            exact ⟨row, hrow, hsame⟩
          · exact postgres_kept rfl

end Postgres

section Dynamo

open DynamoKvStore

variable {layout : DynamoKvLayout} {p : Platform} {calls : Nat} {now : ℤ} {table : DynamoTable}
  {op : Op} {key pk : String}

/-- The operation, run to its end on this table, does what an adapter
may. -/
def DynamoEffect (layout : DynamoKvLayout) (p : Platform) (calls : Nat) (now : ℤ)
    (table : DynamoTable) (op : Op) (q : Handler Result) : Prop :=
  (dynamoAdapter layout p calls).Effect table op (q.exec (answer layout now) table).1
    (q.exec (answer layout now) table).2

theorem dynamo_kept {q : Handler Result} {result : Result}
    (hq : q.exec (answer layout now) table = (result, table))
    (h : op.takesEffect result = false) : DynamoEffect layout p calls now table op q := by
  rw [DynamoEffect, hq]
  exact .kept h fun _ => rfl

theorem dynamo_checked {α : Type} {result : Except KvError α} {f : α → Handler Result}
    (hfailed : ∀ e, op.takesEffect (.failed e) = false)
    (h : ∀ a, result = .ok a → DynamoEffect layout p calls now table op (f a)) :
    DynamoEffect layout p calls now table op (checked result f) := by
  cases result with
  | ok a => exact h a rfl
  | error e => exact dynamo_kept rfl (hfailed e)

theorem dynamo_read {consistent : Bool} {f : Option Item → Handler Result}
    (h : DynamoEffect layout p calls now table op (f (table pk))) :
    DynamoEffect layout p calls now table op (attempt (getRawItem pk consistent) f) := by
  rw [DynamoEffect, exec_getRawItem]
  exact h

theorem dynamo_now {f : ℤ → Handler Result} (h : DynamoEffect layout p calls now table op (f now)) :
    DynamoEffect layout p calls now table op (request .now >>= f) :=
  h

theorem dynamo_refused (hcas : ∀ record, op.takesEffect (.cas false record) = false) :
    DynamoEffect layout p calls now table op (refused layout p pk) :=
  dynamo_kept exec_refused (hcas _)

/-- A put of one item, and what may be said of it. -/
theorem dynamo_wrote {item : Item} {result : Result} (hkey : op.key = some key)
    (hdelete : op.isDelete = false) (htakes : op.takesEffect result = true)
    (hreturned : ∀ version, result.version = some version → versionOf layout item = version)
    (hnext : ∀ old, table (pkOf layout key) = some old →
      (dynamoAdapter layout p calls).restarts op = false →
        versionOf layout item = versionOf layout old + 1)
    (hguard : ∀ version, op.guard = some version →
      ∃ old, table (pkOf layout key) = some old ∧ versionOf layout old = version) :
    (dynamoAdapter layout p calls).Effect table op result
      (Table.put table (pkOf layout key) item) := by
  refine .wrote key item hkey hdelete htakes ?_ hreturned hnext hguard
  intro key'
  show Table.put table (pkOf layout key) item (pkOf layout key') = _
  rw [Table.put_apply]
  by_cases h : key' = key
  · rw [if_pos h, if_pos (by rw [h])]
    rfl
  · rw [if_neg h, if_neg (fun he => h (pkOf_injective layout he))]
    rfl

theorem dynamo_conditionalPut {value : Fields} {version : ℤ} {expiresAt : Option ℚ}
    {indexedKey : Option String} {built : String × Item} {condition : Condition}
    {lost : Handler Result}
    (hbuilt : buildItem layout key value version expiresAt indexedKey = .ok built)
    (hkey : op.key = some key) (hdelete : op.isDelete = false)
    (hcas : ∀ record, op.takesEffect (.cas true record) = true)
    (hfailed : ∀ e, op.takesEffect (.failed e) = false)
    (hlost : DynamoEffect layout p calls now table op lost)
    (hnext : condition.holds layout (table (pkOf layout key)) = true →
      ∀ old, table (pkOf layout key) = some old →
        (dynamoAdapter layout p calls).restarts op = false → version = versionOf layout old + 1)
    (hguard : condition.holds layout (table (pkOf layout key)) = true →
      ∀ v, op.guard = some v →
        ∃ old, table (pkOf layout key) = some old ∧ versionOf layout old = v) :
    DynamoEffect layout p calls now table op
      (conditionalPut layout p built.1 built.2 condition lost) := by
  obtain ⟨hpk, hversion, -⟩ := buildItem_cases hbuilt
  rw [buildPk_eq hpk]
  cases hempty : emptyIndexKey layout built.2 with
  | true =>
      exact dynamo_kept (exec_conditionalPut_empty hempty) (hfailed .validation)
  | false =>
      rw [DynamoEffect, exec_conditionalPut hempty]
      split
      · rename_i hholds
        refine dynamo_wrote hkey hdelete (hcas _) ?_ ?_ (hguard hholds)
        · rintro v ⟨⟩
          rfl
        · intro old hold hrestarts
          rw [hversion]
          exact hnext hholds old hold hrestarts
      · exact hlost

theorem dynamo_putIfAbsent_effect (value : Fields) (opts : KvWriteOptions) (n : Nat) :
    DynamoEffect layout p calls now table (.putIfAbsent key value opts)
      (putIfAbsent layout p key value opts n) := by
  induction n with
  | zero => exact dynamo_kept rfl rfl
  | succ n ih =>
      refine dynamo_now (dynamo_checked (fun _ => rfl) fun create hcreate => ?_)
      refine dynamo_conditionalPut hcreate rfl rfl (fun _ => rfl) (fun _ => rfl) ?_ ?_
        (fun _ _ h => by cases h)
      · refine dynamo_read ?_
        cases hitem : table create.1 with
        | none => exact ih
        | some current =>
            refine dynamo_now ?_
            by_cases hexpired : isExpiredItem layout now current = true
            · rw [if_neg (by simp [hexpired])]
              refine dynamo_checked (fun _ => rfl) fun takeover htakeover => ?_
              refine dynamo_conditionalPut htakeover rfl rfl (fun _ => rfl) (fun _ => rfl)
                (dynamo_refused fun _ => rfl) ?_ (fun _ _ h => by cases h)
              intro hholds old hold _
              obtain ⟨old', hold', hversion⟩ := versionOf_of_holds hholds
              rw [hold] at hold'
              cases hold'
              rw [hversion]
            · rw [if_pos (by simpa using hexpired)]
              exact dynamo_kept rfl rfl
      · intro hholds old hold _
        simp [Condition.holds, hold] at hholds

theorem dynamo_put_effect (value : Fields) (opts : KvWriteOptions) :
    DynamoEffect layout p calls now table (.put key value opts) (put layout p key value opts) := by
  refine dynamo_checked (fun _ => rfl) fun pk hpk => dynamo_read (dynamo_now ?_)
  refine dynamo_checked (fun _ => rfl) fun built hbuilt => ?_
  obtain ⟨hbuiltPk, hversion, -⟩ := buildItem_cases hbuilt
  rw [buildPk_eq hbuiltPk]
  rw [buildPk_eq hpk] at hversion
  cases hempty : emptyIndexKey layout built.2 with
  | true =>
      have hsend := @exec_putItem_empty layout now table (pkOf layout key) built.2 .always hempty
      refine @dynamo_kept _ _ _ _ _ _ _ (.failed .validation) ?_ rfl
      rw [exec_attempt_error (congrArg Prod.fst hsend), hsend]
  | false =>
      have hsend := @exec_putItem layout now table (pkOf layout key) built.2 .always hempty
      simp only [Condition.holds, if_true] at hsend
      rw [DynamoEffect, exec_attempt (congrArg Prod.fst hsend), hsend]
      refine dynamo_wrote rfl rfl rfl ?_ ?_ (fun _ h => by cases h)
      · rintro version ⟨⟩
        rfl
      · intro old hold _
        rw [hversion, hold]
        rfl

theorem dynamo_compareAndSet_effect (expectedVersion : ℤ) (value : Fields)
    (opts : KvWriteOptions) :
    DynamoEffect layout p calls now table (.compareAndSet key expectedVersion value opts)
      (compareAndSet layout p key expectedVersion value opts) := by
  refine dynamo_now (dynamo_checked (fun _ => rfl) fun built hbuilt => ?_)
  have hfound : (if expectedVersion = 0 then Condition.notExists
      else .versionIs expectedVersion).holds layout (table (pkOf layout key)) = true →
        (expectedVersion ≠ 0 → ∃ old, table (pkOf layout key) = some old ∧
          versionOf layout old = expectedVersion) ∧
        (expectedVersion = 0 → table (pkOf layout key) = none) := by
    intro hholds
    by_cases hzero : expectedVersion = 0
    · rw [if_pos hzero] at hholds
      exact ⟨fun hne => absurd hzero hne, fun _ => by simpa [Condition.holds] using hholds⟩
    · rw [if_neg hzero] at hholds
      exact ⟨fun _ => versionOf_of_holds hholds, fun h => absurd h hzero⟩
  refine dynamo_conditionalPut hbuilt rfl rfl (fun _ => rfl) (fun _ => rfl)
    (dynamo_refused fun _ => rfl) ?_ ?_
  · intro hholds old hold _
    by_cases hzero : expectedVersion = 0
    · rw [(hfound hholds).2 hzero] at hold
      cases hold
    · obtain ⟨old', hold', hversion⟩ := (hfound hholds).1 hzero
      rw [hold] at hold'
      cases hold'
      rw [hversion]
  · intro hholds v hguard
    simp only [Op.guard, Option.ite_none_right_eq_some, Option.some.injEq] at hguard
    obtain ⟨hpos, rfl⟩ := hguard
    exact (hfound hholds).1 (by omega)

theorem dynamo_increment_effect (field : String) (delta : ℚ) (opts : KvWriteOptions) :
    DynamoEffect layout p calls now table (.increment key field delta opts)
      (increment layout p key field delta opts) := by
  unfold increment
  split
  · exact dynamo_kept rfl rfl
  · refine dynamo_now (dynamo_checked (fun _ => rfl) fun pk hpk => ?_)
    rw [buildPk_eq hpk]
    have hsend := @exec_send layout now table
      (.updateItem (pkOf layout key) field delta (resolveExpiry now opts))
    simp only [apply] at hsend
    cases hupdated : updated layout (pkOf layout key) field delta (resolveExpiry now opts)
        (table (pkOf layout key)) with
    | error e =>
        rw [hupdated] at hsend
        refine @dynamo_kept _ _ _ _ _ _ _ (.failed e) ?_ rfl
        rw [exec_attempt_error (congrArg Prod.fst hsend), hsend]
    | ok item =>
        rw [hupdated] at hsend
        rw [DynamoEffect, exec_attempt (congrArg Prod.fst hsend), hsend]
        refine dynamo_wrote rfl rfl rfl (fun _ h => by cases h) ?_ (fun _ h => by cases h)
        intro old hold _
        rw [versionOf_updated hupdated, hold]
        rfl

theorem dynamo_delete_effect (expectedVersion : Option ℤ) :
    DynamoEffect layout p calls now table (.delete key expectedVersion)
      (delete layout key expectedVersion) := by
  refine dynamo_checked (fun _ => rfl) fun pk hpk => ?_
  rw [buildPk_eq hpk]
  show DynamoEffect _ _ _ _ _ _ (send (.deleteItem (pkOf layout key)
    (deleteCondition expectedVersion)) >>= _)
  rw [DynamoEffect, Prog.exec_bind, exec_deleteItem]
  by_cases hholds :
      (deleteCondition expectedVersion).holds layout (table (pkOf layout key)) = true
  · rw [if_pos hholds]
    cases hitem : table (pkOf layout key) with
    | none =>
        refine .kept rfl fun key' => ?_
        show Table.erase table (pkOf layout key) (pkOf layout key') = table (pkOf layout key')
        rw [Table.erase_absent hitem]
    | some item =>
        refine .removed key rfl rfl rfl ?_ ?_
        · intro key'
          show Table.erase table (pkOf layout key) (pkOf layout key') = _
          rw [Table.erase_apply]
          by_cases h : key' = key
          · rw [if_pos h, if_pos (by rw [h])]
            rfl
          · rw [if_neg h, if_neg (fun he => h (pkOf_injective layout he))]
            rfl
        · intro version hguard
          rw [show expectedVersion = some version from hguard] at hholds
          exact versionOf_of_holds hholds
  · rw [if_neg hholds]
    exact .kept rfl fun _ => rfl

theorem dynamo_step (layout : DynamoKvLayout) (p : Platform) (calls : Nat) (now : ℤ)
    (table : DynamoTable) (op : Op) :
    (dynamoAdapter layout p calls).Effect table op (step layout p calls now table op).1
      (step layout p calls now table op).2 := by
  show DynamoEffect layout p calls now table op (start layout p calls op)
  cases op with
  | get key consistent includeExpired =>
      refine dynamo_checked (fun _ => rfl) fun pk hpk => dynamo_read ?_
      cases table pk with
      | none => exact dynamo_kept rfl rfl
      | some item =>
          refine dynamo_now ?_
          split
          · exact dynamo_kept rfl rfl
          · exact dynamo_kept rfl rfl
  | put key value opts => exact dynamo_put_effect value opts
  | putIfAbsent key value opts => exact dynamo_putIfAbsent_effect value opts calls
  | compareAndSet key expectedVersion value opts =>
      exact dynamo_compareAndSet_effect expectedVersion value opts
  | putIfFresher key value expiresAt indexedKey =>
      refine dynamo_checked (fun _ => rfl) fun built hbuilt => ?_
      exact dynamo_conditionalPut hbuilt rfl rfl (fun _ => rfl) (fun _ => rfl)
        (dynamo_refused fun _ => rfl) (fun _ _ _ h => nomatch h) (fun _ _ h => nomatch h)
  | increment key field delta opts => exact dynamo_increment_effect field delta opts
  | delete key expectedVersion => exact dynamo_delete_effect expectedVersion
  | queryByIndex indexValue =>
      show DynamoEffect layout p calls now table _ (queryByIndex layout p indexValue)
      unfold queryByIndex
      split
      · exact dynamo_kept rfl rfl
      · have hsend := @exec_send layout now table (.query indexValue)
        simp only [apply] at hsend
        split at hsend
        · refine @dynamo_kept _ _ _ _ _ _ _ (.failed .validation) ?_ rfl
          rw [exec_attempt_error (congrArg Prod.fst hsend), hsend]
        · rw [DynamoEffect, exec_attempt (congrArg Prod.fst hsend), hsend]
          exact .kept rfl fun _ => rfl

theorem dynamo_remove (now : ℤ) (table : DynamoTable) (pk key : String) :
    let table' := (dynamoAdapter layout p calls).remove now table pk
    table' (pkOf layout key) = table (pkOf layout key) ∨ table' (pkOf layout key) = none := by
  intro table'
  by_cases hexpired : (table pk).any (isExpiredItem layout now) = true
  · rw [show table' = Table.erase table pk from if_pos hexpired, Table.erase_apply]
    by_cases hpk : pkOf layout key = pk
    · exact .inr (if_pos hpk)
    · exact .inl (if_neg hpk)
  · rw [show table' = table from if_neg hexpired]
    exact .inl rfl

end Dynamo

/-! ## Runs -/

inductive Backend where
  | memory
  | dynamo (layout : DynamoKvLayout) (calls : Nat)
  | postgres

def adapter (p : Platform) : Backend → Adapter
  | .memory => memoryAdapter p
  | .dynamo layout calls => dynamoAdapter layout p calls
  | .postgres => postgresAdapter p

theorem adapter_lawful (p : Platform) (backend : Backend) : (adapter p backend).Lawful := by
  cases backend with
  | memory => exact ⟨fun _ => rfl, memory_step p, fun _ _ removal => nomatch removal⟩
  | dynamo layout calls => exact ⟨fun _ => rfl, dynamo_step layout p calls,
      @dynamo_remove layout p calls⟩
  | postgres =>
      refine ⟨fun _ => rfl, postgres_step p, ?_⟩
      intro now rows _ key
      show (rows key).filter _ = rows key ∨ (rows key).filter _ = none
      cases hrow : rows key with
      | none => exact .inl rfl
      | some row =>
          cases hexpired : PostgresKvStore.isExpired now row <;> simp [Option.filter, hexpired]

/-- On each adapter: in every run in which no write starts the versions of a
key again, they increase and tell which write it was. -/
theorem versions_identify (p : Platform) (backend : Backend)
    (actions : List (ℤ × (adapter p backend).Action))
    (hrun : Adapter.NeverRestarts ((adapter p backend).trace (adapter p backend).empty actions)) :
    Adapter.VersionsIdentify ((adapter p backend).trace (adapter p backend).empty actions) :=
  Adapter.versionsIdentify (adapter_lawful p backend) hrun

/-! ## Two small runs -/

namespace Small

abbrev memory : Adapter := adapter platform .memory

/-- A record is created, replaced by its version, and deleted by its new
one. -/
def replaced : List (ℤ × memory.Action) :=
  [(0, .call (.put "job" noFields (expires 60))),
    (1000, .call (.compareAndSet "job" 1 noFields (expires 90))),
    (2000, .call (.delete "job" (some 2)))]

theorem versions_identify_replaced :
    Adapter.VersionsIdentify (memory.trace memory.empty replaced) := by
  refine versions_identify platform .memory replaced ?_
  intro l₁ m l₂ hl key op heffect hdelete hearlier
  rcases l₁ with _ | ⟨m₁, _ | ⟨m₂, l₁⟩⟩
  · obtain ⟨m', hm', -⟩ := hearlier
    cases hm'
  · -- the second write finds the first
    cases hl
    obtain ⟨haction, hkey, -⟩ := heffect
    cases haction
    cases hkey
    exact ⟨by simp [adapter, memoryAdapter, Adapter.act, MemoryKvStore.step,
      MemoryKvStore.put, MemoryKvStore.write], rfl⟩
  · -- the third is a delete
    have hrest := (List.cons.inj (List.cons.inj hl).2).2
    rcases l₁ with _ | ⟨m₃, l₁⟩
    · have hm := (List.cons.inj hrest).1
      rw [← hm] at heffect
      cases heffect.1
      cases hdelete
    · have hnil := (List.cons.inj hrest).2
      simp [Adapter.trace] at hnil

/-- A record is created, deleted and created again; the delete of the first
creator takes effect on the second record. -/
def recreated : List (ℤ × memory.Action) :=
  [(0, .call (.put "job" noFields (expires 60))), (1000, .call (.delete "job" none)),
    (2000, .call (.put "job" noFields (expires 90))), (3000, .call (.delete "job" (some 1)))]

theorem versions_identify_fails : ¬ ∀ (p : Platform) (backend : Backend)
    (actions : List (ℤ × (adapter p backend).Action)),
      Adapter.VersionsIdentify ((adapter p backend).trace (adapter p backend).empty actions) := by
  intro hall
  have hfound := (hall platform .memory recreated).identifies [] _ [_, _] _ [] rfl "job" 1
    ⟨_, ⟨rfl, rfl, _, rfl, rfl⟩, rfl⟩ rfl _ ⟨rfl, rfl, _, rfl, by decide +kernel⟩ rfl
  exact hfound.2 _ (List.mem_cons_of_mem _ List.mem_cons_self) _ ⟨rfl, rfl, _, rfl, rfl⟩

end Small

end SaasFoundation.Foundation.Kv
