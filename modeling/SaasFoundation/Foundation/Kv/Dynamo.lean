import SaasFoundation.Foundation.Kv.Types
import SaasFoundation.Lib.BigStep

/-!
# `DynamoKvStore`

Records in the items of a table: the fields of the value are attributes of
the item, next to the key, the version, the expiry and the index. Every
operation is one request or a few; DynamoDB carries out each of them at
once, and nothing else at once.
-/

namespace SaasFoundation.Foundation.Kv

open Lib

/-! ## Items and commands -/

abbrev Item := Fields

structure DynamoIndex where
  name : String
  pkAttr : String
  skAttr : Option String

def partitionAttr : String := "pk"

/-- The attributes that are not the value's. -/
def reservedOf (skName : Option String) (ttlAttr versionAttr : String)
    (index : Option DynamoIndex) : List String :=
  [partitionAttr, ttlAttr, versionAttr] ++ skName.toList ++
    (index.map fun index => index.pkAttr :: index.skAttr.toList).getD []

inductive PkSeparator where
  | colon
  | hash
deriving DecidableEq, Repr

def PkSeparator.char : PkSeparator → Char
  | .colon => ':'
  | .hash => '#'

structure DynamoKvLayout where
  pkPrefix : String
  pkSeparator : PkSeparator
  allowSeparatorInKey : Bool
  skName : Option String
  skValue : String
  ttlAttr : String
  versionAttr : String
  index : Option DynamoIndex
  /-- No attribute has two meanings. -/
  distinct : (reservedOf skName ttlAttr versionAttr index).Nodup

def DynamoKvLayout.reserved (layout : DynamoKvLayout) : List String :=
  reservedOf layout.skName layout.ttlAttr layout.versionAttr layout.index

inductive Condition where
  | always
  /-- `attribute_not_exists(#pk)`. -/
  | notExists
  /-- `#v = :v`. -/
  | versionIs (version : ℤ)
  /-- `attribute_not_exists(#ttl) OR #ttl < :inc`. -/
  | fresher (incoming : ℚ)
deriving DecidableEq, Repr

inductive Command where
  | getItem (pk : String) (consistent : Bool)
  | putItem (pk : String) (item : Item) (condition : Condition)
  /-- `ADD #f :d, #v :one`, and `SET #ttl = if_not_exists(#ttl, :ttl)` if
  there is an expiry. -/
  | updateItem (pk field : String) (delta : ℚ) (expiresAt : Option ℚ)
  | deleteItem (pk : String) (condition : Condition)
  | query (indexValue : String)

/-- What a command gives: the item, nothing, the new item, the old item,
the items found. -/
abbrev Answer : Command → Type
  | .getItem _ _ => Option Item
  | .putItem _ _ _ => Unit
  | .updateItem _ _ _ _ => Item
  | .deleteItem _ _ => Option Item
  | .query _ => Table String Item

inductive Request where
  | now
  | dynamo (command : Command)

abbrev Reply : Request → Type
  | .now => ℤ
  | .dynamo command => Except KvError (Answer command)

abbrev Handler (α : Type) := Prog Request Reply α

abbrev request (op : Request) : Handler (Reply op) := Prog.call op

/-! ## The table -/

abbrev DynamoTable := Table String Item

section DynamoTable

variable (layout : DynamoKvLayout)

def Condition.holds (item : Option Item) : Condition → Bool
  | .always => true
  | .notExists => item.isNone
  | .versionIs version =>
      match item.bind fun item => item layout.versionAttr with
      | some (.num n) => decide (n = version)
      | _ => false
  | .fresher incoming =>
      match item.bind fun item => item layout.ttlAttr with
      | none => true
      | some (.num ttl) => decide (ttl < incoming)
      | some _ => false

/-- An index key is not an empty string. -/
def emptyIndexKey (item : Item) : Bool :=
  layout.index.any fun index =>
    let isEmpty (attr : String) : Bool := match item attr with
      | some (.str "") => true
      | _ => false
    isEmpty index.pkAttr || index.skAttr.any isEmpty

/-- `pk`, and the constant sort key. -/
def keyItem (pk : String) : Item :=
  let item : Item := Fields.set (fun _ => none) partitionAttr (.str pk)
  match layout.skName with
  | some skName => item.set skName (.str layout.skValue)
  | none => item

/-- `ADD attr :n`. -/
def addTo (item : Item) (attr : String) (n : ℚ) : Except KvError Item :=
  match item attr with
  | none => .ok (item.set attr (.num n))
  | some (.num m) => .ok (item.set attr (.num (m + n)))
  | some _ => .error .validation

/-- The update of `increment`. Its field may not be an attribute of the key
or of the index, nor one that the same expression names again. -/
def updated (pk field : String) (delta : ℚ) (expiresAt : Option ℚ) (existing : Option Item) :
    Except KvError Item :=
  if field ∈ layout.reserved ∧ ¬ (field = layout.ttlAttr ∧ expiresAt = none) then
    .error .validation
  else do
    let item ← addTo (existing.getD (keyItem layout pk)) field delta
    let item ← addTo item layout.versionAttr 1
    match expiresAt, item layout.ttlAttr with
    | some expiresAt, none => pure (item.set layout.ttlAttr (.num expiresAt))
    | _, _ => pure item

/-- How DynamoDB carries out a command. -/
def apply (table : DynamoTable) : (command : Command) →
    Except KvError (Answer command) × DynamoTable
  | .getItem pk _ => (.ok (table pk), table)
  | .putItem pk item condition =>
      if emptyIndexKey layout item then (.error .validation, table)
      else if condition.holds layout (table pk) then (.ok (), Table.put table pk item)
      else (.error .conditionalCheckFailed, table)
  | .updateItem pk field delta expiresAt =>
      match updated layout pk field delta expiresAt (table pk) with
      | .ok item => (.ok item, Table.put table pk item)
      | .error e => (.error e, table)
  | .deleteItem pk condition =>
      if condition.holds layout (table pk) then (.ok (table pk), Table.erase table pk)
      else (.error .conditionalCheckFailed, table)
  | .query indexValue =>
      if indexValue = "" then (.error .validation, table)
      else (.ok fun pk => (table pk).filter fun item => layout.index.any fun index =>
        match item index.pkAttr with
        | some (.str s) => s == indexValue
        | _ => false, table)

end DynamoTable

section Layout

variable {layout : DynamoKvLayout}

theorem layout_distinct (layout : DynamoKvLayout) :
    layout.versionAttr ≠ partitionAttr ∧ layout.ttlAttr ≠ partitionAttr ∧
      layout.ttlAttr ≠ layout.versionAttr := by
  have h := layout.distinct
  simp only [reservedOf, List.cons_append, List.nodup_cons, List.mem_cons, not_or] at h
  exact ⟨fun he => h.1.2.1 he.symm, fun he => h.1.1 he.symm, h.2.1.1⟩

theorem skName_attr {skName : String} (hsk : layout.skName = some skName) :
    skName ≠ partitionAttr ∧ skName ≠ layout.versionAttr ∧ skName ≠ layout.ttlAttr := by
  have hdistinct := layout.distinct
  simp only [reservedOf, hsk, List.cons_append, List.nil_append, Option.toList_some,
    List.nodup_cons, List.mem_cons, not_or] at hdistinct
  obtain ⟨⟨-, -, hpk, -⟩, ⟨-, httl, -⟩, ⟨hversion, -⟩, -⟩ := hdistinct
  exact ⟨Ne.symm hpk, Ne.symm hversion, Ne.symm httl⟩

theorem keyItem_version (pk : String) : keyItem layout pk layout.versionAttr = none := by
  have hpk := (layout_distinct layout).1
  unfold keyItem
  cases hsk : layout.skName with
  | none => exact Fields.set_of_ne _ _ hpk
  | some skName =>
      show Fields.set _ skName _ layout.versionAttr = none
      rw [Fields.set_of_ne _ _ (Ne.symm (skName_attr hsk).2.1), Fields.set_of_ne _ _ hpk]

end Layout

/-! ## The adapter -/

/-- `transientRetry.execute`: all errors but a failed condition are tried
again. -/
def execute (command : Command) : (retries : Nat) → Handler (Except KvError (Answer command))
  | 0 => request (.dynamo command)
  | retries + 1 => do
      let reply : Except KvError (Answer command) ← request (.dynamo command)
      match reply with
      | .ok answer => pure (.ok answer)
      | .error .conditionalCheckFailed => pure (.error .conditionalCheckFailed)
      | .error _ => execute command retries

def maxAttempts : Nat := 3

def send (command : Command) : Handler (Except KvError (Answer command)) :=
  execute command maxAttempts

namespace DynamoKvStore

variable (layout : DynamoKvLayout)

def nsPrefix : String := layout.pkPrefix ++ String.ofList [layout.pkSeparator.char]

def buildPk (key : String) : Except KvError String :=
  if !layout.allowSeparatorInKey && key.toList.contains layout.pkSeparator.char then
    .error (.typeError "key contains the reserved pk separator (op=buildPk)")
  else .ok (nsPrefix layout ++ key)

/-- The item of a record. -/
def assemble (key pk : String) (value : Fields) (version : ℤ) (expiresAt : Option ℚ)
    (indexedKey : Option String) : Item := fun attr =>
  if attr = partitionAttr then some (.str pk)
  else if attr = layout.versionAttr then some (.num version)
  else if attr = layout.ttlAttr then expiresAt.map Json.num
  else if some attr = layout.skName then some (.str layout.skValue)
  else if layout.index.any fun index => index.pkAttr == attr then indexedKey.map Json.str
  else if layout.index.any fun index => index.skAttr == some attr then
    indexedKey.map fun _ => Json.str key
  else value attr

def buildItem (key : String) (value : Fields) (version : ℤ) (expiresAt : Option ℚ)
    (indexedKey : Option String) : Except KvError (String × Item) :=
  if layout.reserved.any fun attr => (value attr).isSome then
    .error (.typeError "value field collides with a reserved attribute (op=buildItem)")
  else (buildPk layout key).map fun pk =>
    (pk, assemble layout key pk value version expiresAt indexedKey)

def versionOf (item : Item) : ℤ :=
  match item layout.versionAttr with
  | some (.num n) => ⌊n⌋
  | _ => 0

def ttlOf (item : Item) : Option ℚ :=
  match item layout.ttlAttr with
  | some (.num ttl) => some ttl
  | _ => none

/-- The value is what is not reserved; its numbers come back through their
texts. Versions and expiries are whole and small enough to come back as they
are. -/
def toRecord (p : Platform) (item : Item) : KvRecord :=
  ⟨fun name => if name ∈ layout.reserved then none else (item name).map p.parsed,
    versionOf layout item, ttlOf layout item⟩

def isExpiredItem (now : ℤ) (item : Item) : Bool :=
  (ttlOf layout item).any fun ttl => decide (ttl < (nowSeconds now : ℚ))

def getRawItem (pk : String) (consistent : Bool) : Handler (Except KvError (Option Item)) :=
  send (.getItem pk consistent)

/-- A step that throws ends the operation. -/
def attempt {α : Type} (p : Handler (Except KvError α)) (f : α → Handler Result) :
    Handler Result := do
  let result : Except KvError α ← p
  match result with
  | .ok a => f a
  | .error e => pure (.failed e)

def checked {α : Type} (result : Except KvError α) (f : α → Handler Result) : Handler Result :=
  attempt (pure result) f

def get (p : Platform) (key : String) (consistent includeExpired : Bool) : Handler Result :=
  checked (buildPk layout key) fun pk =>
  attempt (getRawItem pk consistent) fun item =>
    match item with
    | none => pure (.found none)
    | some item => do
        let now : ℤ ← request .now
        if !includeExpired && isExpiredItem layout now item then pure (.found none)
        else pure (.found (some (toRecord layout p item)))

def put (p : Platform) (key : String) (value : Fields) (opts : KvWriteOptions) :
    Handler Result :=
  checked (buildPk layout key) fun pk =>
  attempt (getRawItem pk false) fun current => do
    let now : ℤ ← request .now
    let version := (current.map (versionOf layout)).getD 0 + 1
    checked (buildItem layout key value version (resolveExpiry now opts) opts.indexedKey)
      fun built =>
    attempt (send (.putItem built.1 built.2 .always)) fun _ =>
      pure (.written (toRecord layout p built.2))

/-- A write that lost: the record is the one that is there, if it is
live. -/
def refused (p : Platform) (pk : String) : Handler Result :=
  attempt (getRawItem pk true) fun current =>
    match current with
    | none => pure (.cas false none)
    | some item => do
        let now : ℤ ← request .now
        pure (.cas false (if isExpiredItem layout now item then none
          else some (toRecord layout p item)))

/-- A conditional put: what it returns when it wins, and what follows when
its condition fails. -/
def conditionalPut (p : Platform) (pk : String) (item : Item) (condition : Condition) (lost : Handler Result) :
    Handler Result := do
  let reply : Except KvError Unit ← send (.putItem pk item condition)
  match reply with
  | .ok _ => pure (.cas true (some (toRecord layout p item)))
  | .error .conditionalCheckFailed => lost
  | .error e => pure (.failed e)

/-- Create, or take over what has expired. `again` is the same call once
more, for a record that has vanished in between. -/
def putIfAbsentOnce (p : Platform) (key : String) (value : Fields) (opts : KvWriteOptions)
    (again : Handler Result) : Handler Result := do
  let now : ℤ ← request .now
  let expiresAt := resolveExpiry now opts
  checked (buildItem layout key value 1 expiresAt opts.indexedKey) fun create =>
    conditionalPut layout p create.1 create.2 .notExists
      (attempt (getRawItem create.1 true) fun current =>
        match current with
        | none => again
        | some current => do
            let now : ℤ ← request .now
            if !isExpiredItem layout now current then
              pure (.cas false (some (toRecord layout p current)))
            else
              let prevVersion := versionOf layout current
              checked (buildItem layout key value (prevVersion + 1) expiresAt opts.indexedKey)
                fun takeover =>
                  conditionalPut layout p takeover.1 takeover.2 (.versionIs prevVersion)
                    (refused layout p takeover.1))

/-- The source calls itself without a bound; here so many times at most. -/
def putIfAbsent (p : Platform) (key : String) (value : Fields) (opts : KvWriteOptions) :
    (calls : Nat) → Handler Result
  | 0 => pure (.failed .transient)
  | calls + 1 => putIfAbsentOnce layout p key value opts (putIfAbsent p key value opts calls)

def compareAndSet (p : Platform) (key : String) (expectedVersion : ℤ) (value : Fields)
    (opts : KvWriteOptions) : Handler Result := do
  let now : ℤ ← request .now
  checked (buildItem layout key value (expectedVersion + 1) (resolveExpiry now opts)
      opts.indexedKey) fun built =>
    conditionalPut layout p built.1 built.2
      (if expectedVersion = 0 then .notExists else .versionIs expectedVersion)
      (refused layout p built.1)

def putIfFresher (p : Platform) (key : String) (value : Fields) (expiresAt : ℚ)
    (indexedKey : Option String) : Handler Result :=
  checked (buildItem layout key value 1 (some expiresAt) indexedKey) fun built =>
    conditionalPut layout p built.1 built.2 (.fresher expiresAt) (refused layout p built.1)

/-- `Number(attrs[field] ?? delta)`. -/
def resultOf (p : Platform) (attrs : Item) (field : String) (delta : ℚ) : Option ℚ :=
  match attrs field with
  | none => some delta
  | some .null => some delta
  | some (.num n) => some (p.number n)
  | some .nan => none
  | some v => p.toNumber v

def increment (p : Platform) (key field : String) (delta : ℚ) (opts : KvWriteOptions) :
    Handler Result :=
  if !matchesFieldPattern field then pure (.failed invalidField)
  else do
    let now : ℤ ← request .now
    checked (buildPk layout key) fun pk =>
    attempt (send (.updateItem pk field delta (resolveExpiry now opts))) fun attrs =>
      pure (.number (resultOf p attrs field delta))

def delete (key : String) (expectedVersion : Option ℤ) : Handler Result :=
  checked (buildPk layout key) fun pk => do
    let condition := match expectedVersion with
      | some version => Condition.versionIs version
      | none => .always
    let reply : Except KvError (Option Item) ← send (.deleteItem pk condition)
    match reply with
    | .ok attributes => pure (.deleted attributes.isSome)
    | .error .conditionalCheckFailed => pure (.deleted false)
    | .error e => pure (.failed e)

/-- The rows under this namespace, by their keys. -/
def rowsOf (p : Platform) (now : ℤ) (items : Table String Item) : Table String KvRecord :=
  fun key => (items (nsPrefix layout ++ key)).bind fun item =>
    if isExpiredItem layout now item then none else some (toRecord layout p item)

def queryByIndex (p : Platform) (indexValue : String) : Handler Result :=
  match layout.index with
  | none => pure (.failed
      (.typeError "queryByIndex called on a namespace with no index (op=queryByIndex)"))
  | some _ => attempt (send (.query indexValue)) fun items => do
      let now : ℤ ← request .now
      pure (.rows (rowsOf layout p now items))

def start (p : Platform) (calls : Nat) : Op → Handler Result
  | .get key consistent includeExpired => get layout p key consistent includeExpired
  | .put key value opts => put layout p key value opts
  | .putIfAbsent key value opts => putIfAbsent layout p key value opts calls
  | .compareAndSet key expectedVersion value opts =>
      compareAndSet layout p key expectedVersion value opts
  | .putIfFresher key value expiresAt indexedKey =>
      putIfFresher layout p key value expiresAt indexedKey
  | .increment key field delta opts => increment layout p key field delta opts
  | .delete key expectedVersion => delete layout key expectedVersion
  | .queryByIndex indexValue => queryByIndex layout p indexValue

/-! ## One operation at a time -/

/-- Nothing else happens, and nothing fails in transit. -/
def answer (now : ℤ) (table : DynamoTable) : (op : Request) → Reply op × DynamoTable
  | .now => (now, table)
  | .dynamo command => apply layout table command

def step (p : Platform) (calls : Nat) (now : ℤ) (table : DynamoTable) (op : Op) :
    Result × DynamoTable :=
  (start layout p calls op).exec (answer layout now) table

variable {layout}

theorem assemble_version (key pk : String) (value : Fields) (version : ℤ) (expiresAt : Option ℚ)
    (indexedKey : Option String) : assemble layout key pk value version expiresAt
      indexedKey layout.versionAttr = some (.num version) := by
  simp [assemble, (layout_distinct layout).1]

theorem assemble_ttl (key pk : String) (value : Fields) (version : ℤ) (expiresAt : Option ℚ)
    (indexedKey : Option String) : assemble layout key pk value version expiresAt
      indexedKey layout.ttlAttr = expiresAt.map .num := by
  simp [assemble, (layout_distinct layout).2.1, (layout_distinct layout).2.2]

/-- Attributes that are not reserved are the value's. -/
theorem assemble_value {attr : String} (h : attr ∉ layout.reserved) (key pk : String)
    (value : Fields) (version : ℤ) (expiresAt : Option ℚ) (indexedKey : Option String) :
    assemble layout key pk value version expiresAt indexedKey attr = value attr := by
  simp only [DynamoKvLayout.reserved, reservedOf, List.cons_append, List.nil_append, List.mem_cons,
    List.mem_append, Option.mem_toList, not_or] at h
  obtain ⟨hpk, httl, hversion, hsk, hindex⟩ := h
  unfold assemble
  rw [if_neg hpk, if_neg hversion, if_neg httl, if_neg (fun h => hsk h.symm)]
  cases hi : layout.index with
  | none => simp
  | some index =>
      simp only [hi, Option.map_some, Option.getD_some, List.mem_cons, Option.mem_toList,
        not_or] at hindex
      have hskAttr : index.skAttr ≠ some attr := hindex.2
      simp [Ne.symm hindex.1, hskAttr]

theorem versionOf_assemble (key pk : String) (value : Fields) (version : ℤ)
    (expiresAt : Option ℚ) (indexedKey : Option String) : versionOf layout
      (assemble layout key pk value version expiresAt indexedKey) = version := by
  simp [versionOf, assemble_version]

theorem ttlOf_assemble (key pk : String) (value : Fields) (version : ℤ)
    (expiresAt : Option ℚ) (indexedKey : Option String) : ttlOf layout
      (assemble layout key pk value version expiresAt indexedKey) = expiresAt := by
  cases expiresAt with
  | none => simp [ttlOf, assemble_ttl]
  | some e => simp [ttlOf, assemble_ttl]

theorem apply_error {table : DynamoTable} {command : Command} {e : KvError}
    (h : (apply layout table command).1 = .error e) : (apply layout table command).2 = table := by
  cases command with
  | getItem _ _ => rfl
  | putItem pk item condition =>
      simp only [apply] at h ⊢
      split
      · rfl
      · split
        · rename_i hempty hcondition
          simp [hempty, hcondition] at h
        · rfl
  | updateItem pk field delta expiresAt =>
      simp only [apply] at h ⊢
      split
      · rename_i item hitem
        simp [hitem] at h
      · rfl
  | deleteItem pk condition =>
      simp only [apply] at h ⊢
      split
      · rename_i hcondition
        simp [hcondition] at h
      · rfl
  | query indexValue =>
      simp only [apply]
      split <;> rfl

/-- A command that fails fails again. -/
theorem exec_execute (now : ℤ) (table : DynamoTable) (command : Command) (retries : Nat) :
    (execute command retries).exec (answer layout now) table = apply layout table command := by
  induction retries with
  | zero => rfl
  | succ retries ih =>
      simp only [execute, Prog.call_bind, Prog.exec_ask, answer]
      cases hreply : (apply layout table command).1 with
      | ok a => exact Prod.ext hreply.symm rfl
      | error e =>
          have hsame := apply_error hreply
          cases e with
          | conditionalCheckFailed => exact Prod.ext hreply.symm rfl
          | _ =>
              simp only [hsame]
              exact ih

@[simp] theorem exec_send (now : ℤ) (table : DynamoTable) (command : Command) :
    (send command).exec (answer layout now) table = apply layout table command :=
  exec_execute now table command maxAttempts

@[simp] theorem checked_ok {α : Type} (a : α) (f : α → Handler Result) :
    checked (.ok a) f = f a := rfl

section Exec

variable {p : Platform} {now : ℤ} {table : DynamoTable} {pk : String}

theorem exec_attempt {α : Type} {q : Handler (Except KvError α)} {f : α → Handler Result} {a : α}
    (h : (q.exec (answer layout now) table).1 = .ok a) :
    (attempt q f).exec (answer layout now) table =
      (f a).exec (answer layout now) (q.exec (answer layout now) table).2 := by
  simp only [attempt, Prog.exec_bind, h]

theorem exec_attempt_error {α : Type} {q : Handler (Except KvError α)} {f : α → Handler Result}
    {e : KvError} (h : (q.exec (answer layout now) table).1 = .error e) :
    (attempt q f).exec (answer layout now) table =
      (.failed e, (q.exec (answer layout now) table).2) := by
  simp only [attempt, Prog.exec_bind, h]
  rfl

/-- The clock is read and nothing changes. -/
theorem exec_now {f : ℤ → Handler Result} :
    (request .now >>= f).exec (answer layout now) table =
      (f now).exec (answer layout now) table := rfl

theorem exec_getRawItem {consistent : Bool} {f : Option Item → Handler Result} :
    (attempt (getRawItem pk consistent) f).exec (answer layout now) table =
      (f (table pk)).exec (answer layout now) table := by
  have hread : (getRawItem pk consistent).exec (answer layout now) table =
      (.ok (table pk), table) := exec_send now table (.getItem pk consistent)
  rw [exec_attempt (by rw [hread]), hread]

/-- The record under the key, if it is live. -/
def liveRecord (layout : DynamoKvLayout) (p : Platform) (now : ℤ) (item : Option Item) :
    Option KvRecord :=
  (item.filter fun item => !isExpiredItem layout now item).map (toRecord layout p)

theorem exec_refused : (refused layout p pk).exec (answer layout now) table =
    (.cas false (liveRecord layout p now (table pk)), table) := by
  rw [refused, exec_getRawItem]
  cases table pk with
  | none => rfl
  | some item =>
      show (Result.cas false (if isExpiredItem layout now item then none
        else some (toRecord layout p item)), table) = _
      cases hexpired : isExpiredItem layout now item <;> simp [liveRecord, hexpired]

theorem exec_putItem {item : Item} {condition : Condition}
    (hindex : emptyIndexKey layout item = false) :
    (send (.putItem pk item condition) : Handler (Except KvError Unit)).exec (answer layout now)
      table = if condition.holds layout (table pk) then (.ok (), Table.put table pk item)
        else (.error .conditionalCheckFailed, table) := by
  have hsend := @exec_send layout now table (.putItem pk item condition)
  simp only [apply, hindex, Bool.false_eq_true, if_false] at hsend
  exact hsend

/-- An item with an empty index key is refused. -/
theorem exec_putItem_empty {item : Item} (condition : Condition)
    (hindex : emptyIndexKey layout item = true) :
    (send (.putItem pk item condition) : Handler (Except KvError Unit)).exec (answer layout now)
      table = (.error .validation, table) := by
  have hsend := @exec_send layout now table (.putItem pk item condition)
  simp only [apply, hindex, if_true] at hsend
  exact hsend

theorem exec_deleteItem (condition : Condition) :
    (send (.deleteItem pk condition) : Handler (Except KvError (Option Item))).exec
      (answer layout now) table = if condition.holds layout (table pk) then
          (.ok (table pk), Table.erase table pk)
        else (.error .conditionalCheckFailed, table) :=
  exec_send now table (.deleteItem pk condition)

theorem exec_conditionalPut {item : Item} {condition : Condition} {lost : Handler Result}
    (hindex : emptyIndexKey layout item = false) :
    (conditionalPut layout p pk item condition lost).exec (answer layout now) table =
      if condition.holds layout (table pk) then
        (.cas true (some (toRecord layout p item)), Table.put table pk item)
      else lost.exec (answer layout now) table := by
  rw [conditionalPut, Prog.exec_bind, exec_putItem hindex]
  by_cases hholds : condition.holds layout (table pk) = true
  · simp [hholds]
  · simp [hholds]

theorem exec_conditionalPut_empty {item : Item} {condition : Condition} {lost : Handler Result}
    (hindex : emptyIndexKey layout item = true) :
    (conditionalPut layout p pk item condition lost).exec (answer layout now) table =
      (.failed .validation, table) := by
  rw [conditionalPut, Prog.exec_bind, exec_putItem_empty condition hindex]
  rfl

end Exec

end DynamoKvStore

/-! ## A small namespace -/

namespace Small

/-- Without an index. -/
def layout : DynamoKvLayout where
  pkPrefix := "LOCK"
  pkSeparator := .hash
  allowSeparatorInKey := false
  skName := none
  skValue := ""
  ttlAttr := "expiresAt"
  versionAttr := "_v"
  index := none
  distinct := by decide

/-- Small numbers. -/
def platform : Platform where
  add := fun a b => a + b
  number := fun n => n
  toNumber := fun _ => none
  toNumeric := fun _ => none

def noFields : Fields := fun _ => none

def expires (moment : ℚ) : KvWriteOptions := ⟨none, some moment, none⟩

end Small

end SaasFoundation.Foundation.Kv
