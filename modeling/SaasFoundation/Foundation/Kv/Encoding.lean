import SaasFoundation.Foundation.Kv.Memory
import SaasFoundation.Foundation.Kv.Dynamo
import SaasFoundation.Foundation.Kv.Postgres

/-!
# Three encodings of a record

The map of the memory adapter is the reference: an item of DynamoDB and a
row of Postgres stand for one of its entries. Here is what each operation
must not meet for the encodings to say the same, and what they say.
-/

namespace SaasFoundation.Foundation.Kv

open Lib

/-! ## The operations in question -/

section Domain

variable (layout : DynamoKvLayout) (p : Platform)

/-- A key without the separator, unless the namespace allows it. -/
def KeyOk (key : String) : Prop :=
  layout.allowSeparatorInKey = true ∨ layout.pkSeparator.char ∉ key.toList

/-- An object without reserved fields. -/
def Clean (value : Fields) : Prop := ∀ attr ∈ layout.reserved, value attr = none

/-- What the adapters are asked for. -/
def InDomain : Op → Prop
  | .get key _ _ => KeyOk layout key
  | .put key value _ => KeyOk layout key ∧ Clean layout value
  | .putIfAbsent key value _ => KeyOk layout key ∧ Clean layout value
  | .compareAndSet key _ value _ => KeyOk layout key ∧ Clean layout value
  | .putIfFresher key value _ _ => KeyOk layout key ∧ Clean layout value
  | .increment key field _ _ => KeyOk layout key ∧ field ∉ layout.reserved
  | .delete key _ => KeyOk layout key
  | .queryByIndex _ => True

/-! ## Where they agree -/

/-- An object that comes back through its text as it is: no `NaN`. -/
def Textual (value : Fields) : Prop := ∀ name, (value name).map p.parsed = value name

/-- A whole number of seconds, at a moment that a timestamp can be. -/
def Whole (expiresAt : Option ℚ) : Prop :=
  ∀ e, expiresAt = some e → ∃ n : ℤ, e = n ∧ PostgresKvStore.isMoment (n * 1000)

/-- The index takes no empty string. -/
def IndexOk (key : String) (indexedKey : Option String) : Prop :=
  ∀ index, layout.index = some index → indexedKey ≠ some "" ∧
    (index.skAttr ≠ none → indexedKey ≠ none → key ≠ "")

/-- What all three can store. -/
structure Storable (key : String) (value : Fields) (expiresAt : Option ℚ)
    (indexedKey : Option String) : Prop where
  textual : Textual p value
  whole : Whole expiresAt
  index : IndexOk layout key indexedKey

/-- The second in which the record expires is not now. -/
def Settled (now : ℤ) (entry : MemoryEntry) : Prop :=
  entry.expiresAt ≠ some (nowSeconds now : ℚ)

/-- The sum of the field and the delta is a number that all compute
alike. -/
def AddsUp (base : Fields) (field : String) (delta : ℚ) : Prop :=
  ∃ n, (base field = none ∧ n = 0 ∨ base field = some (.num n)) ∧
    p.add n delta = n + delta ∧ p.number (n + delta) = n + delta

/-- The condition on an operation and the records it meets. -/
def Meets (now : ℤ) (store : MemoryKvStore) : Op → Prop
  | .get key _ includeExpired =>
      includeExpired = true ∨ ∀ entry, store key = some entry → Settled now entry
  | .put key value opts => Storable layout p key value (resolveExpiry now opts) opts.indexedKey
  | .putIfAbsent key value opts =>
      Storable layout p key value (resolveExpiry now opts) opts.indexedKey ∧
      ∀ entry, store key = some entry → Settled now entry
  | .compareAndSet key expectedVersion value opts =>
      Storable layout p key value (resolveExpiry now opts) opts.indexedKey ∧
      ∀ entry, store key = some entry → Settled now entry ∧
        (entry.isExpired now = true → expectedVersion ≠ 0 ∧ expectedVersion ≠ entry.version)
  | .putIfFresher key value expiresAt indexedKey =>
      Storable layout p key value (some expiresAt) indexedKey ∧
      ∀ entry, store key = some entry → Settled now entry ∧
        entry.isExpired now = false ∧ ∃ e, entry.expiresAt = some e ∧ expiresAt ≤ e
  | .increment key field delta opts => matchesFieldPattern field = true →
      (∃ ms, PostgresKvStore.expiryParam (resolveExpiry now opts) = .ok ms) ∧
      ((store key).bind MemoryEntry.expiresAt = none → Whole (resolveExpiry now opts)) ∧
      AddsUp p (((store key).map MemoryEntry.value).getD fun _ => none) field delta
  | .delete _ _ => True
  | .queryByIndex indexValue => layout.index ≠ none ∧ indexValue ≠ "" ∧
      ∀ key entry, store key = some entry → entry.indexedKey = some indexValue → Settled now entry

end Domain

/-- The condition of a delete. -/
def deleteCondition (expectedVersion : Option ℤ) : Condition :=
  match expectedVersion with
  | some version => .versionIs version
  | none => .always

/-! ## What stands for an entry -/

section Represents

variable {layout : DynamoKvLayout} {p : Platform}

/-- An object that all three can keep. -/
structure ValueOk (layout : DynamoKvLayout) (p : Platform) (value : Fields) : Prop where
  clean : Clean layout value
  parsed : Textual p value

structure EntryOk (layout : DynamoKvLayout) (p : Platform) (entry : MemoryEntry) : Prop where
  value : ValueOk layout p entry.value
  version : 1 ≤ entry.version
  whole : Whole entry.expiresAt

def pkOf (layout : DynamoKvLayout) (key : String) : String := DynamoKvStore.nsPrefix layout ++ key

def itemOf (layout : DynamoKvLayout) (key : String) (entry : MemoryEntry) : Item :=
  DynamoKvStore.assemble layout key (pkOf layout key) entry.value entry.version entry.expiresAt
    entry.indexedKey

def rowOf (entry : MemoryEntry) : KvRow :=
  ⟨entry.value, entry.version, entry.expiresAt.map fun e => PostgresKvStore.trunc (e * 1000),
    entry.indexedKey⟩

/-- The stores hold the same records. -/
structure Same (layout : DynamoKvLayout) (p : Platform) (store : MemoryKvStore)
    (table : DynamoTable) (rows : PostgresKvStore) : Prop where
  entries : ∀ key entry, store key = some entry → EntryOk layout p entry
  items : ∀ key, table (pkOf layout key) = (store key).map (itemOf layout key)
  rows : ∀ key, rows key = (store key).map rowOf

theorem pkOf_injective (layout : DynamoKvLayout) : Function.Injective (pkOf layout) := by
  intro key key' h
  have hlists := congrArg String.toList h
  simp only [pkOf, String.toList_append, List.append_cancel_left_eq] at hlists
  exact String.toList_injective hlists

theorem toRecord_assemble {value : Fields} (h : ValueOk layout p value) (key pk : String)
    (version : ℤ) (expiresAt : Option ℚ) (indexedKey : Option String) :
    DynamoKvStore.toRecord layout p
      (DynamoKvStore.assemble layout key pk value version expiresAt indexedKey) =
        ⟨value, version, expiresAt⟩ := by
  unfold DynamoKvStore.toRecord
  congr 1
  · funext name
    by_cases hname : name ∈ layout.reserved
    · rw [if_pos hname, h.clean name hname]
    · rw [if_neg hname, DynamoKvStore.assemble_value hname, h.parsed name]
  · exact DynamoKvStore.versionOf_assemble key pk value version expiresAt indexedKey
  · exact DynamoKvStore.ttlOf_assemble key pk value version expiresAt indexedKey

theorem toRecord_itemOf {key : String} {entry : MemoryEntry} (h : ValueOk layout p entry.value) :
    DynamoKvStore.toRecord layout p (itemOf layout key entry) = entry.toRecord :=
  toRecord_assemble h _ _ _ _ _

theorem isExpiredItem_itemOf (now : ℤ) (key : String) (entry : MemoryEntry) :
    DynamoKvStore.isExpiredItem layout now (itemOf layout key entry) = entry.isExpired now := by
  unfold DynamoKvStore.isExpiredItem MemoryEntry.isExpired itemOf
  rw [DynamoKvStore.ttlOf_assemble]
  cases entry.expiresAt <;> rfl

theorem trunc_whole (n : ℤ) : PostgresKvStore.trunc ((n : ℚ) * 1000) = n * 1000 := by
  have hcast : ((n : ℚ) * 1000) = ((n * 1000 : ℤ) : ℚ) := by push_cast; ring
  rw [PostgresKvStore.trunc, hcast, Int.floor_intCast, Int.ceil_intCast, ite_self]

theorem rowToRecord_rowOf {entry : MemoryEntry} (h : EntryOk layout p entry) :
    PostgresKvStore.rowToRecord p (rowOf entry) = entry.toRecord := by
  unfold PostgresKvStore.rowToRecord rowOf MemoryEntry.toRecord
  congr 1
  · funext name
    exact h.value.parsed name
  · cases he : entry.expiresAt with
    | none => rfl
    | some e =>
        obtain ⟨n, rfl, -⟩ := h.whole e he
        simp only [Option.map_some, trunc_whole]
        rw [Int.mul_ediv_cancel n (by norm_num)]

/-- Outside the last second, a row is live if the entry is. -/
theorem isLive_rowOf {now : ℤ} {entry : MemoryEntry} (h : EntryOk layout p entry)
    (hsettled : Settled now entry) :
    PostgresKvStore.isLive now (rowOf entry) = !entry.isExpired now := by
  unfold PostgresKvStore.isLive rowOf MemoryEntry.isExpired
  unfold Settled at hsettled
  cases he : entry.expiresAt with
  | none => rfl
  | some e =>
      obtain ⟨n, rfl, -⟩ := h.whole e he
      rw [he] at hsettled
      have hne : n ≠ nowSeconds now := fun h => hsettled (by rw [h])
      simp only [Option.map_some, Option.all_some, trunc_whole]
      rw [← decide_not, decide_eq_decide]
      simp only [Int.cast_lt, not_lt]
      unfold nowSeconds at *
      omega

theorem isExpired_rowOf {now : ℤ} {entry : MemoryEntry} (h : EntryOk layout p entry)
    (hsettled : Settled now entry) :
    PostgresKvStore.isExpired now (rowOf entry) = entry.isExpired now := by
  unfold PostgresKvStore.isExpired rowOf MemoryEntry.isExpired
  unfold Settled at hsettled
  cases he : entry.expiresAt with
  | none => rfl
  | some e =>
      obtain ⟨n, rfl, -⟩ := h.whole e he
      rw [he] at hsettled
      have hne : n ≠ nowSeconds now := fun h => hsettled (by rw [h])
      simp only [Option.map_some, Option.any_some, trunc_whole]
      rw [decide_eq_decide]
      simp only [Int.cast_lt]
      unfold nowSeconds at *
      omega

theorem buildPk_ok {key : String} (h : KeyOk layout key) :
    DynamoKvStore.buildPk layout key = .ok (pkOf layout key) := by
  unfold DynamoKvStore.buildPk pkOf
  rcases h with h | h
  · simp [h]
  · simp [h]

theorem buildPk_error {key : String} (h : ¬ KeyOk layout key) : DynamoKvStore.buildPk layout key =
    .error (.typeError "key contains the reserved pk separator (op=buildPk)") := by
  unfold KeyOk at h
  simp only [not_or, Bool.not_eq_true, not_not] at h
  simp [DynamoKvStore.buildPk, h.1, h.2]

theorem buildPk_eq {key pk : String} (h : DynamoKvStore.buildPk layout key = .ok pk) :
    pk = pkOf layout key := by
  unfold DynamoKvStore.buildPk at h
  split at h
  · cases h
  · cases h
    rfl

theorem buildItem_ok {key : String} {value : Fields} (hkey : KeyOk layout key)
    (hvalue : ValueOk layout p value) (version : ℤ) (expiresAt : Option ℚ)
    (indexedKey : Option String) :
    DynamoKvStore.buildItem layout key value version expiresAt indexedKey =
      .ok (pkOf layout key, itemOf layout key ⟨value, version, expiresAt, indexedKey⟩) := by
  have hclean : ¬ (layout.reserved.any fun attr => (value attr).isSome) = true := by
    rw [List.any_eq_true]
    rintro ⟨attr, hattr, hsome⟩
    rw [hvalue.clean attr hattr] at hsome
    cases hsome
  rw [DynamoKvStore.buildItem, if_neg hclean, buildPk_ok hkey]
  rfl

/-- The attributes of the index are none of the others. -/
theorem index_attr {index : DynamoIndex} (hindex : layout.index = some index) {attr : String}
    (hattr : attr ∈ index.pkAttr :: index.skAttr.toList) : attr ≠ partitionAttr ∧
      attr ≠ layout.versionAttr ∧ attr ≠ layout.ttlAttr ∧ some attr ≠ layout.skName := by
  have hdistinct := layout.distinct
  rw [reservedOf, hindex] at hdistinct
  have hfront := (List.nodup_append.mp hdistinct).2.2
  have hne : ∀ other ∈ [partitionAttr, layout.ttlAttr, layout.versionAttr] ++
      layout.skName.toList, attr ≠ other := fun other hother h => hfront other hother attr hattr h.symm
  refine ⟨hne _ (by simp), hne _ (by simp), hne _ (by simp), ?_⟩
  intro hsk
  exact hne attr (by simp [← hsk]) rfl

theorem index_pk_ne_sk {index : DynamoIndex} (hindex : layout.index = some index)
    {skAttr : String} (hskAttr : index.skAttr = some skAttr) : index.pkAttr ≠ skAttr := by
  have hdistinct := layout.distinct
  rw [reservedOf, hindex] at hdistinct
  have hown : (index.pkAttr :: index.skAttr.toList).Nodup := (List.nodup_append.mp hdistinct).2.1
  rw [hskAttr] at hown
  simpa using hown

theorem itemOf_indexPk {index : DynamoIndex} (hindex : layout.index = some index) (key : String)
    (entry : MemoryEntry) :
    itemOf layout key entry index.pkAttr = entry.indexedKey.map Json.str := by
  obtain ⟨hpk, hversion, httl, hsk⟩ := index_attr hindex List.mem_cons_self
  simp [itemOf, DynamoKvStore.assemble, hpk, hversion, httl, hsk, hindex]

theorem itemOf_indexSk {index : DynamoIndex} (hindex : layout.index = some index) {skAttr : String}
    (hskAttr : index.skAttr = some skAttr) (key : String) (entry : MemoryEntry) :
    itemOf layout key entry skAttr = entry.indexedKey.map fun _ => Json.str key := by
  obtain ⟨hpk, hversion, httl, hsk⟩ := @index_attr layout index hindex skAttr (by simp [hskAttr])
  have hne := index_pk_ne_sk hindex hskAttr
  simp [itemOf, DynamoKvStore.assemble, hpk, hversion, httl, hsk, hindex, hne, hskAttr]

theorem emptyIndexKey_itemOf {key : String} {entry : MemoryEntry}
    (h : IndexOk layout key entry.indexedKey) :
    emptyIndexKey layout (itemOf layout key entry) = false := by
  cases hindex : layout.index with
  | none => simp [emptyIndexKey, hindex]
  | some index =>
      obtain ⟨hempty, hkey⟩ := h index hindex
      simp only [emptyIndexKey, hindex, Option.any_some, itemOf_indexPk hindex, Bool.or_eq_false_iff]
      cases hindexed : entry.indexedKey with
      | none =>
          refine ⟨rfl, ?_⟩
          cases hskAttr : index.skAttr with
          | none => rfl
          | some skAttr => simp [itemOf_indexSk hindex hskAttr, hindexed]
      | some indexedKey =>
          have hnonempty : indexedKey ≠ "" := by
            rw [hindexed] at hempty
            exact fun h => hempty (by rw [h])
          refine ⟨by simp [hnonempty], ?_⟩
          cases hskAttr : index.skAttr with
          | none => rfl
          | some skAttr =>
              have hkey' := hkey (by simp [hskAttr]) (by simp [hindexed])
              simp [itemOf_indexSk hindex hskAttr, hindexed, hkey']

/-- A new item is that of a record with nothing in it, less the version. -/
theorem keyItem_eq {key attr : String} (hattr : attr ≠ layout.versionAttr) :
    keyItem layout (pkOf layout key) attr =
      itemOf layout key ⟨fun _ => none, 0, none, none⟩ attr := by
  unfold keyItem itemOf DynamoKvStore.assemble
  cases hsk : layout.skName with
  | none =>
      by_cases hpk : attr = partitionAttr
      · simp [hpk, Fields.set_self]
      · simp [hpk, hattr, Fields.set_of_ne _ _ hpk]
  | some skName =>
      obtain ⟨hskPk, hskVersion, hskTtl⟩ := skName_attr hsk
      by_cases hpk : attr = partitionAttr
      · simp [hpk, Fields.set_self, Fields.set_of_ne _ _ (Ne.symm hskPk)]
      · by_cases hskAttr : attr = skName
        · simp [hskAttr, Fields.set_self, hskPk, hskVersion, hskTtl]
        · simp [hpk, hattr, hskAttr, Fields.set_of_ne _ _ hpk, Fields.set_of_ne _ _ hskAttr]

theorem Same.put {store : MemoryKvStore} {table : DynamoTable} {rows : PostgresKvStore}
    (h : Same layout p store table rows) {entry : MemoryEntry} (hentry : EntryOk layout p entry)
    (key : String) : Same layout p (Table.put store key entry)
      (Table.put table (pkOf layout key) (itemOf layout key entry))
      (Table.put rows key (rowOf entry)) := by
  constructor
  · intro key' entry' hput
    rcases Table.put_some hput with ⟨rfl, rfl⟩ | ⟨-, hold⟩
    · exact hentry
    · exact h.entries key' entry' hold
  · intro key'
    by_cases hkey : key' = key
    · subst hkey
      simp
    · have hpk : pkOf layout key' ≠ pkOf layout key := fun h => hkey (pkOf_injective layout h)
      rw [Table.put_of_ne _ _ hpk, Table.put_of_ne _ _ hkey, h.items]
  · intro key'
    by_cases hkey : key' = key
    · subst hkey
      simp
    · rw [Table.put_of_ne _ _ hkey, Table.put_of_ne _ _ hkey, h.rows]

theorem Same.erase {store : MemoryKvStore} {table : DynamoTable} {rows : PostgresKvStore}
    (h : Same layout p store table rows) (key : String) : Same layout p (Table.erase store key)
      (Table.erase table (pkOf layout key)) (Table.erase rows key) := by
  constructor
  · intro key' entry' herase
    exact h.entries key' entry' (Table.erase_some herase).2
  · intro key'
    by_cases hkey : key' = key
    · subst hkey
      simp
    · have hpk : pkOf layout key' ≠ pkOf layout key := fun h => hkey (pkOf_injective layout h)
      rw [Table.erase_of_ne _ hpk, Table.erase_of_ne _ hkey, h.items]
  · intro key'
    by_cases hkey : key' = key
    · subst hkey
      simp
    · rw [Table.erase_of_ne _ hkey, Table.erase_of_ne _ hkey, h.rows]

theorem expiryParam_whole {expiresAt : Option ℚ} (h : Whole expiresAt) :
    PostgresKvStore.expiryParam expiresAt =
      .ok (expiresAt.map fun e => PostgresKvStore.trunc (e * 1000)) := by
  cases he : expiresAt with
  | none => rfl
  | some e =>
      obtain ⟨n, rfl, hmoment⟩ := h e he
      simp [PostgresKvStore.expiryParam, trunc_whole, hmoment]

end Represents

end SaasFoundation.Foundation.Kv
