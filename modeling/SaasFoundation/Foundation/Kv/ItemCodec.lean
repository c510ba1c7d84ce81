import SaasFoundation.Foundation.Kv.Agreement
import SaasFoundation.Lib.JsObject

/-!
# Items as objects

`buildItem` puts the value and the reserved attributes into one object, and
`extractValue` takes the value out again, property by property. Here they
are as the source has them, with its spreads and its assignments. Where no
name is `__proto__`, they are the functions on fields that the store is
modelled with.
-/

namespace SaasFoundation.Foundation.Kv

open Lib

namespace ItemCodec

variable (layout : DynamoKvLayout)

def keyAttr (pk : String) : JsObject Json :=
  let attrs := JsObject.empty.define partitionAttr (.str pk)
  match layout.skName with
  | some skName => attrs.assign skName (.str layout.skValue)
  | none => attrs

def withExpiry (expiresAt : Option ℚ) (item : JsObject Json) : JsObject Json :=
  match expiresAt with
  | some expiresAt => item.assign layout.ttlAttr (.num expiresAt)
  | none => item

def withIndex (key : String) (indexedKey : Option String) (item : JsObject Json) : JsObject Json :=
  match indexedKey, layout.index with
  | some indexedKey, some index =>
      let item := item.assign index.pkAttr (.str indexedKey)
      match index.skAttr with
      | some skAttr => item.assign skAttr (.str key)
      | none => item
  | _, _ => item

def buildItem (key : String) (value : JsObject Json) (version : ℤ) (expiresAt : Option ℚ)
    (indexedKey : Option String) : Except KvError (JsObject Json) :=
  if value.names.any fun field => layout.reserved.contains field then
    .error (.typeError "value field collides with a reserved attribute (op=buildItem)")
  else (DynamoKvStore.buildPk layout key).map fun pk =>
    let item := ((JsObject.empty.spread value).spread (keyAttr layout pk)).define
      layout.versionAttr (.num version)
    withIndex layout key indexedKey (withExpiry layout expiresAt item)

def extractValue (item : JsObject Json) : JsObject Json :=
  item.properties.foldl (fun value q =>
    if layout.reserved.contains q.1 then value else value.assign q.1 q.2) JsObject.empty

structure ObjectRecord where
  value : JsObject Json
  version : ℤ
  expiresAt : Option ℚ

/-- What is inherited is no number, so own properties are all that count. -/
def toRecord (item : JsObject Json) : ObjectRecord :=
  ⟨extractValue layout item, DynamoKvStore.versionOf layout item.get,
    DynamoKvStore.ttlOf layout item.get⟩

section RoundTrip

variable {layout} {key pk : String} {value item : JsObject Json} {version : ℤ}
  {expiresAt : Option ℚ} {indexedKey : Option String} {attr : String}

/-- What is kept of an item as part of the value. -/
def isField (layout : DynamoKvLayout) (name : String) : Bool := !layout.reserved.contains name

theorem isField_eq_false (h : attr ∈ layout.reserved) : isField layout attr = false := by
  simp [isField, h]

theorem extractValue_properties : (extractValue layout item).properties =
    (item.properties.filter fun q => isField layout q.1).filter fun q => q.1 != JsObject.proto := by
  rw [← JsObject.assignAll_properties, List.foldl_filter]
  · unfold extractValue isField
    congr 2
    funext value q
    cases layout.reserved.contains q.1 <;> rfl
  · exact (List.filter_sublist.map Prod.fst).nodup item.distinct

theorem reserved_fixed : partitionAttr ∈ layout.reserved ∧ layout.ttlAttr ∈ layout.reserved ∧
    layout.versionAttr ∈ layout.reserved := by
  simp [DynamoKvLayout.reserved, reservedOf]

theorem reserved_skName {skName : String} (h : layout.skName = some skName) :
    skName ∈ layout.reserved := by
  simp [DynamoKvLayout.reserved, reservedOf, h]

theorem reserved_index {index : DynamoIndex} (h : layout.index = some index)
    (hattr : attr ∈ index.pkAttr :: index.skAttr.toList) : attr ∈ layout.reserved := by
  rw [DynamoKvLayout.reserved, reservedOf, h]
  exact List.mem_append_right _ hattr

/-- The attributes of the key, and only these. -/
theorem keyAttr_names (h : attr ∈ (keyAttr layout pk).names) :
    attr = partitionAttr ∨ layout.skName = some attr := by
  have hpk : ∀ {name : String}, name ∈ (JsObject.empty.define partitionAttr (Json.str pk)).names →
      name = partitionAttr := fun hname =>
    (JsObject.mem_names_define.mp hname).resolve_right (by simp [JsObject.names, JsObject.empty])
  unfold keyAttr at h
  cases hsk : layout.skName with
  | none =>
      rw [hsk] at h
      exact .inl (hpk h)
  | some skName =>
      rw [hsk] at h
      rcases JsObject.mem_names_assign h with rfl | h
      · exact .inr rfl
      · exact .inl (hpk h)

theorem keyAttr_get_none (hpk : attr ≠ partitionAttr) (hsk : layout.skName ≠ some attr) :
    (keyAttr layout pk).get attr = none :=
  JsObject.get_eq_none_iff.mpr fun h => (keyAttr_names h).elim hpk hsk

theorem keyAttr_reserved (h : attr ∈ (keyAttr layout pk).names) : isField layout attr = false := by
  rcases keyAttr_names h with rfl | hsk
  · exact isField_eq_false reserved_fixed.1
  · exact isField_eq_false (reserved_skName hsk)

theorem withExpiry_get (h : attr ≠ layout.ttlAttr) :
    (withExpiry layout expiresAt item).get attr = item.get attr := by
  cases expiresAt with
  | none => rfl
  | some e => exact JsObject.get_assign_of_ne h

theorem withExpiry_fields : (withExpiry layout expiresAt item).properties.filter
    (fun q => isField layout q.1) = item.properties.filter fun q => isField layout q.1 := by
  cases expiresAt with
  | none => rfl
  | some e => exact JsObject.filter_assign (isField_eq_false reserved_fixed.2.1)

/-- The index, where it comes in, takes its own attributes. -/
theorem withIndex_cases (key : String) (indexedKey : Option String) (item : JsObject Json) :
    withIndex layout key indexedKey item = item ∨
      ∃ index v, layout.index = some index ∧ indexedKey = some v ∧
        (index.skAttr = none ∧
            withIndex layout key indexedKey item = item.assign index.pkAttr (.str v) ∨
          ∃ skAttr, index.skAttr = some skAttr ∧ withIndex layout key indexedKey item =
            (item.assign index.pkAttr (.str v)).assign skAttr (.str key)) := by
  unfold withIndex
  split
  · rename_i v index hindex
    refine .inr ⟨index, v, hindex, rfl, ?_⟩
    cases hsk : index.skAttr with
    | none => exact .inl ⟨rfl, rfl⟩
    | some skAttr => exact .inr ⟨skAttr, rfl, rfl⟩
  · exact .inl rfl

theorem withIndex_get (h : ∀ index, layout.index = some index →
    attr ≠ index.pkAttr ∧ index.skAttr ≠ some attr) :
    (withIndex layout key indexedKey item).get attr = item.get attr := by
  rcases withIndex_cases key indexedKey item with hitem | ⟨index, v, hindex, -, hitem⟩
  · rw [hitem]
  · obtain ⟨hpk, hsk⟩ := h index hindex
    rcases hitem with ⟨-, hitem⟩ | ⟨skAttr, hskAttr, hitem⟩
    · rw [hitem, JsObject.get_assign_of_ne hpk]
    · have hne : attr ≠ skAttr := fun he => hsk (by rw [hskAttr, he])
      rw [hitem, JsObject.get_assign_of_ne hne, JsObject.get_assign_of_ne hpk]

theorem withIndex_fields : (withIndex layout key indexedKey item).properties.filter
    (fun q => isField layout q.1) = item.properties.filter fun q => isField layout q.1 := by
  rcases withIndex_cases key indexedKey item with hitem | ⟨index, v, hindex, -, hitem⟩
  · rw [hitem]
  · have hpk : isField layout index.pkAttr = false :=
      isField_eq_false (reserved_index hindex List.mem_cons_self)
    rcases hitem with ⟨-, hitem⟩ | ⟨skAttr, hskAttr, hitem⟩
    · rw [hitem, JsObject.filter_assign hpk]
    · have hsk : isField layout skAttr = false :=
        isField_eq_false (reserved_index hindex (by simp [hskAttr]))
      rw [hitem, JsObject.filter_assign hsk, JsObject.filter_assign hpk]

/-- The item before the expiry and the index come in. -/
def base (layout : DynamoKvLayout) (pk : String) (value : JsObject Json) (version : ℤ) :
    JsObject Json :=
  ((JsObject.empty.spread value).spread (keyAttr layout pk)).define layout.versionAttr
    (.num version)

theorem buildItem_ok_iff : buildItem layout key value version expiresAt indexedKey = .ok item ↔
    (∀ field ∈ value.names, field ∉ layout.reserved) ∧ ∃ pk,
      DynamoKvStore.buildPk layout key = .ok pk ∧ item =
        withIndex layout key indexedKey (withExpiry layout expiresAt (base layout pk value version)) := by
  unfold buildItem
  by_cases hcollides : (value.names.any fun field => layout.reserved.contains field) = true
  · rw [if_pos hcollides]
    simp only [List.any_eq_true, List.contains_iff_mem] at hcollides
    obtain ⟨field, hfield, hreserved⟩ := hcollides
    exact iff_of_false (by simp) fun h => h.1 field hfield hreserved
  · rw [if_neg hcollides]
    have hclean : ∀ field ∈ value.names, field ∉ layout.reserved := by
      intro field hfield hreserved
      exact hcollides (List.any_eq_true.mpr ⟨field, hfield, List.contains_iff_mem.mpr hreserved⟩)
    rw [and_iff_right hclean]
    cases DynamoKvStore.buildPk layout key with
    | error e => simp [Except.map]
    | ok pk => simp [Except.map, base, eq_comm]

theorem base_fields (hclean : ∀ field ∈ value.names, field ∉ layout.reserved) :
    (base layout pk value version).properties.filter (fun q => isField layout q.1) =
      value.properties := by
  unfold base
  rw [JsObject.filter_define (isField_eq_false reserved_fixed.2.2),
    JsObject.filter_spread fun name hname => keyAttr_reserved hname, JsObject.spread_empty]
  apply List.filter_eq_self.mpr
  intro q hq
  simp [isField, hclean q.1 (List.mem_map_of_mem hq)]

theorem base_version : (base layout pk value version).get layout.versionAttr = some (.num version) :=
  JsObject.get_define

theorem base_ttl (hclean : ∀ field ∈ value.names, field ∉ layout.reserved) :
    (base layout pk value version).get layout.ttlAttr = none := by
  have hkey : (keyAttr layout pk).get layout.ttlAttr = none :=
    keyAttr_get_none (layout_distinct layout).2.1 fun hsk => (skName_attr hsk).2.2 rfl
  have hvalue : value.get layout.ttlAttr = none :=
    JsObject.get_eq_none_iff.mpr fun h => hclean _ h reserved_fixed.2.1
  unfold base
  rw [JsObject.get_define_of_ne (layout_distinct layout).2.2, JsObject.get_spread, hkey,
    JsObject.spread_empty, hvalue]
  rfl

/-- The attributes of the index are their own. -/
theorem not_index {index : DynamoIndex} (hindex : layout.index = some index)
    (hattr : attr = layout.versionAttr ∨ attr = layout.ttlAttr) :
    attr ≠ index.pkAttr ∧ index.skAttr ≠ some attr := by
  have hnot : attr ∉ index.pkAttr :: index.skAttr.toList := by
    intro hmem
    obtain ⟨-, hversion, httl, -⟩ := index_attr hindex hmem
    exact hattr.elim hversion httl
  simp only [List.mem_cons, Option.mem_toList, not_or] at hnot
  exact hnot

/-- A round trip gives back all but a field named `__proto__`, and the
expiry unless it goes under that name. -/
theorem toRecord_built (hclean : ∀ field ∈ value.names, field ∉ layout.reserved)
    (hitem : item = withIndex layout key indexedKey
      (withExpiry layout expiresAt (base layout pk value version))) :
    (toRecord layout item).value.properties =
        value.properties.filter (fun q => q.1 != JsObject.proto) ∧
      (toRecord layout item).version = version ∧
      (toRecord layout item).expiresAt =
        if layout.ttlAttr = JsObject.proto then none else expiresAt := by
  subst hitem
  have hversion := (layout_distinct layout).2.2
  refine ⟨?_, ?_, ?_⟩
  · show (extractValue layout _).properties = _
    rw [extractValue_properties, withIndex_fields, withExpiry_fields, base_fields hclean]
  · show DynamoKvStore.versionOf layout _ = _
    unfold DynamoKvStore.versionOf
    rw [withIndex_get fun index hindex => not_index hindex (.inl rfl),
      withExpiry_get (Ne.symm hversion), base_version]
    exact Int.floor_intCast version
  · show DynamoKvStore.ttlOf layout _ = _
    unfold DynamoKvStore.ttlOf
    rw [withIndex_get fun index hindex => not_index hindex (.inr rfl)]
    have hbase := @base_ttl layout pk value version hclean
    cases expiresAt with
    | none =>
        have hnone : withExpiry layout none (base layout pk value version) =
            base layout pk value version := rfl
        rw [hnone, hbase, ite_self]
    | some e =>
        simp only [withExpiry]
        by_cases hproto : layout.ttlAttr = JsObject.proto
        · rw [hproto] at hbase ⊢
          rw [JsObject.get_assign_proto hbase, if_pos rfl]
        · rw [JsObject.get_assign hproto, if_neg hproto]

/-! ## The functions on fields -/

theorem base_get (h : attr ≠ layout.versionAttr) : (base layout pk value version).get attr =
    ((keyAttr layout pk).get attr).or (value.get attr) := by
  unfold base
  rw [JsObject.get_define_of_ne h, JsObject.get_spread, JsObject.spread_empty]

theorem keyAttr_get_pk : (keyAttr layout pk).get partitionAttr = some (.str pk) := by
  unfold keyAttr
  cases hsk : layout.skName with
  | none => exact JsObject.get_define
  | some skName =>
      exact (JsObject.get_assign_of_ne (skName_attr hsk).1.symm).trans JsObject.get_define

theorem keyAttr_get_sk {skName : String} (hsk : layout.skName = some skName)
    (hproto : skName ≠ JsObject.proto) :
    (keyAttr layout pk).get skName = some (.str layout.skValue) := by
  unfold keyAttr
  rw [hsk]
  exact JsObject.get_assign hproto

theorem value_get_none (hclean : ∀ field ∈ value.names, field ∉ layout.reserved)
    (h : attr ∈ layout.reserved) : value.get attr = none :=
  JsObject.get_eq_none_iff.mpr fun hmem => hclean attr hmem h

/-- The attributes of the index, if there is one to be written. -/
theorem withIndex_get_index {index : DynamoIndex} (hindex : layout.index = some index)
    (hproto : JsObject.proto ∉ layout.reserved) (hfree : ∀ attr ∈ index.pkAttr :: index.skAttr.toList,
      item.get attr = none) :
    (withIndex layout key indexedKey item).get index.pkAttr = indexedKey.map Json.str ∧
      ∀ skAttr, index.skAttr = some skAttr →
        (withIndex layout key indexedKey item).get skAttr = indexedKey.map fun _ => Json.str key := by
  have hne : ∀ attr ∈ index.pkAttr :: index.skAttr.toList, attr ≠ JsObject.proto :=
    fun attr hattr he => hproto (he ▸ reserved_index hindex hattr)
  unfold withIndex
  rw [hindex]
  cases indexedKey with
  | none =>
      exact ⟨hfree _ List.mem_cons_self, fun skAttr hsk => hfree skAttr (by simp [hsk])⟩
  | some v =>
      have hpk : (item.assign index.pkAttr (.str v)).get index.pkAttr = some (.str v) :=
        JsObject.get_assign (hne _ List.mem_cons_self)
      cases hsk : index.skAttr with
      | none =>
          simp only [hsk]
          exact ⟨hpk, fun _ h => (nomatch h)⟩
      | some skAttr =>
          rw [hsk] at hne
          have hskPk := index_pk_ne_sk hindex hsk
          simp only [hsk]
          refine ⟨(JsObject.get_assign_of_ne hskPk).trans hpk, fun skAttr' h => ?_⟩
          cases h
          exact JsObject.get_assign (hne skAttr (by simp))

/-- Away from `__proto__` an object is its fields. -/
theorem get_built (hproto : JsObject.proto ∉ layout.reserved)
    (hclean : ∀ field ∈ value.names, field ∉ layout.reserved) :
    (withIndex layout key indexedKey
      (withExpiry layout expiresAt (base layout pk value version))).get =
      DynamoKvStore.assemble layout key pk value.get version expiresAt indexedKey := by
  obtain ⟨hversionPk, httlPk, httlVersion⟩ := layout_distinct layout
  obtain ⟨hpkMem, httlMem, hversionMem⟩ := @reserved_fixed layout
  have hout : ∀ attr, attr ∈ layout.reserved → attr ≠ partitionAttr → attr ≠ layout.versionAttr →
      layout.skName ≠ some attr → (base layout pk value version).get attr = none := by
    intro attr hmem hpk hversion hsk
    rw [base_get hversion, keyAttr_get_none hpk hsk, value_get_none hclean hmem]
    rfl
  funext attr
  unfold DynamoKvStore.assemble
  by_cases hindexAttr : ∃ index, layout.index = some index ∧
      attr ∈ index.pkAttr :: index.skAttr.toList
  · obtain ⟨index, hindex, hattr⟩ := hindexAttr
    obtain ⟨hpk, hversion, httl, hsk⟩ := index_attr hindex hattr
    have hfree : ∀ attr ∈ index.pkAttr :: index.skAttr.toList,
        (withExpiry layout expiresAt (base layout pk value version)).get attr = none := by
      intro attr hattr
      obtain ⟨hpk, hversion, httl, hsk⟩ := index_attr hindex hattr
      rw [withExpiry_get httl]
      exact hout attr (reserved_index hindex hattr) hpk hversion (Ne.symm hsk)
    obtain ⟨hgetPk, hgetSk⟩ := @withIndex_get_index layout key _ indexedKey index hindex hproto hfree
    rw [if_neg hpk, if_neg hversion, if_neg httl, if_neg hsk, hindex]
    rcases List.mem_cons.mp hattr with rfl | hattrSk
    · simp [hgetPk]
    · have hskAttr := Option.mem_toList.mp hattrSk
      rw [hgetSk attr hskAttr]
      simp [index_pk_ne_sk hindex hskAttr, hskAttr]
  · have hnot : ∀ index, layout.index = some index → attr ≠ index.pkAttr ∧
        index.skAttr ≠ some attr := by
      intro index hindex
      have hmem : attr ∉ index.pkAttr :: index.skAttr.toList := fun h => hindexAttr ⟨index, hindex, h⟩
      simp only [List.mem_cons, Option.mem_toList, not_or] at hmem
      exact hmem
    rw [withIndex_get hnot]
    by_cases hpk : attr = partitionAttr
    · rw [if_pos hpk, hpk, withExpiry_get httlPk.symm, base_get hversionPk.symm, keyAttr_get_pk]
      rfl
    rw [if_neg hpk]
    by_cases hversion : attr = layout.versionAttr
    · rw [if_pos hversion, hversion, withExpiry_get httlVersion.symm, base_version]
    rw [if_neg hversion]
    by_cases httl : attr = layout.ttlAttr
    · rw [if_pos httl, httl]
      cases expiresAt with
      | none => exact base_ttl hclean
      | some e => exact JsObject.get_assign fun he => hproto (he ▸ httlMem)
    rw [if_neg httl, withExpiry_get httl, base_get hversion]
    by_cases hsk : some attr = layout.skName
    · rw [if_pos hsk, keyAttr_get_sk hsk.symm fun he => hproto (he ▸ reserved_skName hsk.symm)]
      rfl
    rw [if_neg hsk, keyAttr_get_none hpk (Ne.symm hsk)]
    cases hindex : layout.index with
    | none => rfl
    | some index =>
        obtain ⟨hpkAttr, hskAttr⟩ := hnot index hindex
        simp [Ne.symm hpkAttr, hskAttr]

theorem buildItem_fields (hproto : JsObject.proto ∉ layout.reserved)
    (h : buildItem layout key value version expiresAt indexedKey = .ok item) :
    DynamoKvStore.buildItem layout key value.get version expiresAt indexedKey =
      .ok (pkOf layout key, item.get) := by
  obtain ⟨hclean, pk, hpk, rfl⟩ := buildItem_ok_iff.mp h
  have hnone : ¬ (layout.reserved.any fun attr => (value.get attr).isSome) = true := by
    rw [List.any_eq_true]
    rintro ⟨attr, hattr, hsome⟩
    rw [value_get_none hclean hattr] at hsome
    cases hsome
  rw [DynamoKvStore.buildItem, if_neg hnone, hpk, get_built hproto hclean, ← buildPk_eq hpk]
  rfl

end RoundTrip

end ItemCodec

/-! ## What was put is got -/

section PutGet

open DynamoKvStore

variable {layout : DynamoKvLayout} {p : Platform} {calls : Nat} {now : ℤ} {table : DynamoTable}
  {key : String} {value : Fields} {opts : KvWriteOptions} {record : KvRecord}

/-- A put that came back has written its item. -/
theorem put_written
    (h : (step layout p calls now table (.put key value opts)).1 = .written record) :
    KeyOk layout key ∧ Clean layout value ∧ ∃ version,
      record = toRecord layout p (assemble layout key (pkOf layout key) value version
        (resolveExpiry now opts) opts.indexedKey) ∧
      (step layout p calls now table (.put key value opts)).2 =
        Table.put table (pkOf layout key) (assemble layout key (pkOf layout key) value version
          (resolveExpiry now opts) opts.indexedKey) := by
  change ((put layout p key value opts).exec (answer layout now) table).1 = _ at h
  by_cases hkey : KeyOk layout key
  · let version := ((table (pkOf layout key)).map (versionOf layout)).getD 0 + 1
    have hput : step layout p calls now table (.put key value opts) =
        (checked (buildItem layout key value version (resolveExpiry now opts) opts.indexedKey)
          fun built => attempt (send (.putItem built.1 built.2 .always)) fun _ =>
            pure (.written (toRecord layout p built.2))).exec (answer layout now) table := by
      show (put layout p key value opts).exec (answer layout now) table = _
      rw [put, buildPk_ok hkey, checked_ok, exec_getRawItem]
      rfl
    change (step layout p calls now table (.put key value opts)).1 = _ at h
    rw [hput] at h ⊢
    by_cases hcollides : (layout.reserved.any fun attr => (value attr).isSome) = true
    · rw [buildItem, if_pos hcollides] at h
      cases h
    · have hclean : Clean layout value := by
        intro attr hattr
        by_contra hsome
        exact hcollides (List.any_eq_true.mpr ⟨attr, hattr, Option.isSome_iff_ne_none.mpr hsome⟩)
      rw [buildItem, if_neg hcollides, buildPk_ok hkey] at h ⊢
      refine ⟨hkey, hclean, version, ?_⟩
      change ((attempt (send (.putItem (pkOf layout key) (assemble layout key (pkOf layout key) value
        version (resolveExpiry now opts) opts.indexedKey) .always)) _).exec _ _).1 = _ at h
      show record = _ ∧ ((attempt (send (.putItem (pkOf layout key) (assemble layout key
        (pkOf layout key) value version (resolveExpiry now opts) opts.indexedKey) .always)) _).exec
          _ _).2 = _
      cases hempty : emptyIndexKey layout (assemble layout key (pkOf layout key) value version
          (resolveExpiry now opts) opts.indexedKey) with
      | true =>
          have hsend := @exec_putItem_empty layout now table (pkOf layout key) _ .always hempty
          rw [exec_attempt_error (congrArg Prod.fst hsend)] at h
          cases h
      | false =>
          have hsend := @exec_putItem layout now table (pkOf layout key) _ .always hempty
          simp only [Condition.holds, if_true] at hsend
          rw [exec_attempt (congrArg Prod.fst hsend), hsend] at h ⊢
          cases h
          exact ⟨rfl, rfl⟩
  · rw [put, buildPk_error hkey] at h
    cases h

/-- A read after the put finds what the put returned, which is what was
written. -/
theorem put_get (htextual : Textual p value)
    (h : (step layout p calls now table (.put key value opts)).1 = .written record)
    (later : ℤ) (consistent : Bool) :
    record.value = value ∧ record.expiresAt = resolveExpiry now opts ∧
      (step layout p calls later (step layout p calls now table (.put key value opts)).2
        (.get key consistent true)).1 = .found (some record) := by
  obtain ⟨hkey, hclean, version, rfl, hafter⟩ := put_written h
  rw [hafter, dynamo_get hkey, Table.put_self, toRecord_assemble ⟨hclean, htextual⟩]
  exact ⟨rfl, rfl, by rw [if_pos rfl, Option.map_some, toRecord_assemble ⟨hclean, htextual⟩]⟩

end PutGet

namespace ItemCodec

/-- An item gives back exactly the record it was built from unless a field
of the value is called `__proto__`, or the expiry is to go under that name.
Away from that name, a put is read back as it was written. -/
theorem item_round_trip_iff (layout : DynamoKvLayout) (key : String) (value : JsObject Json) :
    (∀ version expiresAt indexedKey item,
      buildItem layout key value version expiresAt indexedKey = .ok item →
      (toRecord layout item = ⟨value, version, expiresAt⟩ ↔
        JsObject.proto ∉ value.names ∧ ¬ (layout.ttlAttr = JsObject.proto ∧ expiresAt ≠ none))) ∧
    (JsObject.proto ∉ value.names → JsObject.proto ∉ layout.reserved →
      ∀ (p : Platform) calls now table opts record later consistent, Textual p value.get →
      (DynamoKvStore.step layout p calls now table (.put key value.get opts)).1 = .written record →
      record.value = value.get ∧ record.expiresAt = resolveExpiry now opts ∧
        (DynamoKvStore.step layout p calls later
          (DynamoKvStore.step layout p calls now table (.put key value.get opts)).2
          (.get key consistent true)).1 = .found (some record)) := by
  refine ⟨fun version expiresAt indexedKey item hbuild => ?_,
    fun _ _ p calls now table opts record later consistent htextual hput =>
      put_get htextual hput later consistent⟩
  obtain ⟨hclean, pk, -, hitem⟩ := buildItem_ok_iff.mp hbuild
  obtain ⟨hvalue, hversion, hexpires⟩ := toRecord_built hclean hitem
  have hkept : (value.properties.filter fun q => q.1 != JsObject.proto) = value.properties ↔
      JsObject.proto ∉ value.names := by
    rw [List.filter_eq_self]
    constructor
    · intro hall hmem
      obtain ⟨q, hq, hname⟩ := List.mem_map.mp hmem
      simpa [hname] using hall q hq
    · intro hnot q hq
      have hne : q.1 ≠ JsObject.proto := fun he => hnot (he ▸ List.mem_map_of_mem hq)
      simpa using hne
  constructor
  · intro h
    rw [h] at hvalue hexpires
    refine ⟨hkept.mp hvalue.symm, fun hproto => ?_⟩
    rw [if_pos hproto.1] at hexpires
    exact hproto.2 hexpires
  · rintro ⟨hnot, hexpiry⟩
    have hsame : (toRecord layout item).value = value :=
      JsObject.ext (hvalue.trans (hkept.mpr hnot))
    have hkeeps : (toRecord layout item).expiresAt = expiresAt := by
      rw [hexpires]
      split
      · rename_i hproto
        by_contra hne
        exact hexpiry ⟨hproto, fun he => hne he.symm⟩
      · rfl
    rw [← hsame, ← hversion, ← hkeeps]

end ItemCodec

namespace Small

/-- A value out of `JSON.parse` with a field called `__proto__`. -/
def polluted : JsObject Json := ⟨[("__proto__", .obj []), ("units", .num 5)], by decide⟩

theorem item_loses_proto : ¬ ∀ (layout : DynamoKvLayout) (key : String) (value : JsObject Json)
    version expiresAt indexedKey item,
    ItemCodec.buildItem layout key value version expiresAt indexedKey = .ok item →
    ItemCodec.toRecord layout item = ⟨value, version, expiresAt⟩ := by
  intro hclaim
  have hclean : ∀ field ∈ polluted.names, field ∉ layout.reserved := by decide
  have hbuild := ItemCodec.buildItem_ok_iff.mpr
    ⟨hclean, pkOf layout "job", buildPk_ok keyOk_job, @rfl _ (ItemCodec.withIndex layout "job" none
      (ItemCodec.withExpiry layout none (ItemCodec.base layout (pkOf layout "job") polluted 1)))⟩
  have hvalue := (ItemCodec.toRecord_built hclean rfl).1.symm.trans (congrArg
    (fun r => r.value.properties) (hclaim layout "job" polluted 1 none none _ hbuild))
  exact absurd (congrArg List.length hvalue) (by decide)

end Small

end SaasFoundation.Foundation.Kv
