import SaasFoundation.Foundation.Audit.PiiFilter
import SaasFoundation.Lib.JsonTree

/-!
# What the filter leaves

Nothing under a name of the denylist is in a scrubbed value, at any depth;
everything else is where it was. Scrubbing once is enough.
-/

namespace SaasFoundation.Foundation.Audit

open Lib

variable {N : Type}

/-- The name is on the denylist, in upper or lower case. -/
def Denied (toLowerCase : String → String) (options : PiiFilterOptions) (key : String) : Prop :=
  ∃ name ∈ options.keys.getD defaultPiiKeys ++ options.additionalKeys.getD [],
    toLowerCase key = toLowerCase name

instance (toLowerCase : String → String) (options : PiiFilterOptions) (key : String) :
    Decidable (Denied toLowerCase options key) :=
  inferInstanceAs (Decidable (∃ name ∈ _, _))

/-- An array as long, an object with the same names but for those that are
dropped, and a leaf that is the same. -/
def SameNode (toLowerCase : String → String) (options : PiiFilterOptions) :
    JsonValue N → JsonValue N → Prop
  | .arr xs, .arr ys => ys.length = xs.length
  | .obj fields, .obj left => left.map Prod.fst =
      match options.strategy.getD .redact with
      | .redact => fields.map Prod.fst
      | .drop => (fields.map Prod.fst).filter fun name => !decide (Denied toLowerCase options name)
  | v, w => w = v

/-! ## The loops -/

namespace PiiFilter

variable {toLowerCase : String → String} {filter : PiiFilter}

/-- What becomes of an entry. -/
def scrubField (toLowerCase : String → String) (filter : PiiFilter) (q : String × JsonValue N) :
    List (String × JsonValue N) :=
  if toLowerCase q.1 ∈ filter.denylist then
    match filter.strategy with
    | .redact => [(q.1, .str redactedSentinel)]
    | .drop => []
  else [(q.1, scrubValue toLowerCase filter q.2)]

theorem scrubField_denied {q : String × JsonValue N} (h : toLowerCase q.1 ∈ filter.denylist) :
    scrubField toLowerCase filter q =
      match filter.strategy with
      | .redact => [(q.1, .str redactedSentinel)]
      | .drop => [] := if_pos h

theorem scrubField_kept {q : String × JsonValue N} (h : toLowerCase q.1 ∉ filter.denylist) :
    scrubField toLowerCase filter q = [(q.1, scrubValue toLowerCase filter q.2)] := if_neg h

/-- An entry keeps its name. -/
theorem scrubField_name {q r : String × JsonValue N} (h : r ∈ scrubField toLowerCase filter q) :
    r.1 = q.1 := by
  by_cases hdenied : toLowerCase q.1 ∈ filter.denylist
  · rw [scrubField_denied hdenied] at h
    split at h
    · rw [List.mem_singleton.mp h]
    · cases h
  · rw [scrubField_kept hdenied] at h
    rw [List.mem_singleton.mp h]

theorem scrubField_names (q : String × JsonValue N) :
    ((scrubField toLowerCase filter q).map Prod.fst).Sublist [q.1] := by
  unfold scrubField
  split
  · split
    · exact List.Sublist.refl _
    · exact List.nil_sublist _
  · exact List.Sublist.refl _

theorem flatMap_names (fields : List (String × JsonValue N)) :
    ((fields.flatMap (scrubField toLowerCase filter)).map Prod.fst).Sublist
      (fields.map Prod.fst) := by
  induction fields with
  | nil => exact List.Sublist.refl _
  | cons q fields ih =>
      rw [List.flatMap_cons, List.map_append, List.map_cons]
      exact (scrubField_names q).append ih

theorem scrubElements_eq (xs : List (JsonValue N)) :
    scrubElements toLowerCase filter xs = xs.map (scrubValue toLowerCase filter) := by
  induction xs with
  | nil => rfl
  | cons x xs ih => rw [scrubElements, ih, List.map_cons]

/-- Names that are new are put at the end. -/
theorem scrubFields_eq (fields : List (String × JsonValue N)) (out : JsObject (JsonValue N))
    (hnodup : (out.names ++ fields.map Prod.fst).Nodup)
    (hproto : JsObject.proto ∉ fields.map Prod.fst) :
    (scrubFields toLowerCase filter fields out).properties =
      out.properties ++ fields.flatMap (scrubField toLowerCase filter) := by
  induction fields generalizing out with
  | nil => simp [scrubFields]
  | cons q fields ih =>
      obtain ⟨key, value⟩ := q
      rw [List.map_cons, List.mem_cons, not_or] at hproto
      rw [List.map_cons, List.nodup_append] at hnodup
      obtain ⟨hout, hfields, hdisjoint⟩ := hnodup
      have hnew : key ∉ out.names := fun hmem => hdisjoint key hmem key List.mem_cons_self rfl
      -- the rest goes on with one property more
      have hset : ∀ v, (out.assign key v).properties = out.properties ++ [(key, v)] := by
        intro v
        rw [JsObject.assign_of_ne (Ne.symm hproto.1)]
        exact setProperty_new hnew
      have hrest : ∀ v, (scrubFields toLowerCase filter fields (out.assign key v)).properties =
          out.properties ++ (key, v) :: fields.flatMap (scrubField toLowerCase filter) := by
        intro v
        rw [ih _ ?_ hproto.2, hset, List.append_assoc]
        · rfl
        · rw [JsObject.names, hset, List.map_append, List.append_assoc]
          exact List.nodup_append.mpr ⟨hout, hfields, hdisjoint⟩
      have hskip : (scrubFields toLowerCase filter fields out).properties =
          out.properties ++ fields.flatMap (scrubField toLowerCase filter) := by
        refine ih out ?_ hproto.2
        rw [List.nodup_append]
        exact ⟨hout, (List.nodup_cons.mp hfields).2,
          fun a ha b hb => hdisjoint a ha b (List.mem_cons_of_mem _ hb)⟩
      rw [List.flatMap_cons, scrubFields, scrubField]
      split
      · cases filter.strategy with
        | redact => exact hrest _
        | drop => exact hskip
      · exact hrest _

theorem scrubValue_obj {fields : List (String × JsonValue N)} (h : OwnNames (.obj fields)) :
    scrubValue toLowerCase filter (.obj fields) =
      .obj (fields.flatMap (scrubField toLowerCase filter)) := by
  obtain ⟨hnodup, hproto⟩ := h fields .self
  rw [scrubValue, scrubFields_eq fields .empty hnodup hproto]
  rfl

theorem scrubValue_arr (xs : List (JsonValue N)) :
    scrubValue toLowerCase filter (.arr xs) =
      .arr (xs.map (scrubValue toLowerCase filter)) := by
  rw [scrubValue, scrubElements_eq]

/-- A leaf stays as it is. -/
theorem scrubValue_leaf {v : JsonValue N} (harr : ∀ xs, v ≠ .arr xs)
    (hobj : ∀ fields, v ≠ .obj fields) : scrubValue toLowerCase filter v = v := by
  cases v with
  | arr xs => exact absurd rfl (harr xs)
  | obj fields => exact absurd rfl (hobj fields)
  | _ => rfl

/-! ## Nothing is left -/

/-- In what is left of an object a name of the denylist has the sentinel. -/
theorem mem_scrubFields {fields : List (String × JsonValue N)} {out : JsObject (JsonValue N)}
    {r : String × JsonValue N}
    (h : r ∈ (scrubFields toLowerCase filter fields out).properties) :
    r ∈ out.properties ∨ ∃ q ∈ fields, r ∈ scrubField toLowerCase filter q := by
  have hassign : ∀ (key : String) (v : JsonValue N) (out : JsObject (JsonValue N)),
      r ∈ (out.assign key v).properties → r = (key, v) ∨ r ∈ out.properties := by
    intro key v out h
    unfold JsObject.assign at h
    split at h
    · exact .inr h
    · exact mem_setProperty h
  induction fields generalizing out with
  | nil => exact .inl h
  | cons q fields ih =>
      obtain ⟨key, value⟩ := q
      rw [scrubFields] at h
      by_cases hdenied : toLowerCase key ∈ filter.denylist
      · rw [if_pos hdenied] at h
        have hfield : scrubField toLowerCase filter (key, value) = _ := scrubField_denied hdenied
        cases hstrategy : filter.strategy with
        | redact =>
            rw [hstrategy] at h hfield
            rcases ih h with hout | ⟨q, hq, hr⟩
            · rcases hassign _ _ _ hout with rfl | hout
              · exact .inr ⟨_, List.mem_cons_self, by rw [hfield]; exact List.mem_cons_self⟩
              · exact .inl hout
            · exact .inr ⟨q, List.mem_cons_of_mem _ hq, hr⟩
        | drop =>
            rw [hstrategy] at h
            rcases ih h with hout | ⟨q, hq, hr⟩
            · exact .inl hout
            · exact .inr ⟨q, List.mem_cons_of_mem _ hq, hr⟩
      · rw [if_neg hdenied] at h
        have hfield : scrubField toLowerCase filter (key, value) = _ := scrubField_kept hdenied
        rcases ih h with hout | ⟨q, hq, hr⟩
        · rcases hassign _ _ _ hout with rfl | hout
          · exact .inr ⟨_, List.mem_cons_self, by rw [hfield]; exact List.mem_cons_self⟩
          · exact .inl hout
        · exact .inr ⟨q, List.mem_cons_of_mem _ hq, hr⟩

/-- At every depth. -/
theorem within_scrubbed {fields : List (String × JsonValue N)} (v : JsonValue N)
    (h : Within (.obj fields) (scrubValue toLowerCase filter v)) {r : String × JsonValue N}
    (hr : r ∈ fields) (hdenied : toLowerCase r.1 ∈ filter.denylist) :
    filter.strategy = .redact ∧ r.2 = .str redactedSentinel := by
  induction v using value_induction with
  | leaf v harr hobj =>
      rw [scrubValue_leaf harr hobj] at h
      cases h with
      | self => exact absurd rfl (hobj fields)
      | element => exact absurd rfl (harr _)
      | field => exact absurd rfl (hobj _)
  | arr xs ih =>
      rw [scrubValue_arr] at h
      cases h with
      | element hx hwithin =>
          obtain ⟨x, hx', rfl⟩ := List.mem_map.mp hx
          exact ih x hx' hwithin
  | obj input ih =>
      rw [scrubValue] at h
      cases h with
      | self =>
          rcases mem_scrubFields hr with hout | ⟨q, -, hfield⟩
          · cases hout
          · rw [scrubField_name hfield] at hdenied
            rw [scrubField_denied hdenied] at hfield
            cases hstrategy : filter.strategy with
            | redact =>
                rw [hstrategy] at hfield
                rw [List.mem_singleton.mp hfield]
                exact ⟨rfl, rfl⟩
            | drop =>
                rw [hstrategy] at hfield
                cases hfield
      | field hq hwithin =>
          rcases mem_scrubFields hq with hout | ⟨p, hp, hfield⟩
          · cases hout
          · by_cases hkept : toLowerCase p.1 ∈ filter.denylist
            · rw [scrubField_denied hkept] at hfield
              split at hfield
              · rw [List.mem_singleton.mp hfield] at hwithin
                cases hwithin
              · cases hfield
            · rw [scrubField_kept hkept] at hfield
              rw [List.mem_singleton.mp hfield] at hwithin
              exact ih p hp hwithin

/-! ## Once is enough -/

theorem scrubField_again {q : String × JsonValue N}
    (ih : scrubValue toLowerCase filter (scrubValue toLowerCase filter q.2) =
      scrubValue toLowerCase filter q.2) :
    (scrubField toLowerCase filter q).flatMap (scrubField toLowerCase filter) =
      scrubField toLowerCase filter q := by
  by_cases hdenied : toLowerCase q.1 ∈ filter.denylist
  · rw [scrubField_denied hdenied]
    split
    · rename_i hstrategy
      rw [List.flatMap_singleton,
        scrubField_denied (q := (q.1, .str redactedSentinel)) hdenied, hstrategy]
    · rfl
  · rw [scrubField_kept hdenied, List.flatMap_singleton,
      scrubField_kept (q := (q.1, scrubValue toLowerCase filter q.2)) hdenied, ih]

theorem scrubValue_again (v : JsonValue N) (h : OwnNames v) :
    scrubValue toLowerCase filter (scrubValue toLowerCase filter v) =
      scrubValue toLowerCase filter v := by
  induction v using value_induction with
  | leaf v harr hobj => rw [scrubValue_leaf harr hobj, scrubValue_leaf harr hobj]
  | arr xs ih =>
      rw [scrubValue_arr, scrubValue_arr, List.map_map]
      congr 1
      exact List.map_congr_left fun x hx => ih x hx (h.element hx)
  | obj fields ih =>
      have hnames := @flatMap_names N toLowerCase filter fields
      obtain ⟨hnodup, hproto⟩ := h fields .self
      rw [scrubValue_obj h, scrubValue, scrubFields_eq _ .empty (hnodup.sublist hnames)
        fun hmem => hproto (hnames.subset hmem)]
      show JsonValue.obj (List.flatMap _ _) = _
      rw [List.flatMap_assoc]
      congr 1
      exact List.flatMap_congr fun q hq => scrubField_again (ih q hq (h.field hq))

/-! ## Everything else -/

/-- An entry that is kept is found where it was. -/
theorem lookup_flatMap {fields : List (String × JsonValue N)} {name : String}
    (hkept : toLowerCase name ∉ filter.denylist) :
    (fields.flatMap (scrubField toLowerCase filter)).lookup name =
      (fields.lookup name).map (scrubValue toLowerCase filter) := by
  induction fields with
  | nil => rfl
  | cons q fields ih =>
      rw [List.flatMap_cons, List.lookup_append, ih, List.lookup_cons]
      by_cases hq : name = q.1
      · subst hq
        rw [scrubField_kept hkept]
        simp
      · have hnone : (scrubField toLowerCase filter q).lookup name = none := by
          rw [lookup_eq_none_iff]
          intro hmem
          exact hq (List.mem_singleton.mp ((scrubField_names q).subset hmem))
        rw [hnone, beq_eq_false_iff_ne.mpr hq]
        rfl

end PiiFilter

section Options

variable {toLowerCase : String → String} {options : PiiFilterOptions}

theorem mem_denylist {key : String} :
    toLowerCase key ∈ (PiiFilter.new toLowerCase options).denylist ↔
      Denied toLowerCase options key := by
  simp only [PiiFilter.new, List.mem_map, Denied, eq_comm]

/-- The names that are left of an object. -/
theorem scrubbed_names (fields : List (String × JsonValue N)) :
    (fields.flatMap ((PiiFilter.new toLowerCase options).scrubField toLowerCase)).map Prod.fst =
      match options.strategy.getD .redact with
      | .redact => fields.map Prod.fst
      | .drop => (fields.map Prod.fst).filter fun name =>
          !decide (Denied toLowerCase options name) := by
  induction fields with
  | nil => cases options.strategy.getD .redact <;> rfl
  | cons q fields ih =>
      have hstrategy : (PiiFilter.new toLowerCase options).strategy =
          options.strategy.getD .redact := rfl
      rw [List.flatMap_cons, List.map_append, ih, List.map_cons]
      by_cases hdenied : Denied toLowerCase options q.1
      · rw [PiiFilter.scrubField_denied (mem_denylist.mpr hdenied), hstrategy]
        cases options.strategy.getD .redact <;> simp [hdenied]
      · rw [PiiFilter.scrubField_kept (mt mem_denylist.mp hdenied)]
        cases options.strategy.getD .redact <;> simp [hdenied]

theorem sameNode_leaf {v : JsonValue N} (harr : ∀ xs, v ≠ .arr xs)
    (hobj : ∀ fields, v ≠ .obj fields) : SameNode toLowerCase options v v := by
  cases v with
  | arr xs => exact absurd rfl (harr xs)
  | obj fields => exact absurd rfl (hobj fields)
  | _ => rfl

/-- A path that passes through no name of the denylist leads to the same
node. -/
theorem scrubbed_at (path : List PathStep) (v : JsonValue N) (hv : OwnNames v)
    (hpath : ∀ name, .key name ∈ path → ¬ Denied toLowerCase options name) :
    Option.Rel (SameNode toLowerCase options) (valueAt v path)
      (valueAt ((PiiFilter.new toLowerCase options).scrubValue toLowerCase v) path) := by
  induction path generalizing v with
  | nil =>
      refine .some ?_
      induction v using value_induction with
      | leaf v harr hobj =>
          rw [PiiFilter.scrubValue_leaf harr hobj]
          exact sameNode_leaf harr hobj
      | arr xs _ =>
          rw [PiiFilter.scrubValue_arr]
          exact List.length_map _
      | obj fields _ =>
          rw [PiiFilter.scrubValue_obj hv]
          exact scrubbed_names fields
  | cons step path ih =>
      have hrest : ∀ name, .key name ∈ path → ¬ Denied toLowerCase options name :=
        fun name hname => hpath name (List.mem_cons_of_mem _ hname)
      induction v using value_induction with
      | leaf v harr hobj =>
          rw [PiiFilter.scrubValue_leaf harr hobj]
          rw [valueAt_leaf harr hobj]
          exact .none
      | arr xs _ =>
          rw [PiiFilter.scrubValue_arr]
          cases step with
          | key name => exact .none
          | index i =>
              simp only [valueAt, List.getElem?_map]
              cases hx : xs[i]? with
              | none => exact .none
              | some x => exact ih x (hv.element (List.mem_of_getElem? hx)) hrest
      | obj fields _ =>
          rw [PiiFilter.scrubValue_obj hv]
          cases step with
          | index i => exact .none
          | key name =>
              have hkept := mt mem_denylist.mp (hpath name List.mem_cons_self)
              simp only [valueAt, PiiFilter.lookup_flatMap hkept]
              cases hx : fields.lookup name with
              | none => exact .none
              | some x =>
                  have hmem := (lookup_eq_some_iff_mem (hv fields .self).1).mp hx
                  exact ih x (hv.field hmem) hrest

end Options

/-- No name of the denylist is left with a value of its own, and none at all
where they are dropped; whatever is not under such a name is where it was;
and the filter changes nothing in what it has filtered. -/
theorem pii_removed (toLowerCase : String → String) (options : PiiFilterOptions)
    (metadata : JsObject (JsonValue N)) (h : OwnNames (.obj metadata.properties)) :
    let filter := PiiFilter.new toLowerCase options
    let out := filter.apply toLowerCase metadata
    (∀ fields, Within (.obj fields) (.obj out.properties) → ∀ q ∈ fields,
      Denied toLowerCase options q.1 →
        options.strategy.getD .redact = .redact ∧ q.2 = .str "[REDACTED]") ∧
    (∀ path, (∀ name, .key name ∈ path → ¬ Denied toLowerCase options name) →
      Option.Rel (SameNode toLowerCase options) (valueAt (.obj metadata.properties) path)
        (valueAt (.obj out.properties) path)) ∧
    filter.apply toLowerCase out = out := by
  refine ⟨?_, ?_, ?_⟩
  · intro fields hwithin q hq hdenied
    exact PiiFilter.within_scrubbed (.obj metadata.properties) hwithin hq (mem_denylist.mpr hdenied)
  · exact fun path => scrubbed_at path (.obj metadata.properties) h
  · have hagain := @PiiFilter.scrubValue_again N toLowerCase
      (PiiFilter.new toLowerCase options) _ h
    exact JsObject.ext (JsonValue.obj.inj hagain)

namespace Small

def metadata : JsObject (JsonValue Nat) :=
  ⟨[("user", .obj [("Password", .str "s3cret"), ("name", .str "bob")]), ("tags", .arr [.num 1])],
    by decide⟩

theorem metadata_ownNames : OwnNames (.obj metadata.properties) := by
  intro fields h
  have hcases : fields = metadata.properties ∨
      fields = [("Password", .str "s3cret"), ("name", .str "bob")] := by
    cases h with
    | self => exact .inl rfl
    | field hq hwithin =>
        simp only [metadata, List.mem_cons, List.not_mem_nil, or_false] at hq
        rcases hq with rfl | rfl
        · cases hwithin with
          | self => exact .inr rfl
          | field hq hwithin =>
              simp only [List.mem_cons, List.not_mem_nil, or_false] at hq
              rcases hq with rfl | rfl <;> cases hwithin
        · cases hwithin with
          | element hx hwithin =>
              rw [List.mem_singleton.mp hx] at hwithin
              cases hwithin
  rcases hcases with rfl | rfl <;> decide

/-- The password is gone, and the name is left. -/
theorem pii_removed_once :
    let lower := fun s : String => String.ofList (s.toList.map Char.toLower)
    let out := (PiiFilter.new lower { strategy := some .drop }).apply lower metadata
    valueAt (.obj out.properties) [.key "user"] = some (.obj [("name", .str "bob")]) ∧
      (∀ fields, Within (.obj fields) (.obj out.properties) → ∀ q ∈ fields,
        Denied lower { strategy := some .drop } q.1 → False) := by
  refine ⟨rfl, ?_⟩
  intro fields hwithin q hq hdenied
  have hnone := (pii_removed (fun s => String.ofList (s.toList.map Char.toLower))
    { strategy := some .drop } metadata metadata_ownNames).1 fields hwithin q hq hdenied
  cases hnone.1

end Small

end SaasFoundation.Foundation.Audit
