import SaasFoundation.Lib.JsonText

/-!
# Documents written and read again

Whatever `JSON.parse` returns has no name twice in an object. Of such a
document, writing it and reading the text again loses only what JSON has no
text for: a number that is not finite comes back as `null`, the negative zero
as zero.
-/

namespace SaasFoundation.Lib.JsonText

open JsNumbers

variable {N : Type} [JsNumbers N]

/-- Reading the text of a number again and again makes no difference. -/
class RereadNumbers (N : Type) [JsNumbers N] : Prop where
  isFinite_reread : ∀ n : N, isFinite n = true → isFinite (ofLiteral (text n) : N) = true
  text_reread : ∀ n : N, isFinite n = true → text (ofLiteral (text n) : N) = text n

mutual
/-- The document that is read from the text of this one. -/
def reread : JsonValue N → JsonValue N
  | .num n => if isFinite n then .num (ofLiteral (text n)) else .null
  | .arr xs => .arr (rereadElements xs)
  | .obj qs => .obj (rereadFields qs)
  | v => v
def rereadElements : List (JsonValue N) → List (JsonValue N)
  | [] => []
  | x :: xs => reread x :: rereadElements xs
def rereadFields : List (String × JsonValue N) → List (String × JsonValue N)
  | [] => []
  | (name, v) :: qs => (name, reread v) :: rereadFields qs
end

mutual
/-- No object has a name twice. -/
def DistinctNames : JsonValue N → Prop
  | .arr xs => DistinctElements xs
  | .obj qs => (qs.map Prod.fst).Nodup ∧ DistinctFields qs
  | _ => True
def DistinctElements : List (JsonValue N) → Prop
  | [] => True
  | x :: xs => DistinctNames x ∧ DistinctElements xs
def DistinctFields : List (String × JsonValue N) → Prop
  | [] => True
  | (_, v) :: qs => DistinctNames v ∧ DistinctFields qs
end

/-- What becomes of a number. -/
theorem reread_num (n : N) :
    (∃ m, reread (.num n : JsonValue N) = .num m) ∨ reread (.num n : JsonValue N) = .null := by
  rw [reread]
  split
  · exact .inl ⟨_, rfl⟩
  · exact .inr rfl

theorem rereadFields_names (qs : List (String × JsonValue N)) :
    (rereadFields qs).map Prod.fst = qs.map Prod.fst := by
  induction qs with
  | nil => rfl
  | cons q qs ih => rw [rereadFields, List.map_cons, List.map_cons, ih]

theorem rereadElements_eq (xs : List (JsonValue N)) : rereadElements xs = xs.map reread := by
  induction xs with
  | nil => rfl
  | cons x xs ih => rw [rereadElements, List.map_cons, ih]

theorem lookup_rereadFields (qs : List (String × JsonValue N)) (name : String) :
    (rereadFields qs).lookup name = (qs.lookup name).map reread := by
  induction qs with
  | nil => rfl
  | cons q qs ih =>
      obtain ⟨other, v⟩ := q
      rw [rereadFields, List.lookup_cons, List.lookup_cons, ih]
      cases name == other <;> rfl

section Faithful

open RereadNumbers

mutual
theorem faithful_reread [RereadNumbers N] (v : JsonValue N) (hv : DistinctNames v) : Faithful (reread v) := by
  match v with
  | .null | .bool _ | .str _ => trivial
  | .num n =>
      rw [reread]
      split
      · rename_i hfinite
        refine ⟨isFinite_reread n hfinite, ?_⟩
        rw [text_reread n hfinite]
      · trivial
  | .arr xs => exact faithful_rereadElements xs hv
  | .obj qs =>
      obtain ⟨hnodup, hqs⟩ := hv
      exact ⟨by rwa [rereadFields_names], faithful_rereadFields qs hqs⟩
theorem faithful_rereadElements [RereadNumbers N] (xs : List (JsonValue N)) (hxs : DistinctElements xs) :
    FaithfulElements (rereadElements xs) := by
  match xs with
  | [] => trivial
  | x :: xs => exact ⟨faithful_reread x hxs.1, faithful_rereadElements xs hxs.2⟩
theorem faithful_rereadFields [RereadNumbers N] (qs : List (String × JsonValue N)) (hqs : DistinctFields qs) :
    FaithfulFields (rereadFields qs) := by
  match qs with
  | [] => trivial
  | (_, v) :: qs => exact ⟨faithful_reread v hqs.1, faithful_rereadFields qs hqs.2⟩
end

mutual
/-- The two documents have one text. -/
theorem stringify_reread [RereadNumbers N] (v : JsonValue N) : stringify (reread v) = stringify v := by
  match v with
  | .null | .bool _ | .str _ => rfl
  | .num n =>
      rw [reread]
      split
      · rename_i hfinite
        rw [stringify, stringify, if_pos (isFinite_reread n hfinite), if_pos hfinite,
          text_reread n hfinite]
      · rename_i hfinite
        rw [stringify, stringify, if_neg hfinite]
  | .arr [] => rfl
  | .arr (x :: xs) =>
      rw [reread, rereadElements, stringify, stringify, stringify_reread x,
        stringifyElements_reread xs]
  | .obj [] => rfl
  | .obj ((name, v) :: qs) =>
      rw [reread, rereadFields, stringify, stringify, stringifyField, stringifyField,
        stringify_reread v, stringifyFields_reread qs]
theorem stringifyElements_reread [RereadNumbers N] (xs : List (JsonValue N)) :
    stringifyElements (rereadElements xs) = stringifyElements xs := by
  match xs with
  | [] => rfl
  | x :: xs =>
      rw [rereadElements, stringifyElements, stringifyElements, stringify_reread x,
        stringifyElements_reread xs]
theorem stringifyFields_reread [RereadNumbers N] (qs : List (String × JsonValue N)) :
    stringifyFields (rereadFields qs) = stringifyFields qs := by
  match qs with
  | [] => rfl
  | (name, v) :: qs =>
      rw [rereadFields, stringifyFields, stringifyFields, stringifyField, stringifyField,
        stringify_reread v, stringifyFields_reread qs]
end

/-- What was written is read back as the document without what JSON has no
text for. -/
theorem parse_stringify_reread [RereadNumbers N] {v : JsonValue N} (hv : DistinctNames v) :
    parse (stringify v) = some (reread v) := by
  rw [← stringify_reread v]
  exact parse_stringify (faithful_reread v hv)

end Faithful

/-! ## What is read has no name twice -/

omit [JsNumbers N] in
theorem distinctFields_setProperty {name : String} {v : JsonValue N}
    {o : List (String × JsonValue N)} (hv : DistinctNames v) (ho : DistinctFields o) :
    DistinctFields (setProperty name v o) := by
  induction o with
  | nil => exact ⟨hv, trivial⟩
  | cons q o ih =>
      obtain ⟨other, w⟩ := q
      rw [setProperty]
      split
      · exact ⟨hv, ho.2⟩
      · exact ⟨ho.1, ih ho.2⟩

omit [JsNumbers N] in
theorem distinct_ownFields {qs : List (String × JsonValue N)} (hqs : DistinctFields qs) :
    DistinctNames (.obj (ownFields qs) : JsonValue N) := by
  have hfold : ∀ (qs o : List (String × JsonValue N)), DistinctFields qs →
      (o.map Prod.fst).Nodup → DistinctFields o →
      DistinctNames (.obj (qs.foldl (fun o q => setProperty q.1 q.2 o) o) : JsonValue N) := by
    intro qs
    induction qs with
    | nil => exact fun o _ hnodup ho => ⟨hnodup, ho⟩
    | cons q qs ih =>
        intro o hqs hnodup ho
        exact ih _ hqs.2 (setProperty_nodup hnodup) (distinctFields_setProperty hqs.1 ho)
  exact hfold qs [] hqs List.nodup_nil trivial

theorem parseLiteral_distinct {cs rest : List Char} {v : JsonValue N}
    (h : parseLiteral cs = some (v, rest)) : DistinctNames v := by
  unfold parseLiteral at h
  split at h
  · cases h
    trivial
  · cases h
    trivial
  · cases h
    trivial
  · obtain ⟨p, -, hp⟩ := Option.map_eq_some_iff.mp h
    cases hp
    trivial

/-- The four readers, with as much fuel as they are given. -/
structure ReadsDistinct (N : Type) [JsNumbers N] (fuel : Nat) : Prop where
  value : ∀ {cs rest} {v : JsonValue N}, parseValue fuel cs = some (v, rest) → DistinctNames v
  elements : ∀ {cs rest} {xs : List (JsonValue N)},
    parseElements fuel cs = some (xs, rest) → DistinctElements xs
  field : ∀ {cs rest} {q : String × JsonValue N},
    parseField fuel cs = some (q, rest) → DistinctNames q.2
  fields : ∀ {cs rest} {qs : List (String × JsonValue N)},
    parseFields fuel cs = some (qs, rest) → DistinctFields qs

theorem readsDistinct_value {fuel : Nat} (ih : ReadsDistinct N fuel) {cs rest : List Char}
    {v : JsonValue N} (h : parseValue (fuel + 1) cs = some (v, rest)) : DistinctNames v := by
  rw [parseValue] at h
  split at h
  · obtain ⟨p, -, hp⟩ := Option.map_eq_some_iff.mp h
    cases hp
    trivial
  · split at h
    · cases h
      trivial
    · simp only [Option.bind_eq_bind, Option.bind_eq_some_iff] at h
      obtain ⟨⟨x, rest₁⟩, hx, ⟨xs, rest₂⟩, hxs, heq⟩ := h
      cases heq
      exact ⟨ih.value hx, ih.elements hxs⟩
  · split at h
    · cases h
      exact ⟨List.nodup_nil, trivial⟩
    · simp only [Option.bind_eq_bind, Option.bind_eq_some_iff] at h
      obtain ⟨⟨q, rest₁⟩, hq, ⟨qs, rest₂⟩, hqs, heq⟩ := h
      cases heq
      exact distinct_ownFields ⟨ih.field hq, ih.fields hqs⟩
  · exact parseLiteral_distinct h

theorem readsDistinct_elements {fuel : Nat} (ih : ReadsDistinct N fuel) {cs rest : List Char}
    {xs : List (JsonValue N)} (h : parseElements (fuel + 1) cs = some (xs, rest)) :
    DistinctElements xs := by
  rw [parseElements] at h
  split at h
  · cases h
    trivial
  · simp only [Option.bind_eq_bind, Option.bind_eq_some_iff] at h
    obtain ⟨⟨x, rest₁⟩, hx, ⟨xs, rest₂⟩, hxs, heq⟩ := h
    cases heq
    exact ⟨ih.value hx, ih.elements hxs⟩
  · cases h

theorem readsDistinct_field {fuel : Nat} (ih : ReadsDistinct N fuel) {cs rest : List Char}
    {q : String × JsonValue N} (h : parseField (fuel + 1) cs = some (q, rest)) :
    DistinctNames q.2 := by
  rw [parseField] at h
  split at h
  · simp only [Option.bind_eq_bind, Option.bind_eq_some_iff] at h
    obtain ⟨⟨name, rest₁⟩, -, h⟩ := h
    split at h
    · obtain ⟨⟨v, rest₂⟩, hv, heq⟩ := Option.bind_eq_some_iff.mp h
      cases heq
      exact ih.value hv
    · cases h
  · cases h

theorem readsDistinct_fields {fuel : Nat} (ih : ReadsDistinct N fuel) {cs rest : List Char}
    {qs : List (String × JsonValue N)} (h : parseFields (fuel + 1) cs = some (qs, rest)) :
    DistinctFields qs := by
  rw [parseFields] at h
  split at h
  · cases h
    trivial
  · simp only [Option.bind_eq_bind, Option.bind_eq_some_iff] at h
    obtain ⟨⟨q, rest₁⟩, hq, ⟨qs, rest₂⟩, hqs, heq⟩ := h
    cases heq
    exact ⟨ih.field hq, ih.fields hqs⟩
  · cases h

theorem readsDistinct (fuel : Nat) : ReadsDistinct N fuel := by
  induction fuel with
  | zero =>
      constructor <;> intro cs rest v h
      · rw [parseValue] at h
        cases h
      · rw [parseElements] at h
        cases h
      · rw [parseField] at h
        cases h
      · rw [parseFields] at h
        cases h
  | succ fuel ih =>
      exact ⟨readsDistinct_value ih, readsDistinct_elements ih, readsDistinct_field ih,
        readsDistinct_fields ih⟩

theorem parse_distinct {cs : List Char} {v : JsonValue N} (h : parse cs = some v) :
    DistinctNames v := by
  unfold parse at h
  split at h
  · rename_i w rest hread
    split at h
    · cases h
      exact (readsDistinct _).value hread
    · cases h
  · cases h

end SaasFoundation.Lib.JsonText
