import SaasFoundation.Lib.JsonText

/-!
# Documents as trees

What lies in a document, and where: the values within a value, the value at
the end of a path, and induction over the parts.
-/

namespace SaasFoundation.Lib

variable {N : Type}

/-- The first value lies in the second, at some depth. -/
inductive Within (w : JsonValue N) : JsonValue N → Prop
  | self : Within w w
  | element {x : JsonValue N} {xs : List (JsonValue N)} :
      x ∈ xs → Within w x → Within w (.arr xs)
  | field {q : String × JsonValue N} {fields : List (String × JsonValue N)} :
      q ∈ fields → Within w q.2 → Within w (.obj fields)

/-- Every object has each of its names once, and none of them is
`__proto__`. -/
def OwnNames (v : JsonValue N) : Prop :=
  ∀ fields, Within (.obj fields) v →
    (fields.map Prod.fst).Nodup ∧ JsObject.proto ∉ fields.map Prod.fst

inductive PathStep where
  | index (i : Nat)
  | key (name : String)

def valueAt : JsonValue N → List PathStep → Option (JsonValue N)
  | v, [] => some v
  | .arr xs, .index i :: path => xs[i]?.bind (valueAt · path)
  | .obj fields, .key name :: path => (fields.lookup name).bind (valueAt · path)
  | _, _ :: _ => none

theorem OwnNames.element {x : JsonValue N} {xs : List (JsonValue N)} (h : OwnNames (.arr xs))
    (hx : x ∈ xs) : OwnNames x := fun fields hfields => h fields (.element hx hfields)

theorem OwnNames.field {q : String × JsonValue N} {fields : List (String × JsonValue N)}
    (h : OwnNames (.obj fields)) (hq : q ∈ fields) : OwnNames q.2 :=
  fun fields' hfields => h fields' (.field hq hfields)

/-- What holds of a value when it holds of its parts holds of every value. -/
theorem value_induction {P : JsonValue N → Prop}
    (leaf : ∀ v, (∀ xs, v ≠ .arr xs) → (∀ fields, v ≠ .obj fields) → P v)
    (arr : ∀ xs, (∀ x ∈ xs, P x) → P (.arr xs))
    (obj : ∀ fields : List (String × JsonValue N), (∀ q ∈ fields, P q.2) → P (.obj fields)) :
    ∀ v, P v
  | .null => leaf _ (by simp) (by simp)
  | .bool _ => leaf _ (by simp) (by simp)
  | .num _ => leaf _ (by simp) (by simp)
  | .str _ => leaf _ (by simp) (by simp)
  | .arr xs => arr xs fun x hx => value_induction leaf arr obj x
  | .obj fields => obj fields fun q hq => value_induction leaf arr obj q.2
termination_by v => sizeOf v
decreasing_by
  · have hsize := List.sizeOf_lt_of_mem hx
    rw [JsonValue.arr.sizeOf_spec]
    omega
  · have hsize := List.sizeOf_lt_of_mem hq
    have hpair : sizeOf q.2 < sizeOf q := by
      cases q with
      | mk name v =>
        show sizeOf v < sizeOf (name, v)
        rw [Prod.mk.sizeOf_spec]
        omega
    rw [JsonValue.obj.sizeOf_spec]
    omega

theorem valueAt_leaf {v : JsonValue N} (harr : ∀ xs, v ≠ .arr xs)
    (hobj : ∀ fields, v ≠ .obj fields) (step : PathStep) (path : List PathStep) :
    valueAt v (step :: path) = none := by
  cases v with
  | arr xs => exact absurd rfl (harr xs)
  | obj fields => exact absurd rfl (hobj fields)
  | _ => cases step <;> rfl

end SaasFoundation.Lib
