import Mathlib.Data.List.Nodup

/-!
# Histories of a cell

What a cell has held, newest first. A guarded write compares a tag of what
it read with the tag of what is there. Where no tag is used twice, the tags
agree only if nothing was written in between: optimistic concurrency on
tags is optimistic concurrency on states.
-/

namespace SaasFoundation.Lib

variable {α τ : Type}

/-- Distinct tags identify the moment of a history. -/
theorem history_eq_of_tag {old new : List α} (tag : α → τ) (hsuffix : old <:+ new)
    (hdistinct : (new.map tag).Nodup) (htag : old.head?.map tag = new.head?.map tag) :
    old = new := by
  obtain ⟨between, rfl⟩ := hsuffix
  cases between with
  | nil => rfl
  | cons x xs =>
      exfalso
      cases old with
      | nil => cases htag
      | cons y ys =>
          -- the newest tag was already that of an older entry
          have hsame : tag y = tag x := Option.some.inj htag
          rw [List.cons_append, List.map_cons, List.nodup_cons] at hdistinct
          apply hdistinct.1
          rw [← hsame]
          exact List.mem_map_of_mem (List.mem_append_right _ List.mem_cons_self)

/-- The last element with a property is the same however the list is cut
there. -/
theorem last_unique {P : α → Prop} {l₁ l₂ l₃ l₄ : List α} {x y : α}
    (h : l₁ ++ x :: l₂ = l₃ ++ y :: l₄) (hx : P x) (hy : P y) (hl₂ : ∀ z ∈ l₂, ¬ P z)
    (hl₄ : ∀ z ∈ l₄, ¬ P z) : x = y := by
  rcases List.append_eq_append_iff.mp h with ⟨as, -, hrest⟩ | ⟨as, -, hrest⟩
  · cases as with
    | nil =>
        cases hrest
        rfl
    | cons a as =>
        cases hrest
        exact absurd hy (hl₂ y (List.mem_append_right _ List.mem_cons_self))
  · cases as with
    | nil =>
        cases hrest
        rfl
    | cons a as =>
        cases hrest
        exact absurd hx (hl₄ x (List.mem_append_right _ List.mem_cons_self))

end SaasFoundation.Lib
