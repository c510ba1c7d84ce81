import Mathlib.Data.List.Basic

/-!
# Numbered slots

A list as a growing row of slots: one is added at the end, or one that is
there is overwritten. A slot is known by its number.
-/

namespace SaasFoundation.Lib.Slots

variable {α : Type} {slots : List α} {new x : α} {i j : Nat}

theorem lt_of_some (h : slots[i]? = some x) : i < slots.length :=
  (List.getElem?_eq_some_iff.mp h).1

/-- A slot of the extended row is the new one or an old one. -/
theorem snoc_cases (h : (slots ++ [new])[i]? = some x) :
    slots[i]? = some x ∨ i = slots.length ∧ x = new := by
  rcases Nat.lt_or_ge i slots.length with hlt | hge
  · exact .inl (by rwa [List.getElem?_append_left hlt] at h)
  · rw [List.getElem?_append_right hge, List.getElem?_singleton] at h
    split at h
    · cases h
      exact .inr ⟨by omega, rfl⟩
    · cases h

theorem snoc_keeps (new : α) (h : slots[i]? = some x) : (slots ++ [new])[i]? = some x := by
  rw [List.getElem?_append_left (lt_of_some h), h]

/-- A slot of the row that was written to is the one written or as it was. -/
theorem set_cases (h : (slots.set i new)[j]? = some x) :
    j ≠ i ∧ slots[j]? = some x ∨ j = i ∧ x = new := by
  by_cases hij : i = j
  · subst hij
    have hlt : i < slots.length := by
      have := lt_of_some h
      rwa [List.length_set] at this
    rw [List.getElem?_set_self hlt] at h
    cases h
    exact .inr ⟨rfl, rfl⟩
  · rw [List.getElem?_set_ne hij] at h
    exact .inl ⟨fun heq => hij heq.symm, h⟩

end SaasFoundation.Lib.Slots
