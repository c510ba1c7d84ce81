import Mathlib.Data.List.Basic
import Mathlib.Data.List.Induction
import Mathlib.Algebra.Order.Ring.Int

/-!
# Cells with versions

What happens to one cell: it is written, or emptied, or left alone. As long
as every write raises the version of what is there by one, and nothing is
written once the cell has been emptied, a version tells which write it was.
-/

namespace SaasFoundation.Lib

variable {R : Type}

inductive Touch (R : Type) where
  | kept
  | removed
  | wrote (row : R)

namespace Touch

def next (before : Option R) : Touch R → Option R
  | .kept => before
  | .removed => none
  | .wrote row => some row

/-- What the cell holds after all that, oldest first. -/
def after (touches : List (Touch R)) : Option R := touches.foldl next none

@[simp] theorem after_snoc (touches : List (Touch R)) (t : Touch R) :
    after (touches ++ [t]) = t.next (after touches) := by
  simp [after]

/-- Every write raises the version of what is there, or is the first. -/
def NoRestart (version : R → ℤ) (touches : List (Touch R)) : Prop :=
  ∀ l₁ row l₂, touches = l₁ ++ .wrote row :: l₂ →
    (∃ old, after l₁ = some old ∧ version row = version old + 1) ∨ ∀ old, .wrote old ∉ l₁

variable {version : R → ℤ} {touches : List (Touch R)}

theorem NoRestart.of_append {l₁ l₂ : List (Touch R)} (h : NoRestart version (l₁ ++ l₂)) :
    NoRestart version l₁ := by
  intro m₁ row m₂ hl₁
  exact h m₁ row (m₂ ++ l₂) (by simp [hl₁])

/-- What is there has the highest version of all. -/
theorem NoRestart.latest (h : NoRestart version touches) {row : R}
    (hrow : after touches = some row) : ∀ old, .wrote old ∈ touches → version old ≤ version row := by
  induction touches using List.reverseRecOn generalizing row with
  | nil => simp
  | append_singleton touches t ih =>
      have hbefore := h.of_append
      intro old hold
      rw [after_snoc] at hrow
      cases t with
      | kept =>
          have hold' : .wrote old ∈ touches := by simpa using hold
          exact ih hbefore hrow old hold'
      | removed => cases hrow
      | wrote new =>
          cases hrow
          rcases List.mem_append.mp hold with hold | hold
          · rcases h touches row [] rfl with ⟨last, hlast, hversion⟩ | hfirst
            · have := ih hbefore hlast old hold
              omega
            · exact absurd hold (hfirst old)
          · cases List.mem_singleton.mp hold
            exact le_refl _

/-- Later writes have higher versions. -/
theorem NoRestart.increasing (h : NoRestart version touches) {l₁ l₂ l₃ : List (Touch R)}
    {row row' : R} (htouches : touches = l₁ ++ .wrote row :: (l₂ ++ .wrote row' :: l₃)) :
    version row < version row' := by
  have hcut : touches = (l₁ ++ .wrote row :: l₂) ++ .wrote row' :: l₃ := by simp [htouches]
  have hmem : .wrote row ∈ l₁ ++ .wrote row :: l₂ := by simp
  rcases h _ _ _ hcut with ⟨old, hold, hversion⟩ | hfirst
  · rw [hcut] at h
    have := h.of_append.latest hold row hmem
    omega
  · exact absurd hmem (hfirst row)

/-- What has the version of a write is what was written, and nothing has
happened to it. -/
theorem NoRestart.identifies {l₁ l₂ : List (Touch R)} {row row' : R}
    (h : NoRestart version (l₁ ++ .wrote row :: l₂))
    (hrow' : after (l₁ ++ .wrote row :: l₂) = some row') (hversion : version row' = version row) :
    (∀ t ∈ l₂, t = .kept) ∧ row' = row := by
  induction l₂ using List.reverseRecOn with
  | nil =>
      rw [after_snoc] at hrow'
      cases hrow'
      exact ⟨by simp, rfl⟩
  | append_singleton l₂ t ih =>
      have hcut : l₁ ++ .wrote row :: (l₂ ++ [t]) = (l₁ ++ .wrote row :: l₂) ++ [t] := by simp
      cases t with
      | kept =>
          rw [hcut, after_snoc] at hrow'
          rw [hcut] at h
          obtain ⟨hkept, hsame⟩ := ih h.of_append hrow'
          refine ⟨?_, hsame⟩
          intro t ht
          rcases List.mem_append.mp ht with ht | ht
          · exact hkept t ht
          · exact List.mem_singleton.mp ht
      | removed =>
          rw [hcut, after_snoc] at hrow'
          cases hrow'
      | wrote new =>
          rw [hcut, after_snoc] at hrow'
          cases hrow'
          have := h.increasing rfl
          omega

end Touch

end SaasFoundation.Lib
