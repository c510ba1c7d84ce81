import Mathlib.Data.List.Basic

/-!
# What fits

A list is shortened from the front until what is left passes a test. The
result is the longest ending that does. If the list goes from the largest to
the smallest, nothing that is left is larger than anything that went.
-/

namespace SaasFoundation.Lib

variable {α : Type} {fits : List α → Bool} {l rest : List α}

/-- Drop elements until the rest fits. -/
def dropToFit (fits : List α → Bool) : List α → List α
  | [] => []
  | a :: l => if fits (a :: l) then a :: l else dropToFit fits l

/-- What was dropped. -/
def droppedToFit (fits : List α → Bool) : List α → List α
  | [] => []
  | a :: l => if fits (a :: l) then [] else a :: droppedToFit fits l

theorem dropped_append_dropToFit (fits : List α → Bool) (l : List α) :
    droppedToFit fits l ++ dropToFit fits l = l := by
  induction l with
  | nil => rfl
  | cons a l ih =>
      rw [droppedToFit, dropToFit]
      split
      · rfl
      · rw [List.cons_append, ih]

theorem dropToFit_suffix (fits : List α → Bool) (l : List α) : dropToFit fits l <:+ l :=
  ⟨_, dropped_append_dropToFit fits l⟩

/-- It fits, if nothing at all does. -/
theorem fits_dropToFit (hnil : fits [] = true) (l : List α) : fits (dropToFit fits l) = true := by
  induction l with
  | nil => exact hnil
  | cons a l ih =>
      rw [dropToFit]
      split
      · assumption
      · exact ih

theorem suffix_dropToFit (hrest : rest <:+ l) (hfits : fits rest = true) :
    rest <:+ dropToFit fits l := by
  induction l with
  | nil => exact hrest
  | cons a l ih =>
      rw [dropToFit]
      split
      · exact hrest
      · rename_i hnot
        rcases List.suffix_cons_iff.mp hrest with rfl | hrest
        · exact absurd hfits hnot
        · exact ih hrest

/-- The largest went first. -/
theorem le_of_dropped {size : α → Nat} (hsorted : l.Pairwise fun a b => size b ≤ size a) {a b : α}
    (ha : a ∈ droppedToFit fits l) (hb : b ∈ dropToFit fits l) : size b ≤ size a := by
  rw [← dropped_append_dropToFit fits l, List.pairwise_append] at hsorted
  exact hsorted.2.2 a ha b hb

end SaasFoundation.Lib
