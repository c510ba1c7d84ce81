import Mathlib.Data.List.Lex
import Mathlib.Data.Nat.Basic
import Mathlib.Tactic.Ring

/-!
# Numerals of a fixed width

The last `width` digits of a number to a base, the most significant one
first. Read back they are the number, as far as the width goes, and the
order of numbers is the lexicographic order of their numerals.
-/

namespace SaasFoundation.Lib.Numerals

def numeral (base : Nat) : Nat → Nat → List Nat
  | 0, _ => []
  | width + 1, n => numeral base width (n / base) ++ [n % base]

/-- The number that digits denote. -/
def value (base : Nat) (ds : List Nat) : Nat := ds.foldl (fun n d => base * n + d) 0

section Order

variable {α β : Type} {r : α → α → Prop} {as bs : List α}

/-- What stands behind does not matter once a place differs. -/
theorem lex_append (h : List.Lex r as bs) (hlength : as.length = bs.length) (xs ys : List α) :
    List.Lex r (as ++ xs) (bs ++ ys) := by
  induction h with
  | nil => cases hlength
  | cons h ih => exact .cons (ih (by simpa using hlength))
  | rel h => exact .rel h

theorem lex_map {s : β → β → Prop} {f : α → β} {p : α → Prop}
    (hf : ∀ a b, p a → p b → r a b → s (f a) (f b)) (h : List.Lex r as bs)
    (has : ∀ a ∈ as, p a) (hbs : ∀ b ∈ bs, p b) : List.Lex s (as.map f) (bs.map f) := by
  induction h with
  | nil => exact .nil
  | cons h ih =>
      exact .cons (ih (fun a ha => has a (List.mem_cons_of_mem _ ha))
        fun b hb => hbs b (List.mem_cons_of_mem _ hb))
  | rel h => exact .rel (hf _ _ (has _ List.mem_cons_self) (hbs _ List.mem_cons_self) h)

end Order

section Digits

variable {base width m n : Nat}

theorem length_numeral (base width n : Nat) : (numeral base width n).length = width := by
  induction width generalizing n with
  | zero => rfl
  | succ width ih => rw [numeral, List.length_append, ih, List.length_singleton]

theorem digit_lt (hbase : 0 < base) {d : Nat} (h : d ∈ numeral base width n) : d < base := by
  induction width generalizing n with
  | zero => cases h
  | succ width ih =>
      rcases List.mem_append.mp h with h | h
      · exact ih h
      · rw [List.mem_singleton.mp h]
        exact Nat.mod_lt n hbase

theorem value_snoc (ds : List Nat) (d : Nat) :
    value base (ds ++ [d]) = base * value base ds + d := by
  rw [value, List.foldl_append]
  rfl

theorem value_numeral (h : n < base ^ width) : value base (numeral base width n) = n := by
  induction width generalizing n with
  | zero =>
      rw [pow_zero] at h
      rw [Nat.lt_one_iff.mp h]
      rfl
  | succ width ih =>
      have hrest : n / base < base ^ width := by
        rw [pow_succ, Nat.mul_comm] at h
        exact Nat.div_lt_of_lt_mul h
      rw [numeral, value_snoc, ih hrest]
      exact Nat.div_add_mod n base

/-- A greater number has the greater numeral: the rest of it is greater, or
the same and then its last digit is. -/
theorem numeral_lex (hmn : m < n) (hn : n < base ^ width) :
    List.Lex (· < ·) (numeral base width m) (numeral base width n) := by
  induction width generalizing m n with
  | zero =>
      rw [pow_zero] at hn
      omega
  | succ width ih =>
      have hrest : n / base < base ^ width := by
        rw [pow_succ, Nat.mul_comm] at hn
        exact Nat.div_lt_of_lt_mul hn
      rw [numeral, numeral]
      rcases Nat.lt_or_eq_of_le (Nat.div_le_div_right (c := base) hmn.le) with hless | hsame
      · exact lex_append (ih hless hrest) (by rw [length_numeral, length_numeral]) _ _
      · rw [hsame]
        refine List.Lex.append_left _ (.rel ?_) _
        have hm := Nat.div_add_mod m base
        have hn' := Nat.div_add_mod n base
        rw [hsame] at hm
        omega

end Digits

end SaasFoundation.Lib.Numerals
