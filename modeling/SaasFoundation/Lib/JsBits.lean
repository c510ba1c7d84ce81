import Mathlib.Algebra.Group.Nat.Defs
import Mathlib.Data.Int.Basic

/-!
# The bit operators of JavaScript

An operand is a number of any size; it is cut to 32 bits. The result is the
signed number of the 32 bits, except for `>>>`, and a shift counts modulo 32.
-/

namespace SaasFoundation.Lib.JsBits

def toInt32 (a : ℤ) : BitVec 32 := BitVec.ofInt 32 a

def shiftCount (n : ℤ) : Nat := (toInt32 n).toNat % 32

/-- `~a`. -/
def bitNot (a : ℤ) : ℤ := (~~~ toInt32 a).toInt

/-- `a & b`. -/
def bitAnd (a b : ℤ) : ℤ := (toInt32 a &&& toInt32 b).toInt

/-- `a | b`. -/
def bitOr (a b : ℤ) : ℤ := (toInt32 a ||| toInt32 b).toInt

/-- `a << n`. -/
def shiftLeft (a n : ℤ) : ℤ := (toInt32 a <<< shiftCount n).toInt

/-- `a >>> n`. -/
def shiftRight (a n : ℤ) : ℤ := ((toInt32 a >>> shiftCount n).toNat : ℤ)

example : shiftLeft 192 24 = -1073741824 := by decide

@[simp] theorem toInt32_toInt (x : BitVec 32) : toInt32 x.toInt = x := BitVec.ofInt_toInt

@[simp] theorem toInt32_bitNot (a : ℤ) : toInt32 (bitNot a) = ~~~ toInt32 a := toInt32_toInt _

@[simp] theorem toInt32_bitAnd (a b : ℤ) : toInt32 (bitAnd a b) = toInt32 a &&& toInt32 b :=
  toInt32_toInt _

@[simp] theorem toInt32_bitOr (a b : ℤ) : toInt32 (bitOr a b) = toInt32 a ||| toInt32 b :=
  toInt32_toInt _

@[simp] theorem toInt32_shiftLeft (a n : ℤ) :
    toInt32 (shiftLeft a n) = toInt32 a <<< shiftCount n := toInt32_toInt _

theorem toInt32_natCast (n : Nat) : toInt32 n = BitVec.ofNat 32 n := BitVec.ofInt_natCast 32 n

theorem toNat_toInt32 {n : Nat} (h : n < 2 ^ 32) : (toInt32 n).toNat = n := by
  rw [toInt32_natCast, BitVec.toNat_ofNat, Nat.mod_eq_of_lt h]

theorem shiftCount_natCast {n : Nat} (h : n < 32) : shiftCount n = n := by
  rw [shiftCount, toNat_toInt32 (by omega), Nat.mod_eq_of_lt h]

/-- `a >>> 0` reads the 32 bits without a sign. -/
theorem shiftRight_zero (a : ℤ) : shiftRight a 0 = ((toInt32 a).toNat : ℤ) := by
  have hcount : shiftCount 0 = 0 := rfl
  rw [shiftRight, hcount, BitVec.ushiftRight_zero]

/-- Whether two numbers agree under a mask does not depend on the sign. -/
theorem bitAnd_eq_iff {a b mask : Nat} (ha : a < 2 ^ 32) (hb : b < 2 ^ 32) (hm : mask < 2 ^ 32) :
    bitAnd a mask = bitAnd b mask ↔ a &&& mask = b &&& mask := by
  rw [bitAnd, bitAnd, BitVec.toInt_inj, ← BitVec.toNat_inj, BitVec.toNat_and, BitVec.toNat_and,
    toNat_toInt32 ha, toNat_toInt32 hb, toNat_toInt32 hm]

/-- `(~0 << n) >>> 0`. -/
theorem highBits {n : Nat} (h : n < 32) :
    shiftRight (shiftLeft (bitNot 0) n) 0 = (((2 ^ 32 - 1) <<< n % 2 ^ 32 : Nat) : ℤ) := by
  have hnot : ~~~ toInt32 0 = BitVec.allOnes 32 := rfl
  rw [shiftRight_zero, toInt32_shiftLeft, toInt32_bitNot, shiftCount_natCast h, hnot,
    BitVec.toNat_shiftLeft, BitVec.toNat_allOnes]

/-- One more byte at the low end. -/
theorem shiftLeft_or {r n : Nat} {result : ℤ} (h : toInt32 result = BitVec.ofNat 32 r) :
    toInt32 (bitOr (shiftLeft result 8) n) = BitVec.ofNat 32 ((r <<< 8 ||| n) % 2 ^ 32) := by
  have hcount : shiftCount 8 = 8 := rfl
  rw [toInt32_bitOr, toInt32_shiftLeft, hcount, h, toInt32_natCast]
  apply BitVec.eq_of_toNat_eq
  simp only [BitVec.toNat_or, BitVec.toNat_shiftLeft, BitVec.toNat_ofNat, Nat.mod_mod]
  rw [Nat.or_mod_two_pow, Nat.shiftLeft_eq, Nat.shiftLeft_eq, Nat.mod_mul_mod]

end SaasFoundation.Lib.JsBits
