import Mathlib.Data.List.Basic

/-!
# Bytes of the runtime

Texts as bytes and bytes as texts, as `Buffer` has them: UTF-8, where what is
no character is read as U+FFFD, and base64, where the reader passes over
every character that is no digit. What was written is read back.
-/

namespace SaasFoundation.Lib.Bytes

/-! ## UTF-8 -/

/-- `Buffer.from(s)`. -/
def ofText (cs : List Char) : List UInt8 := cs.flatMap String.utf8EncodeChar

/-- What may follow the first byte of a character of three or four bytes. -/
def secondByte (a : UInt8) : Option (UInt8 × UInt8) :=
  if a = 0xE0 then some (0xA0, 0xBF)
  else if a = 0xED then some (0x80, 0x9F)
  else if a = 0xF0 then some (0x90, 0xBF)
  else if a = 0xF4 then some (0x80, 0x8F)
  else if 0xE1 ≤ a ∧ a ≤ 0xF3 then some (0x80, 0xBF)
  else none

/-- How many bytes one U+FFFD stands for, where no character can be read:
the longest beginning of one. -/
def unreadable : List UInt8 → Nat
  | a :: b :: rest =>
      match secondByte a with
      | none => 1
      | some (low, high) =>
          if b < low ∨ high < b then 1
          else
            match rest with
            | [] => 2
            | c :: _ => if 0xF0 ≤ a ∧ 0x80 ≤ c ∧ c ≤ 0xBF then 3 else 2
  | _ => 1

/-- `bytes.toString("utf-8")`, at most `fuel` characters of it. -/
def toTextUpTo : Nat → List UInt8 → List Char
  | 0, _ => []
  | _, [] => []
  | fuel + 1, bytes =>
      match bytes.toByteArray.utf8DecodeChar? 0 with
      | some c => c :: toTextUpTo fuel (bytes.drop c.utf8Size)
      | none => '\uFFFD' :: toTextUpTo fuel (bytes.drop (unreadable bytes))

/-- Every character takes a byte, so there are no more of them than bytes. -/
def toText (bytes : List UInt8) : List Char := toTextUpTo bytes.length bytes

theorem toTextUpTo_ofText (cs : List Char) (fuel : Nat) (h : (ofText cs).length ≤ fuel) :
    toTextUpTo fuel (ofText cs) = cs := by
  induction cs generalizing fuel with
  | nil => cases fuel <;> rfl
  | cons c cs ih =>
      have hcons : ofText (c :: cs) = String.utf8EncodeChar c ++ ofText cs := rfl
      rw [hcons, List.length_append, String.length_utf8EncodeChar] at h
      have hpos := c.utf8Size_pos
      obtain ⟨fuel, rfl⟩ : ∃ n, fuel = n + 1 := ⟨fuel - 1, by omega⟩
      have hdecode : (ofText (c :: cs)).toByteArray.utf8DecodeChar? 0 = some c := by
        rw [hcons, List.toByteArray_append, ByteArray.utf8DecodeChar?_utf8EncodeChar_append]
      have hne : ofText (c :: cs) ≠ [] := by
        intro hnil
        have hlen := congrArg List.length hnil
        rw [hcons, List.length_append, String.length_utf8EncodeChar, List.length_nil] at hlen
        omega
      have hdrop : (ofText (c :: cs)).drop c.utf8Size = ofText cs := by
        rw [hcons, ← String.length_utf8EncodeChar, List.drop_left]
      rw [toTextUpTo, hdecode]
      · simp only [hdrop, ih fuel (by omega)]
      · exact hne

theorem toText_ofText (cs : List Char) : toText (ofText cs) = cs :=
  toTextUpTo_ofText cs _ (Nat.le_refl _)

theorem ofText_inj {cs ds : List Char} (h : ofText cs = ofText ds) : cs = ds := by
  rw [← toText_ofText cs, h, toText_ofText]

/-! ## The byte order mark -/

/-- `new TextDecoder().decode(bytes)`: a byte order mark at the start is no
part of the text. -/
def decodeText : List UInt8 → List Char
  | 0xEF :: 0xBB :: 0xBF :: bytes => toText bytes
  | bytes => toText bytes

theorem ofText_mark (cs : List Char) : ofText ('\uFEFF' :: cs) = 0xEF :: 0xBB :: 0xBF :: ofText cs := by
  have hmark : String.utf8EncodeChar '\uFEFF' = [0xEF, 0xBB, 0xBF] := by decide
  rw [ofText, List.flatMap_cons, hmark]
  rfl

/-- No other character is written with the bytes of the mark. -/
theorem head_mark {cs : List Char} {bytes : List UInt8}
    (h : ofText cs = 0xEF :: 0xBB :: 0xBF :: bytes) : cs.head? = some '\uFEFF' := by
  cases cs with
  | nil => cases h
  | cons c cs =>
      have hmark : String.utf8EncodeChar '\uFEFF' = [0xEF, 0xBB, 0xBF] := by decide
      have hsplit : String.utf8EncodeChar c ++ ofText cs =
          String.utf8EncodeChar '\uFEFF' ++ bytes := by
        rw [hmark]
        exact h
      have hread := congrArg (fun l => l.toByteArray.utf8DecodeChar? 0) hsplit
      simp only [List.toByteArray_append, ByteArray.utf8DecodeChar?_utf8EncodeChar_append] at hread
      rw [Option.some.inj hread]
      rfl

theorem decodeText_ofText (cs : List Char) :
    decodeText (ofText cs) = if cs.head? = some '\uFEFF' then cs.tail else cs := by
  unfold decodeText
  split
  · rename_i bytes h
    have hhead := head_mark h
    rw [if_pos hhead]
    cases cs with
    | nil => cases hhead
    | cons c cs =>
        cases hhead
        rw [ofText_mark] at h
        simp only [List.cons.injEq, true_and] at h
        rw [← h, toText_ofText]
        rfl
  · rename_i hother
    rw [toText_ofText]
    split
    · rename_i hhead
      cases cs with
      | nil => cases hhead
      | cons c cs =>
          cases hhead
          exact absurd (ofText_mark cs) (hother _)
    · rfl

/-- A text is read back unless it starts with the mark. -/
theorem decodeText_ofText_eq_iff (cs : List Char) :
    decodeText (ofText cs) = cs ↔ cs.head? ≠ some '\uFEFF' := by
  rw [decodeText_ofText]
  split
  · rename_i hhead
    cases cs with
    | nil => cases hhead
    | cons c cs => simp [hhead]
  · rename_i hhead
    simp [hhead]

/-! ## Base64 -/

/-- The digit for six bits. -/
def base64Digit (n : Nat) : Char :=
  if n < 26 then Char.ofNat (65 + n)
  else if n < 52 then Char.ofNat (71 + n)
  else if n < 62 then Char.ofNat (n - 4)
  else if n = 62 then '+'
  else '/'

/-- The six bits of a digit, in the ordinary alphabet or the one for URLs. -/
def base64Value (c : Char) : Option Nat :=
  if 'A' ≤ c ∧ c ≤ 'Z' then some (c.toNat - 65)
  else if 'a' ≤ c ∧ c ≤ 'z' then some (c.toNat - 71)
  else if '0' ≤ c ∧ c ≤ '9' then some (c.toNat + 4)
  else if c = '+' ∨ c = '-' then some 62
  else if c = '/' ∨ c = '_' then some 63
  else none

/-- `bytes.toString("base64")`. -/
def toBase64 : List UInt8 → List Char
  | a :: b :: c :: rest =>
      base64Digit (a.toNat / 4) :: base64Digit (a.toNat % 4 * 16 + b.toNat / 16) ::
        base64Digit (b.toNat % 16 * 4 + c.toNat / 64) :: base64Digit (c.toNat % 64) ::
        toBase64 rest
  | [a, b] =>
      [base64Digit (a.toNat / 4), base64Digit (a.toNat % 4 * 16 + b.toNat / 16),
        base64Digit (b.toNat % 16 * 4), '=']
  | [a] => [base64Digit (a.toNat / 4), base64Digit (a.toNat % 4 * 16), '=', '=']
  | [] => []

/-- The bytes in a sequence of six-bit values; what is left over is dropped. -/
def ofSixBits : List Nat → List UInt8
  | w :: x :: y :: z :: rest =>
      UInt8.ofNat (w * 4 + x / 16) :: UInt8.ofNat (x % 16 * 16 + y / 4) ::
        UInt8.ofNat (y % 4 * 64 + z) :: ofSixBits rest
  | [w, x, y] => [UInt8.ofNat (w * 4 + x / 16), UInt8.ofNat (x % 16 * 16 + y / 4)]
  | [w, x] => [UInt8.ofNat (w * 4 + x / 16)]
  | _ => []

/-- `Buffer.from(s, "base64")`. -/
def ofBase64 (cs : List Char) : List UInt8 := ofSixBits (cs.filterMap base64Value)

theorem base64Value_digit {n : Nat} (h : n < 64) : base64Value (base64Digit n) = some n := by
  have hall : ∀ n < 64, base64Value (base64Digit n) = some n := by decide +kernel
  exact hall n h

theorem ofNat_eq (a : UInt8) {n : Nat} (h : n = a.toNat) : UInt8.ofNat n = a := by
  rw [h, UInt8.ofNat_toNat]

theorem ofBase64_toBase64 (bytes : List UInt8) : ofBase64 (toBase64 bytes) = bytes := by
  have hpad : base64Value '=' = none := rfl
  fun_induction toBase64 bytes with
  | case1 a b c rest ih =>
      have ha := a.toNat_lt
      have hb := b.toNat_lt
      have hc := c.toNat_lt
      rw [ofBase64, List.filterMap_cons_some (base64Value_digit (by omega)),
        List.filterMap_cons_some (base64Value_digit (by omega)),
        List.filterMap_cons_some (base64Value_digit (by omega)),
        List.filterMap_cons_some (base64Value_digit (by omega)), ofSixBits,
        ofNat_eq a (by omega), ofNat_eq b (by omega), ofNat_eq c (by omega)]
      exact congrArg (fun rest => a :: b :: c :: rest) ih
  | case2 a b =>
      have ha := a.toNat_lt
      have hb := b.toNat_lt
      rw [ofBase64, List.filterMap_cons_some (base64Value_digit (by omega)),
        List.filterMap_cons_some (base64Value_digit (by omega)),
        List.filterMap_cons_some (base64Value_digit (by omega)), List.filterMap_cons_none hpad,
        List.filterMap_nil, ofSixBits, ofNat_eq a (by omega), ofNat_eq b (by omega)]
  | case3 a =>
      have ha := a.toNat_lt
      rw [ofBase64, List.filterMap_cons_some (base64Value_digit (by omega)),
        List.filterMap_cons_some (base64Value_digit (by omega)), List.filterMap_cons_none hpad,
        List.filterMap_cons_none hpad, List.filterMap_nil, ofSixBits, ofNat_eq a (by omega)]
  | case4 => rfl

end SaasFoundation.Lib.Bytes
