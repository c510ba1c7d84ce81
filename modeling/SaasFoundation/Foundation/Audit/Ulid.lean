import Mathlib.Data.Rat.Floor
import SaasFoundation.Lib.Numerals
import SaasFoundation.Lib.Text

/-!
# Ulids

`ulid.ts`: ten characters for the time in milliseconds and sixteen random
ones, all to the base 32. The digits stand in the order of their code units,
so that ulids are sorted by time.
-/

namespace SaasFoundation.Foundation.Audit

open Lib Lib.Text Lib.Numerals

/-- Crockford's Base32 alphabet (excludes I, L, O, U). -/
def encoding : List Char := "0123456789ABCDEFGHJKMNPQRSTVWXYZ".toList

def encodingLen : Nat := encoding.length
def timeLen : Nat := 10
def randomLen : Nat := 16

inductive UlidError where
  | rangeError (message : String)
  | error (message : String)

/-- `ENCODING.charAt(i)`. -/
def charAt (i : Nat) : List Char := encoding[i]?.toList

/-- The loop of `encodeTime`, with so many digits to go. -/
def encodeDigits : Nat → Nat → List Char → List Char
  | 0, _, str => str
  | i + 1, time, str =>
      let mod := time % encodingLen
      encodeDigits i ((time - mod) / encodingLen) (charAt mod ++ str)

def encodeTime (numberText : ℚ → String) (timeMs : ℚ) : Except UlidError (List Char) :=
  if timeMs < 0 ∨ 0xffffffffffff < timeMs then
    .error (.rangeError ("ulid: timestamp out of range (got " ++ numberText timeMs ++ ")"))
  else .ok (encodeDigits timeLen ⌊timeMs⌋₊ [])

/-- On what `randomBytes(len)` has given. -/
def encodeRandom (len : Nat) (bytes : List UInt8) : Except UlidError (List Char) :=
  (List.range len).foldlM (fun str i =>
    match bytes[i]? with
    | none => .error (.error "ulid: insufficient random bytes")
    | some b => .ok (str ++ charAt (b.toNat % encodingLen))) []

def ulid (numberText : ℚ → String) (timeMs : ℚ) (bytes : List UInt8) :
    Except UlidError String := do
  let time ← encodeTime numberText timeMs
  let random ← encodeRandom randomLen bytes
  pure (String.ofList (time ++ random))

/-! ## The alphabet -/

/-- A digit or a capital, but for the four that are easily misread. -/
def IsCrockford (c : Char) : Prop :=
  (c.isDigit = true ∨ c.isUpper = true) ∧ c ∉ ['I', 'L', 'O', 'U']

instance : DecidablePred IsCrockford := fun _ => inferInstanceAs (Decidable (_ ∧ _))

def symbol (d : Nat) : Char := encoding.getD d '0'

theorem encodingLen_eq : encodingLen = 32 := rfl

theorem charAt_symbol : ∀ d < 32, charAt d = [symbol d] := by decide

theorem symbol_crockford : ∀ d < 32, IsCrockford (symbol d) := by decide

theorem idxOf_symbol : ∀ d < 32, encoding.idxOf (symbol d) = d := by decide

theorem symbol_ascii : ∀ d < 32, (symbol d).toNat < 0x10000 := by decide

/-- Capitals come behind the digits, in the alphabet and in ASCII. -/
theorem symbol_sorted : ∀ d < 32, ∀ e < 32, d < e → (symbol d).toNat < (symbol e).toNat := by
  decide

/-- What ten characters denote. -/
def decodeTime (text : List Char) : Nat := value 32 (text.map encoding.idxOf)

/-! ## The loops -/

theorem flatMap_charAt {ds : List Nat} (h : ∀ d ∈ ds, d < 32) :
    ds.flatMap charAt = ds.map symbol := by
  induction ds with
  | nil => rfl
  | cons d ds ih =>
      rw [List.flatMap_cons, charAt_symbol d (h d List.mem_cons_self),
        ih fun e he => h e (List.mem_cons_of_mem _ he)]
      rfl

theorem encodeDigits_eq (i time : Nat) (str : List Char) :
    encodeDigits i time str = (numeral 32 i time).flatMap charAt ++ str := by
  induction i generalizing time str with
  | zero => rfl
  | succ i ih =>
      have hquotient : (time - time % 32) / 32 = time / 32 := by omega
      rw [encodeDigits, ih, numeral, List.flatMap_append]
      simp only [encodingLen_eq, hquotient, List.flatMap_cons, List.flatMap_nil, List.append_nil,
        List.append_assoc]

theorem encodeTime_eq {numberText : ℚ → String} {t : Nat} (h : t ≤ 2 ^ 48 - 1) :
    encodeTime numberText t = .ok ((numeral 32 10 t).map symbol) := by
  have hrange : ¬ ((t : ℚ) < 0 ∨ (0xffffffffffff : ℚ) < t) := by
    rintro (hneg | hlarge)
    · exact absurd hneg (not_lt.mpr (Nat.cast_nonneg t))
    · have : 0xffffffffffff < t := by exact_mod_cast hlarge
      omega
  rw [encodeTime, if_neg hrange, Nat.floor_natCast, encodeDigits_eq, List.append_nil,
    flatMap_charAt fun d hd => digit_lt (by omega) hd]
  rfl

/-- The loop of `encodeRandom` has gone through the first bytes. -/
theorem encodeRandom_eq {len : Nat} {bytes : List UInt8} (h : len ≤ bytes.length) :
    encodeRandom len bytes = .ok ((bytes.take len).map fun b => symbol (b.toNat % 32)) := by
  unfold encodeRandom
  induction len with
  | zero => rfl
  | succ len ih =>
      have hbyte : bytes[len]? = some bytes[len] := List.getElem?_eq_getElem h
      have hdigit : bytes[len].toNat % 32 < 32 := Nat.mod_lt _ (by omega)
      rw [List.range_succ, List.foldlM_append, ih (by omega)]
      simp only [List.foldlM_cons, List.foldlM_nil, hbyte]
      rw [List.take_add_one, hbyte, List.map_append, encodingLen_eq, charAt_symbol _ hdigit]
      rfl

theorem ulid_eq {numberText : ℚ → String} {t : Nat} {bytes : List UInt8}
    (ht : t ≤ 2 ^ 48 - 1) (hbytes : bytes.length = 16) :
    ulid numberText t bytes = .ok (String.ofList ((numeral 32 10 t).map symbol ++
      bytes.map fun b => symbol (b.toNat % 32))) := by
  have hrandom : encodeRandom 16 bytes = _ := encodeRandom_eq (by omega)
  rw [← hbytes, List.take_length, hbytes] at hrandom
  rw [ulid, encodeTime_eq ht, randomLen, hrandom]
  rfl

theorem units_ascii {text : List Char} (h : ∀ c ∈ text, c.toNat < 0x10000) :
    units (String.ofList text) = text.map Char.toNat := by
  rw [units, String.toList_ofList]
  induction text with
  | nil => rfl
  | cons c text ih =>
      rw [List.flatMap_cons, ih fun d hd => h d (List.mem_cons_of_mem _ hd)]
      simp only [if_pos (h c List.mem_cons_self)]
      rfl

/-! ## Order -/

/-- A ulid is 26 characters of the alphabet, the first ten of which denote
its time, and a later ulid is a greater one. -/
theorem ulid_sorted (numberText : ℚ → String) :
    (∀ (t : Nat) (bytes : List UInt8), t ≤ 2 ^ 48 - 1 → bytes.length = 16 →
      ∃ id, ulid numberText t bytes = .ok id ∧ (units id).length = 26 ∧
        (∀ c ∈ id.toList, IsCrockford c) ∧ decodeTime (id.toList.take 10) = t) ∧
    ∀ (t₁ t₂ : Nat) (bytes₁ bytes₂ : List UInt8) (id₁ id₂ : String),
      t₁ < t₂ → t₂ ≤ 2 ^ 48 - 1 → bytes₁.length = 16 → bytes₂.length = 16 →
      ulid numberText t₁ bytes₁ = .ok id₁ → ulid numberText t₂ bytes₂ = .ok id₂ →
      List.Lex (· < ·) (units id₁) (units id₂) := by
  have hmod : ∀ b : UInt8, b.toNat % 32 < 32 := fun b => Nat.mod_lt _ (by omega)
  have hdigits : ∀ t, ∀ d ∈ numeral 32 10 t, d < 32 := fun t d hd => digit_lt (by omega) hd
  have hchars : ∀ (t : Nat) (bytes : List UInt8) (p : Char → Prop), (∀ d < 32, p (symbol d)) →
      ∀ c ∈ (numeral 32 10 t).map symbol ++ bytes.map fun b => symbol (b.toNat % 32), p c := by
    intro t bytes p hp c hc
    rcases List.mem_append.mp hc with hc | hc
    · obtain ⟨d, hd, rfl⟩ := List.mem_map.mp hc
      exact hp d (hdigits t d hd)
    · obtain ⟨b, -, rfl⟩ := List.mem_map.mp hc
      exact hp _ (hmod b)
  refine ⟨?_, ?_⟩
  · intro t bytes ht hbytes
    refine ⟨_, ulid_eq ht hbytes, ?_, ?_, ?_⟩
    · rw [units_ascii (hchars t bytes _ symbol_ascii), List.length_map, List.length_append,
        List.length_map, List.length_map, length_numeral, hbytes]
    · rw [String.toList_ofList]
      exact hchars t bytes _ symbol_crockford
    · have htime : ((numeral 32 10 t).map symbol).length = 10 := by
        rw [List.length_map, length_numeral]
      have hback : ((numeral 32 10 t).map symbol).map encoding.idxOf = numeral 32 10 t := by
        rw [List.map_map]
        refine (List.map_congr_left fun d hd => ?_).trans (List.map_id _)
        exact idxOf_symbol d (hdigits t d hd)
      rw [String.toList_ofList, List.take_left' htime, decodeTime, hback]
      exact value_numeral (by omega)
  · intro t₁ t₂ bytes₁ bytes₂ id₁ id₂ hless ht₂ hbytes₁ hbytes₂ h₁ h₂
    rw [ulid_eq (by omega) hbytes₁] at h₁
    rw [ulid_eq ht₂ hbytes₂] at h₂
    rw [← Except.ok.inj h₁, ← Except.ok.inj h₂, units_ascii (hchars t₁ bytes₁ _ symbol_ascii),
      units_ascii (hchars t₂ bytes₂ _ symbol_ascii), List.map_append, List.map_append,
      List.map_map, List.map_map]
    refine lex_append ?_ ?_ _ _
    · exact lex_map (fun d e hd he => symbol_sorted d hd e he)
        (numeral_lex hless (by omega)) (hdigits t₁) (hdigits t₂)
    · simp only [List.length_map, length_numeral]

/-- A millisecond counts, whatever the random characters are. -/
theorem ulid_sorted_millisecond : ∃ id₁ id₂,
    ulid (fun _ => "") (1 : Nat) (List.replicate 16 255) = .ok id₁ ∧
      ulid (fun _ => "") (2 : Nat) (List.replicate 16 0) = .ok id₂ ∧
      List.Lex (· < ·) (units id₁) (units id₂) := by
  obtain ⟨hforms, horder⟩ := ulid_sorted fun _ => ""
  obtain ⟨id₁, h₁, -⟩ := hforms 1 (List.replicate 16 255) (by norm_num) (by simp)
  obtain ⟨id₂, h₂, -⟩ := hforms 2 (List.replicate 16 0) (by norm_num) (by simp)
  exact ⟨id₁, id₂, h₁, h₂,
    horder 1 2 _ _ id₁ id₂ (by omega) (by norm_num) (by simp) (by simp) h₁ h₂⟩

end SaasFoundation.Foundation.Audit
