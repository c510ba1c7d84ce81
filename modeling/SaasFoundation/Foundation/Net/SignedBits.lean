import SaasFoundation.Foundation.Net.Reserved
import SaasFoundation.Lib.JsBits

/-!
# CIDR membership on 32-bit words

`cidr.ts` computes with the bit operators of JavaScript, whose results are
signed. Here its functions are written with those operators, on integers;
they agree with the functions on natural numbers, and membership is exact.
-/

namespace SaasFoundation.Foundation.Net

open Lib Lib.Text Lib.Addresses Lib.JsBits

namespace Signed

def parseOctet (result : ℤ) (part : List Char) : Option ℤ :=
  if !isDigits part then none
  else if decide (1 < part.length) && part.head? == some '0' then none
  else if 255 < digitsValue part then none
  else some (bitOr (shiftLeft result 8) (digitsValue part))

def parseIPv4 (s : List Char) : Option ℤ :=
  let parts := s.splitOn '.'
  if parts.length ≠ 4 then none
  else (parts.foldlM parseOctet 0).map fun result => shiftRight result 0

def ipv4InCidr (ip networkInt : ℤ) (prefixLen : Nat) : Bool :=
  if prefixLen = 0 then true
  else if prefixLen = 32 then ip == networkInt
  else
    let mask := shiftRight (shiftLeft (bitNot 0) (32 - prefixLen)) 0
    bitAnd ip mask == bitAnd networkInt mask

def isIPv4InCidr (ip cidr : List Char) : Bool :=
  match cutCidr cidr with
  | none => false
  | some (networkStr, prefixLen) =>
      if 32 < prefixLen then false
      else match parseIPv4 ip, parseIPv4 networkStr with
        | some ipInt, some networkInt => ipv4InCidr ipInt networkInt prefixLen
        | _, _ => false

def ipv6InCidr (ipBytes networkBytes : List Nat) (prefixLen : Nat) : Bool :=
  if prefixLen = 0 then true
  else
    let fullBytes := prefixLen / 8
    let remainingBits := prefixLen % 8
    ((List.range fullBytes).all fun i => ipBytes.getD i 0 == networkBytes.getD i 0) &&
      (decide (remainingBits = 0) ||
        let mask := bitAnd 0xff (shiftLeft 0xff (8 - remainingBits))
        bitAnd (ipBytes.getD fullBytes 0 : Nat) mask ==
          bitAnd (networkBytes.getD fullBytes 0 : Nat) mask)

end Signed

/-! ## The signed functions agree with the others -/

theorem parseOctet_signed {result : ℤ} {r : Nat} (h : toInt32 result = BitVec.ofNat 32 r)
    (part : List Char) :
    (parseOctet r part = none ∧ Signed.parseOctet result part = none) ∨
      ∃ r' result', parseOctet r part = some r' ∧ Signed.parseOctet result part = some result' ∧
        r' < 2 ^ 32 ∧ toInt32 result' = BitVec.ofNat 32 r' := by
  unfold parseOctet Signed.parseOctet
  split
  · exact .inl ⟨rfl, rfl⟩
  · split
    · exact .inl ⟨rfl, rfl⟩
    · split
      · exact .inl ⟨rfl, rfl⟩
      · exact .inr ⟨_, _, rfl, rfl, Nat.mod_lt _ (by decide), shiftLeft_or h⟩

theorem foldlM_signed {parts : List (List Char)} {result : ℤ} {r : Nat}
    (h : toInt32 result = BitVec.ofNat 32 r) (hr : r < 2 ^ 32) :
    (parts.foldlM Signed.parseOctet result).map (fun result => shiftRight result 0) =
      (parts.foldlM parseOctet r).map fun (n : Nat) => (n : ℤ) := by
  induction parts generalizing result r with
  | nil =>
      simp only [List.foldlM_nil, Option.pure_def, Option.map_some, shiftRight_zero, h,
        BitVec.toNat_ofNat, Nat.mod_eq_of_lt hr]
  | cons part parts ih =>
      rw [List.foldlM_cons, List.foldlM_cons]
      rcases parseOctet_signed h part with ⟨hnone, hsigned⟩ |
        ⟨r', result', hsome, hsigned, hlt, hword⟩
      · rw [hnone, hsigned]
        rfl
      · rw [hsome, hsigned]
        exact ih hword hlt

theorem parseIPv4_signed (s : List Char) :
    Signed.parseIPv4 s = (parseIPv4 s).map fun (n : Nat) => (n : ℤ) := by
  unfold Signed.parseIPv4 parseIPv4
  by_cases hparts : (s.splitOn '.').length ≠ 4
  · rw [if_pos hparts, if_pos hparts]
    rfl
  · rw [if_neg hparts, if_neg hparts]
    exact foldlM_signed rfl (by decide)

theorem ipv4InCidr_signed {ip networkInt prefixLen : Nat} (hip : ip < 2 ^ 32)
    (hnetwork : networkInt < 2 ^ 32) (hlen : prefixLen ≤ 32) :
    Signed.ipv4InCidr ip networkInt prefixLen = ipv4InCidr ip networkInt prefixLen := by
  unfold Signed.ipv4InCidr ipv4InCidr
  by_cases hzero : prefixLen = 0
  · rw [if_pos hzero, if_pos hzero]
  · rw [if_neg hzero, if_neg hzero]
    by_cases hfull : prefixLen = 32
    · rw [if_pos hfull, if_pos hfull, Bool.eq_iff_iff, beq_iff_eq, beq_iff_eq, Int.natCast_inj]
    · have hcount : (32 : ℤ) - prefixLen = ((32 - prefixLen : Nat) : ℤ) := by omega
      rw [if_neg hfull, if_neg hfull, hcount, highBits (by omega), Bool.eq_iff_iff, beq_iff_eq,
        beq_iff_eq, bitAnd_eq_iff hip hnetwork (Nat.mod_lt _ (by decide))]

theorem byteMask : ∀ r < 8, bitAnd 0xff (shiftLeft 0xff (8 - r : Nat)) =
    ((0xff &&& (0xff <<< (8 - r)) : Nat) : ℤ) := by
  decide

theorem getD_lt {bytes : List Nat} (h : ∀ b ∈ bytes, b < 256) (i : Nat) :
    bytes.getD i 0 < 2 ^ 32 := (getD_byte_lt h i).trans (by decide)

theorem ipv6InCidr_signed {ipBytes networkBytes : List Nat} (hip : ∀ b ∈ ipBytes, b < 256)
    (hnetwork : ∀ b ∈ networkBytes, b < 256) (prefixLen : Nat) :
    Signed.ipv6InCidr ipBytes networkBytes prefixLen =
      ipv6InCidr ipBytes networkBytes prefixLen := by
  have hmod : prefixLen % 8 < 8 := Nat.mod_lt _ (by decide)
  have hcount : (8 : ℤ) - (prefixLen % 8 : Nat) = ((8 - prefixLen % 8 : Nat) : ℤ) := by omega
  have hmask : 0xff &&& (0xff <<< (8 - prefixLen % 8)) < 2 ^ 32 :=
    Nat.lt_of_le_of_lt Nat.and_le_left (by decide)
  have hbits : (bitAnd (ipBytes.getD (prefixLen / 8) 0 : Nat)
        (bitAnd 0xff (shiftLeft 0xff (8 - (prefixLen % 8 : Nat)))) ==
      bitAnd (networkBytes.getD (prefixLen / 8) 0 : Nat)
        (bitAnd 0xff (shiftLeft 0xff (8 - (prefixLen % 8 : Nat))))) =
      (ipBytes.getD (prefixLen / 8) 0 &&& (0xff &&& (0xff <<< (8 - prefixLen % 8))) ==
        networkBytes.getD (prefixLen / 8) 0 &&& (0xff &&& (0xff <<< (8 - prefixLen % 8)))) := by
    rw [hcount, byteMask _ hmod, Bool.eq_iff_iff, beq_iff_eq, beq_iff_eq,
      bitAnd_eq_iff (getD_lt hip _) (getD_lt hnetwork _) hmask]
  unfold Signed.ipv6InCidr ipv6InCidr
  simp only [hbits]

theorem foldlM_lt {parts : List (List Char)} {r n : Nat} (hr : r < 2 ^ 32)
    (h : parts.foldlM parseOctet r = some n) : n < 2 ^ 32 := by
  induction parts generalizing r with
  | nil =>
      cases h
      exact hr
  | cons part parts ih =>
      rw [List.foldlM_cons] at h
      obtain ⟨r', hpart, hrest⟩ := Option.bind_eq_some_iff.mp h
      rcases @parseOctet_signed r r (toInt32_natCast r) part with ⟨hnone, -⟩ |
        ⟨r'', -, hsome, -, hlt, -⟩
      · rw [hnone] at hpart
        cases hpart
      · rw [hsome] at hpart
        cases hpart
        exact ih hlt hrest

theorem parseIPv4_lt {s : List Char} {n : Nat} (h : parseIPv4 s = some n) : n < 2 ^ 32 := by
  unfold parseIPv4 at h
  by_cases hparts : (s.splitOn '.').length ≠ 4
  · rw [if_pos hparts] at h
    cases h
  · rw [if_neg hparts] at h
    exact foldlM_lt (by decide) h

/-- The texts found in a block are those that the functions on natural numbers
find. -/
theorem isIPv4InCidr_signed (ip cidr : List Char) :
    Signed.isIPv4InCidr ip cidr = isIPv4InCidr ip cidr := by
  unfold Signed.isIPv4InCidr isIPv4InCidr
  cases cutCidr cidr with
  | none => rfl
  | some cut =>
      obtain ⟨networkStr, prefixLen⟩ := cut
      by_cases hlen : 32 < prefixLen
      · simp only [if_pos hlen]
      · simp only [if_neg hlen, parseIPv4_signed]
        cases hip : parseIPv4 ip with
        | none => rfl
        | some ipInt =>
            cases hnetwork : parseIPv4 networkStr with
            | none => rfl
            | some networkInt =>
                exact ipv4InCidr_signed (parseIPv4_lt hip) (parseIPv4_lt hnetwork) (by omega)

/-! ## Membership is exact -/

/-- An address is in a block when it agrees with the network in the leading
bits, and a dotted quad is read as the number it denotes. -/
theorem cidr_exact :
    (∀ ip networkInt prefixLen : Nat, ip < 2 ^ 32 → networkInt < 2 ^ 32 → prefixLen ≤ 32 →
      (Signed.ipv4InCidr ip networkInt prefixLen = true ↔
        SameBlock 32 prefixLen ip networkInt)) ∧
    (∀ (ipBytes networkBytes : List Nat) (prefixLen : Nat),
      ipBytes.length = 16 → (∀ b ∈ ipBytes, b < 256) →
      networkBytes.length = 16 → (∀ b ∈ networkBytes, b < 256) → prefixLen ≤ 128 →
      (Signed.ipv6InCidr ipBytes networkBytes prefixLen = true ↔
        SameBlock 128 prefixLen (ofBytes ipBytes) (ofBytes networkBytes))) ∧
    (∀ (text : List Char) (bytes : List Nat), DottedQuad text bytes →
      Signed.parseIPv4 text = some (ofBytes bytes : ℤ)) := by
  refine ⟨?_, ?_, ?_⟩
  · intro ip networkInt prefixLen hip hnetwork hlen
    rw [ipv4InCidr_signed hip hnetwork hlen]
    exact ipv4InCidr_iff hip hnetwork hlen
  · intro ipBytes networkBytes prefixLen hip hipBytes hnetwork hnetworkBytes hlen
    rw [ipv6InCidr_signed hipBytes hnetworkBytes]
    exact ipv6InCidr_iff hipBytes hnetworkBytes hip hnetwork hlen
  · intro text bytes hquad
    rw [parseIPv4_signed, parseIPv4_quad hquad]
    rfl

/-- Addresses with the sign bit set, and a prefix that ends within a byte. -/
theorem cidr_exact_high :
    (Signed.ipv4InCidr 3232235521 3232235776 23 = true ↔
      SameBlock 32 23 3232235521 3232235776) ∧
    (Signed.ipv6InCidr (255 :: List.replicate 15 0) (254 :: List.replicate 15 1) 7 = true ↔
      SameBlock 128 7 (ofBytes (255 :: List.replicate 15 0))
        (ofBytes (254 :: List.replicate 15 1))) ∧
    Signed.parseIPv4 "192.168.1.42".toList = some 3232235818 := by
  have hmatches : matchesIPv4 "192.168.1.42".toList = true := by decide
  exact ⟨cidr_exact.1 3232235521 3232235776 23 (by decide) (by decide) (by decide),
    cidr_exact.2.1 (255 :: List.replicate 15 0) (254 :: List.replicate 15 1) 7 rfl (by decide) rfl
      (by decide) (by decide),
    cidr_exact.2.2 _ _ (dottedQuad_of_matches hmatches)⟩

end SaasFoundation.Foundation.Net
