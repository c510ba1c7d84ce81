import SaasFoundation.Lib.Bytes

/-!
# Percent encoding

Text is written as its UTF-8 bytes, each as a character of its own or as a
percent sign and two hexadecimal digits. Such a writing can be read back,
and has no characters but those of the writing.
-/

namespace SaasFoundation.Lib.Percent

def upperHex (n : Nat) : Char := "0123456789ABCDEF".toList.getD n '0'

/-- One byte, where `plain` says which bytes are written as characters. -/
def encodeByte (plain : UInt8 → Option Char) (b : UInt8) : List Char :=
  match plain b with
  | some c => [c]
  | none => ['%', upperHex (b.toNat / 16), upperHex (b.toNat % 16)]

def encode (plain : UInt8 → Option Char) (text : List Char) : List Char :=
  (Bytes.ofText text).flatMap (encodeByte plain)

/-- A choice of characters that can be read back. -/
structure Readable (plain : UInt8 → Option Char) : Prop where
  inj : ∀ a b c, plain a = some c → plain b = some c → a = b
  percent : ∀ a, plain a ≠ some '%'

theorem upperHex_mem {n : Nat} (h : n < 16) : upperHex n ∈ "0123456789ABCDEF".toList := by
  have hall : ∀ n, n < 16 → upperHex n ∈ "0123456789ABCDEF".toList := by decide
  exact hall n h

theorem upperHex_inj {n m : Nat} (hn : n < 16) (hm : m < 16) (h : upperHex n = upperHex m) :
    n = m := by
  have hall : ∀ n, n < 16 → ∀ m, m < 16 → upperHex n = upperHex m → n = m := by decide
  exact hall n hn m hm h

section Encode

variable {plain : UInt8 → Option Char}

theorem mem_encode {text : List Char} {c : Char} (h : c ∈ encode plain text) :
    c = '%' ∨ c ∈ "0123456789ABCDEF".toList ∨ ∃ b, plain b = some c := by
  obtain ⟨b, -, hb⟩ := List.mem_flatMap.mp h
  have hbound : b.toNat < 256 := b.toNat_lt
  cases hplain : plain b with
  | some d =>
      simp only [encodeByte, hplain, List.mem_singleton] at hb
      exact .inr (.inr ⟨b, hb ▸ hplain⟩)
  | none =>
      simp only [encodeByte, hplain, List.mem_cons, List.not_mem_nil, or_false] at hb
      rcases hb with rfl | rfl | rfl
      · exact .inl rfl
      · exact .inr (.inl (upperHex_mem (by omega)))
      · exact .inr (.inl (upperHex_mem (by omega)))

/-- The first byte can be read back, and so can the rest. -/
theorem encodeByte_append_inj (h : Readable plain) {a b : UInt8} {s t : List Char}
    (heq : encodeByte plain a ++ s = encodeByte plain b ++ t) : a = b ∧ s = t := by
  cases ha : plain a with
  | some c =>
      cases hb : plain b with
      | some d =>
          simp only [encodeByte, ha, hb, List.singleton_append, List.cons.injEq] at heq
          obtain ⟨rfl, rfl⟩ := heq
          exact ⟨h.inj a b c ha hb, rfl⟩
      | none =>
          simp only [encodeByte, ha, hb, List.cons_append, List.cons.injEq] at heq
          exact absurd (heq.1 ▸ ha) (h.percent a)
  | none =>
      cases hb : plain b with
      | some d =>
          simp only [encodeByte, ha, hb, List.cons_append, List.cons.injEq] at heq
          exact absurd (heq.1 ▸ hb) (h.percent b)
      | none =>
          simp only [encodeByte, ha, hb, List.cons_append, List.nil_append, List.cons.injEq,
            true_and] at heq
          obtain ⟨hhigh, hlow, rfl⟩ := heq
          have habound : a.toNat < 256 := a.toNat_lt
          have hbbound : b.toNat < 256 := b.toNat_lt
          have hhigh' := upperHex_inj (by omega) (by omega) hhigh
          have hlow' := upperHex_inj (by omega) (by omega) hlow
          have hsame : a.toNat = b.toNat := by omega
          exact ⟨UInt8.toNat_inj.mp hsame, rfl⟩

theorem encodeByte_ne_nil (plain : UInt8 → Option Char) (b : UInt8) : encodeByte plain b ≠ [] := by
  unfold encodeByte
  split
  · exact List.cons_ne_nil _ _
  · exact List.cons_ne_nil _ _

theorem encode_inj (h : Readable plain) {s t : List Char} (heq : encode plain s = encode plain t) :
    s = t := by
  have hbytes : ∀ xs ys : List UInt8,
      xs.flatMap (encodeByte plain) = ys.flatMap (encodeByte plain) → xs = ys := by
    intro xs
    induction xs with
    | nil =>
        intro ys hys
        cases ys with
        | nil => rfl
        | cons y ys =>
            rw [List.flatMap_nil, List.flatMap_cons] at hys
            exact absurd (List.append_eq_nil_iff.mp hys.symm).1 (encodeByte_ne_nil plain y)
    | cons x xs ih =>
        intro ys hys
        cases ys with
        | nil =>
            rw [List.flatMap_nil, List.flatMap_cons] at hys
            exact absurd (List.append_eq_nil_iff.mp hys).1 (encodeByte_ne_nil plain x)
        | cons y ys =>
            rw [List.flatMap_cons, List.flatMap_cons] at hys
            obtain ⟨rfl, hrest⟩ := encodeByte_append_inj h hys
            rw [ih ys hrest]
  have hsame := hbytes _ _ heq
  rw [← Bytes.toText_ofText s, hsame, Bytes.toText_ofText]

end Encode

/-! ## The writings of the runtime -/

def isAlphanumCode (n : Nat) : Bool :=
  (65 ≤ n && n ≤ 90) || (97 ≤ n && n ≤ 122) || (48 ≤ n && n ≤ 57)

/-- The bytes that are written as the characters of their own code. -/
def ownCharacter (marks : String) (b : UInt8) : Option Char :=
  if isAlphanumCode b.toNat || marks.toList.any (fun c => c.toNat == b.toNat) then
    some (Char.ofNat b.toNat)
  else none

/-- `encodeURIComponent(text)`. -/
def encodeURIComponent (text : List Char) : List Char :=
  encode (ownCharacter "-_.!~*'()") text

def formByte (b : UInt8) : Option Char :=
  if b.toNat = 32 then some '+' else ownCharacter "*-._" b

/-- A value in `new URLSearchParams(...).toString()`. -/
def encodeForm (text : List Char) : List Char := encode formByte text

section Own

variable {marks : String} {b : UInt8} {c : Char}

theorem ownCharacter_toNat (h : ownCharacter marks b = some c) : c.toNat = b.toNat := by
  have hcode : ∀ n, n < 256 → (Char.ofNat n).toNat = n := by decide +kernel
  unfold ownCharacter at h
  split at h
  · cases h
    exact hcode _ b.toNat_lt
  · cases h

/-- No other mark is written. -/
theorem ownCharacter_ne (hmark : c ∉ marks.toList) (halpha : isAlphanumCode c.toNat = false) :
    ownCharacter marks b ≠ some c := by
  intro h
  have hnat := ownCharacter_toNat h
  unfold ownCharacter at h
  split at h
  · rename_i hplain
    rw [← hnat, halpha, Bool.false_or, List.any_eq_true] at hplain
    obtain ⟨d, hd, hsame⟩ := hplain
    exact hmark (Char.toNat_inj.mp (beq_iff_eq.mp hsame) ▸ hd)
  · cases h

theorem ownCharacter_readable (hmark : '%' ∉ marks.toList) : Readable (ownCharacter marks) where
  inj := by
    intro a b c ha hb
    exact UInt8.toNat_inj.mp ((ownCharacter_toNat ha).symm.trans (ownCharacter_toNat hb))
  percent := fun _ => ownCharacter_ne hmark (by decide)

theorem formByte_ne (hmark : c ∉ "+*-._".toList) (halpha : isAlphanumCode c.toNat = false) :
    formByte b ≠ some c := by
  unfold formByte
  split
  · intro h
    cases h
    exact hmark (by decide)
  · exact ownCharacter_ne (fun hmem => hmark (List.mem_cons_of_mem _ hmem)) halpha

/-- `+` stands for the space only. -/
theorem formByte_readable : Readable formByte where
  inj := by
    have hplus : ∀ b, formByte b = some '+' → b.toNat = 32 := by
      intro b h
      by_contra hspace
      rw [formByte, if_neg hspace] at h
      exact ownCharacter_ne (by decide) (by decide) h
    intro a b c ha hb
    apply UInt8.toNat_inj.mp
    by_cases hc : c = '+'
    · subst hc
      rw [hplus a ha, hplus b hb]
    · have hown : ∀ b, formByte b = some c → c.toNat = b.toNat := by
        intro b h
        unfold formByte at h
        split at h
        · cases h
          exact absurd rfl hc
        · exact ownCharacter_toNat h
      rw [← hown a ha, ← hown b hb]
  percent := fun _ => formByte_ne (by decide) (by decide)

end Own

theorem encodeURIComponent_inj {s t : List Char}
    (h : encodeURIComponent s = encodeURIComponent t) : s = t :=
  encode_inj (ownCharacter_readable (by decide)) h

theorem encodeForm_inj {s t : List Char} (h : encodeForm s = encodeForm t) : s = t :=
  encode_inj formByte_readable h

theorem slash_not_mem_encodeURIComponent (text : List Char) : '/' ∉ encodeURIComponent text := by
  intro h
  rcases mem_encode h with h | h | ⟨b, hb⟩
  · exact absurd h (by decide)
  · exact absurd h (by decide)
  · exact ownCharacter_ne (by decide) (by decide) hb

theorem ampersand_not_mem_encodeForm (text : List Char) : '&' ∉ encodeForm text := by
  intro h
  rcases mem_encode h with h | h | ⟨b, hb⟩
  · exact absurd h (by decide)
  · exact absurd h (by decide)
  · exact formByte_ne (by decide) (by decide) hb

end SaasFoundation.Lib.Percent
