import SaasFoundation.Lib.Text
import Mathlib.Data.List.Forall2
import Mathlib.Data.List.TakeWhile
import Mathlib.Tactic.Ring

/-!
# Internet addresses and their texts

The text forms of RFC 4291 and the dotted quad, as relations between a text
and what it denotes; an address is a list of bytes or of 16-bit words. A
block of addresses is given by its first address and a number of leading
bits.
-/

namespace SaasFoundation.Lib.Addresses

open Text

/-- Parts with a separator between them. -/
def join (sep : Char) (parts : List (List Char)) : List Char := [sep].intercalate parts

section Join

variable {sep c : Char} {part : List Char} {parts : List (List Char)}

@[simp] theorem join_nil : join sep [] = [] := rfl

@[simp] theorem join_singleton : join sep [part] = part := List.intercalate_singleton

theorem join_cons (h : parts ≠ []) : join sep (part :: parts) = part ++ sep :: join sep parts := by
  rw [join, List.intercalate_cons_of_ne_nil h, List.append_assoc]
  rfl

theorem join_snoc (h : parts ≠ []) :
    join sep (parts ++ [part]) = join sep parts ++ sep :: part := by
  induction parts with
  | nil => exact absurd rfl h
  | cons first parts ih =>
      rw [List.cons_append, join_cons (by simp)]
      by_cases hparts : parts = []
      · subst hparts
        simp
      · rw [ih hparts, join_cons hparts, List.append_assoc, List.cons_append]

theorem splitOn_join (h : ∀ part ∈ parts, sep ∉ part) (hparts : parts ≠ []) :
    (join sep parts).splitOn sep = parts :=
  List.splitOn_intercalate sep h hparts

theorem join_splitOn (text : List Char) : join sep (text.splitOn sep) = text :=
  List.intercalate_splitOn sep

theorem mem_join (h : c ∈ join sep parts) : c = sep ∨ ∃ part ∈ parts, c ∈ part := by
  induction parts with
  | nil => simp at h
  | cons part parts ih =>
      by_cases hparts : parts = []
      · subst hparts
        exact .inr ⟨part, by simp, by simpa using h⟩
      · rw [join_cons hparts, List.mem_append, List.mem_cons] at h
        rcases h with h | rfl | h
        · exact .inr ⟨part, by simp, h⟩
        · exact .inl rfl
        · rcases ih h with rfl | ⟨other, hother, hmem⟩
          · exact .inl rfl
          · exact .inr ⟨other, List.mem_cons_of_mem _ hother, hmem⟩

end Join

/-! ## Dotted quads -/

/-- Decimal, without leading zeros. -/
structure Octet (text : List Char) (n : Nat) : Prop where
  digits : isDigits text = true
  short : text.length ≤ 3
  canonical : 1 < text.length → text.head? ≠ some '0'
  value : digitsValue text = n
  small : n ≤ 255

def DottedQuad (text : List Char) (bytes : List Nat) : Prop :=
  ∃ parts, text = join '.' parts ∧ List.Forall₂ Octet parts bytes ∧ bytes.length = 4

section DottedQuad

variable {text : List Char} {bytes : List Nat} {n : Nat} {c : Char}

theorem isDigits_iff : isDigits text = true ↔ text ≠ [] ∧ ∀ c ∈ text, c.isDigit = true := by
  simp [isDigits]

theorem Octet.not_mem (h : Octet text n) (hc : c.isDigit = false) : c ∉ text := by
  intro hmem
  rw [(isDigits_iff.mp h.digits).2 c hmem] at hc
  cases hc

theorem forall₂_mem {α β : Type} {R : α → β → Prop} {as : List α} {bs : List β}
    (h : List.Forall₂ R as bs) : (∀ a ∈ as, ∃ b, R a b) ∧ ∀ b ∈ bs, ∃ a, R a b := by
  induction h with
  | nil => simp
  | @cons a b as bs hab _ ih =>
      refine ⟨?_, ?_⟩
      · intro a' ha'
        rcases List.mem_cons.mp ha' with rfl | ha'
        · exact ⟨b, hab⟩
        · exact ih.1 a' ha'
      · intro b' hb'
        rcases List.mem_cons.mp hb' with rfl | hb'
        · exact ⟨a, hab⟩
        · exact ih.2 b' hb'

/-- The digits of a byte. -/
theorem Octet.digits_cases (h : Octet text n) :
    (∃ c, text = [c] ∧ 48 ≤ c.toNat ∧ c.toNat ≤ 57 ∧ n = c.toNat - 48) ∨
      (∃ b c, text = [b, c] ∧ 49 ≤ b.toNat ∧ b.toNat ≤ 57 ∧ 48 ≤ c.toNat ∧ c.toNat ≤ 57 ∧
        n = 10 * (b.toNat - 48) + (c.toNat - 48)) ∨
      ∃ a b c, text = [a, b, c] ∧ 49 ≤ a.toNat ∧ a.toNat ≤ 57 ∧ 48 ≤ b.toNat ∧ b.toNat ≤ 57 ∧
        48 ≤ c.toNat ∧ c.toNat ≤ 57 ∧
        n = 100 * (a.toNat - 48) + 10 * (b.toNat - 48) + (c.toNat - 48) := by
  obtain ⟨hne, hdigits⟩ := isDigits_iff.mp h.digits
  have hrange : ∀ c ∈ text, 48 ≤ c.toNat ∧ c.toNat ≤ 57 :=
    fun c hc => isDigit_toNat (hdigits c hc)
  have hfirst : 1 < text.length → ∀ c, text.head? = some c → c.toNat ≠ 48 := by
    rintro hlong c hc hzero
    have : c = '0' := Char.toNat_inj.mp hzero
    exact h.canonical hlong (this ▸ hc)
  have hvalue := h.value
  have hshort := h.short
  match text with
  | [] => exact absurd rfl hne
  | [c] =>
      have hc := hrange c (by simp)
      simp only [digitsValue, List.foldl_cons, List.foldl_nil] at hvalue
      exact .inl ⟨c, rfl, hc.1, hc.2, by omega⟩
  | [b, c] =>
      have hb := hrange b (by simp)
      have hc := hrange c (by simp)
      have hzero := hfirst (by simp) b rfl
      simp only [digitsValue, List.foldl_cons, List.foldl_nil] at hvalue
      exact .inr (.inl ⟨b, c, rfl, by omega, hb.2, hc.1, hc.2, by omega⟩)
  | [a, b, c] =>
      have ha := hrange a (by simp)
      have hb := hrange b (by simp)
      have hc := hrange c (by simp)
      have hzero := hfirst (by simp) a rfl
      simp only [digitsValue, List.foldl_cons, List.foldl_nil] at hvalue
      exact .inr (.inr ⟨a, b, c, rfl, by omega, ha.2, hb.1, hb.2, hc.1, hc.2, by omega⟩)
  | _ :: _ :: _ :: _ :: _ =>
      simp only [List.length_cons] at hshort
      omega

/-- A byte has one decimal text. -/
theorem Octet.text_eq {text' : List Char} (h : Octet text n) (h' : Octet text' n) :
    text = text' := by
  rcases h.digits_cases with ⟨c, rfl, hc⟩ | ⟨b, c, rfl, hbc⟩ | ⟨a, b, c, rfl, habc⟩ <;>
    rcases h'.digits_cases with ⟨c', rfl, hc'⟩ | ⟨b', c', rfl, hbc'⟩ | ⟨a', b', c', rfl, habc'⟩
  all_goals first
    | omega
    | skip
  · rw [Char.toNat_inj.mp (show c.toNat = c'.toNat by omega)]
  · rw [Char.toNat_inj.mp (show b.toNat = b'.toNat by omega),
      Char.toNat_inj.mp (show c.toNat = c'.toNat by omega)]
  · rw [Char.toNat_inj.mp (show a.toNat = a'.toNat by omega),
      Char.toNat_inj.mp (show b.toNat = b'.toNat by omega),
      Char.toNat_inj.mp (show c.toNat = c'.toNat by omega)]

theorem DottedQuad.chars (h : DottedQuad text bytes) : ∀ c ∈ text, c.isDigit = true ∨ c = '.' := by
  obtain ⟨parts, rfl, hoctets, -⟩ := h
  intro c hc
  rcases mem_join hc with rfl | ⟨part, hpart, hc⟩
  · exact .inr rfl
  · obtain ⟨n, hn⟩ := (forall₂_mem hoctets).1 part hpart
    exact .inl ((isDigits_iff.mp hn.digits).2 c hc)

/-- The parts of a dotted quad are between its dots. -/
theorem DottedQuad.split (h : DottedQuad text bytes) :
    List.Forall₂ Octet (text.splitOn '.') bytes ∧ bytes.length = 4 := by
  obtain ⟨parts, rfl, hoctets, hlength⟩ := h
  have hparts : parts ≠ [] := by
    rintro rfl
    cases hoctets
    cases hlength
  rw [splitOn_join ?_ hparts]
  · exact ⟨hoctets, hlength⟩
  · intro part hpart
    obtain ⟨n, hn⟩ := (forall₂_mem hoctets).1 part hpart
    exact hn.not_mem (by decide)

theorem DottedQuad.byte_lt (h : DottedQuad text bytes) : ∀ b ∈ bytes, b < 256 := by
  intro b hb
  obtain ⟨part, hpart⟩ := (forall₂_mem h.split.1).2 b hb
  have := hpart.small
  omega

theorem DottedQuad.bytes_eq (h : DottedQuad text bytes) :
    bytes = (text.splitOn '.').map digitsValue := by
  have hvalues := h.split.1
  clear h
  generalize text.splitOn '.' = parts at hvalues
  induction hvalues with
  | nil => rfl
  | cons hn _ ih => rw [List.map_cons, ← ih, hn.value]

end DottedQuad

/-! ## RFC 4291 -/

def isHex (c : Char) : Bool := (hexVal c).isSome

/-- The number a run of hexadecimal digits denotes. -/
def hexValue (text : List Char) : Nat := text.foldl (fun n c => 16 * n + (hexVal c).getD 0) 0

/-- One to four hexadecimal digits. -/
structure Group (text : List Char) (word : Nat) : Prop where
  nonempty : 1 ≤ text.length
  short : text.length ≤ 4
  hex : text.all isHex = true
  value : hexValue text = word

/-- Groups, the last of which may be a dotted quad. -/
inductive Words : List (List Char) → List Nat → Prop
  | nil : Words [] []
  | quad {text : List Char} {a b c d : Nat} :
      DottedQuad text [a, b, c, d] → Words [text] [256 * a + b, 256 * c + d]
  | group {text : List Char} {word : Nat} {gs : List (List Char)} {ws : List Nat} :
      Group text word → Words gs ws → Words (text :: gs) (word :: ws)

/-- `::` stands for one group of zeros or more. -/
inductive Rfc4291 : List Char → List Nat → Prop
  | full {gs : List (List Char)} {ws : List Nat} :
      Words gs ws → ws.length = 8 → Rfc4291 (join ':' gs) ws
  | compressed {hs ts : List (List Char)} {hw tw : List Nat} :
      List.Forall₂ Group hs hw → Words ts tw → hw.length + tw.length ≤ 7 →
      Rfc4291 (join ':' hs ++ ':' :: ':' :: join ':' ts)
        (hw ++ List.replicate (8 - hw.length - tw.length) 0 ++ tw)

/-- Any printable characters, none of them white space. -/
structure Zone (zone : List Char) : Prop where
  nonempty : zone ≠ []
  printable : ∀ c ∈ zone, isSpace c = false ∧ isControl c = false

/-- The text of an address, with or without a zone. -/
inductive Scoped : List Char → List Nat → Prop
  | bare {text : List Char} {words : List Nat} : Rfc4291 text words → Scoped text words
  | zone {text zone : List Char} {words : List Nat} :
      Rfc4291 text words → Zone zone → Scoped (text ++ '%' :: zone) words

section Words

variable {text : List Char} {gs hs : List (List Char)} {ws : List Nat} {word : Nat} {c : Char}

/-- No group is empty or holds a colon. -/
def Groups (gs : List (List Char)) : Prop := ∀ g ∈ gs, g ≠ [] ∧ ':' ∉ g

theorem Groups.tail {g : List Char} (h : Groups (g :: gs)) : Groups gs :=
  fun g hg => h g (List.mem_cons_of_mem _ hg)

/-- A colon of a text is followed by a group. -/
theorem Groups.head (h : Groups gs) (hgs : gs ≠ []) (rest : List Char) :
    (join ':' gs ++ rest).head? ≠ some ':' := by
  cases gs with
  | nil => exact absurd rfl hgs
  | cons g gs =>
      obtain ⟨hne, hcolon⟩ := h g (by simp)
      obtain ⟨c, cs, rfl⟩ := List.exists_cons_of_ne_nil hne
      have hc : c ≠ ':' := by
        rintro rfl
        simp at hcolon
      by_cases hrest : gs = []
      · subst hrest
        simpa using hc
      · rw [join_cons hrest]
        simpa using hc

theorem Groups.join_ne_nil (h : Groups gs) (hgs : gs ≠ []) : join ':' gs ≠ [] := by
  cases gs with
  | nil => exact absurd rfl hgs
  | cons g gs =>
      by_cases hrest : gs = []
      · subst hrest
        simpa using (h g (by simp)).1
      · rw [join_cons hrest]
        simp

theorem isHex_ne {d : Char} (h : isHex c = true) (hd : isHex d = false) : c ≠ d := by
  rintro rfl
  rw [h] at hd
  cases hd

theorem hexVal_lt {v : Nat} (h : hexVal c = some v) : v < 16 := by
  unfold hexVal at h
  split at h
  · cases h
    omega
  · split at h
    · cases h
      omega
    · split at h
      · cases h
        omega
      · cases h

theorem hexValue_lt (text : List Char) : hexValue text < 16 ^ text.length := by
  have hdigit : ∀ c : Char, (hexVal c).getD 0 < 16 := by
    intro c
    cases hc : hexVal c with
    | none => simp
    | some v => exact hexVal_lt hc
  have hfold : ∀ (text : List Char) (n k : Nat), n < 16 ^ k →
      text.foldl (fun n c => 16 * n + (hexVal c).getD 0) n < 16 ^ (k + text.length) := by
    intro text
    induction text with
    | nil => exact fun n k h => h
    | cons c text ih =>
        intro n k h
        have hc := hdigit c
        have hstep : 16 * n + (hexVal c).getD 0 < 16 ^ (k + 1) := by
          rw [pow_succ]
          omega
        have hrest := ih _ (k + 1) hstep
        rwa [List.foldl_cons, List.length_cons, show k + (text.length + 1) = k + 1 + text.length by
          omega]
  have h := hfold text 0 0 (by simp)
  rwa [Nat.zero_add] at h

theorem Group.word_lt (h : Group text word) : word < 65536 := by
  have hlt := hexValue_lt text
  have hle : 16 ^ text.length ≤ 16 ^ 4 := Nat.pow_le_pow_right (by omega) h.short
  rw [h.value] at hlt
  omega

theorem Group.chars (h : Group text word) : ∀ c ∈ text, isHex c = true :=
  List.all_eq_true.mp h.hex

theorem Group.not_mem (h : Group text word) (hc : isHex c = false) : c ∉ text := by
  intro hmem
  exact isHex_ne (h.chars c hmem) hc rfl

theorem Group.ne_nil (h : Group text word) : text ≠ [] := by
  rintro rfl
  cases h.nonempty

theorem isHex_not_space (h : isSpace c = true) : isHex c = false := by
  simp only [isSpace, Bool.or_eq_true, Bool.and_eq_true, decide_eq_true_eq, beq_iff_eq] at h
  simp only [isHex, hexVal]
  rw [if_neg (by omega), if_neg (by omega), if_neg (by omega)]
  rfl

theorem isHex_digit (h : c.isDigit = true) : isHex c = true := by
  obtain ⟨hlow, hhigh⟩ := isDigit_toNat h
  simp [isHex, hexVal, hlow, hhigh]

theorem DottedQuad.not_mem {bytes : List Nat} (h : DottedQuad text bytes)
    (hc : isHex c = false) (hdot : c ≠ '.') : c ∉ text := by
  intro hmem
  rcases h.chars c hmem with hdigit | rfl
  · exact isHex_ne (isHex_digit hdigit) hc rfl
  · exact hdot rfl

theorem DottedQuad.has_dot {bytes : List Nat} (h : DottedQuad text bytes) : '.' ∈ text := by
  by_contra hdot
  have hsplit := h.split
  rw [List.splitOn_eq_singleton hdot] at hsplit
  have hone := hsplit.1.length_eq
  have hfour := hsplit.2
  simp at hone
  omega

/-- Plain groups, or plain groups before a dotted quad. -/
theorem Words.cases (h : Words gs ws) : List.Forall₂ Group gs ws ∨
    ∃ gs' quad ws' a b c d, gs = gs' ++ [quad] ∧ ws = ws' ++ [256 * a + b, 256 * c + d] ∧
      List.Forall₂ Group gs' ws' ∧ DottedQuad quad [a, b, c, d] := by
  induction h with
  | nil => exact .inl .nil
  | @quad text a b c d hquad => exact .inr ⟨[], text, [], a, b, c, d, rfl, rfl, .nil, hquad⟩
  | group hgroup _ ih =>
      rcases ih with hplain | ⟨gs', quad, ws', a, b, c, d, rfl, rfl, hplain, hquad⟩
      · exact .inl (.cons hgroup hplain)
      · exact .inr ⟨_, quad, _, a, b, c, d, rfl, rfl, .cons hgroup hplain, hquad⟩

theorem groups_of_forall₂ (h : List.Forall₂ Group gs ws) : Groups gs := by
  intro g hg
  obtain ⟨w, hw⟩ := (forall₂_mem h).1 g hg
  exact ⟨hw.ne_nil, hw.not_mem (by decide)⟩

theorem Words.groups (h : Words gs ws) : Groups gs := by
  rcases h.cases with hplain | ⟨gs', quad, ws', a, b, c, d, rfl, -, hplain, hquad⟩
  · exact groups_of_forall₂ hplain
  · intro g hg
    rcases List.mem_append.mp hg with hg | hg
    · exact groups_of_forall₂ hplain g hg
    · rw [List.mem_singleton.mp hg]
      refine ⟨?_, hquad.not_mem (by decide) (by decide)⟩
      rintro rfl
      cases hquad.has_dot

theorem Words.chars (h : Words gs ws) : ∀ g ∈ gs, ∀ c ∈ g, isHex c = true ∨ c = '.' := by
  induction h with
  | nil => simp
  | quad hquad =>
      intro g hg c hc
      rw [List.mem_singleton.mp hg] at hc
      exact (hquad.chars c hc).imp isHex_digit id
  | group hgroup _ ih =>
      intro g hg c hc
      rcases List.mem_cons.mp hg with rfl | hg
      · exact .inl (hgroup.chars c hc)
      · exact ih g hg c hc

theorem Words.of_forall₂ (h : List.Forall₂ Group gs ws) : Words gs ws := by
  induction h with
  | nil => exact .nil
  | cons hgroup _ ih => exact .group hgroup ih

theorem Words.snoc {quad : List Char} {a b c d : Nat} (h : List.Forall₂ Group gs ws)
    (hquad : DottedQuad quad [a, b, c, d]) :
    Words (gs ++ [quad]) (ws ++ [256 * a + b, 256 * c + d]) := by
  induction h with
  | nil => exact .quad hquad
  | cons hg _ ih => exact .group hg ih

theorem Words.word_lt (h : Words gs ws) : ∀ w ∈ ws, w < 65536 := by
  induction h with
  | nil => simp
  | quad hquad =>
      have hlt := hquad.byte_lt
      simp only [List.mem_cons, List.not_mem_nil, or_false, forall_eq_or_imp, forall_eq] at hlt ⊢
      omega
  | group hgroup _ ih =>
      intro w hw
      rcases List.mem_cons.mp hw with rfl | hw
      · exact hgroup.word_lt
      · exact ih w hw

end Words

section Rfc4291

variable {text : List Char} {words : List Nat}

theorem Rfc4291.chars (h : Rfc4291 text words) :
    ∀ c ∈ text, isHex c = true ∨ c = ':' ∨ c = '.' := by
  have hjoin : ∀ {gs : List (List Char)} {ws : List Nat}, Words gs ws →
      ∀ c ∈ join ':' gs, isHex c = true ∨ c = ':' ∨ c = '.' := by
    intro gs ws hwords c hc
    rcases mem_join hc with rfl | ⟨g, hg, hc⟩
    · exact .inr (.inl rfl)
    · exact (hwords.chars g hg c hc).imp id .inr
  cases h with
  | full hwords _ => exact hjoin hwords
  | compressed hhead htail _ =>
      intro c hc
      simp only [List.mem_append, List.mem_cons] at hc
      rcases hc with hc | rfl | rfl | hc
      · exact hjoin (Words.of_forall₂ hhead) c hc
      · exact .inr (.inl rfl)
      · exact .inr (.inl rfl)
      · exact hjoin htail c hc

theorem Rfc4291.not_mem {c : Char} (h : Rfc4291 text words) (hc : isHex c = false)
    (hcolon : c ≠ ':') (hdot : c ≠ '.') : c ∉ text := by
  intro hmem
  rcases h.chars c hmem with hhex | hsame | hsame
  · exact isHex_ne hhex hc rfl
  · exact hcolon hsame
  · exact hdot hsame

theorem Rfc4291.has_colon (h : Rfc4291 text words) : ':' ∈ text := by
  cases h with
  | full hwords hlength =>
      cases hwords with
      | nil => cases hlength
      | quad _ => cases hlength
      | @group _ _ gs _ _ hrest =>
          have hgs : gs ≠ [] := by
            rintro rfl
            cases hrest
            cases hlength
          rw [join_cons hgs]
          simp
  | compressed _ _ _ => simp

theorem Rfc4291.length (h : Rfc4291 text words) : words.length = 8 := by
  cases h with
  | full _ hlength => exact hlength
  | compressed _ _ hcount =>
      simp only [List.length_append, List.length_replicate]
      omega

theorem Rfc4291.word_lt (h : Rfc4291 text words) : ∀ w ∈ words, w < 65536 := by
  cases h with
  | full hwords _ => exact hwords.word_lt
  | compressed hhead htail _ =>
      intro w hw
      simp only [List.mem_append, List.mem_replicate] at hw
      rcases hw with (hw | ⟨-, rfl⟩) | hw
      · exact (Words.of_forall₂ hhead).word_lt w hw
      · omega
      · exact htail.word_lt w hw

theorem Rfc4291.no_zone (h : Rfc4291 text words) : '%' ∉ text :=
  h.not_mem (by decide) (by decide) (by decide)

/-- What stands before the zone is the text of the address. -/
theorem Scoped.address (h : Scoped text words) : Rfc4291 (text.takeWhile (· != '%')) words := by
  have hall : ∀ {t : List Char}, Rfc4291 t words → ∀ c ∈ t, (c != '%') = true := by
    intro t ht c hc
    rw [bne_iff_ne]
    rintro rfl
    exact ht.no_zone hc
  cases h with
  | bare hread => rwa [List.takeWhile_eq_self_iff.mpr (hall hread)]
  | zone hread _ =>
      rw [List.takeWhile_append_of_pos (hall hread)]
      simpa using hread

theorem Scoped.no_space (h : Scoped text words) : ∀ c ∈ text, isSpace c = false := by
  have haddress : ∀ {t : List Char}, Rfc4291 t words → ∀ c ∈ t, isSpace c = false := by
    intro t ht c hc
    rw [Bool.eq_false_iff]
    intro hspace
    rcases ht.chars c hc with hhex | rfl | rfl
    · rw [isHex_not_space hspace] at hhex
      cases hhex
    · cases hspace
    · cases hspace
  cases h with
  | bare hread => exact haddress hread
  | zone hread hzone =>
      intro c hc
      rcases List.mem_append.mp hc with hc | hc
      · exact haddress hread c hc
      · rcases List.mem_cons.mp hc with rfl | hc
        · decide
        · exact (hzone.printable c hc).1

theorem Scoped.has_colon (h : Scoped text words) : ':' ∈ text :=
  (List.takeWhile_sublist _).subset h.address.has_colon

end Rfc4291

/-! ## Upper and lower case -/

section Case

variable {c d sep : Char} {text : List Char}

/-- What is no letter is the lower case of itself only. -/
theorem toLower_eq (hd : ¬ (97 ≤ d.toNat ∧ d.toNat ≤ 122)) (hd' : ¬ (65 ≤ d.toNat ∧ d.toNat ≤ 90)) :
    c.toLower = d ↔ c = d := by
  rcases toLower_cases c with ⟨hlow, hhigh, hlower⟩ | ⟨-, hsame⟩
  · constructor
    · rintro rfl
      omega
    · rintro rfl
      omega
  · rw [hsame]

theorem hexVal_toLower (c : Char) : hexVal c.toLower = hexVal c := by
  rcases toLower_cases c with ⟨hlow, hhigh, hlower⟩ | ⟨-, hsame⟩
  · unfold hexVal
    rw [hlower]
    by_cases hhex : c.toNat ≤ 70
    · rw [if_neg (by omega), if_pos (by omega), if_neg (by omega), if_neg (by omega),
        if_pos (by omega)]
      congr 1
    · rw [if_neg (by omega), if_neg (by omega), if_neg (by omega), if_neg (by omega),
        if_neg (by omega), if_neg (by omega)]
  · rw [hsame]

theorem hexValue_lower (text : List Char) : hexValue (text.map Char.toLower) = hexValue text := by
  unfold hexValue
  rw [List.foldl_map]
  simp only [hexVal_toLower]

theorem splitOn_map {f : Char → Char} (hf : ∀ c, f c = sep ↔ c = sep) (text : List Char) :
    (text.map f).splitOn sep = (text.splitOn sep).map (List.map f) := by
  induction text with
  | nil => rfl
  | cons c text ih =>
      rw [List.map_cons, List.splitOn_cons_eq_if_modifyHead, List.splitOn_cons_eq_if_modifyHead, ih]
      by_cases hc : c = sep
      · rw [if_pos (by simp [hf, hc]), if_pos (by simp [hc])]
        rfl
      · rw [if_neg (by simp [hf, hc]), if_neg (by simp [hc])]
        cases text.splitOn sep <;> rfl

theorem group_lower {word : Nat} : Group (text.map Char.toLower) word ↔ Group text word := by
  have hhex : (text.map Char.toLower).all isHex = text.all isHex := by
    rw [List.all_map]
    congr 1
    funext c
    simp [isHex, hexVal_toLower]
  constructor
  · rintro ⟨hne, hshort, hall, hvalue⟩
    rw [List.length_map] at hne hshort
    exact ⟨hne, hshort, hhex ▸ hall, hexValue_lower text ▸ hvalue⟩
  · rintro ⟨hne, hshort, hall, hvalue⟩
    exact ⟨by rwa [List.length_map], by rwa [List.length_map], by rwa [hhex],
      by rwa [hexValue_lower]⟩

/-- Digits and dots have no case. -/
theorem map_toLower_plain (h : ∀ c ∈ text, c.toLower.isDigit = true ∨ c.toLower = '.') :
    text.map Char.toLower = text := by
  refine (List.map_congr_left fun c hc => ?_).trans (List.map_id _)
  show c.toLower = c
  rcases toLower_cases c with ⟨hlow, hhigh, hlower⟩ | ⟨-, hsame⟩
  · rcases h c hc with hdigit | hdot
    · have hrange := isDigit_toNat hdigit
      omega
    · rw [toLower_eq (by decide) (by decide)] at hdot
      rw [hdot]
      decide
  · exact hsame

theorem DottedQuad.lower {bytes : List Nat} (h : DottedQuad (text.map Char.toLower) bytes) :
    text.map Char.toLower = text := by
  refine map_toLower_plain fun c hc => ?_
  exact h.chars c.toLower (List.mem_map_of_mem hc)

theorem dottedQuad_toLower {bytes : List Nat} (h : DottedQuad text bytes) :
    text.map Char.toLower = text := by
  refine (List.map_congr_left fun c hc => ?_).trans (List.map_id _)
  show c.toLower = c
  rcases toLower_cases c with ⟨hlow, hhigh, -⟩ | ⟨-, hsame⟩
  · rcases h.chars c hc with hdigit | rfl
    · have hrange := isDigit_toNat hdigit
      omega
    · decide
  · exact hsame

abbrev lowered (gs : List (List Char)) : List (List Char) := gs.map (List.map Char.toLower)

theorem words_lower {gs : List (List Char)} {ws : List Nat} :
    Words (lowered gs) ws ↔ Words gs ws := by
  induction gs generalizing ws with
  | nil => rfl
  | cons g gs ih =>
      constructor
      · intro h
        generalize hlowered : lowered (g :: gs) = ls at h
        cases h with
        | nil => cases hlowered
        | group hgroup hrest =>
            obtain ⟨rfl, rfl⟩ := List.cons.inj hlowered
            exact .group (group_lower.mp hgroup) (ih.mp hrest)
        | quad hquad =>
            obtain ⟨rfl, hnil⟩ := List.cons.inj hlowered
            obtain rfl := List.map_eq_nil_iff.mp hnil
            rw [hquad.lower] at hquad
            exact .quad hquad
      · intro h
        cases h with
        | group hgroup hrest => exact .group (group_lower.mpr hgroup) (ih.mpr hrest)
        | quad hquad =>
            rw [← dottedQuad_toLower hquad] at hquad
            exact .quad hquad

theorem forall₂_lower {gs : List (List Char)} {ws : List Nat} :
    List.Forall₂ Group (lowered gs) ws ↔ List.Forall₂ Group gs ws := by
  rw [List.forall₂_map_left_iff]
  simp only [group_lower]

theorem join_lower (gs : List (List Char)) :
    (join ':' gs).map Char.toLower = join ':' (lowered gs) := by
  induction gs with
  | nil => rfl
  | cons g gs ih =>
      by_cases hgs : gs = []
      · subst hgs
        simp
      · have hlowered : lowered gs ≠ [] := by simpa using hgs
        show _ = join ':' (g.map Char.toLower :: lowered gs)
        rw [join_cons hgs, List.map_append, List.map_cons, ih, join_cons hlowered]
        rfl

/-- Groups of a text in lower case are those of the text. -/
theorem join_of_lower {gs : List (List Char)} (hgroups : Groups gs)
    (h : text.map Char.toLower = join ':' gs) : ∃ gs', text = join ':' gs' ∧ gs = lowered gs' := by
  by_cases hgs : gs = []
  · subst hgs
    exact ⟨[], by simpa using h, rfl⟩
  · refine ⟨text.splitOn ':', (join_splitOn text).symm, ?_⟩
    rw [lowered, ← splitOn_map (fun c => toLower_eq (by decide) (by decide)), h,
      splitOn_join (fun g hg => (hgroups g hg).2) hgs]

/-- The digits of an address may have either case. -/
theorem rfc4291_lower {words : List Nat} :
    Rfc4291 (text.map Char.toLower) words ↔ Rfc4291 text words := by
  constructor
  · intro h
    generalize htext : text.map Char.toLower = lower at h
    cases h with
    | full hwords hlength =>
        obtain ⟨gs', rfl, rfl⟩ := join_of_lower hwords.groups htext
        exact .full (words_lower.mp hwords) hlength
    | compressed hhead htail hcount =>
        obtain ⟨front, rest, rfl, hfront, hrest⟩ := List.map_eq_append_iff.mp htext
        obtain ⟨c, rest, rfl, hc, hrest'⟩ := List.map_eq_cons_iff.mp hrest
        obtain ⟨d, rest, rfl, hd, htail'⟩ := List.map_eq_cons_iff.mp hrest'
        rw [toLower_eq (by decide) (by decide)] at hc hd
        subst hc hd
        obtain ⟨hs', rfl, rfl⟩ := join_of_lower (groups_of_forall₂ hhead) hfront
        obtain ⟨ts', rfl, rfl⟩ := join_of_lower htail.groups htail'
        exact .compressed (forall₂_lower.mp hhead) (words_lower.mp htail) hcount
  · intro h
    cases h with
    | full hwords hlength =>
        rw [join_lower]
        exact .full (words_lower.mpr hwords) hlength
    | compressed hhead htail hcount =>
        rw [List.map_append, List.map_cons, List.map_cons, join_lower, join_lower]
        exact .compressed (forall₂_lower.mpr hhead) (words_lower.mpr htail) hcount

end Case

/-! ## Blocks -/

/-- The number whose digits to the base 256 these are. -/
def ofBytes (bytes : List Nat) : Nat := bytes.foldl (fun n b => 256 * n + b) 0

/-- The two bytes of each word. -/
def bytesOf (words : List Nat) : List Nat := words.flatMap fun w => [w / 256, w % 256]

/-- Two addresses of so many bits whose first `len` bits are the same. -/
def SameBlock (bits len a b : Nat) : Prop := a / 2 ^ (bits - len) = b / 2 ^ (bits - len)

theorem foldl_bytes (n : Nat) (bytes : List Nat) :
    bytes.foldl (fun n b => 256 * n + b) n = n * 256 ^ bytes.length + ofBytes bytes := by
  unfold ofBytes
  induction bytes generalizing n with
  | nil => simp
  | cons b bytes ih =>
      rw [List.foldl_cons, List.foldl_cons, ih, ih (256 * 0 + b), List.length_cons]
      ring

theorem ofBytes_cons (b : Nat) (bytes : List Nat) :
    ofBytes (b :: bytes) = b * 256 ^ bytes.length + ofBytes bytes := by
  rw [ofBytes, List.foldl_cons, foldl_bytes]
  simp

theorem ofBytes_lt {bytes : List Nat} (h : ∀ b ∈ bytes, b < 256) :
    ofBytes bytes < 256 ^ bytes.length := by
  induction bytes with
  | nil => simp [ofBytes]
  | cons b bytes ih =>
      have hb := h b (by simp)
      have hrest := ih fun b hb => h b (by simp [hb])
      calc ofBytes (b :: bytes) = b * 256 ^ bytes.length + ofBytes bytes := ofBytes_cons b bytes
        _ < b * 256 ^ bytes.length + 256 ^ bytes.length := Nat.add_lt_add_left hrest _
        _ = (b + 1) * 256 ^ bytes.length := by ring
        _ ≤ 256 * 256 ^ bytes.length := Nat.mul_le_mul_right _ hb
        _ = 256 ^ (b :: bytes).length := by rw [List.length_cons, pow_succ, Nat.mul_comm]

/-- A mask of the bits from `k` on sees just the block. -/
theorem land_eq_iff_div_eq {n k a b mask : Nat} (ha : a < 2 ^ n) (hb : b < 2 ^ n)
    (hmask : ∀ i < n, mask.testBit i = decide (k ≤ i)) :
    a &&& mask = b &&& mask ↔ a / 2 ^ k = b / 2 ^ k := by
  have hhigh {c i : Nat} (hc : c < 2 ^ n) (hi : n ≤ i) : c.testBit i = false :=
    Nat.testBit_lt_two_pow (hc.trans_le (Nat.pow_le_pow_right (by decide) hi))
  constructor
  · intro h
    apply Nat.eq_of_testBit_eq
    intro i
    rw [Nat.testBit_div_two_pow, Nat.testBit_div_two_pow]
    by_cases hi : i + k < n
    · have hbit := congrArg (fun c => c.testBit (i + k)) h
      simpa [hmask _ hi] using hbit
    · rw [hhigh ha (by omega), hhigh hb (by omega)]
  · intro h
    apply Nat.eq_of_testBit_eq
    intro i
    rw [Nat.testBit_and, Nat.testBit_and]
    by_cases hi : i < n
    · rw [hmask i hi]
      by_cases hk : k ≤ i
      · have hbit := congrArg (fun c => c.testBit (i - k)) h
        simp only [Nat.testBit_div_two_pow] at hbit
        rw [Nat.sub_add_cancel hk] at hbit
        rw [hbit]
      · rw [decide_eq_false hk, Bool.and_false, Bool.and_false]
    · rw [hhigh ha (by omega), hhigh hb (by omega)]

/-- The leading byte of a block, and the rest. -/
theorem sameBlock_cons {x y len : Nat} {xs ys : List Nat} (hx : ∀ b ∈ xs, b < 256)
    (hy : ∀ b ∈ ys, b < 256) (hlength : xs.length = ys.length) (hlen : len ≤ 8 * xs.length) :
    SameBlock (8 * (xs.length + 1)) (len + 8) (ofBytes (x :: xs)) (ofBytes (y :: ys)) ↔
      x = y ∧ SameBlock (8 * xs.length) len (ofBytes xs) (ofBytes ys) := by
  unfold SameBlock
  rw [ofBytes_cons, ofBytes_cons, ← hlength]
  have hpow : 256 ^ xs.length = 2 ^ (8 * xs.length - len) * 2 ^ len := by
    rw [← pow_add, Nat.sub_add_cancel hlen, pow_mul]
    norm_num
  have hbits : 8 * (xs.length + 1) - (len + 8) = 8 * xs.length - len := by omega
  have hpos : 0 < 2 ^ (8 * xs.length - len) := Nat.two_pow_pos _
  have hassoc : ∀ r, x * (2 ^ (8 * xs.length - len) * 2 ^ len) + r =
      2 ^ (8 * xs.length - len) * (x * 2 ^ len) + r := fun r => by ring
  rw [hbits]
  constructor
  · intro h
    have hsame : x = y := by
      have hdiv := congrArg (· / 2 ^ len) h
      simp only [Nat.div_div_eq_div_mul, ← hpow] at hdiv
      have hxs := ofBytes_lt hx
      have hys := ofBytes_lt hy
      rw [← hlength] at hys
      have hpos' : 0 < 256 ^ xs.length := Nat.pow_pos (by omega)
      rwa [Nat.mul_comm x, Nat.mul_comm y, Nat.mul_add_div hpos', Nat.mul_add_div hpos',
        Nat.div_eq_of_lt hxs, Nat.div_eq_of_lt hys] at hdiv
    refine ⟨hsame, ?_⟩
    subst hsame
    rw [hpow, hassoc, hassoc, Nat.mul_add_div hpos, Nat.mul_add_div hpos] at h
    omega
  · rintro ⟨rfl, h⟩
    rw [hpow, hassoc, hassoc, Nat.mul_add_div hpos, Nat.mul_add_div hpos, h]

/-- A block that ends in the first byte. -/
theorem sameBlock_short {x y len : Nat} {xs ys : List Nat} (hx : ∀ b ∈ xs, b < 256)
    (hy : ∀ b ∈ ys, b < 256) (hlength : xs.length = ys.length) (hlen : len < 8) :
    SameBlock (8 * (xs.length + 1)) len (ofBytes (x :: xs)) (ofBytes (y :: ys)) ↔
      x / 2 ^ (8 - len) = y / 2 ^ (8 - len) := by
  unfold SameBlock
  have hpow : 2 ^ (8 * (xs.length + 1) - len) = 256 ^ xs.length * 2 ^ (8 - len) := by
    rw [show 8 * (xs.length + 1) - len = 8 * xs.length + (8 - len) by omega, pow_add, pow_mul]
    norm_num
  have hpos : 0 < 256 ^ xs.length := Nat.pow_pos (by omega)
  have hltx := ofBytes_lt hx
  have hlty := ofBytes_lt hy
  rw [← hlength] at hlty
  rw [ofBytes_cons, ofBytes_cons, ← hlength, hpow, ← Nat.div_div_eq_div_mul,
    ← Nat.div_div_eq_div_mul, Nat.mul_comm x, Nat.mul_comm y, Nat.mul_add_div hpos,
    Nat.mul_add_div hpos, Nat.div_eq_of_lt hltx, Nat.div_eq_of_lt hlty, Nat.add_zero,
    Nat.add_zero]

/-- Addresses are in one block when the bytes that lie in its leading bits
are the same, and the leading bits of the next byte. -/
theorem sameBlock_iff_bytes {xs ys : List Nat} {len : Nat} (hx : ∀ b ∈ xs, b < 256)
    (hy : ∀ b ∈ ys, b < 256) (hlength : xs.length = ys.length) (hlen : len ≤ 8 * xs.length) :
    SameBlock (8 * xs.length) len (ofBytes xs) (ofBytes ys) ↔
      (∀ i < len / 8, xs.getD i 0 = ys.getD i 0) ∧
        xs.getD (len / 8) 0 / 2 ^ (8 - len % 8) = ys.getD (len / 8) 0 / 2 ^ (8 - len % 8) := by
  induction xs generalizing ys len with
  | nil =>
      have hnil : ys = [] := List.eq_nil_of_length_eq_zero hlength.symm
      subst hnil
      exact ⟨fun _ => ⟨fun _ _ => rfl, rfl⟩, fun _ => rfl⟩
  | cons x xs ih =>
      cases ys with
      | nil => cases hlength
      | cons y ys =>
          have hxs : ∀ b ∈ xs, b < 256 := fun b hb => hx b (by simp [hb])
          have hys : ∀ b ∈ ys, b < 256 := fun b hb => hy b (by simp [hb])
          have hshort : xs.length = ys.length := by simpa using hlength
          rw [List.length_cons] at hlen ⊢
          by_cases hbyte : len < 8
          · have hzero : len / 8 = 0 := by omega
            have hmod : len % 8 = len := by omega
            rw [sameBlock_short hxs hys hshort hbyte, hzero, hmod]
            exact ⟨fun h => ⟨fun i hi => by omega, h⟩, fun h => h.2⟩
          · obtain ⟨rest, rfl⟩ : ∃ rest, len = rest + 8 := ⟨len - 8, by omega⟩
            have hdiv : (rest + 8) / 8 = rest / 8 + 1 := by omega
            have hmod : (rest + 8) % 8 = rest % 8 := by omega
            rw [sameBlock_cons hxs hys hshort (by omega), ih hxs hys hshort (by omega), hdiv, hmod]
            constructor
            · rintro ⟨rfl, hfull, hnext⟩
              refine ⟨?_, hnext⟩
              intro i hi
              cases i with
              | zero => rfl
              | succ i => exact hfull i (by omega)
            · rintro ⟨hfull, hnext⟩
              exact ⟨hfull 0 (by omega), fun i hi => hfull (i + 1) (by omega), hnext⟩

end SaasFoundation.Lib.Addresses
