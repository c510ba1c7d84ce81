import SaasFoundation.Foundation.Net.Anonymize
import SaasFoundation.Vestibulum.Discovery.LenientText

/-!
# The two IPv6 parsers

The parser of foundation reads every text in the form of RFC 4291, and some
others; the parser of the discovery calls leaves a few of them out, and takes
others again. Where a text is none of these, the two parsers take it just
when it is well formed, and read the same address.
-/

namespace SaasFoundation.Vestibulum.Discovery

open Lib Lib.Text Lib.Addresses Foundation.Net

/-- Both parsers read what the text denotes, and refuse a text that denotes
nothing. -/
structure Exact (toByte : List Char → Option Nat) (toLowerCase : List Char → List Char)
    (s : List Char) : Prop where
  parseIPv6 : ∀ bytes, AnyText.parseIPv6 toByte s = some bytes ↔
    ∃ words, Rfc4291 s words ∧ bytes = bytesOf words
  expandIPv6 : ∀ words, expandIPv6 (toLowerCase s) = some words ↔ Rfc4291 s words

/-- A dotted quad right behind a `::`, with other than five groups in front. -/
def HalfPair (t : List Char) : Prop :=
  ∃ hs q bytes, (∀ g ∈ hs, IsGroup g) ∧ DottedQuad q bytes ∧
    t = join ':' hs ++ ':' :: ':' :: q ∧ hs.length ≠ 5

/-- A well-formed text whose dotted quad, if any, both parsers find, or an
ill-formed text that neither of them takes for an address. -/
def Unmistakable (toByte : List Char → Option Nat) (toLowerCase : List Char → List Char)
    (s : List Char) : Prop :=
  (∃ words, Rfc4291 s words) ∧ ¬ HalfPair (toLowerCase s) ∨
    (¬ ∃ words, Rfc4291 s words) ∧ ¬ Lenient toByte s ∧ ¬ LenientText (toLowerCase s)

section WellFormed

variable {t g : List Char} {gs : List (List Char)} {ws words : List Nat}

theorem segments_of_groups (h : List.Forall₂ Group gs ws)
    (hlower : ∀ g ∈ gs, ∀ c ∈ g, c.isUpper = false) : ∀ g ∈ gs, Segment g := by
  intro g hg
  obtain ⟨w, hw⟩ := (forall₂_mem h).1 g hg
  exact ⟨hw.short, fun c hc => ⟨hw.chars c hc, hlower g hg c hc⟩⟩

theorem mem_join_of_mem {c : Char} (hg : g ∈ gs) (hc : c ∈ g) : c ∈ join ':' gs := by
  induction gs with
  | nil => cases hg
  | cons first gs ih =>
      by_cases hgs : gs = []
      · subst hgs
        rw [join_singleton, ← List.mem_singleton.mp hg]
        exact hc
      · rw [join_cons hgs]
        rcases List.mem_cons.mp hg with rfl | hg
        · exact List.mem_append_left _ hc
        · exact List.mem_append_right _ (List.mem_cons_of_mem _ (ih hg))

theorem segments_of_text (h : List.Forall₂ Group gs ws) {front rest : List Char}
    (ht : t = front ++ join ':' gs ++ rest) (hlower : ∀ c ∈ t, c.isUpper = false) :
    ∀ g ∈ gs, Segment g := by
  refine segments_of_groups h fun g hg c hc => hlower c ?_
  rw [ht]
  exact List.mem_append_left _ (List.mem_append_right _ (mem_join_of_mem hg hc))

theorem noPair_groups (h : List.Forall₂ Group gs ws) : ¬ HasPair (join ':' gs) :=
  cutPair_none_iff.mp (cutPair_groups (groups_of_forall₂ h))

theorem noPair_snoc (h : List.Forall₂ Group gs ws) : ¬ HasPair (join ':' gs ++ [':']) := by
  rw [← cutPair_none_iff, cutPair_join (groups_of_forall₂ h)]
  rfl

theorem no_dot (h : List.Forall₂ Group gs ws) : '.' ∉ join ':' gs :=
  dot_free (plain_of_groups h)

/-- Without `::`, a quad stands behind six groups. -/
theorem expandIPv6_full (hlower : ∀ c ∈ join ':' gs, c.isUpper = false) (hwords : Words gs ws)
    (hlength : ws.length = 8) : (expandIPv6 (join ':' gs)).isSome = true := by
  rcases hwords.cases with hplain | ⟨gs', quad, ws', a, b, c, d, rfl, rfl, hplain, hquad⟩
  · rw [expandIPv6_plain (no_dot hplain)]
    refine expandParts_plain.mpr (.full ?_ (noPair_groups hplain) ?_)
    · exact @segments_of_text _ _ _ hplain [] [] (by simp) hlower
    · rw [hplain.length_eq, hlength]
  · have hgs : gs' ≠ [] := by
      rintro rfl
      cases hplain
      cases hlength
    rw [join_snoc hgs] at hlower ⊢
    rw [expandIPv6_after hquad]
    refine (expandParts_quad _ _).mpr (.full ?_ (noPair_groups hplain) ?_)
    · exact @segments_of_text _ _ _ hplain [] _ rfl hlower
    · rw [hplain.length_eq]
      simpa using hlength

/-- With one, a quad that stands right behind it needs five groups in front. -/
theorem expandIPv6_compressed {hs ts : List (List Char)} {hw tw : List Nat}
    (hlower : ∀ c ∈ join ':' hs ++ ':' :: ':' :: join ':' ts, c.isUpper = false)
    (hhead : List.Forall₂ Group hs hw) (htail : Words ts tw) (hcount : hw.length + tw.length ≤ 7)
    (hhalf : ¬ HalfPair (join ':' hs ++ ':' :: ':' :: join ':' ts)) :
    (expandIPv6 (join ':' hs ++ ':' :: ':' :: join ':' ts)).isSome = true := by
  have hheadSegments : ∀ g ∈ hs, Segment g := @segments_of_text _ _ _ hhead [] _ rfl hlower
  have hheadLength := hhead.length_eq
  rcases htail.cases with hplain | ⟨ts', quad, tw', a, b, c, d, rfl, rfl, hplain, hquad⟩
  · have hdot : '.' ∉ join ':' hs ++ ':' :: ':' :: join ':' ts := by
      have := no_dot hhead
      have := no_dot hplain
      simp_all
    have htailSegments : ∀ g ∈ ts, Segment g :=
      @segments_of_text _ _ _ hplain (join ':' hs ++ [':', ':']) [] (by simp) hlower
    rw [expandIPv6_plain hdot]
    refine expandParts_plain.mpr (.paired hheadSegments htailSegments
      (noPair_snoc hhead) (noPair_groups hplain) ?_)
    rw [hheadLength, hplain.length_eq]
    omega
  · rw [List.length_append, List.length_cons, List.length_singleton] at hcount
    by_cases hts : ts' = []
    · subst hts
      rw [List.nil_append, join_singleton] at hhalf ⊢
      have hfive : hs.length = 5 := by
        by_contra hne
        refine hhalf ⟨hs, quad, _, fun g hg => ?_, hquad, rfl, hne⟩
        exact (forall₂_mem hhead).1 g hg
      have hhs : hs ≠ [] := by
        rintro rfl
        cases hfive
      have hjoin : join ':' hs ++ [':'] = join ':' (hs ++ [[]]) := (join_snoc hhs).symm
      have hnone := noPair_snoc hhead
      rw [expandIPv6_half hquad]
      rw [hjoin] at hnone ⊢
      refine (expandParts_quad _ _).mpr (.full ?_ hnone ?_)
      · intro g hg
        rcases List.mem_append.mp hg with hg | hg
        · exact hheadSegments g hg
        · rw [List.mem_singleton.mp hg]
          exact ⟨by decide, by decide⟩
      · rw [List.length_append, hfive]
        rfl
    · have htext : join ':' hs ++ ':' :: ':' :: (join ':' ts' ++ ':' :: quad) =
          join ':' hs ++ ':' :: ':' :: join ':' ts' ++ ':' :: quad := by simp
      rw [join_snoc hts] at hlower ⊢
      have htailSegments : ∀ g ∈ ts', Segment g :=
        @segments_of_text _ _ _ hplain (join ':' hs ++ [':', ':']) (':' :: quad) (by simp) hlower
      rw [htext, expandIPv6_after hquad]
      refine (expandParts_quad _ _).mpr (.paired hheadSegments htailSegments
        (noPair_snoc hhead) (noPair_groups hplain) ?_)
      rw [hheadLength, hplain.length_eq]
      omega

theorem expandIPv6_wellFormed (hlower : ∀ c ∈ t, c.isUpper = false) (h : Rfc4291 t words) :
    (expandIPv6 t).isSome = true ↔ ¬ HalfPair t := by
  constructor
  · rintro haccepts ⟨hs, q, bytes, hhead, hquad, rfl, hfive⟩
    obtain ⟨segs, hsegs⟩ := Option.isSome_iff_exists.mp haccepts
    have hplain : ∀ g ∈ hs, Plain g := by
      obtain ⟨ws, hws⟩ := groups_exist hhead
      exact plain_of_groups hws
    match bytes, hquad.split.2 with
    | [a, b, c, d], _ => exact hfive (expand_half hplain hquad hsegs).2
  · intro hhalf
    cases h with
    | full hwords hlength => exact expandIPv6_full hlower hwords hlength
    | compressed hhead htail hcount => exact expandIPv6_compressed hlower hhead htail hcount hhalf

end WellFormed

section Agreement

variable {toByte : List Char → Option Nat} {toLowerCase : List Char → List Char} {s : List Char}
  {words : List Nat}

theorem isUpper_toLower (c : Char) : c.toLower.isUpper = false := by
  rw [Bool.eq_false_iff]
  intro hupper
  have hrange := isUpper_iff.mp hupper
  rcases toLower_cases c with ⟨hlow, hhigh, hlower⟩ | ⟨hother, hsame⟩
  · omega
  · rw [hsame] at hrange
    exact hother hrange

theorem rfc4291_ascii (h : Rfc4291 s words) : ∀ c ∈ s, c.toNat < 128 := by
  intro c hc
  rcases h.chars c hc with hhex | rfl | rfl
  · by_contra hbig
    unfold isHex hexVal at hhex
    rw [if_neg (by omega), if_neg (by omega), if_neg (by omega)] at hhex
    cases hhex
  · decide
  · decide

/-- A text denotes one address. -/
theorem rfc4291_inj {words' : List Nat} (h : Rfc4291 s words) (h' : Rfc4291 s words') :
    words = words' :=
  scoped_inj (.bare h) (.bare h')

/-- A well-formed text is read by both unless the quad is missed. -/
theorem exact_wellFormed (hbyte : AnyText.ReadsOctets toByte)
    (hlower : toLowerCase s = s.map Char.toLower) (h : Rfc4291 s words) :
    Exact toByte toLowerCase s ↔ ¬ HalfPair (toLowerCase s) := by
  have hread : Rfc4291 (toLowerCase s) words := by
    rw [hlower]
    exact rfc4291_lower.mpr h
  have hcase : ∀ c ∈ toLowerCase s, c.isUpper = false := by
    rw [hlower]
    intro c hc
    obtain ⟨d, -, rfl⟩ := List.mem_map.mp hc
    exact isUpper_toLower d
  have haccepts := expandIPv6_wellFormed hcase hread
  constructor
  · intro hexact
    rw [← haccepts, (hexact.expandIPv6 words).mpr h]
    rfl
  · intro hhalf
    obtain ⟨segs, hsegs⟩ := Option.isSome_iff_exists.mp (haccepts.mpr hhalf)
    have hsame := rfc4291_of_expand (wellSpelled_of_rfc4291 hread) hsegs
    obtain rfl := rfc4291_inj hsame hread
    refine ⟨?_, ?_⟩
    · intro bytes
      rw [AnyText.parseIPv6_rfc4291 hbyte h]
      constructor
      · intro heq
        exact ⟨segs, h, (Option.some.inj heq).symm⟩
      · rintro ⟨words', hwords', rfl⟩
        rw [rfc4291_inj h hwords']
    · intro words'
      rw [hsegs]
      constructor
      · intro heq
        rwa [← Option.some.inj heq]
      · intro hwords'
        rw [rfc4291_inj h hwords']

/-- An ill-formed text is refused by both unless one of them is lenient. -/
theorem exact_illFormed (hzone : '%' ∉ s) (h : ¬ ∃ words, Rfc4291 s words) :
    Exact toByte toLowerCase s ↔ ¬ Lenient toByte s ∧ ¬ LenientText (toLowerCase s) := by
  rw [← parseIPv6_isSome hzone, ← expandIPv6_isSome, Bool.not_eq_true, Bool.not_eq_true,
    Option.isSome_eq_false_iff, Option.isSome_eq_false_iff, Option.isNone_iff_eq_none,
    Option.isNone_iff_eq_none]
  constructor
  · intro hexact
    refine ⟨Option.eq_none_iff_forall_ne_some.mpr ?_, Option.eq_none_iff_forall_ne_some.mpr ?_⟩
    · intro bytes hbytes
      obtain ⟨words, hwords, -⟩ := (hexact.parseIPv6 bytes).mp hbytes
      exact h ⟨words, hwords⟩
    · intro words hwords
      exact h ⟨words, (hexact.expandIPv6 words).mp hwords⟩
  · rintro ⟨hparse, hexpand⟩
    refine ⟨?_, ?_⟩
    · intro bytes
      rw [hparse]
      constructor
      · intro heq
        cases heq
      · rintro ⟨words, hwords, -⟩
        exact absurd ⟨words, hwords⟩ h
    · intro words
      rw [hexpand]
      constructor
      · intro heq
        cases heq
      · intro hwords
        exact absurd ⟨words, hwords⟩ h

end Agreement

/-- The parsers are exact on a text if and only if it is unmistakable. -/
theorem parsers_exact_iff (toByte : List Char → Option Nat)
    (toLowerCase : List Char → List Char) (s : List Char) (hbyte : AnyText.ReadsOctets toByte)
    (hlower : ∀ t, (∀ c ∈ t, c.toNat < 128) → toLowerCase t = t.map Char.toLower)
    (hzone : '%' ∉ s) :
    Exact toByte toLowerCase s ↔ Unmistakable toByte toLowerCase s := by
  unfold Unmistakable
  by_cases h : ∃ words, Rfc4291 s words
  · obtain ⟨words, hwords⟩ := h
    rw [exact_wellFormed hbyte (hlower s (rfc4291_ascii hwords)) hwords]
    constructor
    · exact fun hhalf => .inl ⟨⟨words, hwords⟩, hhalf⟩
    · rintro (⟨-, hhalf⟩ | ⟨hnone, -⟩)
      · exact hhalf
      · exact absurd ⟨words, hwords⟩ hnone
  · rw [exact_illFormed hzone h]
    constructor
    · exact fun hstrict => .inr ⟨h, hstrict⟩
    · rintro (⟨hwell, -⟩ | ⟨-, hstrict⟩)
      · exact absurd hwell h
      · exact hstrict

/-- A text with a compressed middle. -/
theorem parsers_exact_documentation :
    Exact toByte (List.map Char.toLower) "2001:DB8::1".toList ↔
      Unmistakable toByte (List.map Char.toLower) "2001:DB8::1".toList :=
  parsers_exact_iff toByte (List.map Char.toLower) "2001:DB8::1".toList (fun _ _ => toByte_octet)
    (fun _ _ => rfl) (by decide)

/-- A dotted quad right behind the `::` is well formed and read by one parser
only. -/
theorem quad_missed : (∃ words, Rfc4291 "::1.2.3.4".toList words) ∧
    expandIPv6 ("::1.2.3.4".toList.map Char.toLower) = none ∧
    ¬ Exact toByte (List.map Char.toLower) "::1.2.3.4".toList := by
  have hmatches : matchesIPv4 "1.2.3.4".toList = true := by decide
  have hquad : DottedQuad "1.2.3.4".toList [1, 2, 3, 4] := dottedQuad_of_matches hmatches
  have hread : Rfc4291 "::1.2.3.4".toList _ := .compressed .nil (.quad hquad) (by decide)
  have hnone : expandIPv6 ("::1.2.3.4".toList.map Char.toLower) = none := by decide
  refine ⟨⟨_, hread⟩, hnone, fun hexact => ?_⟩
  have hsome := (hexact.expandIPv6 _).mpr hread
  rw [show expandIPv6 (List.map Char.toLower "::1.2.3.4".toList) = none from hnone] at hsome
  cases hsome

end SaasFoundation.Vestibulum.Discovery
