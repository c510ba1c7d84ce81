import SaasFoundation.Foundation.Net.Lenient
import SaasFoundation.Vestibulum.Discovery.FailClosed

/-!
# What `expandIPv6` takes

The texts that the parser of the discovery calls reads as some address. A
piece between colons may be empty and is read as zero; four runs of digits
with dots at the end are a dotted quad wherever they begin, and one colon in
front of them is dropped.
-/

namespace SaasFoundation.Vestibulum.Discovery

open Lib Lib.Text Lib.Addresses Foundation.Net

/-- At most four hexadecimal digits, in lower case. -/
def Segment (g : List Char) : Prop :=
  g.length ≤ 4 ∧ ∀ c ∈ g, isHex c = true ∧ c.isUpper = false

/-- Eight words, `k` of which stand behind the text; with a `::`, at most eight. -/
inductive Segmented (k : Nat) : List Char → Prop
  | full {gs : List (List Char)} : (∀ g ∈ gs, Segment g) → ¬ HasPair (join ':' gs) →
      gs.length + k = 8 → Segmented k (join ':' gs)
  | paired {hs ts : List (List Char)} : (∀ g ∈ hs, Segment g) → (∀ g ∈ ts, Segment g) →
      ¬ HasPair (join ':' hs ++ [':']) → ¬ HasPair (join ':' ts) → hs.length + ts.length + k ≤ 8 →
      Segmented k (join ':' hs ++ ':' :: ':' :: join ':' ts)

/-- The text is segmented, or what stands in front of the longest end of it
that the pattern for a dotted quad matches. -/
inductive LenientText : List Char → Prop
  | plain {t : List Char} : (∀ q, q <:+ t → isDotted q = false) → Segmented 0 t → LenientText t
  | quad {p q : List Char} : isDotted q = true →
      (∀ q', q' <:+ p ++ q → isDotted q' = true → q'.length ≤ q.length) →
      (∀ part ∈ q.splitOn '.', digitsValue part ≤ 255) → Segmented 2 (dropColon p) →
      LenientText (p ++ q)

section Match

variable {p q t : List Char}

theorem v4Match_none_iff : v4Match t = none ↔ ∀ q, q <:+ t → isDotted q = false := by
  induction t with
  | nil =>
      have hnil : isDotted [] = false := rfl
      simp [v4Match, List.suffix_nil, hnil]
  | cons c cs ih =>
      rw [v4Match]
      by_cases hdotted : isDotted (c :: cs) = true
      · rw [if_pos hdotted]
        constructor
        · intro h
          cases h
        · intro h
          rw [h _ (List.suffix_refl _)] at hdotted
          cases hdotted
      · rw [if_neg hdotted, Option.map_eq_none_iff, ih]
        constructor
        · intro h q hq
          rcases List.suffix_cons_iff.mp hq with rfl | hq
          · simpa using hdotted
          · exact h q hq
        · intro h q hq
          exact h q (hq.trans (List.suffix_cons c cs))

/-- The pattern matches at the first place where it can. -/
theorem v4Match_some_iff : v4Match t = some (p, q) ↔ t = p ++ q ∧ isDotted q = true ∧
    ∀ q', q' <:+ t → isDotted q' = true → q'.length ≤ q.length := by
  induction t generalizing p with
  | nil =>
      constructor
      · intro h
        cases h
      · rintro ⟨ht, hdotted, -⟩
        obtain ⟨-, rfl⟩ := List.append_eq_nil_iff.mp ht.symm
        cases hdotted
  | cons c cs ih =>
      rw [v4Match]
      by_cases hdotted : isDotted (c :: cs) = true
      · rw [if_pos hdotted]
        constructor
        · intro h
          cases h
          exact ⟨rfl, hdotted, fun q' hq' _ => hq'.length_le⟩
        · rintro ⟨ht, -, hlongest⟩
          have hle := hlongest _ (List.suffix_refl _) hdotted
          have hlen := congrArg List.length ht
          rw [List.length_append] at hlen
          obtain rfl : p = [] := List.eq_nil_of_length_eq_zero (by omega)
          rw [← show c :: cs = q from ht]
      · rw [if_neg hdotted]
        constructor
        · intro h
          obtain ⟨⟨p', q'⟩, hfound, hcons⟩ := Option.map_eq_some_iff.mp h
          cases hcons
          obtain ⟨rfl, hq, hlongest⟩ := ih.mp hfound
          refine ⟨rfl, hq, ?_⟩
          intro q' hq' hdotted'
          rcases List.suffix_cons_iff.mp hq' with rfl | hq'
          · exact absurd hdotted' hdotted
          · exact hlongest q' hq' hdotted'
        · rintro ⟨ht, hq, hlongest⟩
          cases p with
          | nil =>
              rw [show c :: cs = q from ht] at hdotted
              exact absurd hq hdotted
          | cons d p =>
              obtain ⟨rfl, hcs⟩ := List.cons.inj ht
              have hfound : v4Match cs = some (p, q) := ih.mpr ⟨hcs, hq, fun q' hq' =>
                hlongest q' (hq'.trans (List.suffix_cons _ _))⟩
              rw [hfound]
              rfl

end Match

section Segments

variable {g work hd tl : List Char} {gs hs ts : List (List Char)} {v4Tail : List Nat} {k : Nat}

theorem segment_iff : Segment g ↔ (readSegment g).isSome = true := by
  unfold Segment readSegment
  by_cases h : (decide (g.length ≤ 4) && g.all fun c => isHex c && !c.isUpper) = true
  · rw [if_pos h]
    simp only [Bool.and_eq_true, decide_eq_true_eq, List.all_eq_true, Bool.not_eq_true'] at h
    simpa using h
  · rw [if_neg h]
    simp only [Bool.and_eq_true, decide_eq_true_eq, List.all_eq_true, Bool.not_eq_true'] at h
    simpa using h

theorem Segment.no_colon (h : Segment g) : ':' ∉ g := by
  intro hmem
  cases (h.2 _ hmem).1

theorem segments_of_mapM {ws : List Nat} (h : gs.mapM readSegment = some ws) :
    ∀ g ∈ gs, Segment g := by
  intro g hg
  obtain ⟨w, hw⟩ := (forall₂_mem (mapM_forall₂ h)).1 g hg
  rw [segment_iff, hw]
  rfl

theorem mapM_of_segments (h : ∀ g ∈ gs, Segment g) :
    ∃ ws, gs.mapM readSegment = some ws ∧ ws.length = gs.length := by
  induction gs with
  | nil => exact ⟨[], rfl, rfl⟩
  | cons g gs ih =>
      obtain ⟨w, hw⟩ := Option.isSome_iff_exists.mp (segment_iff.mp (h g (by simp)))
      obtain ⟨ws, hws, hlength⟩ := ih fun g hg => h g (List.mem_cons_of_mem _ hg)
      refine ⟨w :: ws, ?_, by rw [List.length_cons, List.length_cons, hlength]⟩
      rw [List.mapM_cons, hw, hws]
      rfl

theorem splitPair_length (text : List Char) : 1 ≤ (splitPair text).length := by
  cases hcut : cutPair text with
  | none =>
      rw [splitPair_none hcut]
      rfl
  | some cut =>
      rw [splitPair_some hcut, List.length_cons]
      omega

/-- Without `::` the segments are eight. -/
theorem expandParts_one (hpair : splitPair work = [work]) :
    (expandParts work v4Tail).isSome = true ↔
      (∀ g ∈ splitColon work, Segment g) ∧ (splitColon work).length + v4Tail.length = 8 := by
  constructor
  · intro h
    obtain ⟨segs, hsegs⟩ := Option.isSome_iff_exists.mp h
    obtain ⟨ws, hws, rfl, hlength⟩ := expandParts_full hpair hsegs
    refine ⟨segments_of_mapM hws, ?_⟩
    rwa [List.length_append, ← (mapM_forall₂ hws).length_eq] at hlength
  · rintro ⟨hsegments, hcount⟩
    obtain ⟨ws, hws, hlength⟩ := mapM_of_segments hsegments
    have hnil : splitColon [] = [] := rfl
    have hall : (ws ++ v4Tail).length = 8 := by rw [List.length_append, hlength, hcount]
    have hmissing : (8 : ℤ) - ((splitColon work).length + v4Tail.length) = 0 := by omega
    unfold expandParts
    simp only [hpair, List.length_singleton, List.getD_cons_zero, List.getD_cons_succ,
      List.getD_nil, Nat.reduceLT, OfNat.one_ne_ofNat, if_false, hnil, List.length_nil,
      Nat.cast_zero, add_zero, hmissing, ne_eq, not_true_eq_false, List.append_nil, hws,
      Option.map_some, Option.filter_some, hall, beq_self_eq_true, if_true, Option.isSome_some]

/-- With one they are at most eight. -/
theorem expandParts_two (hpair : splitPair work = [hd, tl]) :
    (expandParts work v4Tail).isSome = true ↔
      (∀ g ∈ splitColon hd, Segment g) ∧ (∀ g ∈ splitColon tl, Segment g) ∧
        (splitColon hd).length + (splitColon tl).length + v4Tail.length ≤ 8 := by
  constructor
  · intro h
    obtain ⟨segs, hsegs⟩ := Option.isSome_iff_exists.mp h
    obtain ⟨hw, tw, hhw, htw, -, hcount⟩ := expandParts_pair hpair hsegs
    rw [← (mapM_forall₂ hhw).length_eq, ← (mapM_forall₂ htw).length_eq] at hcount
    exact ⟨segments_of_mapM hhw, segments_of_mapM htw, hcount⟩
  · rintro ⟨hhead, htail, hcount⟩
    have hfill : ∀ n, ∀ g ∈ List.replicate n ['0'], Segment g := by
      intro n g hg
      rw [(List.mem_replicate.mp hg).2]
      exact ⟨by decide, by decide⟩
    generalize hn : (8 - ((splitColon hd).length + (splitColon tl).length + (v4Tail.length : ℤ))).toNat = n
    obtain ⟨ws, hws, hlength⟩ : ∃ ws, (splitColon hd ++ List.replicate n ['0'] ++
        splitColon tl).mapM readSegment = some ws ∧ ws.length = (splitColon hd ++
          List.replicate n ['0'] ++ splitColon tl).length := by
      refine mapM_of_segments fun g hg => ?_
      rcases List.mem_append.mp hg with hg | hg
      · rcases List.mem_append.mp hg with hg | hg
        · exact hhead g hg
        · exact hfill n g hg
      · exact htail g hg
    have hall : (ws ++ v4Tail).length = 8 := by
      rw [List.length_append, hlength, List.length_append, List.length_append,
        List.length_replicate]
      omega
    have hmissing : ¬ (8 : ℤ) -
        ((splitColon hd).length + (splitColon tl).length + v4Tail.length) < 0 := by omega
    unfold expandParts
    simp only [hpair, List.length_cons, List.length_nil, List.getD_cons_zero, List.getD_cons_succ,
      Nat.reduceAdd, Nat.lt_irrefl, if_false, if_true, hmissing, hn, hws, Option.map_some,
      Option.filter_some, hall, beq_self_eq_true, Option.isSome_some]

theorem join_splitColon (text : List Char) : join ':' (splitColon text) = text := by
  unfold splitColon
  by_cases hnil : text = []
  · rw [if_pos hnil, hnil]
    rfl
  · rw [if_neg hnil, join_splitOn]

/-- Segments are split again as they were, but for a single empty one. -/
theorem splitColon_segments (h : ∀ g ∈ gs, Segment g) :
    splitColon (join ':' gs) = gs ∨ gs = [[]] ∧ splitColon (join ':' gs) = [] := by
  by_cases hgs : gs = []
  · subst hgs
    exact .inl rfl
  · have hsplit := splitOn_join (fun g hg => (h g hg).no_colon) hgs
    by_cases hnil : join ':' gs = []
    · rw [hnil] at hsplit ⊢
      exact .inr ⟨hsplit.symm, rfl⟩
    · rw [splitColon, if_neg hnil]
      exact .inl hsplit

theorem splitColon_bounded (h : ∀ g ∈ gs, Segment g) :
    (∀ g ∈ splitColon (join ':' gs), Segment g) ∧ (splitColon (join ':' gs)).length ≤ gs.length := by
  rcases splitColon_segments h with hsame | ⟨-, hnil⟩
  · rw [hsame]
    exact ⟨h, Nat.le_refl _⟩
  · rw [hnil]
    simp

theorem expandParts_isSome (hk : v4Tail.length ≤ 2) :
    (expandParts work v4Tail).isSome = true ↔ Segmented v4Tail.length work := by
  constructor
  · intro h
    cases hcut : cutPair work with
    | none =>
        obtain ⟨hsegments, hcount⟩ := (expandParts_one (splitPair_none hcut)).mp h
        have hnone := cutPair_none_iff.mp hcut
        rw [← join_splitColon work] at hnone ⊢
        exact .full hsegments hnone hcount
    | some cut =>
        obtain ⟨hd, tl⟩ := cut
        obtain ⟨hwork, hfirst⟩ := cutPair_some hcut
        cases hcut' : cutPair tl with
        | none =>
            have hpair : splitPair work = [hd, tl] := by
              rw [splitPair_some hcut, splitPair_none hcut']
            obtain ⟨hhead, htail, hcount⟩ := (expandParts_two hpair).mp h
            have hnone := cutPair_none_iff.mp hcut'
            rw [hwork]
            rw [← join_splitColon hd] at hfirst ⊢
            rw [← join_splitColon tl] at hnone ⊢
            exact .paired hhead htail hfirst hnone hcount
        | some cut' =>
            exfalso
            have hmany : 2 < (splitPair work).length := by
              rw [splitPair_some hcut, splitPair_some hcut', List.length_cons, List.length_cons]
              have := splitPair_length cut'.2
              omega
            rw [expandParts] at h
            simp only [hmany, if_true] at h
            cases h
  · intro h
    cases h with
    | @full gs hsegments hnone hcount =>
        rw [expandParts_one (splitPair_none (cutPair_none_iff.mpr hnone))]
        rcases splitColon_segments hsegments with hsame | ⟨rfl, -⟩
        · rw [hsame]
          exact ⟨hsegments, hcount⟩
        · rw [List.length_singleton] at hcount
          omega
    | @paired hs ts hhead htail hfirst hnone hcount =>
        have hpair : splitPair (join ':' hs ++ ':' :: ':' :: join ':' ts) =
            [join ':' hs, join ':' ts] := by
          rw [splitPair_some (cutPair_first hfirst), splitPair_none (cutPair_none_iff.mpr hnone)]
        rw [expandParts_two hpair]
        obtain ⟨hheadSegments, hheadCount⟩ := splitColon_bounded hhead
        obtain ⟨htailSegments, htailCount⟩ := splitColon_bounded htail
        exact ⟨hheadSegments, htailSegments, by omega⟩

theorem expandParts_plain : (expandParts work []).isSome = true ↔ Segmented 0 work :=
  @expandParts_isSome work [] (Nat.zero_le 2)

theorem expandParts_quad (x y : Nat) :
    (expandParts work [x, y]).isSome = true ↔ Segmented 2 work :=
  @expandParts_isSome work [x, y] (Nat.le_refl 2)

end Segments

theorem octets_small {q : List Char} :
    (((q.splitOn '.').map digitsValue).any fun x => decide (255 < x)) = false ↔
      ∀ part ∈ q.splitOn '.', digitsValue part ≤ 255 := by
  simp

/-- The parser takes the lenient texts and no others. -/
theorem expandIPv6_isSome (t : List Char) :
    (expandIPv6 t).isSome = true ↔ LenientText t := by
  unfold expandIPv6
  cases hfound : v4Match t with
  | none =>
      have hnone := v4Match_none_iff.mp hfound
      simp only [expandParts_plain]
      constructor
      · exact fun h => .plain hnone h
      · intro h
        cases h with
        | plain _ hsegmented => exact hsegmented
        | @quad p q hdotted _ _ _ =>
            rw [hnone q (List.suffix_append p q)] at hdotted
            cases hdotted
  | some found =>
      obtain ⟨p, q⟩ := found
      obtain ⟨hall, hdotted, hlongest⟩ := v4Match_some_iff.mp hfound
      have hiff : LenientText t ↔ (∀ part ∈ q.splitOn '.', digitsValue part ≤ 255) ∧
          Segmented 2 (dropColon p) := by
        constructor
        · intro h
          cases h with
          | plain hnone _ =>
              rw [hnone q (hall ▸ List.suffix_append p q)] at hdotted
              cases hdotted
          | @quad p' q' hdotted' hlongest' hsmall hsegmented =>
              have hsame : q'.length = q.length := Nat.le_antisymm
                (hlongest _ (List.suffix_append p' q') hdotted')
                (hlongest' _ (hall ▸ List.suffix_append p q) hdotted)
              obtain ⟨rfl, rfl⟩ := List.append_inj' hall hsame
              exact ⟨hsmall, hsegmented⟩
        · rintro ⟨hsmall, hsegmented⟩
          rw [hall] at hlongest ⊢
          exact .quad hdotted hlongest hsmall hsegmented
      rw [hiff]
      by_cases hsmall : ∀ part ∈ q.splitOn '.', digitsValue part ≤ 255
      · simp only [octets_small.mpr hsmall, Bool.false_eq_true, if_false]
        rw [expandParts_quad]
        exact ⟨fun h => ⟨hsmall, h⟩, fun h => h.2⟩
      · have hbig : (((q.splitOn '.').map digitsValue).any fun x => decide (255 < x)) = true := by
          rw [← octets_small, Bool.not_eq_false] at hsmall
          exact hsmall
        simp only [hbig, if_true]
        constructor
        · intro h
          cases h
        · intro h
          exact absurd h.1 hsmall

end SaasFoundation.Vestibulum.Discovery
