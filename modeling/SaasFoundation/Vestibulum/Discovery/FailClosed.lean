import SaasFoundation.Foundation.Net.Reserved
import SaasFoundation.Vestibulum.Discovery.PrivateIp

/-!
# The classifier fails closed

Two parsers read an IPv6 address here: one to see whether it is well formed,
the other to find its block. They agree on every well-spelled text. The
first one also takes an empty group for a zero, finds a dotted quad in the
middle of a group, and lets `::` stand for nothing; on such texts the second
may give up, and an address it gives up on is in no block.
-/

namespace SaasFoundation.Vestibulum.Discovery

open Lib Lib.Text Lib.Addresses Foundation.Net

/-! ## What the classifier is for -/

/-- Not to be connected to: the reserved blocks and 192.0.0.0/16. -/
def Refused4 (bytes : List Nat) : Prop :=
  Reserved4 bytes ∨ SameBlock 32 16 (ofBytes bytes) (ofBytes [192, 0, 0, 0])

/-- An embedded IPv4 address stands for itself. -/
def Refused6 (words : List Nat) : Prop :=
  if words.take 6 = mappedWords then Refused4 (bytesOf (words.drop 6)) else Reserved6 words

/-- The text of an address, with or without a zone, that may be connected
to. -/
inductive Public (s : List Char) : Prop
  | v4 {bytes : List Nat} : DottedQuad s bytes → ¬ Refused4 bytes → Public s
  | v6 {body zone : List Char} {words : List Nat} : s = body ++ zone →
      (zone = [] ∨ ∃ id, zone = '%' :: id) → Rfc4291 body words → ¬ Refused6 words → Public s

/-! ## Spelling -/

def Plain (g : List Char) : Prop := g ≠ [] ∧ ':' ∉ g ∧ '.' ∉ g

/-- Groups that are not empty, the last of which may be a dotted quad; how
many words they are. -/
inductive Tail : List (List Char) → Nat → Prop
  | plain {gs : List (List Char)} : (∀ g ∈ gs, Plain g) → Tail gs gs.length
  | quad {gs : List (List Char)} {text : List Char} {bytes : List Nat} :
      (∀ g ∈ gs, Plain g) → DottedQuad text bytes → Tail (gs ++ [text]) (gs.length + 2)

/-- At most one `::`, which stands for a group at least. -/
inductive WellSpelled : List Char → Prop
  | full {gs : List (List Char)} {n : Nat} : Tail gs n → WellSpelled (join ':' gs)
  | compressed {hs ts : List (List Char)} {n : Nat} : (∀ g ∈ hs, Plain g) → Tail ts n →
      hs.length + n ≤ 7 → WellSpelled (join ':' hs ++ ':' :: ':' :: join ':' ts)

/-- A misspelt text that `expandIPv6` reads as an address which nothing
refuses. -/
def Slips (s : List Char) : Prop :=
  ':' ∈ s ∧ isIpShape s = true ∧ ¬ WellSpelled (stripped s) ∧
    ∃ segs, expandIPv6 (stripped s) = some segs ∧
      if segs.take 6 = mappedWords then
        isPrivateIPv4 (dotted (segs.getD 6 0) (segs.getD 7 0)) = false
      else isReservedIp (stripped s) = false

section Spelling

variable {gs hs ts : List (List Char)} {n : Nat} {text : List Char} {words : List Nat}

theorem groups_of_plain (h : ∀ g ∈ gs, Plain g) : Groups gs := fun g hg => ⟨(h g hg).1, (h g hg).2.1⟩

theorem Tail.groups (h : Tail gs n) : Groups gs := by
  cases h with
  | plain hplain => exact groups_of_plain hplain
  | quad hplain hquad =>
      intro g hg
      rcases List.mem_append.mp hg with hg | hg
      · exact groups_of_plain hplain g hg
      · rw [List.mem_singleton.mp hg]
        refine ⟨?_, hquad.not_mem (by decide) (by decide)⟩
        rintro rfl
        cases hquad.has_dot

theorem plain_of_groups {ws : List Nat} (h : List.Forall₂ Group gs ws) : ∀ g ∈ gs, Plain g := by
  intro g hg
  obtain ⟨w, hw⟩ := (forall₂_mem h).1 g hg
  exact ⟨hw.ne_nil, hw.not_mem (by decide), hw.not_mem (by decide)⟩

theorem tail_of_words {ws : List Nat} (h : Words gs ws) : Tail gs ws.length := by
  rcases h.cases with hplain | ⟨gs', quad, ws', a, b, c, d, rfl, rfl, hplain, hquad⟩
  · rw [← hplain.length_eq]
    exact .plain (plain_of_groups hplain)
  · rw [List.length_append, ← hplain.length_eq]
    exact .quad (plain_of_groups hplain) hquad

/-- What denotes an address is well spelled. -/
theorem wellSpelled_of_rfc4291 (h : Rfc4291 text words) : WellSpelled text := by
  cases h with
  | full hwords _ => exact .full (tail_of_words hwords)
  | compressed hhead htail hcount =>
      refine .compressed (plain_of_groups hhead) (tail_of_words htail) ?_
      rwa [hhead.length_eq]

end Spelling

/-! ## `expandIPv6` on well-spelled texts -/

section Expand

variable {gs hs ts : List (List Char)} {n : Nat} {g p q text : List Char} {ws segs v4Tail : List Nat}

theorem group_of_readSegment {w : Nat} (hne : g ≠ []) (h : readSegment g = some w) :
    Group g w := by
  simp only [readSegment, Option.ite_none_right_eq_some, Option.some.injEq, Bool.and_eq_true,
    decide_eq_true_eq, List.all_eq_true] at h
  obtain ⟨⟨hshort, hhex⟩, hvalue⟩ := h
  refine ⟨List.length_pos_iff.mpr hne, hshort, ?_, hvalue⟩
  rw [List.all_eq_true]
  exact fun c hc => (hhex c hc).1

theorem groups_of_readSegment (hgroups : Groups gs) (h : gs.mapM readSegment = some ws) :
    List.Forall₂ Group gs ws := by
  have hread := mapM_forall₂ h
  clear h
  induction hread with
  | nil => exact .nil
  | cons hg _ ih =>
      exact .cons (group_of_readSegment (hgroups _ (by simp)).1 hg) (ih hgroups.tail)

theorem isDotted_chars (h : isDotted text = true) : ∀ c ∈ text, c.isDigit = true ∨ c = '.' := by
  simp only [isDotted, Bool.and_eq_true, List.all_eq_true] at h
  intro c hc
  rw [← @join_splitOn '.' text] at hc
  rcases mem_join hc with rfl | ⟨part, hpart, hc⟩
  · exact .inr rfl
  · exact .inl ((isDigits_iff.mp (h.2 part hpart).1).2 c hc)

theorem isDotted_colon (h : ':' ∈ text) : isDotted text = false := by
  rw [Bool.eq_false_iff]
  intro hdotted
  rcases isDotted_chars hdotted ':' h with hdigit | hdot
  · cases hdigit
  · cases hdot

theorem isDotted_quad {bytes : List Nat} (h : DottedQuad q bytes) : isDotted q = true := by
  obtain ⟨hoctets, hlength⟩ := h.split
  simp only [isDotted, Bool.and_eq_true, beq_iff_eq, List.all_eq_true, decide_eq_true_eq]
  refine ⟨by rw [hoctets.length_eq, hlength], fun part hpart => ?_⟩
  obtain ⟨n, hn⟩ := (forall₂_mem hoctets).1 part hpart
  exact ⟨hn.digits, hn.short⟩

theorem v4Match_quad (h : isDotted q = true) : v4Match q = some ([], q) := by
  cases q with
  | nil => cases h
  | cons c cs => rw [v4Match, if_pos h]

/-- A dotted quad after a colon is the whole of what the pattern finds. -/
theorem v4Match_after (p : List Char) (h : isDotted q = true) :
    v4Match (p ++ ':' :: q) = some (p ++ [':'], q) := by
  induction p with
  | nil =>
      have hcolon : isDotted (':' :: q) = false := isDotted_colon (by simp)
      rw [List.nil_append, v4Match, if_neg (by simp [hcolon]), v4Match_quad h]
      rfl
  | cons c p ih =>
      have hcolon : isDotted (c :: (p ++ ':' :: q)) = false := isDotted_colon (by simp)
      rw [List.cons_append, v4Match, if_neg (by simp [hcolon]), ih]
      rfl

theorem v4Match_none (h : '.' ∉ text) : v4Match text = none := by
  induction text with
  | nil => rfl
  | cons c cs ih =>
      have hdotted : isDotted (c :: cs) = false := by
        rw [isDotted, List.splitOn_eq_singleton h]
        rfl
      rw [v4Match, if_neg (by simp [hdotted]), ih fun hmem => h (List.mem_cons_of_mem _ hmem)]
      rfl

theorem splitPair_none {text : List Char} (h : cutPair text = none) : splitPair text = [text] := by
  fun_induction cutPair text with
  | case1 after => cases h
  | case2 c cs hother ih =>
      rw [splitPair, ih (Option.map_eq_none_iff.mp h)]
      · rfl
      · exact hother
  | case3 => rfl

theorem splitPair_some {text before after : List Char} (h : cutPair text = some (before, after)) :
    splitPair text = before :: splitPair after := by
  fun_induction cutPair text generalizing before with
  | case1 after' =>
      cases h
      rfl
  | case2 c cs hother ih =>
      obtain ⟨⟨before', after'⟩, hcut, hbefore⟩ := Option.map_eq_some_iff.mp h
      cases hbefore
      rw [splitPair, ih hcut]
      · rfl
      · exact hother
  | case3 => cases h

theorem splitColon_join (h : Groups gs) : splitColon (join ':' gs) = gs := by
  by_cases hgs : gs = []
  · subst hgs
    rfl
  · rw [splitColon, if_neg (h.join_ne_nil hgs), splitOn_join (fun g hg => (h g hg).2) hgs]

theorem dropColon_snoc (p : List Char) : dropColon (p ++ [':']) = p := by
  simp [dropColon]

/-- Without `::` there are eight groups. -/
theorem expandParts_full {work : List Char} (hpair : splitPair work = [work])
    (h : expandParts work v4Tail = some segs) : ∃ ws, (splitColon work).mapM readSegment = some ws ∧
      segs = ws ++ v4Tail ∧ segs.length = 8 := by
  unfold expandParts at h
  simp only [hpair, List.length_singleton, List.getD_cons_zero, List.getD_cons_succ,
    List.getD_nil, Nat.reduceLT, OfNat.one_ne_ofNat, if_false] at h
  split at h
  · cases h
  · obtain ⟨hmap, hlength⟩ := Option.filter_eq_some_iff.mp h
    obtain ⟨ws, hws, rfl⟩ := Option.map_eq_some_iff.mp hmap
    refine ⟨ws, ?_, rfl, by simpa using hlength⟩
    simpa [splitColon] using hws

/-- A `::` is filled with zeros. -/
theorem expandParts_pair {work hd tl : List Char} (hpair : splitPair work = [hd, tl])
    (h : expandParts work v4Tail = some segs) : ∃ hw tw,
      (splitColon hd).mapM readSegment = some hw ∧ (splitColon tl).mapM readSegment = some tw ∧
      segs = hw ++ List.replicate (8 - hw.length - tw.length - v4Tail.length) 0 ++ tw ++ v4Tail ∧
      hw.length + tw.length + v4Tail.length ≤ 8 := by
  unfold expandParts at h
  simp only [hpair, List.length_cons, List.length_nil, List.getD_cons_zero, List.getD_cons_succ,
    Nat.reduceAdd, Nat.lt_irrefl, if_false, if_true] at h
  split at h
  · cases h
  · rename_i hmissing
    obtain ⟨hmap, hlength⟩ := Option.filter_eq_some_iff.mp h
    obtain ⟨ws, hws, rfl⟩ := Option.map_eq_some_iff.mp hmap
    rw [List.mapM_append, List.mapM_append] at hws
    obtain ⟨front, hfront, hrest⟩ := Option.bind_eq_some_iff.mp hws
    obtain ⟨tw, htw, hsame⟩ := Option.bind_eq_some_iff.mp hrest
    obtain ⟨hw, hhw, hfill⟩ := Option.bind_eq_some_iff.mp hfront
    obtain ⟨zeros, hzeros, hsame'⟩ := Option.bind_eq_some_iff.mp hfill
    cases hsame
    cases hsame'
    have hzero : ∀ k : Nat, (List.replicate k ['0']).mapM readSegment = some (List.replicate k 0) := by
      intro k
      induction k with
      | zero => rfl
      | succ k ih =>
          rw [List.replicate_succ, List.mapM_cons, ih]
          rfl
    rw [hzero] at hzeros
    cases hzeros
    have hcountHead := (mapM_forall₂ hhw).length_eq
    have hcountTail := (mapM_forall₂ htw).length_eq
    refine ⟨hw, tw, hhw, htw, ?_, by omega⟩
    have hfill : (8 - ((splitColon hd).length + (splitColon tl).length + (v4Tail.length : ℤ))).toNat =
        8 - hw.length - tw.length - v4Tail.length := by
      rw [hcountHead, hcountTail]
      omega
    rw [hfill]

theorem expandIPv6_plain (h : '.' ∉ text) : expandIPv6 text = expandParts text [] := by
  rw [expandIPv6, v4Match_none h]

theorem expandIPv6_quad {a b c d : Nat} (hquad : DottedQuad q [a, b, c, d])
    (hfound : v4Match text = some (p, q)) :
    expandIPv6 text = expandParts (dropColon p) [256 * a + b, 256 * c + d] := by
  have hlt := hquad.byte_lt
  simp only [List.mem_cons, List.not_mem_nil, or_false, forall_eq_or_imp, forall_eq] at hlt
  have hword : ∀ x y, y < 256 → x <<< 8 ||| y = 256 * x + y := by
    intro x y hy
    rw [← Nat.shiftLeft_add_eq_or_of_lt (by omega), Nat.shiftLeft_eq]
    omega
  have hsmall : [a, b, c, d].any (fun x => decide (255 < x)) = false := by
    simp only [List.any_cons, List.any_nil, Bool.or_false, Bool.or_eq_false_iff,
      decide_eq_false_iff_not]
    omega
  simp only [expandIPv6, hfound, ← hquad.bytes_eq, hsmall, Bool.false_eq_true, if_false,
    List.getD_cons_zero, List.getD_cons_succ, hword a b (by omega), hword c d (by omega)]

/-- A colon before the dotted quad goes with it. -/
theorem expandIPv6_after {a b c d : Nat} (hquad : DottedQuad q [a, b, c, d]) (p : List Char) :
    expandIPv6 (p ++ ':' :: q) = expandParts p [256 * a + b, 256 * c + d] := by
  rw [expandIPv6_quad hquad (v4Match_after p (isDotted_quad hquad)), dropColon_snoc]

/-- Half of a `::` right before the quad goes with it. -/
theorem expandIPv6_half {a b c d : Nat} (hquad : DottedQuad q [a, b, c, d]) (p : List Char) :
    expandIPv6 (p ++ ':' :: ':' :: q) =
      expandParts (p ++ [':']) [256 * a + b, 256 * c + d] := by
  have htext : p ++ ':' :: ':' :: q = p ++ [':'] ++ ':' :: q := by simp
  rw [htext, expandIPv6_after hquad]

theorem dot_free (h : ∀ g ∈ gs, Plain g) : '.' ∉ join ':' gs := by
  intro hmem
  rcases mem_join hmem with hcolon | ⟨g, hg, hmem⟩
  · cases hcolon
  · exact (h g hg).2.2 hmem

/-- Without `::` the text is split at its colons. -/
theorem expand_full (h : Tail gs n) (hexpand : expandIPv6 (join ':' gs) = some segs) :
    Rfc4291 (join ':' gs) segs := by
  have hpair : ∀ {gs : List (List Char)}, Groups gs → splitPair (join ':' gs) = [join ':' gs] :=
    fun hgs => splitPair_none (cutPair_groups hgs)
  cases h with
  | plain hplain =>
      have hgroups := groups_of_plain hplain
      rw [expandIPv6_plain (dot_free hplain)] at hexpand
      obtain ⟨ws, hws, rfl, hlength⟩ := expandParts_full (hpair hgroups) hexpand
      rw [splitColon_join hgroups] at hws
      rw [List.append_nil] at hlength ⊢
      exact .full (Words.of_forall₂ (groups_of_readSegment hgroups hws)) hlength
  | @quad gs quad bytes hplain hquad =>
      have hgroups := groups_of_plain hplain
      match bytes, hquad.split.2 with
      | [a, b, c, d], _ =>
        by_cases hgs : gs = []
        · -- a dotted quad alone is too short
          subst hgs
          rw [List.nil_append, join_singleton,
            expandIPv6_quad hquad (v4Match_quad (isDotted_quad hquad))] at hexpand
          obtain ⟨ws, hws, rfl, hlength⟩ := expandParts_full rfl hexpand
          cases hws
          cases hlength
        · rw [join_snoc hgs, expandIPv6_after hquad] at hexpand
          obtain ⟨ws, hws, rfl, hlength⟩ := expandParts_full (hpair hgroups) hexpand
          rw [splitColon_join hgroups] at hws
          exact .full (Words.snoc (groups_of_readSegment hgroups hws) hquad) hlength

/-- A `::` right before the dotted quad is cut in half, and what is left of
it read as one empty group: only five groups leave room for it. -/
theorem expand_half {a b c d : Nat} (hhead : ∀ g ∈ hs, Plain g) (hquad : DottedQuad q [a, b, c, d])
    (hexpand : expandIPv6 (join ':' hs ++ ':' :: ':' :: q) = some segs) :
    Rfc4291 (join ':' hs ++ ':' :: ':' :: q) segs ∧ hs.length = 5 := by
  have hgroups := groups_of_plain hhead
  have hpair : splitPair (join ':' hs ++ [':']) = [join ':' hs ++ [':']] := by
    apply splitPair_none
    rw [cutPair_join hgroups]
    rfl
  rw [expandIPv6_half hquad] at hexpand
  obtain ⟨ws, hws, rfl, hlength⟩ := expandParts_full hpair hexpand
  by_cases hhs : hs = []
  · subst hhs
    cases hws
    cases hlength
  · have hsplit : splitColon (join ':' hs ++ [':']) = hs ++ [[]] := by
      have hjoin : join ':' hs ++ [':'] = join ':' (hs ++ [[]]) := (join_snoc hhs).symm
      rw [hjoin, splitColon, if_neg (by rw [join_snoc hhs]; simp), splitOn_join ?_ (by simp)]
      intro g hg
      rcases List.mem_append.mp hg with hg | hg
      · exact (hgroups g hg).2
      · rw [List.mem_singleton.mp hg]
        simp
    rw [hsplit, List.mapM_append] at hws
    obtain ⟨hw, hhw, hrest⟩ := Option.bind_eq_some_iff.mp hws
    have hws : ws = hw ++ [0] := (Option.some.inj hrest).symm
    subst hws
    simp only [List.length_append, List.length_cons, List.length_nil] at hlength
    have hwords : Words [q] [256 * a + b, 256 * c + d] := .quad hquad
    have hfive : hw.length = 5 := by omega
    have hread := Rfc4291.compressed (groups_of_readSegment hgroups hhw) hwords (by simp [hfive])
    refine ⟨by simpa [hfive] using hread, ?_⟩
    rw [(mapM_forall₂ hhw).length_eq, hfive]

theorem expand_compressed (hhead : ∀ g ∈ hs, Plain g) (htail : Tail ts n) (hcount : hs.length + n ≤ 7)
    (hexpand : expandIPv6 (join ':' hs ++ ':' :: ':' :: join ':' ts) = some segs) :
    Rfc4291 (join ':' hs ++ ':' :: ':' :: join ':' ts) segs := by
  have hgroups := groups_of_plain hhead
  have hpair : ∀ {ts : List (List Char)}, Groups ts →
      splitPair (join ':' hs ++ ':' :: ':' :: join ':' ts) = [join ':' hs, join ':' ts] := by
    intro ts hts
    rw [splitPair_some (cutPair_between hgroups _), splitPair_none (cutPair_groups hts)]
  cases htail with
  | plain hplain =>
      have htailGroups := groups_of_plain hplain
      have hdot : '.' ∉ join ':' hs ++ ':' :: ':' :: join ':' ts := by
        have := dot_free hhead
        have := dot_free hplain
        simp_all
      rw [expandIPv6_plain hdot] at hexpand
      obtain ⟨hw, tw, hhw, htw, rfl, -⟩ := expandParts_pair (hpair htailGroups) hexpand
      rw [splitColon_join hgroups] at hhw
      rw [splitColon_join htailGroups] at htw
      have hheadWords := groups_of_readSegment hgroups hhw
      have htailWords := groups_of_readSegment htailGroups htw
      have hread := Rfc4291.compressed hheadWords (Words.of_forall₂ htailWords)
        (by rw [← hheadWords.length_eq, ← htailWords.length_eq]; exact hcount)
      simpa using hread
  | @quad ts quad bytes hplain hquad =>
      have htailGroups := groups_of_plain hplain
      match bytes, hquad.split.2 with
      | [a, b, c, d], _ =>
        by_cases hts : ts = []
        · subst hts
          rw [List.nil_append, join_singleton] at hexpand ⊢
          exact (expand_half hhead hquad hexpand).1
        · have htext : join ':' hs ++ ':' :: ':' :: (join ':' ts ++ ':' :: quad) =
              join ':' hs ++ ':' :: ':' :: join ':' ts ++ ':' :: quad := by simp
          rw [join_snoc hts, htext, expandIPv6_after hquad] at hexpand
          obtain ⟨hw, tw, hhw, htw, rfl, -⟩ := expandParts_pair (hpair htailGroups) hexpand
          rw [splitColon_join hgroups] at hhw
          rw [splitColon_join htailGroups] at htw
          have hheadWords := groups_of_readSegment hgroups hhw
          have htailWords := groups_of_readSegment htailGroups htw
          have hheadLength := hheadWords.length_eq
          have htailLength := htailWords.length_eq
          have hread := Rfc4291.compressed hheadWords (Words.snoc htailWords hquad)
            (by simp; omega)
          have hfill : 8 - hw.length - tw.length - 2 =
              8 - hw.length - (tw ++ [256 * a + b, 256 * c + d]).length := by
            simp
            omega
          rw [List.length_cons, List.length_singleton, hfill, List.append_assoc]
          rwa [join_snoc hts] at hread ⊢

/-- On a well-spelled text the first parser reads what the text denotes. -/
theorem rfc4291_of_expand (h : WellSpelled text) (hexpand : expandIPv6 text = some segs) :
    Rfc4291 text segs := by
  cases h with
  | full htail => exact expand_full htail hexpand
  | compressed hhead htail hcount => exact expand_compressed hhead htail hcount hexpand

end Expand

/-! ## The classifier -/

section Classifier

variable {s : List Char} {words : List Nat}

/-- What the IPv4 rules let through. -/
theorem public_of_isPrivateIPv4 (h : isPrivateIPv4 s = false) :
    DottedQuad s ((s.splitOn '.').map digitsValue) ∧
      ¬ Refused4 ((s.splitOn '.').map digitsValue) := by
  unfold isPrivateIPv4 at h
  split at h
  · cases h
  · split at h
    · cases h
    · split at h
      · cases h
      · rename_i hshape hcolon hfree
        have hmatches : matchesIPv4 s = true := by
          simp only [Bool.not_eq_true', Bool.not_eq_false] at hshape
          by_contra hmatches
          unfold isIpShape at hshape
          split at hshape
          · cases hshape
          · rw [if_pos (by simpa using hcolon)] at hshape
            cases hshape
        have hquad := dottedQuad_of_matches hmatches
        refine ⟨hquad, ?_⟩
        rintro (hreserved | hblock)
        · exact hfree (isReservedIp_quad hmatches hquad hreserved)
        · -- 192.0.0.0/16 has one spelling
          have hlt := hquad.byte_lt
          obtain ⟨hoctets, hlength⟩ := hquad.split
          generalize (s.splitOn '.').map digitsValue = bytes at *
          match bytes, hlength with
          | [a, b, c, d], _ =>
            generalize s.splitOn '.' = parts at *
            obtain - | ⟨ha, - | ⟨hb, - | ⟨hc, - | ⟨hd, - | _⟩⟩⟩⟩ := hoctets
            simp only [List.mem_cons, List.not_mem_nil, or_false, forall_eq_or_imp,
              forall_eq] at hlt
            simp only [SameBlock, ofBytes, List.foldl_cons, List.foldl_nil] at hblock
            have hfirst : a = 192 := by omega
            have hsecond : b = 0 := by omega
            subst hfirst hsecond
            have h192 : Octet "192".toList 192 := octet_of_matches (by decide)
            have h0 : Octet "0".toList 0 := octet_of_matches (by decide)
            rw [ha.text_eq h192, hb.text_eq h0] at h
            cases h

theorem dotted_bytes {hi lo : Nat} (hhi : hi < 65536) (hlo : lo < 65536) :
    ((dotted hi lo).splitOn '.').map digitsValue = bytesOf [hi, lo] := by
  have hbyte : ∀ n < 256, (Nat.toDigits 10 n).contains '.' = false ∧
      digitsValue (Nat.toDigits 10 n) = n := by decide +kernel
  have hlow : ∀ w : Nat, w &&& 0xff = w % 256 := fun w => Nat.and_two_pow_sub_one_eq_mod w 8
  have hshift : ∀ w : Nat, w < 65536 → (w >>> 8) % 256 = w / 256 := by
    intro w hw
    rw [Nat.shiftRight_eq_div_pow]
    omega
  have hsmall : ∀ n ∈ [hi / 256, hi % 256, lo / 256, lo % 256], n < 256 := by
    simp only [List.mem_cons, List.not_mem_nil, or_false, forall_eq_or_imp, forall_eq]
    omega
  have hbytes : dotted hi lo =
      join '.' ([hi / 256, hi % 256, lo / 256, lo % 256].map (Nat.toDigits 10)) := by
    rw [dotted, hlow, hlow, hlow, hlow, hshift hi hhi, hshift lo hlo]
  rw [hbytes, splitOn_join ?_ (by simp), List.map_map]
  · refine (List.map_congr_left fun n hn => ?_).trans (List.map_id _)
    exact (hbyte n (hsmall n hn)).2
  · intro part hpart
    obtain ⟨n, hn, rfl⟩ := List.mem_map.mp hpart
    simpa using (hbyte n (hsmall n hn)).1

theorem drop_pair (h : words.length = 8) : words.drop 6 = [words.getD 6 0, words.getD 7 0] := by
  match words, h with
  | [a, b, c, d, e, f, g, k], _ => rfl

theorem not_refused {segs : List Nat} (hread : Rfc4291 (stripped s) segs)
    (h : if segs.take 6 = mappedWords then
        isPrivateIPv4 (dotted (segs.getD 6 0) (segs.getD 7 0)) = false
      else isReservedIp (stripped s) = false) : ¬ Refused6 segs := by
  unfold Refused6
  by_cases hmapped : segs.take 6 = mappedWords
  · rw [if_pos hmapped] at h ⊢
    have hpublic := (public_of_isPrivateIPv4 h).2
    have hword : ∀ i < 8, segs.getD i 0 < 65536 := by
      intro i hi
      have hbound : i < segs.length := by rwa [hread.length]
      rw [List.getD, List.getElem?_eq_getElem hbound, Option.getD_some]
      exact hread.word_lt _ (List.getElem_mem hbound)
    rwa [dotted_bytes (hword 6 (by omega)) (hword 7 (by omega)), ← drop_pair hread.length] at hpublic
  · rw [if_neg hmapped] at h ⊢
    intro hreserved
    rw [isReservedIp_rfc4291 hread hreserved] at h
    cases h

theorem isPrivateIPv6_false (hcolon : ':' ∈ s) : isPrivateIPv6 s = false ↔ isIpShape s = true ∧
    ∃ segs, expandIPv6 (stripped s) = some segs ∧
      if segs.take 6 = mappedWords then
        isPrivateIPv4 (dotted (segs.getD 6 0) (segs.getD 7 0)) = false
      else isReservedIp (stripped s) = false := by
  unfold isPrivateIPv6
  rw [if_neg (by simpa using hcolon)]
  cases hshape : isIpShape s with
  | false => simp
  | true =>
      cases hexpand : expandIPv6 (stripped s) with
      | none => simp
      | some segs =>
          by_cases hmapped : segs.take 6 = mappedWords
          · simp [hmapped]
          · simp [hmapped]

theorem zone_cut (s : List Char) : ∃ zone, s = s.takeWhile (· != '%') ++ zone ∧
    (zone = [] ∨ ∃ id, zone = '%' :: id) := by
  refine ⟨s.dropWhile (· != '%'), List.takeWhile_append_dropWhile.symm, ?_⟩
  cases hzone : s.dropWhile (· != '%') with
  | nil => exact .inl rfl
  | cons c id =>
      have hc := List.head?_dropWhile_not (· != '%') s
      rw [hzone] at hc
      have hpercent : c = '%' := by simpa using hc
      exact .inr ⟨id, by rw [hpercent]⟩

theorem takeWhile_body {body zone : List Char} (hbody : '%' ∉ body)
    (hzone : zone = [] ∨ ∃ id, zone = '%' :: id) :
    (body ++ zone).takeWhile (· != '%') = body := by
  have hall : ∀ c ∈ body, (c != '%') = true := by
    intro c hc
    rw [bne_iff_ne]
    rintro rfl
    exact hbody hc
  rw [List.takeWhile_append_of_pos hall]
  rcases hzone with rfl | ⟨id, rfl⟩ <;> simp

end Classifier

/-- The classifier calls a text public that is not the text of a public
address exactly where the text slips through. -/
theorem fails_closed_iff (address : String) :
    (isPrivateAddress address = false → Public address.toList) ↔ ¬ Slips address.toList := by
  generalize hs : address.toList = s
  unfold isPrivateAddress
  rw [hs]
  constructor
  · rintro h ⟨hcolon, hshape, hspelled, hslips⟩
    rw [if_pos (by simpa using hcolon)] at h
    cases h ((isPrivateIPv6_false hcolon).mpr ⟨hshape, hslips⟩) with
    | v4 hquad _ => exact hquad.not_mem (by decide) (by decide) hcolon
    | v6 hcut hzone hread _ =>
        subst hcut
        refine hspelled ?_
        rw [stripped, takeWhile_body (hread.not_mem (by decide) (by decide) (by decide)) hzone]
        exact wellSpelled_of_rfc4291 (rfc4291_lower.mpr hread)
  · intro hslips h
    by_cases hcolon : ':' ∈ s
    · rw [if_pos (by simpa using hcolon)] at h
      obtain ⟨hshape, segs, hexpand, hfree⟩ := (isPrivateIPv6_false hcolon).mp h
      have hspelled : WellSpelled (stripped s) := by
        by_contra hspelled
        exact hslips ⟨hcolon, hshape, hspelled, segs, hexpand, hfree⟩
      have hread := rfc4291_of_expand hspelled hexpand
      obtain ⟨zone, hcut, hzone⟩ := zone_cut s
      exact .v6 hcut hzone (rfc4291_lower.mp hread) (not_refused hread hfree)
    · rw [if_neg (by simpa using hcolon)] at h
      obtain ⟨hquad, hpublic⟩ := public_of_isPrivateIPv4 h
      exact .v4 hquad hpublic

/-- A link-local address with its last group missing: the first parser reads
a zero there, the second one nothing at all. -/
theorem fails_closed_fails :
    ¬ ∀ address : String, isPrivateAddress address = false → Public address.toList := by
  intro hall
  have hparse : parseIPv6 "fe80:0:0:0:0:0:0:".toList = none := by decide +kernel
  cases hall "fe80:0:0:0:0:0:0:" (by decide +kernel) with
  | v4 hquad _ => exact hquad.not_mem (by decide) (by decide) (by decide : ':' ∈ _)
  | @v6 body zone words hcut hzone hread _ =>
      have hnone : zone = [] := by
        rcases hzone with hzone | ⟨id, rfl⟩
        · exact hzone
        · have hpercent : '%' ∈ "fe80:0:0:0:0:0:0:".toList := by
            rw [hcut]
            simp
          exact absurd hpercent (by decide)
      rw [hnone, List.append_nil] at hcut
      rw [hcut, parseIPv6_rfc4291 hread] at hparse
      cases hparse

end SaasFoundation.Vestibulum.Discovery
