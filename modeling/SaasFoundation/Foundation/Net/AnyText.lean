import SaasFoundation.Foundation.Net.Cidr

/-!
# IPv6 texts of any characters

`parseIPv6` reads the parts of a dotted last group with `Number`, which takes
more texts than digits. Here what `Number` makes of a part is a parameter, and
all that a text in the form of RFC 4291 needs of it is that octets are read.
-/

namespace SaasFoundation.Foundation.Net

open Lib Lib.Text Lib.Addresses

/-! ## Pairs of colons -/

def HasPair (text : List Char) : Prop := [':', ':'] <:+: text

section Pairs

variable {text before after : List Char}

theorem cutPair_none_iff : cutPair text = none ↔ ¬ HasPair text := by
  fun_induction cutPair text with
  | case1 after => simpa [HasPair] using List.prefix_append [':', ':'] after |>.isInfix
  | case2 c cs hother ih =>
      have hfirst : ¬ [':', ':'] <+: c :: cs := by
        rintro ⟨after, heq⟩
        rw [List.cons_append, List.cons_append] at heq
        obtain ⟨rfl, rfl⟩ := List.cons.inj heq
        exact hother after rfl rfl
      rw [Option.map_eq_none_iff, ih, HasPair, HasPair, List.infix_cons_iff]
      simp [hfirst]
  | case3 => simp [HasPair]

/-- The text is cut at its first pair. -/
theorem cutPair_some (h : cutPair text = some (before, after)) :
    text = before ++ ':' :: ':' :: after ∧ ¬ HasPair (before ++ [':']) := by
  fun_induction cutPair text generalizing before with
  | case1 after' =>
      cases h
      refine ⟨rfl, ?_⟩
      rw [← cutPair_none_iff]
      rfl
  | case2 c cs hother ih =>
      obtain ⟨⟨before', after'⟩, hcut, hbefore⟩ := Option.map_eq_some_iff.mp h
      cases hbefore
      obtain ⟨rfl, hnone⟩ := ih hcut
      refine ⟨rfl, ?_⟩
      rw [← cutPair_none_iff] at hnone ⊢
      rw [List.cons_append, cutPair, hnone]
      · rfl
      · rintro rest rfl hrest
        cases before' with
        | nil => exact hother _ rfl rfl
        | cons d before' =>
            obtain ⟨rfl, -⟩ := List.cons.inj hrest
            exact hother _ rfl rfl
  | case3 => cases h

theorem cutPair_first (h : ¬ HasPair (before ++ [':'])) :
    cutPair (before ++ ':' :: ':' :: after) = some (before, after) := by
  cases hcut : cutPair (before ++ ':' :: ':' :: after) with
  | none =>
      exfalso
      exact cutPair_none_iff.mp hcut ⟨before, after, by simp⟩
  | some cut =>
      obtain ⟨before', after'⟩ := cut
      obtain ⟨hsame, hfirst⟩ := cutPair_some hcut
      -- Of two places the earlier one would be a pair in front of the later.
      rcases List.append_eq_append_iff.mp hsame with ⟨mid, rfl, hrest⟩ | ⟨mid, rfl, hrest⟩
      · cases mid with
        | nil =>
            cases hrest
            rw [List.append_nil]
        | cons c mid =>
            obtain ⟨rfl, hmid⟩ := List.cons.inj hrest
            refine absurd ?_ hfirst
            cases mid with
            | nil => exact ⟨before, [], by simp⟩
            | cons d mid =>
                obtain ⟨rfl, -⟩ := List.cons.inj hmid
                exact ⟨before, mid ++ [':'], by simp⟩
      · cases mid with
        | nil =>
            cases hrest
            rw [List.append_nil]
        | cons c mid =>
            obtain ⟨rfl, hmid⟩ := List.cons.inj hrest
            refine absurd ?_ h
            cases mid with
            | nil => exact ⟨before', [], by simp⟩
            | cons d mid =>
                obtain ⟨rfl, -⟩ := List.cons.inj hmid
                exact ⟨before', mid ++ [':'], by simp⟩

theorem hasPair_of_cut (h : cutPair text = some (before, after)) : HasPair text := by
  by_contra hnone
  rw [cutPair_none_iff.mpr hnone] at h
  cases h

end Pairs

/-! ## Groups and bytes -/

/-- What `mapM` has read of a list it has read of each member. -/
theorem mapM_forall₂ {α β : Type} {f : α → Option β} {as : List α} {bs : List β}
    (h : as.mapM f = some bs) : List.Forall₂ (fun a b => f a = some b) as bs := by
  induction as generalizing bs with
  | nil =>
      cases h
      exact .nil
  | cons a as ih =>
      rw [List.mapM_cons] at h
      obtain ⟨b, hb, hrest⟩ := Option.bind_eq_some_iff.mp h
      obtain ⟨bs', hbs', hcons⟩ := Option.bind_eq_some_iff.mp hrest
      cases hcons
      exact .cons hb (ih hbs')

section Cuts

variable {g text : List Char} {gs : List (List Char)}

theorem cutPair_group (hg : ':' ∉ g) (rest : List Char) :
    cutPair (g ++ rest) = (cutPair rest).map fun cut => (g ++ cut.1, cut.2) := by
  induction g with
  | nil => simp
  | cons c g ih =>
      have hc : c ≠ ':' := by
        rintro rfl
        simp at hg
      have hrest : ':' ∉ g := fun h => hg (List.mem_cons_of_mem _ h)
      rw [List.cons_append, cutPair, ih hrest, Option.map_map]
      · rfl
      · rintro after rfl
        exact absurd rfl hc

theorem cutPair_colon {rest : List Char} (h : rest.head? ≠ some ':') :
    cutPair (':' :: rest) = (cutPair rest).map fun cut => (':' :: cut.1, cut.2) := by
  rw [cutPair]
  rintro after - rfl
  exact h rfl

/-- No pair of colons is cut inside groups. -/
theorem cutPair_join (h : Groups gs) (rest : List Char) :
    cutPair (join ':' gs ++ rest) =
      (cutPair rest).map fun cut => (join ':' gs ++ cut.1, cut.2) := by
  induction gs with
  | nil => simp
  | cons g gs ih =>
      have hg := (h g (by simp)).2
      by_cases hgs : gs = []
      · subst hgs
        rw [join_singleton]
        exact cutPair_group hg rest
      · rw [join_cons hgs, List.append_assoc, List.cons_append, cutPair_group hg,
          cutPair_colon (h.tail.head hgs rest), ih h.tail, Option.map_map, Option.map_map]
        congr 1
        funext cut
        simp

/-- Groups alone have no pair of colons. -/
theorem cutPair_groups (h : Groups gs) : cutPair (join ':' gs) = none := by
  have hnone := cutPair_join h []
  rwa [List.append_nil] at hnone

/-- The pair of colons between groups is the first. -/
theorem cutPair_between (h : Groups gs) (after : List Char) :
    cutPair (join ':' gs ++ ':' :: ':' :: after) = some (join ':' gs, after) := by
  rw [cutPair_join h]
  simp [cutPair]

theorem splitOn_filter_join (h : Groups gs) :
    ((join ':' gs).splitOn ':').filter (· ≠ []) = gs := by
  by_cases hgs : gs = []
  · subst hgs
    rfl
  · rw [splitOn_join (fun g hg => (h g hg).2) hgs, List.filter_eq_self]
    intro g hg
    simpa using (h g hg).1

end Cuts

section Assemble

variable {hi lo : List (List Char)} {hw lw qw : List Nat} {quad : Option (List Nat)}

theorem writeGroup_group {g : List Char} {w : Nat} (h : Group g w) :
    writeGroup g = some [w / 256, w % 256] := by
  have hlt := h.word_lt
  have hhigh : (w >>> 8) &&& 0xff = w / 256 := by
    rw [show (0xff : Nat) = 2 ^ 8 - 1 from rfl, Nat.and_two_pow_sub_one_eq_mod,
      Nat.shiftRight_eq_div_pow]
    omega
  have hlow : w &&& 0xff = w % 256 := Nat.and_two_pow_sub_one_eq_mod w 8
  simp only [writeGroup, h.nonempty, h.short, h.hex, h.value, decide_true, Bool.and_self, if_true,
    hhigh, hlow]

theorem mapM_writeGroup (h : List.Forall₂ Group hi hw) :
    hi.mapM writeGroup = some (hw.map fun w => [w / 256, w % 256]) := by
  induction h with
  | nil => rfl
  | cons hg _ ih =>
      rw [List.mapM_cons, writeGroup_group hg, ih]
      rfl

theorem bytesOf_zeros (n : Nat) : bytesOf (List.replicate n 0) = List.replicate (2 * n) 0 := by
  induction n with
  | zero => rfl
  | succ n ih =>
      rw [List.replicate_succ, bytesOf, List.flatMap_cons, ← bytesOf, ih,
        show 2 * (n + 1) = 2 * n + 1 + 1 by omega, List.replicate_succ, List.replicate_succ]
      rfl

theorem bytesOf_length (words : List Nat) : (bytesOf words).length = 2 * words.length := by
  induction words with
  | nil => rfl
  | cons w words ih =>
      rw [bytesOf, List.flatMap_cons, List.length_append, ← bytesOf, ih]
      simp
      omega

/-- The bytes of groups and of a dotted quad, with zeros for the `::`. -/
theorem assemble_groups {compressed : Bool} (hhi : List.Forall₂ Group hi hw)
    (hlo : List.Forall₂ Group lo lw) (hbytes : quad.getD [] = bytesOf qw)
    (hsize : (if quad.isSome then 2 else 0) = qw.length)
    (hcount : hw.length + lw.length + qw.length ≤ 8)
    (hfull : compressed = false → lw.length = 0 ∧ hw.length + qw.length = 8) :
    assemble compressed hi lo quad = some (bytesOf (hw ++
      List.replicate (8 - hw.length - lw.length - qw.length) 0 ++ lw ++ qw)) := by
  have hhiLength := hhi.length_eq
  have hloLength := hlo.length_eq
  have hflatten : ∀ ws : List Nat, (ws.map fun w => [w / 256, w % 256]).flatten = bytesOf ws :=
    fun ws => List.flatMap_def.symm
  have hsplit : ∀ a b : List Nat, bytesOf (a ++ b) = bytesOf a ++ bytesOf b :=
    fun a b => List.flatMap_append
  have hfiller : ∃ filler : ℤ, (if compressed then 8 - (hi.length : ℤ) - lo.length -
      ((if quad.isSome then 2 else 0 : Nat) : ℤ) else 0) = filler ∧ 0 ≤ filler ∧
        filler.toNat = 8 - hw.length - lw.length - qw.length := by
    cases compressed with
    | false =>
        obtain ⟨hnil, hall⟩ := hfull rfl
        exact ⟨0, rfl, le_refl _, by simp; omega⟩
    | true =>
        refine ⟨_, rfl, ?_, ?_⟩
        · rw [if_pos rfl, hsize]
          omega
        · rw [if_pos rfl, hsize]
          omega
  obtain ⟨filler, hfillerEq, hfillerNonneg, hfillerNat⟩ := hfiller
  have hgroups : (!compressed && (hi.length + (if quad.isSome then 2 else 0) != 8)) = false := by
    cases compressed with
    | true => rfl
    | false =>
        obtain ⟨hnil, hall⟩ := hfull rfl
        rw [hsize, hhiLength, hall]
        rfl
  have hlength : (bytesOf hw ++ List.replicate (2 * filler.toNat) 0 ++ bytesOf lw ++
      quad.getD []).length = 16 := by
    rw [hbytes]
    simp only [List.length_append, List.length_replicate, bytesOf_length, hfillerNat]
    omega
  unfold assemble
  simp only [hfillerEq, hgroups, Bool.false_eq_true, if_false, not_lt.mpr hfillerNonneg,
    mapM_writeGroup hhi, mapM_writeGroup hlo, Option.bind_eq_bind, Option.bind_some, hflatten,
    hlength, ne_eq, not_true_eq_false]
  rw [hbytes, hfillerNat, hsplit, hsplit, hsplit, bytesOf_zeros]

end Assemble

section Parse

variable {gs : List (List Char)} {text quad : List Char} {ws : List Nat} {a b c d : Nat}

theorem bytesOf_quad (h : DottedQuad quad [a, b, c, d]) :
    bytesOf [256 * a + b, 256 * c + d] = [a, b, c, d] := by
  have hlt := h.byte_lt
  simp only [List.mem_cons, List.not_mem_nil, or_false, forall_eq_or_imp, forall_eq] at hlt
  simp only [bytesOf, List.flatMap_cons, List.flatMap_nil, List.cons_append, List.nil_append,
    List.cons.injEq, and_true]
  omega

theorem group_plain (h : List.Forall₂ Group gs ws) : ∀ g ∈ gs, g.contains '.' = false := by
  intro g hg
  obtain ⟨w, hw⟩ := (forall₂_mem h).1 g hg
  simpa using hw.not_mem (by decide)

theorem takeWhile_free {z : Char} (h : z ∉ text) : text.takeWhile (· != z) = text := by
  rw [List.takeWhile_eq_self_iff]
  intro c hc
  rw [bne_iff_ne]
  rintro rfl
  exact h hc

end Parse

namespace AnyText

section Definitions

variable (toByte : List Char → Option Nat)

/-- The bytes of a dotted last group. -/
def ipv4Bytes (lastGroup : List Char) : Option (List Nat) :=
  let ipv4Parts := lastGroup.splitOn '.'
  if ipv4Parts.length ≠ 4 then none else ipv4Parts.mapM toByte

def parseGroups (compressed : Bool) (hi lo : List (List Char)) : Option (List Nat) :=
  match (hi ++ lo).getLast? with
  | some lastGroup =>
      if lastGroup.contains '.' then
        (ipv4Bytes toByte lastGroup).bind fun quad =>
          assemble compressed (dropQuad hi lo).1 (dropQuad hi lo).2 (some quad)
      else assemble compressed hi lo none
  | none => assemble compressed hi lo none

def parseIPv6 (s : List Char) : Option (List Nat) :=
  let addr := s.takeWhile (· != '%')
  match cutPair addr with
  | none => parseGroups toByte false (addr.splitOn ':') []
  | some (before, after) =>
      parseGroups toByte true ((before.splitOn ':').filter (· ≠ []))
        ((after.splitOn ':').filter (· ≠ []))

/-- An octet is read as the number it denotes. -/
def ReadsOctets : Prop := ∀ part n, Octet part n → toByte part = some n

end Definitions

/-! ## Texts of RFC 4291 -/

section Parse

variable {toByte : List Char → Option Nat} {hi lo gs : List (List Char)} {text quad : List Char}
  {hw lw ws words : List Nat} {a b c d n : Nat}

theorem ipv4Bytes_quad (hbyte : ReadsOctets toByte) (h : DottedQuad quad [a, b, c, d]) :
    ipv4Bytes toByte quad = some [a, b, c, d] := by
  obtain ⟨hoctets, -⟩ := h.split
  unfold ipv4Bytes
  generalize quad.splitOn '.' = parts at hoctets
  obtain - | ⟨ha, - | ⟨hb, - | ⟨hc, - | ⟨hd, - | _⟩⟩⟩⟩ := hoctets
  simp [hbyte _ _ ha, hbyte _ _ hb, hbyte _ _ hc, hbyte _ _ hd]

theorem parseGroups_plain {compressed : Bool} (hhi : List.Forall₂ Group hi hw)
    (hlo : List.Forall₂ Group lo lw) :
    parseGroups toByte compressed hi lo = assemble compressed hi lo none := by
  unfold parseGroups
  split
  · rename_i lastGroup hlast
    have hdot : lastGroup.contains '.' = false := by
      rcases List.mem_append.mp (List.mem_of_getLast? hlast) with hmem | hmem
      · exact group_plain hhi lastGroup hmem
      · exact group_plain hlo lastGroup hmem
    rw [hdot]
    rfl
  · rfl

/-- The dotted quad is the last of the lower groups. -/
theorem parseGroups_low {compressed : Bool} (hbyte : ReadsOctets toByte)
    (h : DottedQuad quad [a, b, c, d]) :
    parseGroups toByte compressed hi (lo ++ [quad]) = assemble compressed hi lo (some [a, b, c, d]) := by
  have hlast : (hi ++ (lo ++ [quad])).getLast? = some quad := by
    rw [← List.append_assoc, List.getLast?_concat]
  have hdot : quad.contains '.' = true := by simpa using h.has_dot
  have hdrop : dropQuad hi (lo ++ [quad]) = (hi, lo) := by
    simp only [dropQuad, List.getLast?_concat, Option.any_some, hdot, if_true,
      List.dropLast_concat]
  simp only [parseGroups, hlast, hdot, if_true, ipv4Bytes_quad hbyte h, Option.bind_some, hdrop]

/-- The dotted quad is the last of all groups. -/
theorem parseGroups_high {compressed : Bool} (hbyte : ReadsOctets toByte)
    (h : DottedQuad quad [a, b, c, d]) :
    parseGroups toByte compressed (hi ++ [quad]) [] =
      assemble compressed hi [] (some [a, b, c, d]) := by
  have hlast : (hi ++ [quad] ++ []).getLast? = some quad := by
    rw [List.append_nil, List.getLast?_concat]
  have hdot : quad.contains '.' = true := by simpa using h.has_dot
  have hdrop : dropQuad (hi ++ [quad]) [] = (hi, []) := by
    simp only [dropQuad, List.getLast?_nil, Option.any_none, Bool.false_eq_true, if_false,
      List.getLast?_concat, Option.any_some, hdot, if_true, List.dropLast_concat]
  simp only [parseGroups, hlast, hdot, if_true, ipv4Bytes_quad hbyte h, Option.bind_some, hdrop]

/-- The parser reads what the text denotes. -/
theorem parseIPv6_rfc4291 (hbyte : ReadsOctets toByte) (h : Rfc4291 text words) :
    parseIPv6 toByte text = some (bytesOf words) := by
  have hzone : '%' ∉ text := h.not_mem (by decide) (by decide) (by decide)
  unfold parseIPv6
  rw [takeWhile_free hzone]
  cases h with
  | @full gs _ hwords hlength =>
      have hgroups := hwords.groups
      have hgs : gs ≠ [] := by
        rintro rfl
        cases hwords
        cases hlength
      simp only [cutPair_groups hgroups, splitOn_join (fun g hg => (hgroups g hg).2) hgs]
      rcases hwords.cases with hplain | ⟨gs', quad, ws', a, b, c, d, rfl, rfl, hplain, hquad⟩
      · have hbytes : (none : Option (List Nat)).getD [] = bytesOf [] := rfl
        rw [parseGroups_plain hplain .nil, assemble_groups hplain .nil hbytes rfl
          (by simp [hlength]) (fun _ => by simp [hlength])]
        simp [hlength]
      · simp only [List.length_append, List.length_cons, List.length_nil] at hlength
        have hbytes : (some [a, b, c, d]).getD [] = bytesOf [256 * a + b, 256 * c + d] :=
          (bytesOf_quad hquad).symm
        rw [parseGroups_high hbyte hquad, assemble_groups hplain .nil hbytes rfl (by simp; omega)
          (fun _ => by simp; omega)]
        simp [show 8 - ws'.length - 2 = 0 by omega]
  | @compressed hs ts hw tw hhead htail hcount =>
      have hheadGroups := groups_of_forall₂ hhead
      have htailGroups := htail.groups
      simp only [cutPair_between hheadGroups, splitOn_filter_join hheadGroups,
        splitOn_filter_join htailGroups]
      rcases htail.cases with hplain | ⟨ts', quad, tw', a, b, c, d, rfl, rfl, hplain, hquad⟩
      · have hbytes : (none : Option (List Nat)).getD [] = bytesOf [] := rfl
        rw [parseGroups_plain hhead hplain, assemble_groups hhead hplain hbytes rfl
          (by simp; omega) (fun hfalse => by cases hfalse)]
        simp
      · simp only [List.length_append, List.length_cons, List.length_nil] at hcount ⊢
        have hbytes : (some [a, b, c, d]).getD [] = bytesOf [256 * a + b, 256 * c + d] :=
          (bytesOf_quad hquad).symm
        rw [parseGroups_low hbyte hquad, assemble_groups hhead hplain hbytes rfl (by simp; omega)
          (fun hfalse => by cases hfalse)]
        have hfill : 8 - hw.length - tw'.length - 2 = 8 - hw.length - (tw'.length + 2) := by omega
        simp [hfill]

end Parse

end AnyText

end SaasFoundation.Foundation.Net
