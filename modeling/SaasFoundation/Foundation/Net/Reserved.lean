import SaasFoundation.Foundation.Net.AnyText

/-!
# What the parsers read

On a text that denotes an address both parsers give that address, and the
arithmetic on it finds every block it lies in. What is said of a block is
said by the text of its network and the length of its prefix.
-/

namespace SaasFoundation.Foundation.Net

open Lib Lib.Text Lib.Addresses

/-- An IPv4 block in CIDR notation. -/
def Block4 (cidr : String) (net : List Nat) (len : Nat) : Prop :=
  ∃ text, cidr.toList = text ++ '/' :: Nat.toDigits 10 len ∧ DottedQuad text net ∧ len ≤ 32

/-- An IPv6 block in CIDR notation. -/
def Block6 (cidr : String) (net : List Nat) (len : Nat) : Prop :=
  ∃ text, cidr.toList = text ++ '/' :: Nat.toDigits 10 len ∧ Rfc4291 text net ∧ len ≤ 128

/-- An address in a block of the IPv4 table. -/
def Reserved4 (bytes : List Nat) : Prop :=
  ∃ cidr ∈ rfc6890Ipv4Reserved, ∃ net len, Block4 cidr net len ∧
    SameBlock 32 len (ofBytes bytes) (ofBytes net)

/-- An address in a block of the IPv6 table. -/
def Reserved6 (words : List Nat) : Prop :=
  ∃ cidr ∈ rfc6890Ipv6Reserved, ∃ net len, Block6 cidr net len ∧
    SameBlock 128 len (ofBytes (bytesOf words)) (ofBytes (bytesOf net))

/-! ## Octets -/

section Octets

variable {text : List Char}

theorem octet_of_matches (h : matchesOctet text = true) : Octet text (digitsValue text) := by
  match text, h with
  | [c], h =>
      have hc : c.isDigit = true := h
      have hrange := isDigit_toNat hc
      refine ⟨by simp [isDigits, hc], by simp, by simp, rfl, ?_⟩
      simp only [digitsValue, List.foldl_cons, List.foldl_nil]
      omega
  | [b, c], h =>
      simp only [matchesOctet, Bool.and_eq_true, bne_iff_ne, ne_eq] at h
      obtain ⟨⟨hb, hzero⟩, hc⟩ := h
      have hrangeb := isDigit_toNat hb
      have hrangec := isDigit_toNat hc
      refine ⟨by simp [isDigits, hb, hc], by simp, fun _ => by simpa using hzero, rfl, ?_⟩
      simp only [digitsValue, List.foldl_cons, List.foldl_nil]
      omega
  | [a, b, c], h =>
      simp only [matchesOctet, Bool.or_eq_true, Bool.and_eq_true, beq_iff_eq,
        decide_eq_true_eq] at h
      have hdigit : ∀ d : Char, '0' ≤ d → d.toNat ≤ 57 → d.isDigit = true := by
        intro d hlow hhigh
        have hlow' : 48 ≤ d.toNat := Fin.mk_le_mk.mp hlow
        simp only [Char.isDigit, UInt32.le_iff_toNat_le, ge_iff_le, Bool.and_eq_true,
          decide_eq_true_eq]
        exact ⟨hlow', hhigh⟩
      rcases h with (⟨⟨rfl, hb⟩, hc⟩ | ⟨⟨⟨rfl, hlow⟩, hhigh⟩, hc⟩) | ⟨⟨⟨rfl, rfl⟩, hlow⟩, hhigh⟩
      · have hrangeb := isDigit_toNat hb
        have hrangec := isDigit_toNat hc
        refine ⟨by simp [isDigits, hb, hc], by simp, fun _ => by simp, rfl, ?_⟩
        simp only [digitsValue, List.foldl_cons, List.foldl_nil, Char.reduceToNat]
        omega
      · have hb : b.toNat ≤ 52 := Fin.mk_le_mk.mp hhigh
        have hrangec := isDigit_toNat hc
        refine ⟨by simp [isDigits, hdigit b hlow (by omega), hc], by simp, fun _ => by simp, rfl, ?_⟩
        simp only [digitsValue, List.foldl_cons, List.foldl_nil, Char.reduceToNat]
        omega
      · have hc : c.toNat ≤ 53 := Fin.mk_le_mk.mp hhigh
        refine ⟨by simp [isDigits, hdigit c hlow (by omega)], by simp, fun _ => by simp, rfl, ?_⟩
        simp only [digitsValue, List.foldl_cons, List.foldl_nil, Char.reduceToNat]
        omega

theorem matches_of_octet {n : Nat} (h : Octet text n) : matchesOctet text = true := by
  have hdigit : ∀ d : Char, 48 ≤ d.toNat ∧ d.toNat ≤ 57 → d.isDigit = true := by
    rintro d ⟨hlow, hhigh⟩
    simp only [Char.isDigit, UInt32.le_iff_toNat_le, ge_iff_le, Bool.and_eq_true, decide_eq_true_eq]
    exact ⟨hlow, hhigh⟩
  have hsmall := h.small
  rcases h.digits_cases with ⟨c, rfl, hc⟩ | ⟨b, c, rfl, hbc⟩ | ⟨a, b, c, rfl, habc⟩
  · exact hdigit c (by omega)
  · have hzero : b ≠ '0' := by
      rintro rfl
      exact absurd hbc.1 (by decide)
    simp [matchesOctet, hdigit b (by omega), hdigit c (by omega), hzero]
  · have hb := hdigit b (by omega)
    have hc := hdigit c (by omega)
    have hle : ∀ d e : Char, d.toNat ≤ e.toNat → d ≤ e := fun d e hde => Fin.mk_le_mk.mpr hde
    by_cases hone : a.toNat = 49
    · have : a = '1' := Char.toNat_inj.mp hone
      simp [matchesOctet, this, hb, hc]
    · have htwo : a = '2' := Char.toNat_inj.mp (show a.toNat = 50 by omega)
      by_cases hfive : b.toNat = 53
      · have : b = '5' := Char.toNat_inj.mp hfive
        simp [matchesOctet, htwo, this, hle '0' c (show 48 ≤ c.toNat by omega),
          hle c '5' (show c.toNat ≤ 53 by omega)]
      · simp [matchesOctet, htwo, hc, hle '0' b (show 48 ≤ b.toNat by omega),
          hle b '4' (show b.toNat ≤ 52 by omega)]

/-- `IPV4_RE` matches dotted quads. -/
theorem dottedQuad_of_matches (h : matchesIPv4 text = true) :
    DottedQuad text ((text.splitOn '.').map digitsValue) := by
  simp only [matchesIPv4, Bool.and_eq_true, beq_iff_eq, List.all_eq_true] at h
  obtain ⟨hlength, hoctets⟩ := h
  refine ⟨text.splitOn '.', (join_splitOn text).symm, ?_, by simpa using hlength⟩
  rw [List.forall₂_map_right_iff, List.forall₂_same]
  exact fun part hpart => octet_of_matches (hoctets part hpart)

theorem matches_of_dottedQuad {bytes : List Nat} (h : DottedQuad text bytes) :
    matchesIPv4 text = true := by
  obtain ⟨hoctets, hlength⟩ := h.split
  simp only [matchesIPv4, Bool.and_eq_true, beq_iff_eq, List.all_eq_true]
  refine ⟨hoctets.length_eq.trans hlength, fun part hpart => ?_⟩
  obtain ⟨n, hn⟩ := (forall₂_mem hoctets).1 part hpart
  exact matches_of_octet hn

end Octets

/-! ## IPv4 -/

theorem parseOctet_octet {part : List Char} {r n : Nat} (h : Octet part n) (hr : r < 2 ^ 24) :
    parseOctet r part = some (256 * r + n) := by
  have hsmall := h.small
  have hzero : (decide (1 < part.length) && part.head? == some '0') = false := by
    by_cases hlong : 1 < part.length
    · simpa [hlong] using h.canonical hlong
    · simp [hlong]
  have hshift : (r <<< 8 ||| n) % 2 ^ 32 = 256 * r + n := by
    rw [← Nat.shiftLeft_add_eq_or_of_lt (by omega), Nat.shiftLeft_eq]
    omega
  simp only [parseOctet, h.digits, hzero, h.value, Bool.not_true, Bool.false_eq_true, if_false,
    hshift]
  rw [if_neg (by omega)]

theorem parseIPv4_quad {text : List Char} {bytes : List Nat} (h : DottedQuad text bytes) :
    parseIPv4 text = some (ofBytes bytes) := by
  have hlt := h.byte_lt
  obtain ⟨hoctets, hlength⟩ := h.split
  unfold parseIPv4
  match bytes, hlength with
  | [a, b, c, d], _ =>
      generalize text.splitOn '.' = parts at hoctets
      obtain - | ⟨ha, - | ⟨hb, - | ⟨hc, - | ⟨hd, - | _⟩⟩⟩⟩ := hoctets
      simp only [List.mem_cons, List.not_mem_nil, or_false, forall_eq_or_imp, forall_eq] at hlt
      obtain ⟨ha', hb', hc', -⟩ := hlt
      simp only [List.length_cons, List.length_nil, List.foldlM_cons, List.foldlM_nil]
      rw [parseOctet_octet ha (by omega), Option.bind_eq_bind, Option.bind_some,
        parseOctet_octet hb (by omega), Option.bind_some, parseOctet_octet hc (by omega),
        Option.bind_some, parseOctet_octet hd (by omega)]
      rfl

theorem quad_lt {text : List Char} {bytes : List Nat} (h : DottedQuad text bytes) :
    ofBytes bytes < 2 ^ 32 := by
  have hlt := ofBytes_lt h.byte_lt
  rwa [h.split.2] at hlt

/-- Membership is agreement in the leading bits. -/
theorem ipv4InCidr_iff {a b len : Nat} (ha : a < 2 ^ 32) (hb : b < 2 ^ 32) (hlen : len ≤ 32) :
    ipv4InCidr a b len = true ↔ SameBlock 32 len a b := by
  unfold ipv4InCidr SameBlock
  split
  · rename_i hzero
    subst hzero
    simp only [Nat.sub_zero, Nat.div_eq_of_lt ha, Nat.div_eq_of_lt hb]
  · split
    · rename_i hfull
      subst hfull
      simp
    · rw [beq_iff_eq]
      refine land_eq_iff_div_eq ha hb fun i hi => ?_
      rw [Nat.testBit_mod_two_pow, Nat.testBit_shiftLeft, Nat.testBit_two_pow_sub_one]
      by_cases hk : 32 - len ≤ i
      · simp [hi, hk, show i - (32 - len) < 32 by omega]
      · simp [hk]

theorem toWhole_decimal : ∀ len ≤ 128, toWhole (Nat.toDigits 10 len) = some len := by
  decide +kernel

theorem cutCidr_eq {text : List Char} {len : Nat} (htext : '/' ∉ text) (hlen : len ≤ 128) :
    cutCidr (text ++ '/' :: Nat.toDigits 10 len) = some (text, len) := by
  have hall : ∀ c ∈ text, (c != '/') = true := by
    intro c hc
    rw [bne_iff_ne]
    rintro rfl
    exact htext hc
  have htake : (text ++ '/' :: Nat.toDigits 10 len).takeWhile (· != '/') = text := by
    rw [List.takeWhile_append_of_pos hall]
    simp
  have hdrop : (text ++ '/' :: Nat.toDigits 10 len).dropWhile (· != '/') =
      '/' :: Nat.toDigits 10 len := by
    rw [List.dropWhile_append_of_pos hall]
    simp
  unfold cutCidr
  rw [if_pos (by simp), htake, hdrop, List.drop_one, List.tail_cons, toWhole_decimal len hlen]
  rfl

/-- An address in a reserved block is found there. -/
theorem isReservedIp_quad {text : List Char} (hmatches : matchesIPv4 text = true)
    {bytes : List Nat} (h : DottedQuad text bytes) (hreserved : Reserved4 bytes) :
    isReservedIp text = true := by
  have hne : text.isEmpty = false := by
    cases text with
    | nil => cases hmatches
    | cons c cs => rfl
  obtain ⟨cidr, hcidr, net, len, ⟨network, htext, hnet, hlen⟩, hsame⟩ := hreserved
  simp only [isReservedIp, hne, Bool.false_eq_true, if_false, hmatches, if_true,
    List.any_eq_true]
  refine ⟨cidr, hcidr, ?_⟩
  have hslash : '/' ∉ network := by
    intro hmem
    rcases hnet.chars _ hmem with hdigit | hdot
    · cases hdigit
    · cases hdot
  rw [isIPv4InCidr, htext, cutCidr_eq hslash (by omega)]
  simp only [parseIPv4_quad h, parseIPv4_quad hnet]
  rw [if_neg (by omega)]
  exact (ipv4InCidr_iff (quad_lt h) (quad_lt hnet) hlen).mpr hsame

/-! ## IPv6 -/

section Parse

variable {text : List Char} {words : List Nat} {n : Nat}

theorem toByte_octet {part : List Char} (h : Octet part n) : toByte part = some n := by
  obtain ⟨hne, hdigits⟩ := isDigits_iff.mp h.digits
  have htake : part.takeWhile Char.isDigit = part := List.takeWhile_eq_self_iff.mpr hdigits
  have hdrop : part.dropWhile Char.isDigit = [] := List.dropWhile_eq_nil_iff.mpr hdigits
  have hvalue : toWhole part = some n := by
    unfold toWhole
    simp only [htake, hdrop]
    split
    · exact absurd rfl hne
    · rename_i b bits
      have hb : b.isDigit = true := hdigits b (by simp)
      have hbin : (b == 'b' || b == 'B') = false := by
        rw [Bool.or_eq_false_iff, beq_eq_false_iff_ne, beq_eq_false_iff_ne]
        constructor
        · rintro rfl
          cases hb
        · rintro rfl
          cases hb
      rw [hbin]
      exact congrArg some h.value
    · exact congrArg some h.value
  rw [toByte, hvalue]
  simp [h.small]

/-- The parser reads what the text denotes. -/
theorem parseIPv6_rfc4291 (h : Rfc4291 text words) : parseIPv6 text = some (bytesOf words) :=
  AnyText.parseIPv6_rfc4291 (fun _ _ => toByte_octet) h

/-- The parser reads the text before a zone. -/
theorem parseIPv6_address (h : Rfc4291 (text.takeWhile (· != '%')) words) :
    parseIPv6 text = some (bytesOf words) := by
  have hread := parseIPv6_rfc4291 h
  unfold parseIPv6 at hread ⊢
  rwa [List.takeWhile_idem] at hread

theorem bytesOf_lt {words : List Nat} (h : ∀ w ∈ words, w < 65536) :
    ∀ b ∈ bytesOf words, b < 256 := by
  intro b hb
  obtain ⟨w, hw, hb⟩ := List.mem_flatMap.mp hb
  have hlt := h w hw
  simp only [List.mem_cons, List.not_mem_nil, or_false] at hb
  omega

theorem getD_byte_lt {bytes : List Nat} (h : ∀ b ∈ bytes, b < 256) (i : Nat) :
    bytes.getD i 0 < 2 ^ 8 := by
  rw [List.getD_eq_getElem?_getD]
  cases hget : bytes[i]? with
  | none => simp
  | some b => exact h b (List.mem_of_getElem? hget)

theorem ipv6InCidr_iff {xs ys : List Nat} {len : Nat} (hx : ∀ b ∈ xs, b < 256)
    (hy : ∀ b ∈ ys, b < 256) (hxs : xs.length = 16) (hys : ys.length = 16) (hlen : len ≤ 128) :
    ipv6InCidr xs ys len = true ↔ SameBlock 128 len (ofBytes xs) (ofBytes ys) := by
  have hblock := sameBlock_iff_bytes hx hy (hxs.trans hys.symm) (show len ≤ 8 * xs.length by omega)
  rw [hxs] at hblock
  rw [hblock]
  unfold ipv6InCidr
  split
  · rename_i hzero
    subst hzero
    simp only [Nat.zero_div, Nat.zero_mod, Nat.sub_zero, Nat.div_eq_of_lt (getD_byte_lt hx 0),
      Nat.div_eq_of_lt (getD_byte_lt hy 0), and_true, true_iff]
    exact fun i hi => absurd hi (Nat.not_lt_zero i)
  · rw [Bool.and_eq_true, List.all_eq_true]
    refine and_congr ?_ ?_
    · simp only [List.mem_range, beq_iff_eq]
    · by_cases hzero : len % 8 = 0
      · simp only [hzero, decide_true, Bool.true_or, Nat.sub_zero,
          Nat.div_eq_of_lt (getD_byte_lt hx _), Nat.div_eq_of_lt (getD_byte_lt hy _)]
      · rw [decide_eq_false hzero, Bool.false_or, beq_iff_eq]
        refine land_eq_iff_div_eq (getD_byte_lt hx _) (getD_byte_lt hy _) fun i hi => ?_
        rw [Nat.testBit_and, Nat.testBit_shiftLeft, show (0xff : Nat) = 2 ^ 8 - 1 from rfl,
          Nat.testBit_two_pow_sub_one, Nat.testBit_two_pow_sub_one]
        by_cases hk : 8 - len % 8 ≤ i
        · simp [hi, hk, show i - (8 - len % 8) < 8 by omega]
        · simp [hk]

theorem dropZone_free (h : '%' ∉ text) : dropZone text = text := by
  induction text with
  | nil => rfl
  | cons c cs ih =>
      have hc : (c == '%') = false := by
        rw [beq_eq_false_iff_ne]
        rintro rfl
        simp at h
      have hcs : '%' ∉ cs := fun hmem => h (List.mem_cons_of_mem _ hmem)
      simp only [dropZone, hc, Bool.false_and, Bool.false_eq_true, if_false, ih hcs]

/-- A text with a colon is no dotted quad. -/
theorem matchesIPv4_colon (h : ':' ∈ text) : matchesIPv4 text = false := by
  rw [Bool.eq_false_iff]
  intro hmatches
  exact (dottedQuad_of_matches hmatches).not_mem (by decide) (by decide) h

/-- What the parser reads in a text with a colon decides. -/
theorem isReservedIp_reads (hcolon : ':' ∈ text) (hbody : matchesIPv6Body (dropZone text) = true)
    (hread : Rfc4291 (text.takeWhile (· != '%')) words) (hreserved : Reserved6 words) :
    isReservedIp text = true := by
  obtain ⟨cidr, hcidr, net, len, ⟨network, htext, hnet, hlen⟩, hsame⟩ := hreserved
  have hne : text.isEmpty = false := by
    cases text with
    | nil => cases hcolon
    | cons c cs => rfl
  simp only [isReservedIp, hne, Bool.false_eq_true, if_false, matchesIPv4_colon hcolon,
    List.contains_iff_mem.mpr hcolon, hbody, Bool.and_self, if_true, List.any_eq_true]
  refine ⟨cidr, hcidr, ?_⟩
  have hslash : '/' ∉ network := hnet.not_mem (by decide) (by decide) (by decide)
  rw [isIPv6InCidr, htext, cutCidr_eq hslash hlen]
  simp only [parseIPv6_address hread, parseIPv6_rfc4291 hnet]
  rw [if_neg (by omega)]
  exact (ipv6InCidr_iff (bytesOf_lt hread.word_lt) (bytesOf_lt hnet.word_lt)
    (by rw [bytesOf_length, hread.length]) (by rw [bytesOf_length, hnet.length]) hlen).mpr hsame

theorem matchesIPv6Body_rfc4291 (h : Rfc4291 text words) : matchesIPv6Body text = true := by
  have hne : text.isEmpty = false := by
    cases text with
    | nil => cases h.has_colon
    | cons c cs => rfl
  rw [matchesIPv6Body, hne]
  simpa [or_assoc] using h.chars

theorem isReservedIp_rfc4291 (h : Rfc4291 text words) (hreserved : Reserved6 words) :
    isReservedIp text = true := by
  refine isReservedIp_reads h.has_colon ?_ (Scoped.bare h).address hreserved
  rw [dropZone_free h.no_zone]
  exact matchesIPv6Body_rfc4291 h

/-- A zone ends at the end of the text, since it holds no line break. -/
theorem dropZone_zone {zone : List Char} (h : '%' ∉ text) (hzone : Zone zone) :
    dropZone (text ++ '%' :: zone) = text := by
  induction text with
  | nil =>
      have hline : (zone.all fun d => !(['\n', '\r', '\u2028', '\u2029'].contains d)) = true := by
        rw [List.all_eq_true]
        intro d hd
        have hspace := (hzone.printable d hd).1
        have hne : d ≠ '\n' ∧ d ≠ '\r' ∧ d ≠ '\u2028' ∧ d ≠ '\u2029' := by
          refine ⟨?_, ?_, ?_, ?_⟩ <;> rintro rfl <;> cases hspace
        simp [hne]
      rw [List.nil_append, dropZone, hline]
      rfl
  | cons c cs ih =>
      have hc : (c == '%') = false := by
        rw [beq_eq_false_iff_ne]
        rintro rfl
        simp at h
      have hcs : '%' ∉ cs := fun hmem => h (List.mem_cons_of_mem _ hmem)
      simp only [List.cons_append, dropZone, hc, Bool.false_and, Bool.false_eq_true, if_false,
        ih hcs]

theorem isReservedIp_scoped (h : Scoped text words) (hreserved : Reserved6 words) :
    isReservedIp text = true := by
  refine isReservedIp_reads h.has_colon ?_ h.address hreserved
  cases h with
  | bare hread =>
      rw [dropZone_free hread.no_zone]
      exact matchesIPv6Body_rfc4291 hread
  | zone hread hzone =>
      rw [dropZone_zone hread.no_zone hzone]
      exact matchesIPv6Body_rfc4291 hread

end Parse

/-! ## The tables -/

theorem block4_of_text {cidr : String} {text : List Char} {len : Nat}
    (hcidr : cidr.toList = text ++ '/' :: Nat.toDigits 10 len) (htext : matchesIPv4 text = true)
    (hlen : len ≤ 32) : ∃ net, Block4 cidr net len :=
  ⟨_, text, hcidr, dottedQuad_of_matches htext, hlen⟩

/-- Every entry of the IPv4 table is a block. -/
theorem ipv4_blocks : ∀ cidr ∈ rfc6890Ipv4Reserved, ∃ net len, Block4 cidr net len := by
  have hentries : ∀ cidr ∈ rfc6890Ipv4Reserved, ∃ len ≤ 32,
      cidr.toList = cidr.toList.takeWhile (· != '/') ++ '/' :: Nat.toDigits 10 len ∧
        matchesIPv4 (cidr.toList.takeWhile (· != '/')) = true := by decide +kernel
  intro cidr hcidr
  obtain ⟨len, hlen, htext, hmatches⟩ := hentries cidr hcidr
  obtain ⟨net, hnet⟩ := block4_of_text htext hmatches hlen
  exact ⟨net, len, hnet⟩

/-- The groups on the two sides of a `::`. -/
def sides (text : List Char) : List (List Char) × List (List Char) :=
  match cutPair text with
  | none => ([], [])
  | some (before, after) =>
      ((before.splitOn ':').filter (· ≠ []), (after.splitOn ':').filter (· ≠ []))

def isGroup (g : List Char) : Bool :=
  decide (1 ≤ g.length) && decide (g.length ≤ 4) && g.all isHex

theorem groups_of_isGroup {gs : List (List Char)} (h : gs.all isGroup = true) :
    List.Forall₂ Group gs (gs.map hexValue) := by
  rw [List.forall₂_map_right_iff, List.forall₂_same]
  intro g hg
  have hgroup := List.all_eq_true.mp h g hg
  simp only [isGroup, Bool.and_eq_true, decide_eq_true_eq] at hgroup
  exact ⟨hgroup.1.1, hgroup.1.2, hgroup.2, rfl⟩

/-- Every entry of the IPv6 table is a block. -/
theorem ipv6_blocks : ∀ cidr ∈ rfc6890Ipv6Reserved, ∃ net len, Block6 cidr net len := by
  have hentries : ∀ cidr ∈ rfc6890Ipv6Reserved, ∃ len ≤ 128,
      let cut := sides (cidr.toList.takeWhile (· != '/'))
      cidr.toList = join ':' cut.1 ++ ':' :: ':' :: join ':' cut.2 ++ '/' :: Nat.toDigits 10 len ∧
        cut.1.all isGroup = true ∧ cut.2.all isGroup = true ∧ cut.1.length + cut.2.length ≤ 7 := by
    decide +kernel
  intro cidr hcidr
  obtain ⟨len, hlen, htext, hhead, htail, hcount⟩ := hentries cidr hcidr
  have hread := Rfc4291.compressed (groups_of_isGroup hhead)
    (Words.of_forall₂ (groups_of_isGroup htail)) (by simpa using hcount)
  exact ⟨_, len, _, htext, hread, hlen⟩

end SaasFoundation.Foundation.Net
