import SaasFoundation.Foundation.Net.Reserved

/-!
# Partial anonymisation

`anonymizeIpPartial` of `derive.ts`. The last byte of a dotted quad is zeroed;
of an IPv6 text the first four groups are kept, and they are found in the text
itself: eight zeros are written for a `::`, however many groups it stands for.
-/

namespace SaasFoundation.Foundation.Net

open Lib Lib.Text Lib.Addresses

/-- The groups after a `::` is replaced by eight zeros. -/
def expandedGroups (before after : List Char) : List (List Char) :=
  ((before ++ ":0:0:0:0:0:0:0:0:".toList ++ after).splitOn ':').filter (· ≠ [])

def anonymizeIpPartial (ip : List Char) : List Char :=
  if ip.isEmpty then ip
  else if matchesIPv4 ip then join '.' ((ip.splitOn '.').take 3 ++ [['0']])
  else
    let addr := ip.takeWhile (· != '%')
    match cutPair addr with
    | some (before, after) =>
        let parts := expandedGroups before after
        if 4 ≤ parts.length then join ':' (parts.take 4) ++ [':', ':'] else addr ++ [':', ':']
    | none =>
        let parts := addr.splitOn ':'
        -- a text that is not understood is returned as it is
        if parts.length = 8 then join ':' (parts.take 4) ++ [':', ':'] else ip

/-! ## IPv4 -/

/-- The last byte is zeroed. -/
theorem anonymizeIpPartial_quad {ip : List Char} {bytes : List Nat} (h : DottedQuad ip bytes) :
    DottedQuad (anonymizeIpPartial ip) (bytes.take 3 ++ [0]) := by
  have hne : ip.isEmpty = false := by
    cases ip with
    | nil => cases h.has_dot
    | cons c cs => rfl
  obtain ⟨hoctets, hlength⟩ := h.split
  have hzero : Octet ['0'] 0 := octet_of_matches (by decide)
  simp only [anonymizeIpPartial, hne, Bool.false_eq_true, if_false, matches_of_dottedQuad h,
    if_true]
  refine ⟨_, rfl, ?_, by simp [hlength]⟩
  exact List.rel_append (List.forall₂_take 3 hoctets) (.cons hzero .nil)

/-! ## IPv6 -/

section IPv6

variable {ip : List Char} {words words' hw ws : List Nat} {gs hs ts : List (List Char)}

/-- The address with its last 64 bits zeroed. -/
def maskedWords (words : List Nat) : List Nat := words.take 4 ++ List.replicate 4 0

/-- The groups before the `::`. -/
def leadingGroups (before : List Char) : List (List Char) :=
  (before.splitOn ':').filter (· ≠ [])

/-- A dotted tail hides nothing but zeros, and the `::` of a compressed text
is followed by no word of the first four but zeros. -/
def keepsNetwork (ip : List Char) (words : List Nat) : Bool :=
  let addr := ip.takeWhile (· != '%')
  match cutPair addr with
  | none => !addr.contains '.' || words.drop 4 == List.replicate 4 0
  | some (before, _) =>
      (List.range 4).all fun i => decide (i < (leadingGroups before).length) || words.getD i 0 == 0

theorem bytesOf_inj (h : bytesOf words = bytesOf words') : words = words' := by
  induction words generalizing words' with
  | nil =>
      cases words' with
      | nil => rfl
      | cons w' words' => cases h
  | cons w words ih =>
      cases words' with
      | nil => cases h
      | cons w' words' =>
          simp only [bytesOf, List.flatMap_cons, List.cons_append, List.nil_append,
            List.cons.injEq] at h
          obtain ⟨hhigh, hlow, hrest⟩ := h
          rw [show w = w' by omega, ih hrest]

/-- A text denotes one address. -/
theorem scoped_inj (h : Scoped ip words) (h' : Scoped ip words') : words = words' := by
  have hread := parseIPv6_address h.address
  rw [parseIPv6_address h'.address] at hread
  exact bytesOf_inj (Option.some.inj hread).symm

/-- Four groups before a `::`. -/
theorem network_text (h : List.Forall₂ Group gs ws) (hlength : 4 ≤ ws.length) :
    Rfc4291 (join ':' (gs.take 4) ++ [':', ':']) (maskedWords ws) := by
  have htake : (ws.take 4).length = 4 := by simp [hlength]
  have hread := Rfc4291.compressed (List.forall₂_take 4 h) Words.nil (by simp [htake])
  simpa [htake, maskedWords] using hread

theorem anonymizeIpPartial_colon (hcolon : ':' ∈ ip) : anonymizeIpPartial ip =
    match cutPair (ip.takeWhile (· != '%')) with
    | some (before, after) =>
        if 4 ≤ (expandedGroups before after).length then
          join ':' ((expandedGroups before after).take 4) ++ [':', ':']
        else ip.takeWhile (· != '%') ++ [':', ':']
    | none =>
        if ((ip.takeWhile (· != '%')).splitOn ':').length = 8 then
          join ':' (((ip.takeWhile (· != '%')).splitOn ':').take 4) ++ [':', ':']
        else ip := by
  have hne : ip.isEmpty = false := by
    cases ip with
    | nil => cases hcolon
    | cons c cs => rfl
  simp only [anonymizeIpPartial, hne, Bool.false_eq_true, if_false, matchesIPv4_colon hcolon]

/-- Eight zeros stand for the `::`. -/
theorem expandedGroups_join (hhead : Groups hs) (htail : Groups ts) :
    expandedGroups (join ':' hs) (join ':' ts) = hs ++ List.replicate 8 ['0'] ++ ts := by
  have hzeros : ":0:0:0:0:0:0:0:0:".toList =
      ':' :: (join ':' (List.replicate 8 ['0']) ++ [':']) := by decide
  have hgroups : Groups (List.replicate 8 ['0']) := by
    intro g hg
    rw [List.eq_of_mem_replicate hg]
    decide
  rw [expandedGroups, hzeros, List.append_assoc, List.cons_append, List.append_assoc,
    List.singleton_append, List.splitOn_append_cons_self, List.splitOn_append_cons_self,
    List.filter_append, List.filter_append, splitOn_filter_join hhead, splitOn_filter_join hgroups,
    splitOn_filter_join htail, List.append_assoc]

/-- Eight groups: the first four are the network. -/
theorem anonymize_full (hcolon : ':' ∈ ip) (haddr : ip.takeWhile (· != '%') = join ':' gs)
    (h : List.Forall₂ Group gs ws) (hlength : ws.length = 8) :
    anonymizeIpPartial ip = join ':' (gs.take 4) ++ [':', ':'] := by
  have hgroups := groups_of_forall₂ h
  have hgs : gs ≠ [] := by
    rintro rfl
    cases h
    cases hlength
  rw [anonymizeIpPartial_colon hcolon, haddr, cutPair_groups hgroups]
  simp only [splitOn_join (fun g hg => (hgroups g hg).2) hgs]
  rw [if_pos (h.length_eq.trans hlength)]

/-- Seven groups, the last of which is dotted: the text is not understood. -/
theorem anonymize_dotted (hcolon : ':' ∈ ip) (haddr : ip.takeWhile (· != '%') = join ':' gs)
    (hgroups : Groups gs) (hlength : gs.length = 7) : anonymizeIpPartial ip = ip := by
  have hgs : gs ≠ [] := by
    rintro rfl
    cases hlength
  rw [anonymizeIpPartial_colon hcolon, haddr, cutPair_groups hgroups]
  simp only [splitOn_join (fun g hg => (hgroups g hg).2) hgs]
  rw [if_neg (by omega)]

/-- The groups before the `::`, and zeros up to the fourth. -/
theorem anonymize_compressed (hcolon : ':' ∈ ip)
    (haddr : ip.takeWhile (· != '%') = join ':' hs ++ ':' :: ':' :: join ':' ts)
    (hhead : Groups hs) (htail : Groups ts) :
    anonymizeIpPartial ip =
      join ':' ((hs ++ List.replicate 8 ['0']).take 4) ++ [':', ':'] := by
  rw [anonymizeIpPartial_colon hcolon, haddr, cutPair_between hhead]
  simp only [expandedGroups_join hhead htail]
  rw [if_pos (by simp; omega), List.take_append_of_le_length (by simp)]

/-- The first four words, zeros where the text had none before its `::`. -/
theorem take_eq_iff {words : List Nat} (hlength : words.length = 8)
    (hhead : ∀ i < hw.length, words.getD i 0 = hw.getD i 0) :
    (hw ++ List.replicate 8 0).take 4 = words.take 4 ↔
      ∀ i < 4, hw.length ≤ i → words.getD i 0 = 0 := by
  constructor
  · intro h i hi hout
    have hget := congrArg (fun l => l.getD i 0) h
    simp only [List.getD_eq_getElem?_getD, List.getElem?_take, hi, if_true] at hget ⊢
    rw [← hget, List.getElem?_append_right hout, List.getElem?_replicate, if_pos (by omega)]
    rfl
  · intro h
    refine List.ext_getElem (by simp; omega) fun i hi hi' => ?_
    have hi4 : i < 4 := by
      rw [List.length_take] at hi'
      omega
    have hi8 : i < words.length := by omega
    have hword : words[i] = words.getD i 0 := by simp [hi8]
    rw [List.getElem_take, List.getElem_take, hword]
    by_cases hin : i < hw.length
    · rw [hhead i hin, List.getElem_append_left hin]
      simp [hin]
    · rw [h i hi4 (by omega), List.getElem_append_right (by omega), List.getElem_replicate]

theorem maskedWords_eq_self (hlength : words.length = 8) :
    maskedWords words = words ↔ words.drop 4 = List.replicate 4 0 := by
  constructor
  · intro h
    have hdrop := congrArg (List.drop 4) h
    rw [maskedWords, List.drop_left' (by simp [hlength])] at hdrop
    exact hdrop.symm
  · intro h
    rw [maskedWords, ← h, List.take_append_drop]

theorem maskedWords_inj (hlength : 4 ≤ ws.length) (hlength' : 4 ≤ words.length) :
    maskedWords ws = maskedWords words ↔ ws.take 4 = words.take 4 := by
  constructor
  · intro h
    exact (List.append_inj h (by simp [hlength, hlength'])).1
  · intro h
    rw [maskedWords, h, maskedWords]

theorem forall₂_zeros (n : Nat) :
    List.Forall₂ Group (List.replicate n ['0']) (List.replicate n 0) := by
  have hzero : Group ['0'] 0 := ⟨by decide, by decide, by decide, by decide⟩
  induction n with
  | zero => exact .nil
  | succ n ih => exact .cons hzero ih

/-- Without a `::` only a dotted tail is in the way. -/
theorem scoped_full_iff (h : Scoped ip words) (haddr : ip.takeWhile (· != '%') = join ':' gs)
    (hwords : Words gs words) :
    Scoped (anonymizeIpPartial ip) (maskedWords words) ↔ keepsNetwork ip words = true := by
  have hcolon := h.has_colon
  have hlength := h.address.length
  have hkeeps : keepsNetwork ip words = true ↔
      ('.' ∈ join ':' gs → words.drop 4 = List.replicate 4 0) := by
    simp [keepsNetwork, haddr, cutPair_groups hwords.groups, ← imp_iff_not_or]
  rw [hkeeps]
  rcases hwords.cases with hplain | ⟨gs', quad, ws', a, b, c, d, rfl, hws, hplain, hquad⟩
  · have hdot : '.' ∉ join ':' gs := by
      intro hmem
      rcases mem_join hmem with hsep | ⟨g, hg, hmem⟩
      · cases hsep
      · obtain ⟨w, hw⟩ := (forall₂_mem hplain).1 g hg
        exact hw.not_mem (by decide) hmem
    rw [anonymize_full hcolon haddr hplain hlength]
    constructor
    · intro _ hmem
      exact absurd hmem hdot
    · intro _
      exact .bare (network_text hplain (by omega))
  · have hcount : gs'.length = 6 := by
      have := congrArg List.length hws
      rw [hplain.length_eq]
      simp at this
      omega
    have hdot : '.' ∈ join ':' (gs' ++ [quad]) := by
      rw [join_snoc (by rintro rfl; cases hcount)]
      simp [hquad.has_dot]
    rw [anonymize_dotted hcolon haddr hwords.groups (by simp [hcount])]
    constructor
    · intro hmasked _
      exact (maskedWords_eq_self hlength).mp (scoped_inj hmasked h)
    · intro hzeros
      rwa [(maskedWords_eq_self hlength).mpr (hzeros hdot)]

/-- With a `::` the words after it may be among the first four. -/
theorem scoped_compressed_iff {tw : List Nat} (hcolon : ':' ∈ ip)
    (haddr : ip.takeWhile (· != '%') = join ':' hs ++ ':' :: ':' :: join ':' ts)
    (hhead : List.Forall₂ Group hs hw) (htail : Words ts tw)
    (hwords : words = hw ++ List.replicate (8 - hw.length - tw.length) 0 ++ tw)
    (hlength : words.length = 8) :
    Scoped (anonymizeIpPartial ip) (maskedWords words) ↔ keepsNetwork ip words = true := by
  have hgroups := groups_of_forall₂ hhead
  have hkeeps : keepsNetwork ip words = true ↔
      ∀ i < 4, hw.length ≤ i → words.getD i 0 = 0 := by
    simp only [keepsNetwork, haddr, cutPair_between hgroups, leadingGroups,
      splitOn_filter_join hgroups, hhead.length_eq, List.all_eq_true, List.mem_range,
      Bool.or_eq_true, decide_eq_true_eq, beq_iff_eq]
    refine forall₂_congr fun i _ => ?_
    rw [← not_le, ← imp_iff_not_or]
  have hsame : ∀ i < hw.length, words.getD i 0 = hw.getD i 0 := by
    intro i hi
    rw [hwords, List.append_assoc, List.getD_eq_getElem?_getD, List.getElem?_append_left hi,
      List.getD_eq_getElem?_getD]
  have hread := network_text (List.rel_append hhead (forall₂_zeros 8)) (by simp)
  rw [hkeeps, ← take_eq_iff hlength hsame, ← maskedWords_inj (by simp) (by omega),
    anonymize_compressed hcolon haddr hgroups htail.groups]
  constructor
  · intro hmasked
    exact scoped_inj (.bare hread) hmasked
  · intro hmasked
    rw [← hmasked]
    exact .bare hread

/-- An IPv6 text is anonymised as it should be if the network can be read in
its first four groups. -/
theorem anonymizeIpPartial_scoped (h : Scoped ip words) :
    Scoped (anonymizeIpPartial ip) (maskedWords words) ↔ keepsNetwork ip words = true := by
  have haddress := h.address
  generalize haddr : ip.takeWhile (· != '%') = addr at haddress
  cases haddress with
  | full hwords _ => exact scoped_full_iff h haddr hwords
  | compressed hhead htail _ =>
      exact scoped_compressed_iff h.has_colon haddr hhead htail rfl h.address.length

end IPv6

/-! ## Two runs -/

/-- Two dotted quads with the same first three bytes give one network, and so
do two IPv6 texts with the same first four words, if in each of them the
network can be read in the first four groups. -/
theorem anonymizeIpPartial_hides_iff (ip ip' : List Char) (address address' : List Nat) :
    (DottedQuad ip address → DottedQuad ip' address' → address.take 3 = address'.take 3 →
      ∃ network, network = address.take 3 ++ [0] ∧
        DottedQuad (anonymizeIpPartial ip) network ∧
        DottedQuad (anonymizeIpPartial ip') network) ∧
      (Scoped ip address → Scoped ip' address' → address.take 4 = address'.take 4 →
        ((∃ network, network = maskedWords address ∧ Scoped (anonymizeIpPartial ip) network ∧
          Scoped (anonymizeIpPartial ip') network) ↔
            keepsNetwork ip address = true ∧ keepsNetwork ip' address' = true)) := by
  constructor
  · intro h h' hsame
    have hlast := anonymizeIpPartial_quad h'
    rw [← hsame] at hlast
    exact ⟨_, rfl, anonymizeIpPartial_quad h, hlast⟩
  · intro h h' hsame
    have hmasked : maskedWords address = maskedWords address' := by
      rw [maskedWords, hsame, maskedWords]
    rw [← anonymizeIpPartial_scoped h, ← anonymizeIpPartial_scoped h', ← hmasked]
    constructor
    · rintro ⟨network, rfl, hkept, hkept'⟩
      exact ⟨hkept, hkept'⟩
    · rintro ⟨hkept, hkept'⟩
      exact ⟨_, rfl, hkept, hkept'⟩

/-- Six groups and a dotted quad. -/
theorem scoped_dotted {gs : List (List Char)} {quad : List Char} {a b c d : Nat}
    (hgs : gs.all isGroup = true) (hlength : gs.length = 6) (hquad : DottedQuad quad [a, b, c, d]) :
    Scoped (join ':' (gs ++ [quad])) (gs.map hexValue ++ [256 * a + b, 256 * c + d]) :=
  .bare (.full (Words.snoc (groups_of_isGroup hgs) hquad) (by simp [hlength]))

/-- Groups before and after a `::`. -/
theorem scoped_groups (hs ts : List (List Char)) (hhead : hs.all isGroup = true)
    (htail : ts.all isGroup = true) (hcount : hs.length + ts.length ≤ 7) :
    Scoped (join ':' hs ++ ':' :: ':' :: join ':' ts)
      (hs.map hexValue ++
        List.replicate (8 - (hs.map hexValue).length - (ts.map hexValue).length) 0 ++
        ts.map hexValue) :=
  .bare (.compressed (groups_of_isGroup hhead) (Words.of_forall₂ (groups_of_isGroup htail))
    (by simpa using hcount))

/-- The groups of a text. -/
abbrev texts (groups : List String) : List (List Char) := groups.map String.toList

theorem anonymizeIpPartial_hides_network :
    (∃ network, DottedQuad (anonymizeIpPartial "192.168.1.42".toList) network ∧
      DottedQuad (anonymizeIpPartial "192.168.1.77".toList) network) ∧
      ∃ network, Scoped (anonymizeIpPartial "2001:db8:1:2:abcd::1".toList) network ∧
        Scoped (anonymizeIpPartial "2001:db8:1:2::7".toList) network := by
  constructor
  · have hmatches : matchesIPv4 "192.168.1.42".toList = true := by decide
    have hmatches' : matchesIPv4 "192.168.1.77".toList = true := by decide
    obtain ⟨network, -, hread, hread'⟩ := (anonymizeIpPartial_hides_iff _ _ _ _).1
      (dottedQuad_of_matches hmatches) (dottedQuad_of_matches hmatches') (by decide)
    exact ⟨network, hread, hread'⟩
  · have h := scoped_groups (texts ["2001", "db8", "1", "2", "abcd"]) (texts ["1"]) (by decide)
      (by decide) (by decide)
    have h' := scoped_groups (texts ["2001", "db8", "1", "2"]) (texts ["7"]) (by decide)
      (by decide) (by decide)
    obtain ⟨network, -, hread, hread'⟩ :=
      ((anonymizeIpPartial_hides_iff _ _ _ _).2 h h' (by decide)).mpr (by decide +kernel)
    exact ⟨network, hread, hread'⟩

/-- A dotted tail is left where it is, and a word behind a `::` is lost. -/
theorem anonymizeIpPartial_leaks :
    (∃ address address', Scoped "2001:db8:1:2:3:4:192.0.2.33".toList address ∧
      Scoped "2001:db8:1:2:3:4:192.0.2.34".toList address' ∧ address.take 4 = address'.take 4 ∧
      ¬ ∃ network, Scoped (anonymizeIpPartial "2001:db8:1:2:3:4:192.0.2.33".toList) network ∧
        Scoped (anonymizeIpPartial "2001:db8:1:2:3:4:192.0.2.34".toList) network) ∧
      ∃ address, Scoped "2001:db8::1:2:3:4:5".toList address ∧
        ¬ Scoped (anonymizeIpPartial "2001:db8::1:2:3:4:5".toList) (maskedWords address) := by
  constructor
  · have hgroups : (texts ["2001", "db8", "1", "2", "3", "4"]).all isGroup = true := by decide
    have hmatches : matchesIPv4 "192.0.2.33".toList = true := by decide
    have hmatches' : matchesIPv4 "192.0.2.34".toList = true := by decide
    have hquad : DottedQuad "192.0.2.33".toList [192, 0, 2, 33] := dottedQuad_of_matches hmatches
    have hquad' : DottedQuad "192.0.2.34".toList [192, 0, 2, 34] := dottedQuad_of_matches hmatches'
    have h := scoped_dotted hgroups rfl hquad
    have h' := scoped_dotted hgroups rfl hquad'
    refine ⟨_, _, h, h', by decide, ?_⟩
    have hsame : anonymizeIpPartial "2001:db8:1:2:3:4:192.0.2.33".toList =
        "2001:db8:1:2:3:4:192.0.2.33".toList := by decide +kernel
    have hsame' : anonymizeIpPartial "2001:db8:1:2:3:4:192.0.2.34".toList =
        "2001:db8:1:2:3:4:192.0.2.34".toList := by decide +kernel
    rw [hsame, hsame']
    rintro ⟨network, hread, hread'⟩
    have hfirst := scoped_inj hread h
    rw [scoped_inj hread' h'] at hfirst
    exact absurd hfirst (by decide)
  · have h := scoped_groups (texts ["2001", "db8"]) (texts ["1", "2", "3", "4", "5"]) (by decide)
      (by decide) (by decide)
    refine ⟨_, h, fun hmasked => ?_⟩
    have hkept := (anonymizeIpPartial_scoped h).mp hmasked
    exact absurd hkept (by decide +kernel)

end SaasFoundation.Foundation.Net
