import SaasFoundation.Foundation.Net.AnyText

/-!
# What `parseIPv6` takes

The texts that the parser reads as some address. Empty pieces between colons
are passed over where there is a `::`, which may then stand for no group at
all, or stand there twice; a dotted quad may have parts that are no octets.
-/

namespace SaasFoundation.Foundation.Net

open Lib Lib.Text Lib.Addresses

/-! ## Lenient texts -/

def IsGroup (g : List Char) : Prop := ∃ w, Group g w

/-- Four parts that `Number` reads as bytes. -/
def LooseQuad (toByte : List Char → Option Nat) (q : List Char) : Prop :=
  (q.splitOn '.').length = 4 ∧ ∀ part ∈ q.splitOn '.', (toByte part).isSome = true

/-- Groups, the last of which may be a loose quad; how many words they are. -/
inductive LooseGroups (toByte : List Char → Option Nat) : List (List Char) → Nat → Prop
  | plain {gs : List (List Char)} : (∀ g ∈ gs, IsGroup g) → LooseGroups toByte gs gs.length
  | quad {gs : List (List Char)} {q : List Char} : (∀ g ∈ gs, IsGroup g) → LooseQuad toByte q →
      LooseGroups toByte (gs ++ [q]) (gs.length + 2)

/-- The pieces between colons that are not empty. -/
def pieces (s : List Char) : List (List Char) := (s.splitOn ':').filter (· ≠ [])

/-- The pieces are eight words or, where there is a pair of colons, at most
eight; only then may pieces be empty. -/
inductive Lenient (toByte : List Char → Option Nat) (s : List Char) : Prop
  | full : ¬ HasPair s → LooseGroups toByte (s.splitOn ':') 8 → Lenient toByte s
  | paired {n : Nat} : HasPair s → LooseGroups toByte (pieces s) n → n ≤ 8 → Lenient toByte s

/-! ## The parser takes just these -/

section Accepts

variable {hi lo gs : List (List Char)} {quad : Option (List Nat)} {g q : List Char}

theorem isGroup_iff : IsGroup g ↔ (writeGroup g).isSome = true := by
  constructor
  · rintro ⟨w, hw⟩
    rw [writeGroup_group hw]
    rfl
  · intro h
    unfold writeGroup at h
    split at h
    · rename_i hchars
      simp only [Bool.and_eq_true, decide_eq_true_eq] at hchars
      exact ⟨hexValue g, hchars.1.1, hchars.1.2, hchars.2, rfl⟩
    · cases h

theorem IsGroup.no_dot (h : IsGroup g) : '.' ∉ g := by
  obtain ⟨w, hw⟩ := h
  exact hw.not_mem (by decide)

theorem groups_exist (h : ∀ g ∈ gs, IsGroup g) : ∃ ws, List.Forall₂ Group gs ws := by
  induction gs with
  | nil => exact ⟨[], .nil⟩
  | cons g gs ih =>
      obtain ⟨w, hw⟩ := h g (by simp)
      obtain ⟨ws, hws⟩ := ih fun g hg => h g (List.mem_cons_of_mem _ hg)
      exact ⟨w :: ws, .cons hw hws⟩

/-- Bytes are put together from groups only. -/
theorem groups_of_mapM {bytes : List (List Nat)} (h : gs.mapM writeGroup = some bytes) :
    ∀ g ∈ gs, IsGroup g := by
  intro g hg
  obtain ⟨b, hb⟩ := (forall₂_mem (mapM_forall₂ h)).1 g hg
  rw [isGroup_iff, hb]
  rfl

/-- The words that a quad is. -/
def quadWords (quad : Option (List Nat)) : Nat := if quad.isSome then 2 else 0

theorem quadWords_bytes (hquad : ∀ bytes, quad = some bytes → bytes.length = 4) :
    (quad.getD []).length = 2 * quadWords quad := by
  cases quad with
  | none => rfl
  | some bytes => exact hquad bytes rfl

/-- The bytes that are written, with so many words of zeros in between. -/
def written (hi lo : List (List Char)) (quad : Option (List Nat)) (filler : Nat) :
    Option (List Nat) := do
  let high ← hi.mapM writeGroup
  let low ← lo.mapM writeGroup
  let bytes := high.flatten ++ List.replicate (2 * filler) 0 ++ low.flatten ++ quad.getD []
  if bytes.length ≠ 16 then none else some bytes

theorem assemble_true : assemble true hi lo quad =
    if 8 < hi.length + lo.length + quadWords quad then none
    else written hi lo quad (8 - hi.length - lo.length - quadWords quad) := by
  unfold assemble written
  simp only [Bool.not_true, Bool.false_and, Bool.false_eq_true, if_false, if_true]
  change (if (8 : ℤ) - hi.length - lo.length - (quadWords quad : Nat) < 0 then _ else _) = _
  by_cases hcount : 8 < hi.length + lo.length + quadWords quad
  · rw [if_pos hcount, if_pos (by omega)]
  · have hfiller : ((8 : ℤ) - hi.length - lo.length - (quadWords quad : Nat)).toNat =
        8 - hi.length - lo.length - quadWords quad := by omega
    rw [if_neg hcount, if_neg (by omega)]
    simp only [← hfiller]
    rfl

theorem assemble_false : assemble false hi lo quad =
    if hi.length + quadWords quad ≠ 8 then none else written hi lo quad 0 := by
  unfold assemble written
  change (if (hi.length + quadWords quad != 8) = true then none else _) = _
  by_cases hcount : hi.length + quadWords quad = 8
  · simp [hcount]
  · simp [hcount]

theorem flatten_length {ws : List Nat} :
    (ws.map fun w => [w / 256, w % 256]).flatten.length = 2 * ws.length := by
  have h := bytesOf_length ws
  rwa [bytesOf, List.flatMap_def] at h

theorem written_isSome (hquad : ∀ bytes, quad = some bytes → bytes.length = 4) {filler : Nat}
    (hcount : hi.length + filler + lo.length + quadWords quad = 8) :
    (written hi lo quad filler).isSome = true ↔ ∀ g ∈ hi ++ lo, IsGroup g := by
  have hfour := quadWords_bytes hquad
  constructor
  · intro h g hg
    obtain ⟨bytes, hbytes⟩ := Option.isSome_iff_exists.mp h
    obtain ⟨high, hhigh, hrest⟩ := Option.bind_eq_some_iff.mp hbytes
    obtain ⟨low, hlow, -⟩ := Option.bind_eq_some_iff.mp hrest
    rcases List.mem_append.mp hg with hg | hg
    · exact groups_of_mapM hhigh g hg
    · exact groups_of_mapM hlow g hg
  · intro hgroups
    obtain ⟨hw, hhw⟩ := groups_exist fun g hg => hgroups g (List.mem_append_left _ hg)
    obtain ⟨lw, hlw⟩ := groups_exist fun g hg => hgroups g (List.mem_append_right _ hg)
    have hlength : ((hw.map fun w => [w / 256, w % 256]).flatten ++ List.replicate (2 * filler) 0 ++
        (lw.map fun w => [w / 256, w % 256]).flatten ++ quad.getD []).length = 16 := by
      rw [List.length_append, List.length_append, List.length_append, flatten_length,
        flatten_length, List.length_replicate, hfour, ← hhw.length_eq, ← hlw.length_eq]
      omega
    unfold written
    simp only [mapM_writeGroup hhw, mapM_writeGroup hlw, Option.bind_eq_bind, Option.bind_some,
      hlength, ne_eq, not_true_eq_false, if_false, Option.isSome_some]

theorem assemble_isSome {compressed : Bool} (hlo : compressed = false → lo = [])
    (hquad : ∀ bytes, quad = some bytes → bytes.length = 4) :
    (assemble compressed hi lo quad).isSome = true ↔ (∀ g ∈ hi ++ lo, IsGroup g) ∧
      if compressed then (hi ++ lo).length + quadWords quad ≤ 8
      else (hi ++ lo).length + quadWords quad = 8 := by
  rw [List.length_append]
  cases compressed with
  | true =>
      rw [assemble_true, if_pos rfl]
      by_cases hcount : 8 < hi.length + lo.length + quadWords quad
      · rw [if_pos hcount]
        simp [hcount]
      · rw [if_neg hcount, written_isSome hquad (by omega)]
        exact ⟨fun h => ⟨h, by omega⟩, fun h => h.1⟩
  | false =>
      obtain rfl := hlo rfl
      rw [assemble_false, if_neg Bool.false_ne_true]
      by_cases hcount : hi.length + quadWords quad = 8
      · rw [if_neg (by simp [hcount]), written_isSome hquad (by simpa using hcount)]
        exact ⟨fun h => ⟨h, by simpa using hcount⟩, fun h => h.1⟩
      · rw [if_pos hcount]
        simp [hcount]

variable {toByte : List Char → Option Nat}

theorem LooseQuad.has_dot (h : LooseQuad toByte q) : '.' ∈ q := by
  by_contra hdot
  have hfour := h.1
  rw [List.splitOn_eq_singleton hdot] at hfour
  cases hfour

theorem mapM_isSome {parts : List (List Char)} : (parts.mapM toByte).isSome = true ↔
    ∀ part ∈ parts, (toByte part).isSome = true := by
  induction parts with
  | nil => simp
  | cons part parts ih =>
      rw [List.mapM_cons, List.forall_mem_cons, ← ih]
      cases toByte part with
      | none => simp
      | some b => cases parts.mapM toByte <;> simp

theorem ipv4Bytes_isSome :
    (AnyText.ipv4Bytes toByte q).isSome = true ↔ LooseQuad toByte q := by
  unfold AnyText.ipv4Bytes LooseQuad
  by_cases hfour : (q.splitOn '.').length = 4
  · simp only [hfour, ne_eq, not_true_eq_false, if_false, true_and]
    exact mapM_isSome
  · simp [hfour]

theorem ipv4Bytes_length {bytes : List Nat} (h : AnyText.ipv4Bytes toByte q = some bytes) :
    bytes.length = 4 := by
  unfold AnyText.ipv4Bytes at h
  by_cases hfour : (q.splitOn '.').length = 4
  · simp only [hfour, ne_eq, not_true_eq_false, if_false] at h
    rw [← (mapM_forall₂ h).length_eq, hfour]
  · simp [hfour] at h

/-- The dotted group is the last of all, and only it is taken away. -/
theorem dropQuad_last (hlast : (hi ++ lo).getLast? = some q) (hdot : '.' ∈ q) :
    (dropQuad hi lo).1 ++ (dropQuad hi lo).2 ++ [q] = hi ++ lo ∧
      (lo = [] → (dropQuad hi lo).2 = []) := by
  rcases List.eq_nil_or_concat lo with rfl | ⟨lo', x, rfl⟩
  · rw [List.append_nil] at hlast
    obtain ⟨front, rfl⟩ := List.getLast?_eq_some_iff.mp hlast
    simp [dropQuad, hdot]
  · rw [List.concat_eq_append, ← List.append_assoc, List.getLast?_concat] at hlast
    obtain rfl := Option.some.inj hlast
    simp [dropQuad, hdot]

/-- With a dotted last group, the others are plain. -/
theorem looseGroups_dotted {n : Nat} (hdot : '.' ∈ q) : LooseGroups toByte (gs ++ [q]) n ↔
    (∀ g ∈ gs, IsGroup g) ∧ LooseQuad toByte q ∧ n = gs.length + 2 := by
  constructor
  · intro h
    generalize hall : gs ++ [q] = all at h
    cases h with
    | plain hplain =>
        rw [← hall] at hplain
        exact absurd hdot (hplain q (by simp)).no_dot
    | quad hplain hquad =>
        obtain ⟨rfl, hq⟩ := List.append_inj' hall rfl
        obtain rfl := List.singleton_inj.mp hq
        exact ⟨hplain, hquad, rfl⟩
  · rintro ⟨hplain, hquad, rfl⟩
    exact .quad hplain hquad

/-- Without one, all are. -/
theorem looseGroups_plain {n : Nat} (hdot : ∀ q, gs.getLast? = some q → '.' ∉ q) :
    LooseGroups toByte gs n ↔ (∀ g ∈ gs, IsGroup g) ∧ n = gs.length := by
  constructor
  · intro h
    cases h with
    | plain hplain => exact ⟨hplain, rfl⟩
    | quad hplain hquad => exact absurd hquad.has_dot (hdot _ List.getLast?_concat)
  · rintro ⟨hplain, rfl⟩
    exact .plain hplain

theorem parseGroups_isSome {compressed : Bool} (hlo : compressed = false → lo = []) :
    (AnyText.parseGroups toByte compressed hi lo).isSome = true ↔
      ∃ n, LooseGroups toByte (hi ++ lo) n ∧ if compressed then n ≤ 8 else n = 8 := by
  have hplain (hdot : ∀ q, (hi ++ lo).getLast? = some q → '.' ∉ q) :
      (assemble compressed hi lo none).isSome = true ↔
        ∃ n, LooseGroups toByte (hi ++ lo) n ∧ if compressed then n ≤ 8 else n = 8 := by
    have hnone : ∀ bytes : List Nat, none = some bytes → bytes.length = 4 := by
      intro bytes h
      cases h
    rw [assemble_isSome hlo hnone]
    simp only [looseGroups_plain hdot]
    constructor
    · rintro ⟨hgroups, hcount⟩
      exact ⟨_, ⟨hgroups, rfl⟩, hcount⟩
    · rintro ⟨n, ⟨hgroups, rfl⟩, hcount⟩
      exact ⟨hgroups, hcount⟩
  unfold AnyText.parseGroups
  cases hlast : (hi ++ lo).getLast? with
  | none =>
      refine hplain ?_
      rw [hlast]
      intro q h
      cases h
  | some q =>
      by_cases hdot : '.' ∈ q
      · obtain ⟨hsplit, hnil⟩ := dropQuad_last hlast hdot
        simp only [List.contains_iff_mem.mpr hdot, if_true, ← hsplit, looseGroups_dotted hdot]
        cases hbytes : AnyText.ipv4Bytes toByte q with
        | none =>
            have hquad : ¬ LooseQuad toByte q := by
              rw [← ipv4Bytes_isSome, hbytes]
              decide
            simp [hquad]
        | some bytes =>
            have hquad : LooseQuad toByte q := by
              rw [← ipv4Bytes_isSome, hbytes]
              rfl
            have hfour : ∀ bytes', some bytes = some bytes' → bytes'.length = 4 := by
              intro bytes' h
              cases h
              exact ipv4Bytes_length hbytes
            rw [Option.bind_some, assemble_isSome (fun h => hnil (hlo h)) hfour]
            constructor
            · rintro ⟨hgroups, hcount⟩
              exact ⟨_, ⟨hgroups, hquad, rfl⟩, hcount⟩
            · rintro ⟨n, ⟨hgroups, -, rfl⟩, hcount⟩
              exact ⟨hgroups, hcount⟩
      · have hcontains : q.contains '.' = false := by simpa using hdot
        simp only [hcontains, Bool.false_eq_true, if_false]
        refine hplain ?_
        rw [hlast]
        intro q' h
        cases h
        exact hdot

/-- The parser takes the lenient texts and no others. -/
theorem parseIPv6_isSome {s : List Char} (hzone : '%' ∉ s) :
    (AnyText.parseIPv6 toByte s).isSome = true ↔ Lenient toByte s := by
  cases hcut : cutPair s with
  | none =>
      have hnone := cutPair_none_iff.mp hcut
      have hparse : AnyText.parseIPv6 toByte s =
          AnyText.parseGroups toByte false (s.splitOn ':') [] := by
        simp only [AnyText.parseIPv6, takeWhile_free hzone, hcut]
      rw [hparse, parseGroups_isSome (fun _ => rfl), List.append_nil]
      simp only [Bool.false_eq_true, if_false]
      constructor
      · rintro ⟨n, hgroups, rfl⟩
        exact .full hnone hgroups
      · intro h
        cases h with
        | full _ hgroups => exact ⟨8, hgroups, rfl⟩
        | paired hpair _ _ => exact absurd hpair hnone
  | some cut =>
      obtain ⟨before, after⟩ := cut
      have hpair := hasPair_of_cut hcut
      have hpieces : pieces s = (before.splitOn ':').filter (· ≠ []) ++
          (after.splitOn ':').filter (· ≠ []) := by
        have hempty : (':' :: after).splitOn ':' = [] :: after.splitOn ':' :=
          List.splitOn_append_cons_self [] after
        rw [pieces, (cutPair_some hcut).1, List.splitOn_append_cons_self, hempty,
          List.filter_append, List.filter_cons]
        rfl
      have hparse : AnyText.parseIPv6 toByte s = AnyText.parseGroups toByte true
          ((before.splitOn ':').filter (· ≠ [])) ((after.splitOn ':').filter (· ≠ [])) := by
        simp only [AnyText.parseIPv6, takeWhile_free hzone, hcut]
      rw [hparse, parseGroups_isSome (fun h => by cases h), ← hpieces]
      simp only [if_true]
      constructor
      · rintro ⟨n, hgroups, hcount⟩
        exact .paired hpair hgroups hcount
      · intro h
        cases h with
        | full hnone _ => exact absurd hpair hnone
        | paired _ hgroups hcount => exact ⟨_, hgroups, hcount⟩

end Accepts

end SaasFoundation.Foundation.Net
