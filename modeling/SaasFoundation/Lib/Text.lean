import Mathlib.Data.List.Basic

/-!
# The string operations of the runtime

The ECMAScript and Node string functions that handlers call, on Unicode
scalar values. `length` counts UTF-16 code units, as the language does;
white space is the language's own set, not Lean's.
-/

namespace SaasFoundation.Lib.Text

/-- Whether all characters of a text have a property: the text is gone
through, not the alphabet. -/
instance (priority := high) decidableForallMem (s : List Char) (p : Char → Prop) [DecidablePred p] :
    Decidable (∀ c ∈ s, p c) := List.decidableBAll p s

/-- `s.length`: a character outside the basic plane counts twice. -/
def jsLength (s : String) : Nat :=
  s.toList.foldl (fun n c => n + if c.toNat < 0x10000 then 1 else 2) 0

/-- In the basic plane every character counts once. -/
theorem jsLength_basic {s : List Char} (h : ∀ c ∈ s, c.toNat < 0x10000) :
    jsLength (String.ofList s) = s.length := by
  have hfold : ∀ n, s.foldl (fun n c => n + if c.toNat < 0x10000 then 1 else 2) n =
      n + s.length := by
    induction s with
    | nil => simp
    | cons c cs ih =>
        intro n
        have hc : c.toNat < 0x10000 := h c List.mem_cons_self
        rw [List.foldl_cons, if_pos hc, ih fun d hd => h d (List.mem_cons_of_mem _ hd),
          List.length_cons]
        omega
  rw [jsLength, String.toList_ofList, hfold, Nat.zero_add]

/-- The UTF-16 code units of a string, which a pattern without the `u` flag
goes by. -/
def units (s : String) : List Nat :=
  s.toList.flatMap fun c =>
    let n := c.toNat
    if n < 0x10000 then [n] else [0xD800 + (n - 0x10000) / 0x400, 0xDC00 + (n - 0x10000) % 0x400]

/-- The characters of `\s`, which are also those that `trim` removes. -/
def isSpace (c : Char) : Bool :=
  let n := c.toNat
  (9 ≤ n && n ≤ 13) || n == 0x20 || n == 0xA0 || n == 0x1680
    || (0x2000 ≤ n && n ≤ 0x200A) || n == 0x2028 || n == 0x2029 || n == 0x202F
    || n == 0x205F || n == 0x3000 || n == 0xFEFF

/-- `\p{Cc}`: the C0 and C1 controls and DEL. -/
def isControl (c : Char) : Bool :=
  let n := c.toNat
  n < 0x20 || (0x7F ≤ n && n < 0xA0)

def trimStart (s : List Char) : List Char := s.dropWhile isSpace

def trim (s : List Char) : List Char := (trimStart (trimStart s).reverse).reverse

/-- `/^\d+$/`. -/
def isDigits (s : List Char) : Bool := !s.isEmpty && s.all Char.isDigit

/-- The number a run of decimal digits denotes. -/
def digitsValue (s : List Char) : Nat :=
  s.foldl (fun n c => 10 * n + (c.toNat - 48)) 0

/-- `Number.parseInt(s, 10)`: white space, a sign, and the longest run of
digits; `none` is `NaN`. -/
def parseInt (s : List Char) : Option Int :=
  let magnitude (t : List Char) : Option Int :=
    let ds := t.takeWhile Char.isDigit
    if ds.isEmpty then none else some (digitsValue ds)
  match trimStart s with
  | '-' :: t => (magnitude t).map Neg.neg
  | '+' :: t => magnitude t
  | t => magnitude t

/-- Two texts with a separator are equal if they are cut at the same place,
or if one is cut inside a part of the other. -/
theorem append_sep_eq_iff {α : Type} {s s' t t' : List α} {sep : α} :
    s ++ sep :: t = s' ++ sep :: t' ↔ s = s' ∧ t = t' ∨
      (∃ between, s = s' ++ sep :: between ∧ t' = between ++ sep :: t) ∨
      ∃ between, s' = s ++ sep :: between ∧ t = between ++ sep :: t' := by
  constructor
  · intro h
    rcases List.append_eq_append_iff.mp h with ⟨as, rfl, hsep⟩ | ⟨as, rfl, hsep⟩
    · cases as with
      | nil => exact .inl (by simpa using hsep)
      | cons a as =>
          obtain ⟨rfl, rfl⟩ := List.cons.inj hsep
          exact .inr (.inr ⟨as, rfl, rfl⟩)
    · cases as with
      | nil => exact .inl (by simpa using hsep.symm)
      | cons a as =>
          obtain ⟨rfl, rfl⟩ := List.cons.inj hsep
          exact .inr (.inl ⟨as, rfl, rfl⟩)
  · rintro (⟨rfl, rfl⟩ | ⟨between, rfl, rfl⟩ | ⟨between, rfl, rfl⟩)
    · rfl
    · simp
    · simp

/-- What stands between two cuts, as a string or as its characters. -/
theorem exists_between_iff {a b c d sep : String} {mark : Char} (hsep : sep.toList = [mark]) :
    (∃ between : String, a = c ++ sep ++ between ∧ d = between ++ sep ++ b) ↔
      ∃ between : List Char, a.toList = c.toList ++ mark :: between ∧
        d.toList = between ++ mark :: b.toList := by
  constructor
  · rintro ⟨between, rfl, rfl⟩
    exact ⟨between.toList, by simp [hsep], by simp [hsep]⟩
  · rintro ⟨between, hfront, hback⟩
    refine ⟨String.ofList between, ?_, ?_⟩
    · rw [← String.toList_inj, hfront]
      simp [hsep]
    · rw [← String.toList_inj, hback]
      simp [hsep]

/-- What stands before and after the last separator can be read back. -/
theorem append_sep_inj {α : Type} {s s' t t' : List α} {sep : α}
    (h : s ++ sep :: t = s' ++ sep :: t') (ht : sep ∉ t) (ht' : sep ∉ t') :
    s = s' ∧ t = t' := by
  rcases append_sep_eq_iff.mp h with hsame | ⟨between, -, rfl⟩ | ⟨between, -, rfl⟩
  · exact hsame
  · simp at ht'
  · simp at ht

/-- What stands before the first separator can be read back, and so can the
separator and the rest. -/
theorem append_first_sep_inj {α : Type} {S : α → Prop} {s s' t t' : List α} {sep sep' : α}
    (h : s ++ sep :: t = s' ++ sep' :: t') (hsep : S sep) (hsep' : S sep')
    (hs : ∀ c ∈ s, ¬ S c) (hs' : ∀ c ∈ s', ¬ S c) : s = s' ∧ sep = sep' ∧ t = t' := by
  induction s generalizing s' with
  | nil =>
      cases s' with
      | nil =>
          obtain ⟨rfl, rfl⟩ := List.cons.inj h
          exact ⟨rfl, rfl, rfl⟩
      | cons c s' =>
          obtain ⟨rfl, -⟩ := List.cons.inj h
          exact absurd hsep (hs' _ (by simp))
  | cons c s ih =>
      cases s' with
      | nil =>
          obtain ⟨rfl, -⟩ := List.cons.inj h
          exact absurd hsep' (hs _ (by simp))
      | cons c' s' =>
          obtain ⟨rfl, hrest⟩ := List.cons.inj h
          obtain ⟨rfl, hsame⟩ := ih hrest (fun c hc => hs c (by simp [hc]))
            (fun c hc => hs' c (by simp [hc]))
          exact ⟨rfl, hsame⟩

/-- `s.startsWith(front) ? s.slice(front.length) : s`. -/
def stripStart (front s : String) : String :=
  if front.toList.isPrefixOf s.toList then String.ofList (s.toList.drop front.toList.length) else s

theorem stripStart_append (front s : String) : stripStart front (front ++ s) = s := by
  have hfront : front.toList.isPrefixOf (front ++ s).toList = true := by
    rw [List.isPrefixOf_iff_prefix, String.toList_append]
    exact List.prefix_append _ _
  rw [stripStart, if_pos hfront, String.toList_append, List.drop_left, String.ofList_toList]

/-! ## Hexadecimal digests -/

/-- The value of a hexadecimal digit, of either case. -/
def hexVal (c : Char) : Option Nat :=
  if 48 ≤ c.toNat ∧ c.toNat ≤ 57 then some (c.toNat - 48)
  else if 97 ≤ c.toNat ∧ c.toNat ≤ 102 then some (c.toNat - 87)
  else if 65 ≤ c.toNat ∧ c.toNat ≤ 70 then some (c.toNat - 55)
  else none

/-- `Buffer.from(s, "hex")`: pairs of digits up to the first that is none,
a lone last digit is dropped. -/
def fromHex : List Char → List Nat
  | a :: b :: rest =>
      match hexVal a, hexVal b with
      | some x, some y => (16 * x + y) :: fromHex rest
      | _, _ => []
  | _ => []

/-- The digits `digest("hex")` writes. -/
def isLowerHex (c : Char) : Bool :=
  (48 ≤ c.toNat && c.toNat ≤ 57) || (97 ≤ c.toNat && c.toNat ≤ 102)

/-- The text of a 32-byte digest. -/
structure IsHexDigest (s : String) : Prop where
  length : s.toList.length = 64
  lower : ∀ c ∈ s.toList, isLowerHex c = true

instance (s : String) : Decidable (IsHexDigest s) :=
  decidable_of_iff (s.toList.length = 64 ∧ ∀ c ∈ s.toList, isLowerHex c = true)
    ⟨fun h => ⟨h.1, h.2⟩, fun h => ⟨h.length, h.lower⟩⟩

theorem hexVal_lower {c : Char} (h : isLowerHex c = true) :
    ∃ v, hexVal c = some v ∧ v < 16 ∧
      c.toNat = if v < 10 then v + 48 else v + 87 := by
  simp only [isLowerHex, Bool.or_eq_true, Bool.and_eq_true, decide_eq_true_eq] at h
  rcases h with ⟨h₁, h₂⟩ | ⟨h₁, h₂⟩
  · refine ⟨c.toNat - 48, ?_, by omega, ?_⟩
    · rw [hexVal, if_pos ⟨h₁, h₂⟩]
    · rw [if_pos (by omega)]
      omega
  · refine ⟨c.toNat - 87, ?_, by omega, ?_⟩
    · rw [hexVal, if_neg (by omega), if_pos ⟨h₁, h₂⟩]
    · rw [if_neg (by omega)]
      omega

theorem hexVal_inj {c d : Char} (hc : isLowerHex c = true) (hd : isLowerHex d = true)
    (h : hexVal c = hexVal d) : c = d := by
  obtain ⟨v, hv, -, hcv⟩ := hexVal_lower hc
  obtain ⟨w, hw, -, hdw⟩ := hexVal_lower hd
  rw [hv, hw] at h
  cases h
  exact Char.toNat_inj.mp (hcv.trans hdw.symm)

/-- Lower-case hex of even length decodes pair by pair, and to no other
text's bytes. -/
theorem fromHex_lower : ∀ (n : Nat) (s t : List Char), s.length = 2 * n →
    t.length = 2 * n → (∀ c ∈ s, isLowerHex c = true) → (∀ c ∈ t, isLowerHex c = true) →
    (fromHex s).length = n ∧ (fromHex s = fromHex t → s = t) := by
  intro n
  induction n with
  | zero =>
      intro s t hs ht _ _
      rw [List.eq_nil_of_length_eq_zero hs, List.eq_nil_of_length_eq_zero ht]
      exact ⟨rfl, fun _ => rfl⟩
  | succ n ih =>
      intro s t hs ht hls hlt
      match s, t, hs, ht with
      | a :: b :: s, c :: d :: t, hs, ht =>
        obtain ⟨ihlen, ihinj⟩ := ih s t (by simp at hs; omega) (by simp at ht; omega)
          (fun x hx => hls x (by simp [hx])) (fun x hx => hlt x (by simp [hx]))
        obtain ⟨va, ha, hva, -⟩ := hexVal_lower (hls a (by simp))
        obtain ⟨vb, hb, hvb, -⟩ := hexVal_lower (hls b (by simp))
        obtain ⟨vc, hc, hvc, -⟩ := hexVal_lower (hlt c (by simp))
        obtain ⟨vd, hd, hvd, -⟩ := hexVal_lower (hlt d (by simp))
        simp only [fromHex, ha, hb, hc, hd, List.length_cons, List.cons.injEq]
        refine ⟨by omega, fun ⟨hbyte, hrest⟩ => ⟨?_, ?_, ihinj hrest⟩⟩
        · refine hexVal_inj (hls a (by simp)) (hlt c (by simp)) ?_
          rw [ha, hc, show va = vc by omega]
        · refine hexVal_inj (hls b (by simp)) (hlt d (by simp)) ?_
          rw [hb, hd, show vb = vd by omega]

theorem IsHexDigest.fromHex_length {s : String} (h : IsHexDigest s) :
    (fromHex s.toList).length = 32 :=
  (fromHex_lower 32 s.toList s.toList h.length h.length h.lower h.lower).1

theorem isLowerHex_lt {c : Char} (h : isLowerHex c = true) : c.toNat < 0x10000 := by
  simp only [isLowerHex, Bool.or_eq_true, Bool.and_eq_true, decide_eq_true_eq] at h
  omega

theorem IsHexDigest.jsLength {s : String} (h : IsHexDigest s) : Text.jsLength s = 64 := by
  rw [← String.ofList_toList (s := s), jsLength_basic fun c hc => isLowerHex_lt (h.lower c hc),
    h.length]

/-- Two digests decode to the same bytes only if they are the same text. -/
theorem IsHexDigest.fromHex_inj {s t : String} (hs : IsHexDigest s) (ht : IsHexDigest t)
    (h : fromHex s.toList = fromHex t.toList) : s = t :=
  String.toList_inj.mp
    ((fromHex_lower 32 s.toList t.toList hs.length ht.length hs.lower ht.lower).2 h)

/-! ## Letters and digits of ASCII -/

theorem isUpper_iff {c : Char} : c.isUpper = true ↔ 65 ≤ c.toNat ∧ c.toNat ≤ 90 := by
  show decide ('A'.val ≤ c.val ∧ c.val ≤ 'Z'.val) = true ↔ _
  rw [decide_eq_true_iff, UInt32.le_iff_toNat_le, UInt32.le_iff_toNat_le]
  rfl

theorem isLower_iff {c : Char} : c.isLower = true ↔ 97 ≤ c.toNat ∧ c.toNat ≤ 122 := by
  show (decide ('a'.val ≤ c.val) && decide (c.val ≤ 'z'.val)) = true ↔ _
  rw [Bool.and_eq_true, decide_eq_true_iff, decide_eq_true_iff, UInt32.le_iff_toNat_le,
    UInt32.le_iff_toNat_le]
  rfl

theorem isDigit_iff {c : Char} : c.isDigit = true ↔ 48 ≤ c.toNat ∧ c.toNat ≤ 57 := by
  show (decide ('0'.val ≤ c.val) && decide (c.val ≤ '9'.val)) = true ↔ _
  rw [Bool.and_eq_true, decide_eq_true_iff, decide_eq_true_iff, UInt32.le_iff_toNat_le,
    UInt32.le_iff_toNat_le]
  rfl

theorem isAlphanum_iff {c : Char} : c.isAlphanum = true ↔ (65 ≤ c.toNat ∧ c.toNat ≤ 90) ∨
    (97 ≤ c.toNat ∧ c.toNat ≤ 122) ∨ (48 ≤ c.toNat ∧ c.toNat ≤ 57) := by
  show ((c.isUpper || c.isLower) || c.isDigit) = true ↔ _
  rw [Bool.or_eq_true, Bool.or_eq_true, isUpper_iff, isLower_iff, isDigit_iff, or_assoc]

theorem isDigit_toNat {c : Char} (h : c.isDigit = true) : 48 ≤ c.toNat ∧ c.toNat ≤ 57 :=
  isDigit_iff.mp h

theorem toLower_cases (c : Char) : (65 ≤ c.toNat ∧ c.toNat ≤ 90 ∧
    c.toLower.toNat = c.toNat + 32) ∨ (¬ (65 ≤ c.toNat ∧ c.toNat ≤ 90) ∧ c.toLower = c) := by
  by_cases hrange : 'A'.val ≤ c.val ∧ c.val ≤ 'Z'.val
  · have hlower : c.toLower = ⟨c.val + ('a'.val - 'A'.val), _⟩ := dif_pos hrange
    have hval : c.val + 32 = c.toLower.val := by
      rw [hlower]
      rfl
    rw [UInt32.le_iff_toNat_le, UInt32.le_iff_toNat_le] at hrange
    obtain ⟨hlow, hhigh⟩ : 65 ≤ c.toNat ∧ c.toNat ≤ 90 := hrange
    refine .inl ⟨hlow, hhigh, ?_⟩
    show c.toLower.val.toNat = c.val.toNat + 32
    have hnat : c.val.toNat = c.toNat := rfl
    rw [← hval, UInt32.toNat_add]
    simp
    omega
  · have hsame : c.toLower = c := dif_neg hrange
    rw [UInt32.le_iff_toNat_le, UInt32.le_iff_toNat_le] at hrange
    exact .inr ⟨hrange, hsame⟩

end SaasFoundation.Lib.Text
