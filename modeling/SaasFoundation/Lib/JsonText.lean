import Mathlib.Data.List.Basic
import SaasFoundation.Lib.JsObject
import SaasFoundation.Lib.Text

/-!
# JSON

`JSON.parse` and `JSON.stringify`, character by character. The numbers are
a parameter: what a literal denotes and how a number is written are not
looked into, and one that is not finite is written `null`. A lone surrogate,
which only an escape can bring in, is read as U+FFFD.

The reader takes the fuel it needs, one unit more than there are characters.
What was written is read back, if its objects have no name twice and its
numbers are such that their text denotes them.
-/

namespace SaasFoundation.Lib

/-- A parsed document. The properties of an object are in the order in which
they were made. -/
inductive JsonValue (N : Type) where
  | null
  | bool (b : Bool)
  | num (n : N)
  | str (s : String)
  | arr (xs : List (JsonValue N))
  | obj (fields : List (String × JsonValue N))

namespace JsonText

/-! ## Number literals -/

/-- A run of digits, at least one. -/
def scanDigits (cs : List Char) : Option (List Char × List Char) :=
  if cs.takeWhile Char.isDigit = [] then none
  else some (cs.takeWhile Char.isDigit, cs.dropWhile Char.isDigit)

/-- Without a leading zero. -/
def scanInteger : List Char → Option (List Char × List Char)
  | [] => none
  | c :: rest => if c = '0' then some ([c], rest) else scanDigits (c :: rest)

def scanFraction : List Char → Option (List Char × List Char)
  | [] => some ([], [])
  | c :: rest =>
      if c = '.' then (scanDigits rest).map fun p => (c :: p.1, p.2) else some ([], c :: rest)

def scanSigned : List Char → Option (List Char × List Char)
  | [] => none
  | c :: rest =>
      if c = '+' ∨ c = '-' then (scanDigits rest).map fun p => (c :: p.1, p.2)
      else scanDigits (c :: rest)

def scanExponent : List Char → Option (List Char × List Char)
  | [] => some ([], [])
  | c :: rest =>
      if c = 'e' ∨ c = 'E' then (scanSigned rest).map fun p => (c :: p.1, p.2)
      else some ([], c :: rest)

def scanUnsigned (cs : List Char) : Option (List Char × List Char) := do
  let (integer, cs) ← scanInteger cs
  let (fraction, cs) ← scanFraction cs
  let (exponent, cs) ← scanExponent cs
  some (integer ++ fraction ++ exponent, cs)

/-- The longest number literal at the front, and the rest. -/
def scanNumber : List Char → Option (List Char × List Char)
  | [] => none
  | c :: rest =>
      if c = '-' then (scanUnsigned rest).map fun p => (c :: p.1, p.2)
      else scanUnsigned (c :: rest)

end JsonText

/-- The numbers of the runtime, as far as JSON goes. -/
class JsNumbers (N : Type) where
  /-- The number a literal denotes. -/
  ofLiteral : List Char → N
  isFinite : N → Bool
  /-- `String(n)` of a finite number. -/
  text : N → List Char
  text_literal : ∀ n, isFinite n = true → JsonText.scanNumber (text n) = some (text n, [])

namespace JsonText

variable {N : Type} [JsNumbers N]

open JsNumbers

/-! ## Writing -/

def hexDigit (n : Nat) : Char := if n < 10 then Char.ofNat (48 + n) else Char.ofNat (87 + n)

/-- The short escapes, by the code unit. -/
def shortEscape (n : Nat) : Option Char :=
  if n = 8 then some 'b'
  else if n = 9 then some 't'
  else if n = 10 then some 'n'
  else if n = 12 then some 'f'
  else if n = 13 then some 'r'
  else if n = 34 then some '"'
  else if n = 92 then some '\\'
  else none

def escapeChar (c : Char) : List Char :=
  match shortEscape c.toNat with
  | some letter => ['\\', letter]
  | none =>
      if c.toNat < 32 then
        ['\\', 'u', '0', '0', hexDigit (c.toNat / 16), hexDigit (c.toNat % 16)]
      else [c]

/-- A string in quotes, its first one left out. -/
def quoteRest (s : List Char) : List Char := s.flatMap escapeChar ++ ['"']

mutual
/-- `JSON.stringify`. -/
def stringify : JsonValue N → List Char
  | .null => ['n', 'u', 'l', 'l']
  | .bool true => ['t', 'r', 'u', 'e']
  | .bool false => ['f', 'a', 'l', 's', 'e']
  | .num n => if isFinite n then text n else ['n', 'u', 'l', 'l']
  | .str s => '"' :: quoteRest s.toList
  | .arr [] => ['[', ']']
  | .arr (x :: xs) => '[' :: (stringify x ++ stringifyElements xs)
  | .obj [] => ['\x7b', '\x7d']
  | .obj (q :: qs) => '\x7b' :: (stringifyField q ++ stringifyFields qs)
/-- What follows the first element. -/
def stringifyElements : List (JsonValue N) → List Char
  | [] => [']']
  | x :: xs => ',' :: (stringify x ++ stringifyElements xs)
def stringifyField : String × JsonValue N → List Char
  | (name, v) => '"' :: (quoteRest name.toList ++ ':' :: stringify v)
/-- What follows the first property. -/
def stringifyFields : List (String × JsonValue N) → List Char
  | [] => ['\x7d']
  | q :: qs => ',' :: (stringifyField q ++ stringifyFields qs)
end

/-! ## Reading -/

/-- White space between the tokens. -/
def isBlank (c : Char) : Bool := c == ' ' || c == '\t' || c == '\n' || c == '\r'

def skipBlanks (cs : List Char) : List Char := cs.dropWhile isBlank

/-- The UTF-16 code units of a character. -/
def charUnits (c : Char) : List Nat :=
  if c.toNat < 0x10000 then [c.toNat]
  else [0xD800 + (c.toNat - 0x10000) / 0x400, 0xDC00 + (c.toNat - 0x10000) % 0x400]

/-- The character of a code unit that is not part of a pair. -/
def loneUnit (u : Nat) : Char := if 0xD800 ≤ u ∧ u < 0xE000 then '\uFFFD' else Char.ofNat u

/-- The text of a sequence of code units. -/
def ofUnits : List Nat → List Char
  | u :: v :: rest =>
      if 0xD800 ≤ u ∧ u < 0xDC00 ∧ 0xDC00 ≤ v ∧ v < 0xE000 then
        Char.ofNat (0x10000 + (u - 0xD800) * 0x400 + (v - 0xDC00)) :: ofUnits rest
      else loneUnit u :: ofUnits (v :: rest)
  | [u] => [loneUnit u]
  | [] => []

/-- The code unit of a short escape. -/
def shortUnit (letter : Char) : Option Nat :=
  if letter = '"' ∨ letter = '\\' ∨ letter = '/' then some letter.toNat
  else if letter = 'b' then some 8
  else if letter = 't' then some 9
  else if letter = 'n' then some 10
  else if letter = 'f' then some 12
  else if letter = 'r' then some 13
  else none

/-- The code units of a string up to its closing quote, and the rest. -/
def parseUnits : List Char → Option (List Nat × List Char)
  | [] => none
  | '"' :: rest => some ([], rest)
  | '\\' :: 'u' :: a :: b :: c :: d :: rest => do
      let a ← Text.hexVal a
      let b ← Text.hexVal b
      let c ← Text.hexVal c
      let d ← Text.hexVal d
      let (units, rest) ← parseUnits rest
      some ((((a * 16 + b) * 16 + c) * 16 + d) :: units, rest)
  | '\\' :: letter :: rest => do
      let unit ← shortUnit letter
      let (units, rest) ← parseUnits rest
      some (unit :: units, rest)
  | c :: rest => do
      if c.toNat < 32 ∨ c = '\\' then none
      else
        let (units, rest) ← parseUnits rest
        some (charUnits c ++ units, rest)

def parseString (cs : List Char) : Option (String × List Char) :=
  (parseUnits cs).map fun p => (String.ofList (ofUnits p.1), p.2)

/-- The words and the numbers. -/
def parseLiteral : List Char → Option (JsonValue N × List Char)
  | 'n' :: 'u' :: 'l' :: 'l' :: rest => some (.null, rest)
  | 't' :: 'r' :: 'u' :: 'e' :: rest => some (.bool true, rest)
  | 'f' :: 'a' :: 'l' :: 's' :: 'e' :: rest => some (.bool false, rest)
  | cs => (scanNumber cs).map fun p => (.num (ofLiteral p.1), p.2)

/-- The object that the properties make; of a name given twice the last value
counts. -/
def ownFields (qs : List (String × JsonValue N)) : List (String × JsonValue N) :=
  qs.foldl (fun o q => setProperty q.1 q.2 o) []

mutual
def parseValue : Nat → List Char → Option (JsonValue N × List Char)
  | 0, _ => none
  | fuel + 1, cs =>
      match skipBlanks cs with
      | '"' :: rest => (parseString rest).map fun p => (.str p.1, p.2)
      | '[' :: rest =>
          match skipBlanks rest with
          | ']' :: rest => some (.arr [], rest)
          | rest => do
              let (x, rest) ← parseValue fuel rest
              let (xs, rest) ← parseElements fuel rest
              some (.arr (x :: xs), rest)
      | '\x7b' :: rest =>
          match skipBlanks rest with
          | '\x7d' :: rest => some (.obj [], rest)
          | rest => do
              let (q, rest) ← parseField fuel rest
              let (qs, rest) ← parseFields fuel rest
              some (.obj (ownFields (q :: qs)), rest)
      | cs => parseLiteral cs
/-- Behind an element. -/
def parseElements : Nat → List Char → Option (List (JsonValue N) × List Char)
  | 0, _ => none
  | fuel + 1, cs =>
      match skipBlanks cs with
      | ']' :: rest => some ([], rest)
      | ',' :: rest => do
          let (x, rest) ← parseValue fuel rest
          let (xs, rest) ← parseElements fuel rest
          some (x :: xs, rest)
      | _ => none
def parseField : Nat → List Char → Option ((String × JsonValue N) × List Char)
  | 0, _ => none
  | fuel + 1, cs =>
      match skipBlanks cs with
      | '"' :: rest => do
          let (name, rest) ← parseString rest
          match skipBlanks rest with
          | ':' :: rest => do
              let (v, rest) ← parseValue fuel rest
              some ((name, v), rest)
          | _ => none
      | _ => none
/-- Behind a property. -/
def parseFields : Nat → List Char → Option (List (String × JsonValue N) × List Char)
  | 0, _ => none
  | fuel + 1, cs =>
      match skipBlanks cs with
      | '\x7d' :: rest => some ([], rest)
      | ',' :: rest => do
          let (q, rest) ← parseField fuel rest
          let (qs, rest) ← parseFields fuel rest
          some (q :: qs, rest)
      | _ => none
end

/-- `JSON.parse`; `none` is a thrown `SyntaxError`. -/
def parse (cs : List Char) : Option (JsonValue N) :=
  match parseValue (cs.length + 1) cs with
  | some (v, rest) => if skipBlanks rest = [] then some v else none
  | none => none

/-! ## Strings are read back -/

theorem hexVal_hexDigit {n : Nat} (h : n < 16) : Text.hexVal (hexDigit n) = some n := by
  have hall : ∀ n < 16, Text.hexVal (hexDigit n) = some n := by decide +kernel
  exact hall n h

theorem charUnits_small {c : Char} (h : c.toNat < 0x10000) : charUnits c = [c.toNat] := if_pos h

/-- One character, however it was written. -/
theorem parseUnits_escapeChar (c : Char) (rest : List Char) :
    parseUnits (escapeChar c ++ rest) =
      (parseUnits rest).map fun p => (charUnits c ++ p.1, p.2) := by
  unfold escapeChar
  cases hshort : shortEscape c.toNat with
  | some letter =>
      have hsmall : c.toNat < 0x10000 ∧ shortUnit letter = some c.toNat ∧ letter ≠ 'u' := by
        unfold shortEscape at hshort
        repeat' split at hshort
        all_goals first
          | cases hshort
            rename_i hc
            rw [hc]
            decide
          | cases hshort
      obtain ⟨hlt, hunit, hu⟩ := hsmall
      rw [charUnits_small hlt]
      simp only [List.cons_append, List.nil_append]
      rw [parseUnits]
      · rw [hunit]
        cases parseUnits rest <;> rfl
      · exact fun _ _ _ _ _ heq => absurd heq hu
  | none =>
      simp only
      split
      · rename_i hlt
        have hsplit : ((0 * 16 + 0) * 16 + c.toNat / 16) * 16 + c.toNat % 16 = c.toNat := by omega
        have hhigh := hexVal_hexDigit (n := c.toNat / 16) (by omega)
        have hlow := hexVal_hexDigit (n := c.toNat % 16) (by omega)
        have hzero : Text.hexVal '0' = some 0 := rfl
        rw [charUnits_small (by omega)]
        simp only [List.cons_append, List.nil_append]
        rw [parseUnits, hzero, hhigh, hlow]
        cases hrest : parseUnits rest with
        | none => rfl
        | some p =>
            simp only [Option.bind_eq_bind, Option.bind_some, Option.map_some, hsplit]
      · rename_i hge
        have hquote : c ≠ '"' := by
          rintro rfl
          exact absurd hshort (by decide)
        have hslash : c ≠ '\\' := by
          rintro rfl
          exact absurd hshort (by decide)
        simp only [List.cons_append, List.nil_append]
        rw [parseUnits]
        · rw [if_neg (not_or.mpr ⟨hge, hslash⟩)]
          cases parseUnits rest <;> rfl
        · exact fun heq => hquote heq
        · exact fun _ _ _ _ _ heq => absurd heq hslash
        · exact fun _ _ heq => absurd heq hslash

theorem parseUnits_quoteRest (s rest : List Char) :
    parseUnits (quoteRest s ++ rest) = some (s.flatMap charUnits, rest) := by
  induction s with
  | nil => rfl
  | cons c s ih =>
      have hcons : quoteRest (c :: s) ++ rest = escapeChar c ++ (quoteRest s ++ rest) := by
        simp [quoteRest]
      rw [hcons, parseUnits_escapeChar, ih]
      rfl

theorem toNat_valid (c : Char) : c.toNat < 0xD800 ∨ 0xDFFF < c.toNat ∧ c.toNat < 0x110000 :=
  c.valid

/-- The units of a character are read as that character. -/
theorem ofUnits_charUnits (c : Char) (us : List Nat) :
    ofUnits (charUnits c ++ us) = c :: ofUnits us := by
  have hvalid := toNat_valid c
  by_cases h : c.toNat < 0x10000
  · have hlone : loneUnit c.toNat = c := by
      rw [loneUnit, if_neg (by omega), Char.ofNat_toNat]
    rw [charUnits_small h, List.singleton_append]
    cases us with
    | nil => rw [ofUnits, hlone]; rfl
    | cons u us => rw [ofUnits, if_neg (by omega), hlone]
  · have hpair : 0x10000 + (0xD800 + (c.toNat - 0x10000) / 0x400 - 0xD800) * 0x400 +
        (0xDC00 + (c.toNat - 0x10000) % 0x400 - 0xDC00) = c.toNat := by omega
    rw [charUnits, if_neg h]
    simp only [List.cons_append, List.nil_append]
    rw [ofUnits, if_pos (by omega), hpair, Char.ofNat_toNat]

theorem ofUnits_flatMap (s : List Char) : ofUnits (s.flatMap charUnits) = s := by
  induction s with
  | nil => rfl
  | cons c s ih => rw [List.flatMap_cons, ofUnits_charUnits, ih]

theorem parseString_quoteRest (s : String) (rest : List Char) :
    parseString (quoteRest s.toList ++ rest) = some (s, rest) := by
  rw [parseString, parseUnits_quoteRest, Option.map_some, ofUnits_flatMap, String.ofList_toList]

/-! ## Numbers are read back -/

/-- What may stand behind a number. -/
def EndsNumber (rest : List Char) : Prop :=
  ∀ c ∈ rest.head?, c.isDigit = false ∧ c ≠ '.' ∧ c ≠ 'e' ∧ c ≠ 'E'

variable {cs lit left rest : List Char}

theorem takeWhile_digits (cs : List Char) (hrest : EndsNumber rest) :
    (cs ++ rest).takeWhile Char.isDigit = cs.takeWhile Char.isDigit ∧
      (cs ++ rest).dropWhile Char.isDigit = cs.dropWhile Char.isDigit ++ rest := by
  induction cs with
  | nil =>
      cases rest with
      | nil => exact ⟨rfl, rfl⟩
      | cons c rest =>
          have hc := (hrest c rfl).1
          simp [hc]
  | cons c cs ih =>
      by_cases hc : c.isDigit = true
      · simp [hc, ih.1, ih.2]
      · simp [hc]

theorem scanDigits_append (hrest : EndsNumber rest) (h : scanDigits cs = some (lit, left)) :
    scanDigits (cs ++ rest) = some (lit, left ++ rest) := by
  obtain ⟨htake, hdrop⟩ := takeWhile_digits cs hrest
  unfold scanDigits at h ⊢
  rw [htake, hdrop]
  split at h
  · cases h
  · rename_i hne
    cases h
    rw [if_neg hne]

/-- What was scanned with nothing behind it is scanned the same in front of
anything that ends a number. -/
def StopsAt (scan : List Char → Option (List Char × List Char)) (rest : List Char) : Prop :=
  ∀ cs lit left, scan cs = some (lit, left) → scan (cs ++ rest) = some (lit, left ++ rest)

theorem scanDigits_stops (hrest : EndsNumber rest) : StopsAt scanDigits rest :=
  fun _ _ _ h => scanDigits_append hrest h

theorem StopsAt.mark {scan : List Char → Option (List Char × List Char)} {c : Char}
    (hscan : StopsAt scan rest) (h : (scan cs).map (fun p => (c :: p.1, p.2)) = some (lit, left)) :
    (scan (cs ++ rest)).map (fun p => (c :: p.1, p.2)) = some (lit, left ++ rest) := by
  obtain ⟨⟨lit', left'⟩, hcs, heq⟩ := Option.map_eq_some_iff.mp h
  cases heq
  rw [hscan _ _ _ hcs]
  rfl

theorem scanInteger_stops (hrest : EndsNumber rest) : StopsAt scanInteger rest := by
  intro cs lit left h
  cases cs with
  | nil => cases h
  | cons c cs =>
      simp only [List.cons_append, scanInteger] at h ⊢
      split at h
      · rename_i hc
        cases h
        rw [if_pos hc]
      · rename_i hc
        rw [if_neg hc]
        exact scanDigits_append hrest h

theorem scanFraction_end (hrest : EndsNumber rest) : scanFraction rest = some ([], rest) := by
  cases rest with
  | nil => rfl
  | cons c rest => exact if_neg (hrest c rfl).2.1

theorem scanExponent_end (hrest : EndsNumber rest) : scanExponent rest = some ([], rest) := by
  cases rest with
  | nil => rfl
  | cons c rest => exact if_neg (not_or.mpr (hrest c rfl).2.2)

theorem scanFraction_stops (hrest : EndsNumber rest) : StopsAt scanFraction rest := by
  intro cs lit left h
  cases cs with
  | nil =>
      cases h
      exact scanFraction_end hrest
  | cons c cs =>
      simp only [List.cons_append, scanFraction] at h ⊢
      split at h
      · rename_i hc
        rw [if_pos hc]
        exact (scanDigits_stops hrest).mark h
      · rename_i hc
        cases h
        rw [if_neg hc]
        rfl

theorem scanSigned_stops (hrest : EndsNumber rest) : StopsAt scanSigned rest := by
  intro cs lit left h
  cases cs with
  | nil => cases h
  | cons c cs =>
      simp only [List.cons_append, scanSigned] at h ⊢
      split at h
      · rename_i hc
        rw [if_pos hc]
        exact (scanDigits_stops hrest).mark h
      · rename_i hc
        rw [if_neg hc]
        exact scanDigits_append hrest h

theorem scanExponent_stops (hrest : EndsNumber rest) : StopsAt scanExponent rest := by
  intro cs lit left h
  cases cs with
  | nil =>
      cases h
      exact scanExponent_end hrest
  | cons c cs =>
      simp only [List.cons_append, scanExponent] at h ⊢
      split at h
      · rename_i hc
        rw [if_pos hc]
        exact (scanSigned_stops hrest).mark h
      · rename_i hc
        cases h
        rw [if_neg hc]
        rfl

theorem scanUnsigned_stops (hrest : EndsNumber rest) : StopsAt scanUnsigned rest := by
  intro cs lit left h
  simp only [scanUnsigned, Option.bind_eq_bind, Option.bind_eq_some_iff, Prod.exists] at h
  obtain ⟨integer, cs₁, hinteger, fraction, cs₂, hfraction, exponent, cs₃, hexponent, heq⟩ := h
  cases heq
  rw [scanUnsigned, scanInteger_stops hrest _ _ _ hinteger]
  simp only [Option.bind_eq_bind, Option.bind_some]
  rw [scanFraction_stops hrest _ _ _ hfraction]
  simp only [Option.bind_some]
  rw [scanExponent_stops hrest _ _ _ hexponent]
  rfl

theorem scanNumber_stops (hrest : EndsNumber rest) : StopsAt scanNumber rest := by
  intro cs lit left h
  cases cs with
  | nil => cases h
  | cons c cs =>
      simp only [List.cons_append, scanNumber] at h ⊢
      split at h
      · rename_i hc
        rw [if_pos hc]
        exact (scanUnsigned_stops hrest).mark h
      · rename_i hc
        rw [if_neg hc]
        exact scanUnsigned_stops hrest (c :: cs) _ _ h

/-- A number begins with its sign or with a digit. -/
theorem scanNumber_head {c : Char} (h : scanNumber (c :: cs) = some (lit, left)) :
    c = '-' ∨ c.isDigit = true := by
  by_cases hsign : c = '-'
  · exact .inl hsign
  right
  rw [scanNumber, if_neg hsign] at h
  simp only [scanUnsigned, Option.bind_eq_bind, Option.bind_eq_some_iff, Prod.exists] at h
  obtain ⟨integer, cs₁, hinteger, -⟩ := h
  by_cases hzero : c = '0'
  · rw [hzero]
    rfl
  · rw [scanInteger, if_neg hzero, scanDigits] at hinteger
    split at hinteger
    · cases hinteger
    · rename_i hne
      by_contra hdigit
      exact hne (List.takeWhile_cons_of_neg hdigit)

/-! ## Documents are read back -/

/-- The text of the number denotes it. -/
def FaithfulNumber (n : N) : Prop := isFinite n = true ∧ ofLiteral (text n) = n

mutual
/-- No object has a name twice, and no number is lost in its text. -/
def Faithful : JsonValue N → Prop
  | .num n => FaithfulNumber n
  | .arr xs => FaithfulElements xs
  | .obj qs => (qs.map Prod.fst).Nodup ∧ FaithfulFields qs
  | _ => True
def FaithfulElements : List (JsonValue N) → Prop
  | [] => True
  | x :: xs => Faithful x ∧ FaithfulElements xs
def FaithfulFields : List (String × JsonValue N) → Prop
  | [] => True
  | (_, v) :: qs => Faithful v ∧ FaithfulFields qs
end

theorem skipBlanks_cons {c : Char} (h : isBlank c = false) : skipBlanks (c :: cs) = c :: cs := by
  simp [skipBlanks, h]

omit [JsNumbers N] in
theorem ownFields_eq {qs : List (String × JsonValue N)} (h : (qs.map Prod.fst).Nodup) :
    ownFields qs = qs :=
  foldl_setProperty qs [] (by simpa using h)

theorem endsNumber_cons {c : Char} (h : c.isDigit = false ∧ c ≠ '.' ∧ c ≠ 'e' ∧ c ≠ 'E') :
    EndsNumber (c :: rest) := by
  intro c' hc'
  cases hc'
  exact h

theorem endsNumber_elements (xs : List (JsonValue N)) (rest : List Char) :
    EndsNumber (stringifyElements xs ++ rest) := by
  cases xs with
  | nil => exact endsNumber_cons (by decide)
  | cons x xs => exact endsNumber_cons (by decide)

theorem endsNumber_fields (qs : List (String × JsonValue N)) (rest : List Char) :
    EndsNumber (stringifyFields qs ++ rest) := by
  cases qs with
  | nil => exact endsNumber_cons (by decide)
  | cons q qs => exact endsNumber_cons (by decide)

/-- A number begins with none of the other tokens. -/
theorem number_head_ne {c d : Char} (h : scanNumber (c :: cs) = some (lit, left)) (hsign : d ≠ '-')
    (hdigit : d.isDigit = false) : c ≠ d := by
  rintro rfl
  rcases scanNumber_head h with heq | hdig
  · exact hsign heq
  · rw [hdigit] at hdig
    cases hdig

theorem number_head_blank {c : Char} (h : scanNumber (c :: cs) = some (lit, left)) :
    isBlank c = false := by
  have hne : ∀ d, d ≠ '-' → d.isDigit = false → (c == d) = false := fun d hsign hdigit =>
    beq_eq_false_iff_ne.mpr (number_head_ne h hsign hdigit)
  simp only [isBlank, Bool.or_eq_false_iff]
  exact ⟨⟨⟨hne _ (by decide) (by decide), hne _ (by decide) (by decide)⟩,
    hne _ (by decide) (by decide)⟩, hne _ (by decide) (by decide)⟩

theorem parseLiteral_number {c : Char} (h : scanNumber (c :: cs) = some (lit, left)) :
    parseLiteral (c :: cs) = some (.num (ofLiteral lit : N), left) := by
  have hletter : ∀ d ds, d.isDigit = false → d ≠ '-' → c :: cs ≠ d :: ds :=
    fun d ds hdigit hsign heq => number_head_ne h hsign hdigit (List.cons.inj heq).1
  unfold parseLiteral
  split
  · rename_i heq
    exact absurd heq (hletter _ _ (by decide) (by decide))
  · rename_i heq
    exact absurd heq (hletter _ _ (by decide) (by decide))
  · rename_i heq
    exact absurd heq (hletter _ _ (by decide) (by decide))
  · rw [h]
    rfl

/-- What begins like a number is read as one. -/
theorem parseValue_number {fuel : Nat} (h : scanNumber cs = some (lit, left)) :
    parseValue (fuel + 1) cs = some (.num (ofLiteral lit : N), left) := by
  cases cs with
  | nil => cases h
  | cons c cs =>
      have hmark : ∀ d ds, d.isDigit = false → d ≠ '-' → c :: cs ≠ d :: ds :=
        fun d ds hdigit hsign heq => number_head_ne h hsign hdigit (List.cons.inj heq).1
      rw [parseValue, skipBlanks_cons (number_head_blank h)]
      split
      · rename_i heq
        exact absurd heq (hmark _ _ (by decide) (by decide))
      · rename_i heq
        exact absurd heq (hmark _ _ (by decide) (by decide))
      · rename_i heq
        exact absurd heq (hmark _ _ (by decide) (by decide))
      · exact parseLiteral_number h

/-- A text that is not empty takes some fuel. -/
theorem fuel_pos {c : Char} {n : Nat} (h : (c :: cs).length ≤ n) : ∃ m, n = m + 1 ∧ cs.length ≤ m := by
  rw [List.length_cons] at h
  exact ⟨n - 1, by omega, by omega⟩

/-- No document begins like the end of an array. -/
theorem stringify_head {v : JsonValue N} (hv : Faithful v) :
    ∃ c cs, stringify v = c :: cs ∧ isBlank c = false ∧ c ≠ ']' := by
  match v with
  | .null | .bool true | .bool false | .arr [] | .arr (_ :: _) | .obj [] | .obj (_ :: _) | .str _ =>
      exact ⟨_, _, rfl, by decide, by decide⟩
  | .num n =>
      have hscan := text_literal n hv.1
      rw [stringify, if_pos hv.1]
      cases htext : text n with
      | nil =>
          rw [htext] at hscan
          cases hscan
      | cons c cs =>
          rw [htext] at hscan
          exact ⟨c, cs, rfl, number_head_blank hscan, number_head_ne hscan (by decide) (by decide)⟩

mutual
theorem parseValue_stringify (v : JsonValue N) (hv : Faithful v) (fuel : Nat) (rest : List Char)
    (hfuel : (stringify v).length ≤ fuel) (hrest : EndsNumber rest) :
    parseValue fuel (stringify v ++ rest) = some (v, rest) := by
  match v with
  | .null =>
      obtain ⟨fuel, rfl, -⟩ := fuel_pos hfuel
      rfl
  | .bool true =>
      obtain ⟨fuel, rfl, -⟩ := fuel_pos hfuel
      rfl
  | .bool false =>
      obtain ⟨fuel, rfl, -⟩ := fuel_pos hfuel
      rfl
  | .num n =>
      obtain ⟨hfinite, hback⟩ := hv
      have hscan := text_literal n hfinite
      rw [stringify, if_pos hfinite] at hfuel ⊢
      have hpos : text n ≠ [] := by
        intro hnil
        rw [hnil] at hscan
        cases hscan
      have hlen := List.length_pos_iff.mpr hpos
      obtain ⟨fuel, rfl⟩ : ∃ m, fuel = m + 1 := ⟨fuel - 1, by omega⟩
      rw [parseValue_number (scanNumber_stops hrest _ _ _ hscan), hback]
      rfl
  | .str s =>
      obtain ⟨fuel, rfl, -⟩ := fuel_pos hfuel
      rw [stringify, List.cons_append, parseValue, skipBlanks_cons rfl]
      simp only [parseString_quoteRest, Option.map_some]
  | .arr [] =>
      obtain ⟨fuel, rfl, -⟩ := fuel_pos hfuel
      rfl
  | .arr (x :: xs) =>
      obtain ⟨hx, hxs⟩ := hv
      obtain ⟨fuel, rfl, hlen⟩ := fuel_pos hfuel
      rw [List.length_append] at hlen
      have hfirst := parseValue_stringify x hx fuel (stringifyElements xs ++ rest) (by omega)
        (endsNumber_elements xs rest)
      obtain ⟨c, cs, hhead, hblank, hend⟩ := stringify_head hx
      rw [stringify, List.cons_append, List.append_assoc, parseValue, skipBlanks_cons rfl]
      simp only
      rw [hhead] at hfirst ⊢
      rw [List.cons_append] at hfirst ⊢
      rw [skipBlanks_cons hblank]
      split
      · rename_i heq
        exact absurd (List.cons.inj heq).1 hend
      · rw [hfirst]
        simp only [Option.bind_eq_bind, Option.bind_some]
        rw [parseElements_stringify xs hxs fuel rest (by omega)]
        rfl
  | .obj [] =>
      obtain ⟨fuel, rfl, -⟩ := fuel_pos hfuel
      rfl
  | .obj (q :: qs) =>
      obtain ⟨hnodup, hqs⟩ := hv
      obtain ⟨fuel, rfl, hlen⟩ := fuel_pos hfuel
      rw [List.length_append] at hlen
      have hfirst := parseField_stringify q hqs.1 fuel (stringifyFields qs ++ rest) (by omega)
        (endsNumber_fields qs rest)
      rw [stringify, List.cons_append, List.append_assoc, parseValue, skipBlanks_cons rfl]
      simp only
      rw [stringifyField, List.cons_append] at hfirst ⊢
      rw [skipBlanks_cons rfl]
      split
      · rename_i heq
        exact absurd (List.cons.inj heq).1 (by decide)
      · rw [hfirst]
        simp only [Option.bind_eq_bind, Option.bind_some]
        rw [parseFields_stringify qs hqs.2 fuel rest (by omega)]
        simp only [Option.bind_some, ownFields_eq hnodup]
theorem parseElements_stringify (xs : List (JsonValue N)) (hxs : FaithfulElements xs) (fuel : Nat)
    (rest : List Char) (hfuel : (stringifyElements xs).length ≤ fuel) :
    parseElements fuel (stringifyElements xs ++ rest) = some (xs, rest) := by
  match xs with
  | [] =>
      obtain ⟨fuel, rfl, -⟩ := fuel_pos hfuel
      rfl
  | x :: xs =>
      obtain ⟨hx, hxs⟩ := hxs
      obtain ⟨fuel, rfl, hlen⟩ := fuel_pos hfuel
      rw [List.length_append] at hlen
      rw [stringifyElements, List.cons_append, List.append_assoc, parseElements,
        skipBlanks_cons rfl]
      simp only
      rw [parseValue_stringify x hx fuel _ (by omega) (endsNumber_elements xs rest)]
      simp only [Option.bind_eq_bind, Option.bind_some]
      rw [parseElements_stringify xs hxs fuel rest (by omega)]
      rfl
theorem parseField_stringify (q : String × JsonValue N) (hq : Faithful q.2) (fuel : Nat)
    (rest : List Char) (hfuel : (stringifyField q).length ≤ fuel) (hrest : EndsNumber rest) :
    parseField fuel (stringifyField q ++ rest) = some (q, rest) := by
  match q with
  | (name, v) =>
      obtain ⟨fuel, rfl, hlen⟩ := fuel_pos hfuel
      rw [List.length_append, List.length_cons] at hlen
      rw [stringifyField, List.cons_append, List.append_assoc, List.cons_append, parseField,
        skipBlanks_cons rfl]
      have hcolon : skipBlanks (':' :: (stringify v ++ rest)) = ':' :: (stringify v ++ rest) :=
        skipBlanks_cons rfl
      simp only [parseString_quoteRest, Option.bind_eq_bind, Option.bind_some, hcolon]
      rw [parseValue_stringify v hq fuel rest (by omega) hrest]
      rfl
theorem parseFields_stringify (qs : List (String × JsonValue N)) (hqs : FaithfulFields qs)
    (fuel : Nat) (rest : List Char) (hfuel : (stringifyFields qs).length ≤ fuel) :
    parseFields fuel (stringifyFields qs ++ rest) = some (qs, rest) := by
  match qs with
  | [] =>
      obtain ⟨fuel, rfl, -⟩ := fuel_pos hfuel
      rfl
  | q :: qs =>
      obtain ⟨hq, hqs⟩ := hqs
      obtain ⟨fuel, rfl, hlen⟩ := fuel_pos hfuel
      rw [List.length_append] at hlen
      rw [stringifyFields, List.cons_append, List.append_assoc, parseFields, skipBlanks_cons rfl]
      simp only
      rw [parseField_stringify q hq fuel _ (by omega) (endsNumber_fields qs rest)]
      simp only [Option.bind_eq_bind, Option.bind_some]
      rw [parseFields_stringify qs hqs fuel rest (by omega)]
      rfl
end

/-- What was written is read back. -/
theorem parse_stringify {v : JsonValue N} (hv : Faithful v) : parse (stringify v) = some v := by
  have hread := parseValue_stringify v hv ((stringify v).length + 1) [] (by omega)
    (fun c hc => nomatch hc)
  rw [List.append_nil] at hread
  rw [parse, hread]
  rfl

end JsonText

end SaasFoundation.Lib
