import Mathlib.Data.List.TakeWhile
import SaasFoundation.Lib.Text

/-!
# The authority of a URL

How an `https` URL is cut into user information, host and port. The user
information ends at the last `@`, the host at the first colon outside
brackets. Tabs and line breaks are no part of a URL, and a backslash is as
good as a slash. The host is the text that stands there: what percent
encoding and international names make of it is left out.
-/

namespace SaasFoundation.Lib.Url

open Text

structure Authority where
  userinfo : Option (List Char)
  host : List Char
  /-- Absent or empty: the port of the scheme. -/
  port : Option Nat
deriving DecidableEq, Repr

/-- Removed wherever it stands. -/
def isRemoved (c : Char) : Bool := c == '\t' || c == '\n' || c == '\r'

def isSlash (c : Char) : Bool := c == '/' || c == '\\'

def endsAuthority (c : Char) : Bool := isSlash c || c == '?' || c == '#'

/-- A C0 control or a space, which a URL neither begins nor ends with. -/
def isBlank (c : Char) : Bool := decide (c.toNat ≤ 0x20)

def clean (input : List Char) : List Char :=
  (((input.dropWhile isBlank).reverse.dropWhile isBlank).reverse).filter fun c => !isRemoved c

/-- The text before and after the last separator. -/
def splitLast (sep : Char) : List Char → Option (List Char × List Char)
  | [] => none
  | c :: s =>
      match splitLast sep s with
      | some (before, after) => some (c :: before, after)
      | none => if c = sep then some ([], s) else none

/-- The host, and what follows its colon. Colons within brackets are part
of the host. -/
def hostEnd : (inside : Bool) → List Char → List Char × Option (List Char)
  | _, [] => ([], none)
  | inside, c :: s =>
      if c = ':' ∧ inside = false then ([], some s)
      else
        let rest := hostEnd (if c = '[' then true else if c = ']' then false else inside) s
        (c :: rest.1, rest.2)

def parsePort (s : List Char) : Option (Option Nat) :=
  if s = [] then some none
  else if s.all Char.isDigit && decide (digitsValue s ≤ 65535) then some (some (digitsValue s))
  else none

def parseHostPort (userinfo : Option (List Char)) (s : List Char) : Option Authority :=
  match hostEnd false s with
  | ([], _) => none
  | (host, none) => some ⟨userinfo, host, none⟩
  | (host, some port) => (parsePort port).map fun port => ⟨userinfo, host, port⟩

def parseAuthority (s : List Char) : Option Authority :=
  match splitLast '@' s with
  | some (userinfo, rest) => parseHostPort (some userinfo) rest
  | none => parseHostPort none s

/-- The authority of an `https` URL; `none` is no such URL. -/
def parseHttps (input : List Char) : Option Authority :=
  let url := clean input
  if (url.take 6).map Char.toLower = "https:".toList then
    parseAuthority (((url.drop 6).dropWhile isSlash).takeWhile fun c => !endsAuthority c)
  else none

/-! ## Texts without separators in front -/

variable {sep : Char} {s front a b : List Char}

theorem splitLast_eq_none : splitLast sep s = none ↔ sep ∉ s := by
  induction s with
  | nil => simp [splitLast]
  | cons c s ih =>
      rw [splitLast]
      cases hs : splitLast sep s with
      | some p =>
          have hmem : sep ∈ s := by
            by_contra hnot
            rw [ih.mpr hnot] at hs
            cases hs
          simp [hmem]
      | none =>
          have hnot := ih.mp hs
          by_cases hc : c = sep
          · simp [hc]
          · have hsep : ¬ sep = c := fun h => hc h.symm
            simp [hc, hsep, hnot]

theorem splitLast_eq_some : splitLast sep s = some (a, b) ↔ s = a ++ sep :: b ∧ sep ∉ b := by
  induction s generalizing a b with
  | nil => simp [splitLast]
  | cons c s ih =>
      rw [splitLast]
      cases hs : splitLast sep s with
      | some p =>
          obtain ⟨a', b'⟩ := p
          obtain ⟨rfl, hnot⟩ := ih.mp hs
          constructor
          · intro h
            cases h
            exact ⟨rfl, hnot⟩
          · rintro ⟨heq, hnot'⟩
            obtain ⟨hbefore, rfl⟩ := append_sep_inj (s := c :: a') heq hnot hnot'
            rw [← hbefore]
      | none =>
          have hnone := splitLast_eq_none.mp hs
          by_cases hc : c = sep
          · subst hc
            simp only [↓reduceIte, Option.some.injEq, Prod.mk.injEq]
            constructor
            · rintro ⟨rfl, rfl⟩
              exact ⟨rfl, hnone⟩
            · rintro ⟨heq, hnot⟩
              obtain ⟨hbefore, rfl⟩ := append_sep_inj (s := []) heq hnone hnot
              exact ⟨hbefore, rfl⟩
          · simp only [hc, ↓reduceIte, reduceCtorEq, false_iff, not_and, not_not]
            intro heq
            cases a with
            | nil =>
                obtain ⟨rfl, -⟩ := List.cons.inj heq
                exact absurd rfl hc
            | cons d a =>
                obtain ⟨-, rfl⟩ := List.cons.inj heq
                simp at hnone

theorem hostEnd_append (hfront : ∀ c ∈ front, c ≠ ':' ∧ c ≠ '[' ∧ c ≠ ']') (s : List Char) :
    hostEnd false (front ++ s) = (front ++ (hostEnd false s).1, (hostEnd false s).2) := by
  induction front with
  | nil => rfl
  | cons c front ih =>
      obtain ⟨hcolon, hopen, hclose⟩ := hfront c List.mem_cons_self
      rw [List.cons_append, hostEnd, if_neg (fun h => hcolon h.1), if_neg hopen, if_neg hclose,
        ih fun d hd => hfront d (List.mem_cons_of_mem _ hd)]
      rfl

/-- A host without brackets, with or without a port. -/
theorem parseHostPort_plain {userinfo : Option (List Char)} (hne : front ≠ [])
    (hfront : ∀ c ∈ front, c ≠ ':' ∧ c ≠ '[' ∧ c ≠ ']') :
    parseHostPort userinfo front = some ⟨userinfo, front, none⟩ ∧
      parseHostPort userinfo (front ++ ':' :: s) =
        (parsePort s).map fun port => ⟨userinfo, front, port⟩ := by
  have hend := hostEnd_append hfront []
  have hport := hostEnd_append hfront (':' :: s)
  simp only [hostEnd, List.append_nil, and_self, ↓reduceIte] at hend hport
  cases front with
  | nil => exact absurd rfl hne
  | cons c front => exact ⟨by rw [parseHostPort, hend], by rw [parseHostPort, hport]⟩

theorem parseHostPort_userinfo (userinfo : List Char) (s : List Char) :
    parseHostPort (some userinfo) s =
      (parseHostPort none s).map fun a => { a with userinfo := some userinfo } := by
  unfold parseHostPort
  split
  · rfl
  · rfl
  · simp only [Option.map_map]
    rfl

/-- Neither a blank at the ends nor anything that is removed. -/
theorem clean_eq_filter {first last : Char} {middle : List Char} (hfirst : isBlank first = false)
    (hlast : isBlank last = false) :
    clean (first :: (middle ++ [last])) =
      (first :: (middle ++ [last])).filter fun c => !isRemoved c := by
  unfold clean
  rw [List.dropWhile_cons_of_neg (by simp [hfirst])]
  rw [show (first :: (middle ++ [last])).reverse = last :: (first :: middle).reverse by simp]
  rw [List.dropWhile_cons_of_neg (by simp [hlast])]
  simp

theorem takeWhile_append_stop {p : Char → Bool} {c : Char} (hc : p c = false) (s t : List Char) :
    (s ++ c :: t).takeWhile p = s.takeWhile p := by
  induction s with
  | nil => simp [hc]
  | cons d s ih =>
      rw [List.cons_append, List.takeWhile_cons, List.takeWhile_cons, ih]

end SaasFoundation.Lib.Url
