import Mathlib.Data.List.DropRight
import Mathlib.Data.List.Basic
import SaasFoundation.Lib.Text

/-!
# Cookies

What a user agent keeps of a `Set-Cookie` line, and the `Cookie` line it
sends. A reader that splits the line at its semicolons and trims the parts
finds the cookies that were sent.
-/

namespace SaasFoundation.Lib

open Text

structure Cookie where
  name : List Char
  value : List Char
deriving DecidableEq, Repr

namespace Cookie

/-- Neither part has a semicolon, and the name ends at the first `=`. -/
structure Sendable (c : Cookie) : Prop where
  name_eq : '=' ∉ c.name
  name_semi : ';' ∉ c.name
  value_semi : ';' ∉ c.value

/-- The white space of the grammar, which is less than that of `trim`. -/
def isBlank (c : Char) : Bool := c == ' ' || c == '\t'

def strip (s : List Char) : List Char := ((s.dropWhile isBlank).reverse.dropWhile isBlank).reverse

/-- What is kept of a `Set-Cookie` line, without the attributes; a line
without a name is ignored. -/
def stored (line : List Char) : Option Cookie :=
  let pair := line.takeWhile (· ≠ ';')
  let name := strip (pair.takeWhile (· ≠ '='))
  if '=' ∈ pair ∧ name ≠ [] then some ⟨name, strip ((pair.dropWhile (· ≠ '=')).drop 1)⟩ else none

def text (c : Cookie) : List Char := c.name ++ '=' :: c.value

/-- The `Cookie` line. -/
def header (cookies : List Cookie) : List Char := [';', ' '].intercalate (cookies.map text)

variable {c : Cookie} {s t : List Char}

/-! ## Trimming around a character -/

def trimEnd (s : List Char) : List Char := (trimStart s.reverse).reverse

theorem trim_eq (s : List Char) : trim s = trimEnd (trimStart s) := rfl

theorem trimStart_append {d : Char} (hd : isSpace d = false) (s t : List Char) :
    trimStart (s ++ d :: t) = trimStart s ++ d :: t := by
  induction s with
  | nil => simp [trimStart, hd]
  | cons e s ih =>
      by_cases he : isSpace e = true
      · simpa [trimStart, he] using ih
      · simp [trimStart, he]

theorem trimEnd_append {d : Char} (hd : isSpace d = false) (s t : List Char) :
    trimEnd (s ++ d :: t) = s ++ d :: trimEnd t := by
  have hback : (s ++ d :: t).reverse = t.reverse ++ d :: s.reverse := by simp
  rw [trimEnd, hback, trimStart_append hd]
  simp [trimEnd]

theorem trim_trimStart (s : List Char) : trim (trimStart s) = trim s := by
  rw [trim_eq, trim_eq, trimStart, trimStart, List.dropWhile_idempotent]

theorem trim_trimEnd (s : List Char) : trim (trimEnd s) = trim s := by
  have hcut : s = s.takeWhile isSpace ++ trimStart s := List.takeWhile_append_dropWhile.symm
  cases hrest : trimStart s with
  | nil =>
      -- nothing but white space
      have hall : ∀ d ∈ s, isSpace d = true := List.dropWhile_eq_nil_iff.mp hrest
      have hend : trimEnd s = [] := by
        rw [trimEnd, trimStart, List.dropWhile_eq_nil_iff.mpr (fun d hd =>
          hall d (List.mem_reverse.mp hd))]
        rfl
      rw [hend, trim_eq, trim_eq, hrest]
      rfl
  | cons d rest =>
      have hd : isSpace d = false := by
        have hhead := List.head?_dropWhile_not isSpace s
        rw [show s.dropWhile isSpace = d :: rest from hrest] at hhead
        simpa using hhead
      have hend : trimEnd s = s.takeWhile isSpace ++ d :: trimEnd rest := by
        conv_lhs => rw [hcut, hrest, trimEnd_append hd]
      have hstart : trimStart (trimEnd s) = d :: trimEnd rest := by
        have hblank : trimStart (s.takeWhile isSpace) = [] :=
          List.dropWhile_eq_nil_iff.mpr fun _ he => List.mem_takeWhile_imp he
        rw [hend, trimStart_append hd, hblank]
        rfl
      have hidem : trimEnd (trimEnd rest) = trimEnd rest := by
        rw [trimEnd, trimEnd, List.reverse_reverse, trimStart, trimStart, List.dropWhile_idempotent]
      have htwice := trimEnd_append hd [] (trimEnd rest)
      have honce := trimEnd_append hd [] rest
      simp only [List.nil_append] at htwice honce
      rw [trim_eq, trim_eq, hstart, hrest, htwice, honce, hidem]

/-- White space around a cookie goes, and none of what is between. -/
theorem trim_text (c : Cookie) : trim c.text = trimStart c.name ++ '=' :: trimEnd c.value := by
  have hsep : isSpace '=' = false := by decide
  rw [text, trim_eq, trimStart_append hsep, trimEnd_append hsep]

theorem trim_space (s : List Char) : trim (' ' :: s) = trim s := by
  rw [trim_eq, trim_eq, trimStart, trimStart, List.dropWhile_cons_of_pos (by decide)]

/-! ## Reading a line -/

theorem semi_not_mem_text (h : c.Sendable) : ';' ∉ c.text := by
  simp only [text, List.mem_append, List.mem_cons, not_or]
  exact ⟨h.name_semi, by decide, h.value_semi⟩

/-- The parts of the line are read one after the other; the blanks between
them do not matter to the reader. -/
theorem header_findSome {β : Type} {read : List Char → Option β} (hnil : read [] = none)
    (hspace : ∀ s, read (' ' :: s) = read s) {cookies : List Cookie}
    (h : ∀ c ∈ cookies, c.Sendable) :
    ((header cookies).splitOn ';').findSome? read = cookies.findSome? fun c => read c.text := by
  induction cookies with
  | nil => simp [header, hnil]
  | cons c rest ih =>
      have hc := semi_not_mem_text (h c List.mem_cons_self)
      have ih := ih fun d hd => h d (List.mem_cons_of_mem _ hd)
      cases rest with
      | nil =>
          rw [header, List.map_singleton, List.intercalate_singleton, List.splitOn_eq_singleton hc]
          rfl
      | cons d rest =>
          have hcut : header (c :: d :: rest) = c.text ++ ';' :: ' ' :: header (d :: rest) := by
            simp [header, List.intercalate_cons_of_ne_nil]
          have hparts : ((' ' :: header (d :: rest)).splitOn ';').findSome? read =
              ((header (d :: rest)).splitOn ';').findSome? read := by
            rw [List.splitOn_cons_eq_if_modifyHead, if_neg (by decide)]
            cases hsplit : (header (d :: rest)).splitOn ';' with
            | nil => rfl
            | cons part parts =>
                rw [List.modifyHead_cons, List.findSome?_cons, List.findSome?_cons, hspace]
          rw [hcut, List.splitOn_append_cons_self_of_not_mem hc, List.findSome?_cons, hparts, ih]
          rfl

/-! ## What is kept of a line -/

theorem strip_subset {d : Char} (h : d ∈ strip s) : d ∈ s := by
  rw [strip, List.mem_reverse] at h
  have hback := (List.dropWhile_sublist _).subset h
  exact (List.dropWhile_sublist _).subset (List.mem_reverse.mp hback)

theorem strip_eq_self (h : ∀ d ∈ s, isBlank d = false) : strip s = s := by
  have hself : ∀ s : List Char, (∀ d ∈ s, isBlank d = false) → s.dropWhile isBlank = s := by
    intro s h
    cases s with
    | nil => rfl
    | cons d s => rw [List.dropWhile_cons_of_neg (by simp [h d List.mem_cons_self])]
  rw [strip, hself s h, hself _ (by simpa using h), List.reverse_reverse]

theorem stored_sendable (h : stored s = some c) : c.Sendable := by
  simp only [stored, Option.ite_none_right_eq_some, Option.some.injEq] at h
  obtain ⟨-, rfl⟩ := h
  have hpair : ∀ d ∈ s.takeWhile (· ≠ ';'), d ≠ ';' := by
    intro d hd
    simpa using List.mem_takeWhile_imp hd
  constructor
  · intro hmem
    have := List.mem_takeWhile_imp (strip_subset hmem)
    simp at this
  · intro hmem
    exact hpair ';' ((List.takeWhile_sublist _).subset (strip_subset hmem)) rfl
  · intro hmem
    have hdrop := List.mem_of_mem_drop (strip_subset hmem)
    exact hpair ';' ((List.dropWhile_sublist _).subset hdrop) rfl

/-- The name is kept as it was written, the value up to white space. -/
theorem stored_append {name rest : List Char} (hne : name ≠ [])
    (hname : ∀ d ∈ name, d ≠ ';' ∧ d ≠ '=' ∧ isBlank d = false) :
    stored (name ++ '=' :: rest) = some ⟨name, strip (rest.takeWhile (· ≠ ';'))⟩ := by
  have hpair : (name ++ '=' :: rest).takeWhile (· ≠ ';') =
      name ++ '=' :: rest.takeWhile (· ≠ ';') := by
    rw [List.takeWhile_append_of_pos fun d hd => by simp [(hname d hd).1],
      List.takeWhile_cons_of_pos (by decide)]
  have hfront : ∀ t, (name ++ '=' :: t).takeWhile (· ≠ '=') = name := by
    intro t
    rw [List.takeWhile_append_of_pos fun d hd => by simp [(hname d hd).2.1],
      List.takeWhile_cons_of_neg (by decide), List.append_nil]
  have hback : ∀ t, (name ++ '=' :: t).dropWhile (· ≠ '=') = '=' :: t := by
    intro t
    rw [List.dropWhile_append_of_pos fun d hd => by simp [(hname d hd).2.1],
      List.dropWhile_cons_of_neg (by decide)]
  have hstrip : strip name = name := strip_eq_self fun d hd => (hname d hd).2.2
  simp only [stored, hpair, hfront, hback, hstrip, List.drop_one, List.tail_cons]
  rw [if_pos ⟨by simp, hne⟩]

/-- A value of plain characters is kept as it was written. -/
theorem stored_value {name value rest : List Char} (hne : name ≠ [])
    (hname : ∀ d ∈ name, d ≠ ';' ∧ d ≠ '=' ∧ isBlank d = false)
    (hvalue : ∀ d ∈ value, d ≠ ';' ∧ isBlank d = false) :
    stored (name ++ '=' :: (value ++ ';' :: rest)) = some ⟨name, value⟩ := by
  have hfront : (value ++ ';' :: rest).takeWhile (· ≠ ';') = value := by
    rw [List.takeWhile_append_of_pos fun d hd => by simp [(hvalue d hd).1],
      List.takeWhile_cons_of_neg (by decide), List.append_nil]
  rw [stored_append hne hname, hfront, strip_eq_self fun d hd => (hvalue d hd).2]

end Cookie

end SaasFoundation.Lib
