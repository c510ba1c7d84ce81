import Mathlib.Data.List.Pairwise
import Mathlib.Order.Lattice

/-!
# Reading page by page

A list of rows in key order is read in pages. Each page holds the first rows
behind a start key, as many as the reader of the list pleases up to a limit;
unless nothing is left, it names its last key, and the next page starts
there. Whatever the pages are, together they are the rows, each once.
-/

namespace SaasFoundation.Lib

variable {K R : Type} [LinearOrder K] {rows left page : List (K × R)} {start last : Option K}
  {limit : Nat}

/-- In key order, so no key twice. -/
def KeyOrdered (rows : List (K × R)) : Prop := rows.Pairwise fun a b => a.1 < b.1

/-- The rows behind a start key. -/
def rowsAfter (rows : List (K × R)) : Option K → List (K × R)
  | none => rows
  | some k => rows.filter fun row => decide (k < row.1)

/-- One page of the rows that are left. A last key that is named is that of
the last row; without one, nothing is left. -/
structure PageOf (limit : Nat) (left page : List (K × R)) (last : Option K) : Prop where
  front : page <+: left
  short : page.length ≤ limit
  ends : match last with
    | none => page = left
    | some k => ∃ row, page.getLast? = some row ∧ row.1 = k

/-- Pages up to one that names no last key, each with a limit of its own. -/
inductive Reads (rows : List (K × R)) : Option K → List (List (K × R)) → Prop
  | last {limit : Nat} {start : Option K} {page : List (K × R)} :
      0 < limit → PageOf limit (rowsAfter rows start) page none → Reads rows start [page]
  | next {limit : Nat} {start : Option K} {k : K} {page : List (K × R)}
      {pages : List (List (K × R))} :
      0 < limit → PageOf limit (rowsAfter rows start) page (some k) → Reads rows (some k) pages →
      Reads rows start (page :: pages)

theorem KeyOrdered.after (h : KeyOrdered rows) (start : Option K) :
    KeyOrdered (rowsAfter rows start) := by
  cases start with
  | none => exact h
  | some k => exact h.filter _

/-- Behind the last row of its front, a list in order goes on with its rest. -/
theorem KeyOrdered.filter_after {front rest : List (K × R)} {row : K × R}
    (h : KeyOrdered (front ++ row :: rest)) :
    (front ++ row :: rest).filter (fun r => decide (row.1 < r.1)) = rest := by
  obtain ⟨-, hrow, hfront⟩ := List.pairwise_append.mp h
  have hnone : front.filter (fun r => decide (row.1 < r.1)) = [] := by
    rw [List.filter_eq_nil_iff]
    intro r hr
    simpa using le_of_lt (hfront r hr row List.mem_cons_self)
  have hall : rest.filter (fun r => decide (row.1 < r.1)) = rest := by
    rw [List.filter_eq_self]
    intro r hr
    simpa using (List.pairwise_cons.mp hrow).1 r hr
  rw [List.filter_append, hnone, List.nil_append, List.filter_cons_of_neg (by simp), hall]

/-- Behind a key that is itself behind the start, the rows are among those
behind the start. -/
theorem rowsAfter_some {k : K} (h : ∀ s, start = some s → s < k) :
    rowsAfter rows (some k) = (rowsAfter rows start).filter fun row => decide (k < row.1) := by
  cases start with
  | none => rfl
  | some s =>
      rw [rowsAfter, rowsAfter, List.filter_filter]
      apply List.filter_congr
      intro row _
      by_cases hk : k < row.1
      · simp [hk, lt_trans (h s rfl) hk]
      · simp [hk]

/-- What is left behind a page that names its last key. -/
theorem PageOf.rest (hrows : KeyOrdered rows) {k : K}
    (h : PageOf limit (rowsAfter rows start) page (some k)) :
    rowsAfter rows start = page ++ rowsAfter rows (some k) := by
  obtain ⟨rest, hrest⟩ := h.front
  obtain ⟨row, hrow, rfl⟩ := h.ends
  obtain ⟨front, rfl⟩ := List.getLast?_eq_some_iff.mp hrow
  have hstart : ∀ s, start = some s → s < row.1 := by
    rintro s rfl
    have hmem : row ∈ rowsAfter rows (some s) := by
      rw [← hrest]
      simp
    simpa using (List.mem_filter.mp hmem).2
  have horder := hrows.after start
  rw [rowsAfter_some hstart]
  rw [← hrest, List.append_assoc, List.singleton_append] at horder ⊢
  rw [horder.filter_after]
  simp

omit [LinearOrder K] in
/-- A page that names a last key is not empty. -/
theorem PageOf.pos {k : K} (h : PageOf limit left page (some k)) : 0 < page.length := by
  obtain ⟨row, hrow, -⟩ := h.ends
  cases page with
  | nil => cases hrow
  | cons row page => exact Nat.succ_pos _

omit [LinearOrder K] in
/-- There is always a page to be had. -/
theorem PageOf.exists (hlimit : 0 < limit) (left : List (K × R)) :
    ∃ page last, PageOf limit left page last := by
  by_cases hall : left.length ≤ limit
  · exact ⟨left, none, List.prefix_refl left, hall, rfl⟩
  · have hlen : (left.take limit).length = limit := by
      rw [List.length_take]
      omega
    have hne : left.take limit ≠ [] := List.ne_nil_of_length_pos (by omega)
    exact ⟨left.take limit, some ((left.take limit).getLast hne).1, List.take_prefix limit left,
      Nat.le_of_eq hlen, _, List.getLast?_eq_some_getLast hne, rfl⟩

namespace Reads

variable {pages : List (List (K × R))}

/-- Together the pages are what there was to read. -/
theorem flatten (hrows : KeyOrdered rows) (h : Reads rows start pages) :
    pages.flatten = rowsAfter rows start := by
  induction h with
  | last _ hpage => simpa using hpage.ends
  | next _ hpage _ ih =>
      rw [List.flatten_cons, ih, ← hpage.rest hrows]

end Reads

end SaasFoundation.Lib
