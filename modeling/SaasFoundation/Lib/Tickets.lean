import SaasFoundation.Lib.Store
import SaasFoundation.Lib.Threads
import Mathlib.Data.List.Count

/-!
# Single-use rows

A table whose rows are tickets: a row is put under a key that is free,
never changed, and taken by whoever deletes it. Of a key that one thread
puts once, at most one request of the whole run takes the row, whatever
the schedule: between two removals there has to be an insertion.
-/

namespace SaasFoundation.Lib

variable {Op : Type} {Res : Op → Type} {World Job Out K R : Type}

/-- The entry put a row under the free key `k`. -/
def Entry.inserts (T : World → K → Option R) (k : K) (e : Entry Op Res World) : Bool :=
  (T e.pre k).isNone && (T e.post k).isSome

theorem Entry.inserts_iff {T : World → K → Option R} {k : K} {e : Entry Op Res World} :
    e.inserts T k = true ↔ T e.pre k = none ∧ ∃ row, T e.post k = some row := by
  simp only [inserts, Bool.and_eq_true, Option.isNone_iff_eq_none, Option.isSome_iff_exists]

/-- The entry took the row under `k` away. -/
def Entry.removes (T : World → K → Option R) (k : K) (e : Entry Op Res World) : Bool :=
  (T e.pre k).isSome && (T e.post k).isNone

/-- The table `T` starts empty, rows appear by requests only, and a row is
kept as it is until it is gone. -/
structure TicketTable (S : System Op Res World Job Out) (T : World → K → Option R) :
    Prop where
  empty : ∀ w, S.init w → ∀ k, T w k = none
  drift_free : ∀ w w', S.drift w w' → ∀ k, T w k = none → T w' k = none
  drift_keeps : ∀ w w', S.drift w w' → ∀ k r, T w k = some r →
    T w' k = some r ∨ T w' k = none
  serve_keeps : ∀ w op r w', S.serve w op r w' → ∀ k row, T w k = some row →
    T w' k = some row ∨ T w' k = none

namespace TicketTable

variable {S : System Op Res World Job Out} {T : World → K → Option R}
  {c : Config Op Res World Job Out}

/-- Every removal, and the row still there if there is one, was paid for by
an insertion. -/
theorem removes_le_inserts (hT : TicketTable S T) (h : S.Reachable c) (k : K) :
    c.log.countP (Entry.removes T k) + (if (T c.world k).isSome then 1 else 0)
      ≤ c.log.countP (Entry.inserts T k) := by
  induction h with
  | init hw => simp [hT.empty _ hw k]
  | @step c d _ hs ih =>
      cases hs with
      | spawn _ => exact ih
      | @request i job op f r w hi hserve =>
          simp only [List.countP_append, List.countP_singleton, Entry.removes,
            Entry.inserts, ← Option.not_isSome]
          by_cases hpre : (T c.world k).isSome <;> by_cases hpost : (T w k).isSome <;>
            simp [hpre, hpost] at ih ⊢ <;> omega
      | @drift w hd =>
          cases hpre : T c.world k with
          | none =>
              simpa [hT.drift_free _ _ hd k hpre, hpre] using ih
          | some row =>
              rw [hpre] at ih
              simp only [Option.isSome_some, if_true] at ih
              refine Nat.le_trans (Nat.add_le_add_left ?_ _) ih
              split <;> omega

/-- Any two removals of a row are one and the same request when all its
insertions come from one thread that puts at most once. -/
theorem removes_unique (hT : TicketTable S T) (h : S.Reachable c) {k : K}
    (puts : Op → Bool)
    (hputs : ∀ e ∈ c.log, e.inserts T k → puts e.ev.op)
    (hone : ∀ e₁ ∈ c.log, ∀ e₂ ∈ c.log, e₁.inserts T k → e₂.inserts T k →
      e₁.tid = e₂.tid)
    (honce : ∀ i, (localLog c.log i).countP (fun ev => puts ev.op) ≤ 1) :
    ∀ e₁ ∈ c.log, ∀ e₂ ∈ c.log, e₁.removes T k → e₂.removes T k → e₁ = e₂ := by
  have hins : c.log.countP (Entry.inserts T k) ≤ 1 := by
    by_cases hex : ∃ e ∈ c.log, e.inserts T k = true
    · obtain ⟨e₀, he₀, hi₀⟩ := hex
      -- all insertions are puts of the thread of `e₀`
      calc c.log.countP (Entry.inserts T k)
          ≤ c.log.countP (fun e => decide (e.tid = e₀.tid) && puts e.ev.op) := by
            refine List.countP_mono_left fun e he hi => ?_
            simp [hone e he e₀ he₀ hi hi₀, hputs e he hi]
        _ = (localLog c.log e₀.tid).countP (fun ev => puts ev.op) := by
            rw [localLog, List.countP_map, List.countP_filter]
            refine List.countP_congr fun e _ => ?_
            simp [and_comm]
        _ ≤ 1 := honce _
    · rw [List.countP_eq_zero.mpr (fun e he hi => hex ⟨e, he, hi⟩)]
      omega
  have hrem : c.log.countP (Entry.removes T k) ≤ 1 := by
    have := hT.removes_le_inserts h k
    omega
  intro e₁ he₁ e₂ he₂ hr₁ hr₂
  rw [List.countP_eq_length_filter] at hrem
  have hm₁ := List.mem_filter.mpr ⟨he₁, hr₁⟩
  have hm₂ := List.mem_filter.mpr ⟨he₂, hr₂⟩
  generalize c.log.filter (Entry.removes T k) = l at hm₁ hm₂ hrem
  rcases l with _ | ⟨e, _ | ⟨e', l⟩⟩
  · simp at hm₁
  · rw [List.mem_singleton.mp hm₁, List.mem_singleton.mp hm₂]
  · simp at hrem

/-- A row in the table, now or at any request of the run, was inserted by
some entry of the log. -/
theorem inserted (hT : TicketTable S T) (h : S.Reachable c) (k : K) (row : R) :
    (T c.world k = some row →
      ∃ e ∈ c.log, T e.pre k = none ∧ T e.post k = some row) ∧
    (∀ e ∈ c.log, T e.pre k = some row →
      ∃ e' ∈ c.log, T e'.pre k = none ∧ T e'.post k = some row) := by
  induction h with
  | init hw => simp [hT.empty _ hw k]
  | @step c d _ hs ih =>
      cases hs with
      | spawn _ => exact ih
      | @request i job op f r w hi hserve =>
          have hold : ∀ {P : Entry Op Res World → Prop}, (∃ e ∈ c.log, P e) →
              ∃ e ∈ c.log ++ [⟨i, c.world, ⟨op, r⟩, w⟩], P e := by
            rintro P ⟨e, he, hP⟩
            exact ⟨e, List.mem_append_left _ he, hP⟩
          refine ⟨fun hw => ?_, fun e he hpre => ?_⟩
          · cases hpre : T c.world k with
            | none => exact ⟨_, List.mem_append_right _ (List.mem_singleton.mpr rfl), hpre, hw⟩
            | some row' =>
                rcases hT.serve_keeps _ _ _ _ hserve k row' hpre with h' | h'
                · rw [hw] at h'
                  cases h'
                  exact hold (ih.1 hpre)
                · rw [hw] at h'
                  cases h'
          · rcases List.mem_append.mp he with he | he
            · exact hold (ih.2 e he hpre)
            · rw [List.mem_singleton.mp he] at hpre
              exact hold (ih.1 hpre)
      | @drift w hd =>
          refine ⟨fun hw => ?_, ih.2⟩
          cases hpre : T c.world k with
          | none =>
              have hnone := hT.drift_free _ _ hd k hpre
              rw [show T w k = some row from hw] at hnone
              cases hnone
          | some row' =>
              rcases hT.drift_keeps _ _ hd k row' hpre with h' | h'
              · rw [show T w k = some row from hw] at h'
                cases h'
                exact ih.1 hpre
              · rw [show T w k = some row from hw] at h'
                cases h'

end TicketTable

/-- How the table `T` of tickets comes about: the request `puts row` puts the
row under a free key of its own, and whatever else changes the table takes
one row away. -/
structure TicketRequests [DecidableEq K] (S : System Op Res World Job Out) (T : World → Table K R)
    (keyOf : R → K) (puts : R → Op) : Prop where
  empty : ∀ w, S.init w → T w = Table.empty
  drift : ∀ w w', S.drift w w' → T w' = T w ∨ ∃ k, T w' = (T w).erase k
  serve : ∀ w op r w', S.serve w op r w' → T w' = T w ∨
    (∃ row, op = puts row ∧ T w (keyOf row) = none ∧ T w' = (T w).put (keyOf row) row) ∨
      ∃ k, T w' = (T w).erase k

namespace TicketRequests

variable [DecidableEq K] {S : System Op Res World Job Out} {T : World → Table K R}
  {keyOf : R → K} {puts : R → Op} {c : Config Op Res World Job Out}

theorem ticketTable (hT : TicketRequests S T keyOf puts) : TicketTable S T where
  empty := by
    intro w hw k
    rw [hT.empty w hw]
    rfl
  drift_free := by
    intro w w' hd k hk
    rcases hT.drift w w' hd with hsame | ⟨k', herase⟩
    · rwa [hsame]
    · rw [herase]
      exact Table.erase_free _ _ hk
  drift_keeps := by
    intro w w' hd k row hk
    rcases hT.drift w w' hd with hsame | ⟨k', herase⟩
    · exact .inl (by rwa [hsame])
    · rw [herase]
      exact Table.erase_keeps _ _ _ hk
  serve_keeps := by
    intro w op r w' h k row hk
    rcases hT.serve w op r w' h with hsame | ⟨row', -, hfree, hput⟩ | ⟨k', herase⟩
    · exact .inl (by rwa [hsame])
    · rw [hput]
      exact .inl (Table.put_keeps _ hfree hk)
    · rw [herase]
      exact Table.erase_keeps _ _ _ hk

/-- A row appears in the table by a put of its own. -/
theorem inserted_by (hT : TicketRequests S T keyOf puts) (h : S.Reachable c)
    {e : Entry Op Res World} (he : e ∈ c.log) {k : K} {row : R} (hpre : T e.pre k = none)
    (hpost : T e.post k = some row) : e.ev.op = puts row ∧ keyOf row = k := by
  rcases hT.serve _ _ _ _ (h.served e he) with hsame | ⟨row', hop, hfree, hput⟩ | ⟨k', herase⟩
  · rw [hsame, hpre] at hpost
    cases hpost
  · rw [hput] at hpost
    rcases Table.put_some hpost with ⟨rfl, rfl⟩ | ⟨-, hold⟩
    · exact ⟨hop, rfl⟩
    · rw [hpre] at hold
      cases hold
  · rw [herase] at hpost
    have hold := (Table.erase_some hpost).2
    rw [hpre] at hold
    cases hold

/-- At most one request takes the row under a key if the rows of a key come
from one thread, and every thread puts at most one row. -/
theorem removes_unique (hT : TicketRequests S T keyOf puts) (h : S.Reachable c)
    {isPut : Op → Bool} (hputs : ∀ row, isPut (puts row) = true)
    (hone : ∀ e₁ ∈ c.log, ∀ e₂ ∈ c.log, ∀ row₁ row₂, e₁.ev.op = puts row₁ → e₂.ev.op = puts row₂ →
      keyOf row₁ = keyOf row₂ → e₁.tid = e₂.tid)
    (honce : ∀ i, (localLog c.log i).countP (fun ev => isPut ev.op) ≤ 1) (k : K) :
    ∀ e₁ ∈ c.log, ∀ e₂ ∈ c.log, e₁.removes T k → e₂.removes T k → e₁ = e₂ := by
  have hins : ∀ e ∈ c.log, e.inserts T k → ∃ row, e.ev.op = puts row ∧ keyOf row = k := by
    intro e he hi
    obtain ⟨hpre, row, hpost⟩ := Entry.inserts_iff.mp hi
    exact ⟨row, hT.inserted_by h he hpre hpost⟩
  refine hT.ticketTable.removes_unique h isPut ?_ ?_ honce
  · intro e he hi
    obtain ⟨row, hop, -⟩ := hins e he hi
    rw [hop]
    exact hputs row
  · intro e₁ he₁ e₂ he₂ hi₁ hi₂
    obtain ⟨row₁, hop₁, hk₁⟩ := hins e₁ he₁ hi₁
    obtain ⟨row₂, hop₂, hk₂⟩ := hins e₂ he₂ hi₂
    exact hone e₁ he₁ e₂ he₂ row₁ row₂ hop₁ hop₂ (hk₁.trans hk₂.symm)

end TicketRequests

end SaasFoundation.Lib
