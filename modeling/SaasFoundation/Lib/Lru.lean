import Mathlib.Algebra.Order.Field.Rat
import Mathlib.Data.Set.Card
import Mathlib.Tactic.Linarith
import SaasFoundation.Lib.Store

/-!
# What an LRU cache with a time to live holds

Every cell knows when it was set and when it was last used. A cell past its
time is dropped when it is asked for; after every set the cells stay that
are among the last used. The history says which value a key has: the last
that was set, unless something has dropped it since.
-/

namespace SaasFoundation.Lib

inductive CacheOp (K V : Type) where
  | get (k : K)
  | set (k : K) (v : V)
  | invalidate (k : K)
  | clear
deriving DecidableEq, Repr

structure Cell (V T : Type) where
  value : V
  setAt : T
  /-- The number of the use. -/
  usedAt : Nat

structure Lru (K V T : Type) where
  held : Table K (Cell V T)
  uses : Nat

namespace Lru

variable {K V T : Type}

def empty : Lru K V T := ⟨Table.empty, 0⟩

/-- The keys that were used after. -/
def newer (held : Table K (Cell V T)) (usedAt : Nat) : Set K :=
  {k | ∃ cell, held k = some cell ∧ usedAt < cell.usedAt}

/-- With those that were used after, a cell is within the limit. -/
def Recent (limit : ℚ) (held : Table K (Cell V T)) (cell : Cell V T) : Prop :=
  ((newer held cell.usedAt).ncard + 1 : ℚ) ≤ limit

open Classical in
noncomputable def keepRecent (limit : ℚ) (held : Table K (Cell V T)) : Table K (Cell V T) :=
  fun k => (held k).filter fun cell => Recent limit held cell

theorem keepRecent_some {limit : ℚ} {held : Table K (Cell V T)} {k : K} {cell : Cell V T} :
    keepRecent limit held k = some cell ↔ held k = some cell ∧ Recent limit held cell := by
  simp [keepRecent, Option.filter_eq_some_iff]

/-- The next use is later than all before. -/
def Counted (s : Lru K V T) : Prop := ∀ k cell, s.held k = some cell → cell.usedAt < s.uses

theorem counted_empty : Counted (empty : Lru K V T) := by
  intro k cell hcell
  cases hcell

variable [DecidableEq K]

theorem counted_put {s : Lru K V T} (h : Counted s) (k : K) (v : V) (setAt : T) :
    Counted ⟨s.held.put k ⟨v, setAt, s.uses⟩, s.uses + 1⟩ := by
  intro k' cell hcell
  rcases Table.put_some hcell with ⟨rfl, rfl⟩ | ⟨-, hcell⟩
  · exact Nat.lt_succ_self _
  · exact Nat.lt_succ_of_lt (h k' cell hcell)

section Steps

variable [LinearOrder T] [Add T]

/-- What a get finds. -/
def found (ttl now : T) (s : Lru K V T) (k : K) : Option V :=
  match s.held k with
  | none => none
  | some cell => if cell.setAt + ttl ≤ now then none else some cell.value

noncomputable def step (limit : ℚ) (ttl : T) (s : Lru K V T) : T × CacheOp K V → Lru K V T
  | (now, .get k) =>
      match s.held k with
      | none => s
      | some cell =>
          if cell.setAt + ttl ≤ now then ⟨s.held.erase k, s.uses⟩
          else ⟨s.held.put k { cell with usedAt := s.uses }, s.uses + 1⟩
  | (now, .set k v) => ⟨keepRecent limit (s.held.put k ⟨v, now, s.uses⟩), s.uses + 1⟩
  | (_, .invalidate k) => ⟨s.held.erase k, s.uses⟩
  | (_, .clear) => ⟨Table.empty, s.uses⟩

noncomputable def run (limit : ℚ) (ttl : T) (s : Lru K V T) (ops : List (T × CacheOp K V)) :
    Lru K V T :=
  ops.foldl (step limit ttl) s

/-! ## Histories -/

/-- The operation ends the term of the key's value: it sets another one,
invalidates or clears it, or evicts it as not recently used. -/
def Drops (limit : ℚ) (s : Lru K V T) (k : K) : T × CacheOp K V → Prop
  | (_, .get _) => False
  | (now, .set k' v) => k' = k ∨
      ∃ cell, s.held k = some cell ∧ ¬ Recent limit (s.held.put k' ⟨v, now, s.uses⟩) cell
  | (_, .invalidate k') => k' = k
  | (_, .clear) => True

/-- No operation of the history drops it. -/
def Kept (limit : ℚ) (ttl : T) (s : Lru K V T) (k : K) : List (T × CacheOp K V) → Prop
  | [] => True
  | op :: ops => ¬ Drops limit s k op ∧ Kept limit ttl (step limit ttl s op) k ops

/-- The last value that was set for the key, less than `ttl` ago, and not
dropped since. -/
def Live (limit : ℚ) (ttl : T) (ops : List (T × CacheOp K V)) (now : T) (k : K) (v : V) : Prop :=
  ∃ before setAt after, ops = before ++ (setAt, .set k v) :: after ∧ now < setAt + ttl ∧
    Kept limit ttl (run limit ttl empty (before ++ [(setAt, .set k v)])) k after

variable {limit : ℚ} {ttl now : T} {s : Lru K V T} {k : K} {v : V} {op : T × CacheOp K V}
  {ops : List (T × CacheOp K V)}

theorem step_get_miss (h : s.held k = none) : step limit ttl s (now, .get k) = s := by
  simp [step, h]

theorem step_get_expired {cell : Cell V T} (h : s.held k = some cell)
    (hexpired : cell.setAt + ttl ≤ now) :
    step limit ttl s (now, .get k) = ⟨s.held.erase k, s.uses⟩ := by
  simp [step, h, hexpired]

theorem step_get_hit {cell : Cell V T} (h : s.held k = some cell)
    (hlive : ¬ cell.setAt + ttl ≤ now) : step limit ttl s (now, .get k) =
      ⟨s.held.put k { cell with usedAt := s.uses }, s.uses + 1⟩ := by
  simp [step, h, hlive]

theorem run_append (ops ops' : List (T × CacheOp K V)) :
    run limit ttl s (ops ++ ops') = run limit ttl (run limit ttl s ops) ops' :=
  List.foldl_append

theorem kept_append {ops ops' : List (T × CacheOp K V)} : Kept limit ttl s k (ops ++ ops') ↔
    Kept limit ttl s k ops ∧ Kept limit ttl (run limit ttl s ops) k ops' := by
  induction ops generalizing s with
  | nil => simp [Kept, run]
  | cons op ops ih =>
      simp only [List.cons_append, Kept, ih, and_assoc]
      rfl

/-- A cell after a step was set by it, or was there and is kept. -/
theorem held_step {cell : Cell V T} (h : (step limit ttl s op).held k = some cell) :
    op = (cell.setAt, .set k cell.value) ∨
      ∃ cell', s.held k = some cell' ∧ cell'.value = cell.value ∧ cell'.setAt = cell.setAt ∧
        ¬ Drops limit s k op := by
  obtain ⟨now, op⟩ := op
  cases op with
  | get k' =>
      right
      cases hfound : s.held k' with
      | none =>
          rw [step_get_miss hfound] at h
          exact ⟨cell, h, rfl, rfl, not_false⟩
      | some cell' =>
          by_cases hexpired : cell'.setAt + ttl ≤ now
          · rw [step_get_expired hfound hexpired] at h
            exact ⟨cell, (Table.erase_some h).2, rfl, rfl, not_false⟩
          · rw [step_get_hit hfound hexpired] at h
            rcases Table.put_some h with ⟨rfl, rfl⟩ | ⟨-, h⟩
            · exact ⟨cell', hfound, rfl, rfl, not_false⟩
            · exact ⟨cell, h, rfl, rfl, not_false⟩
  | set k' v =>
      obtain ⟨h, hrecent⟩ := keepRecent_some.mp h
      rcases Table.put_some h with ⟨rfl, rfl⟩ | ⟨hk, h⟩
      · exact .inl rfl
      · refine .inr ⟨cell, h, rfl, rfl, ?_⟩
        rintro (hsame | ⟨cell', hcell', hold⟩)
        · exact hk hsame.symm
        · rw [h, Option.some.injEq] at hcell'
          subst hcell'
          exact hold hrecent
  | invalidate k' =>
      obtain ⟨hk, h⟩ := Table.erase_some h
      exact .inr ⟨cell, h, rfl, rfl, fun hsame => hk hsame.symm⟩
  | clear => cases h

/-- A cell that is neither dropped nor past its time stays. -/
theorem step_held {cell : Cell V T} (h : s.held k = some cell) (hkeep : ¬ Drops limit s k op)
    (hlive : op.1 < cell.setAt + ttl) :
    ∃ cell', (step limit ttl s op).held k = some cell' ∧ cell'.value = cell.value ∧
      cell'.setAt = cell.setAt := by
  obtain ⟨now, op⟩ := op
  cases op with
  | get k' =>
      by_cases hk : k = k'
      · subst hk
        rw [step_get_hit h (not_le.mpr hlive)]
        exact ⟨_, Table.put_self _ _ _, rfl, rfl⟩
      · cases hfound : s.held k' with
        | none =>
            rw [step_get_miss hfound]
            exact ⟨cell, h, rfl, rfl⟩
        | some cell' =>
            by_cases hexpired : cell'.setAt + ttl ≤ now
            · rw [step_get_expired hfound hexpired]
              exact ⟨cell, (Table.erase_of_ne _ hk).trans h, rfl, rfl⟩
            · rw [step_get_hit hfound hexpired]
              exact ⟨cell, (Table.put_of_ne _ _ hk).trans h, rfl, rfl⟩
  | set k' v =>
      simp only [Drops, not_or, not_exists, not_and, not_not] at hkeep
      have hput : s.held.put k' ⟨v, now, s.uses⟩ k = some cell :=
        (Table.put_of_ne _ _ (Ne.symm hkeep.1)).trans h
      exact ⟨cell, keepRecent_some.mpr ⟨hput, hkeep.2 cell h⟩, rfl, rfl⟩
  | invalidate k' => exact ⟨cell, (Table.erase_of_ne _ (Ne.symm hkeep)).trans h, rfl, rfl⟩
  | clear => exact absurd trivial hkeep

theorem run_held {cell : Cell V T} (h : s.held k = some cell) (hkept : Kept limit ttl s k ops)
    (htimes : ∀ op ∈ ops, op.1 < cell.setAt + ttl) :
    ∃ cell', (run limit ttl s ops).held k = some cell' ∧ cell'.value = cell.value ∧
      cell'.setAt = cell.setAt := by
  induction ops generalizing s cell with
  | nil => exact ⟨cell, h, rfl, rfl⟩
  | cons op ops ih =>
      obtain ⟨hkeep, hrest⟩ := hkept
      obtain ⟨cell₁, h₁, hvalue₁, hsetAt₁⟩ := step_held h hkeep (htimes op List.mem_cons_self)
      obtain ⟨cell₂, h₂, hvalue₂, hsetAt₂⟩ := ih h₁ hrest
        fun op hop => hsetAt₁ ▸ htimes op (List.mem_cons_of_mem _ hop)
      exact ⟨cell₂, h₂, hvalue₂.trans hvalue₁, hsetAt₂.trans hsetAt₁⟩

/-- Every cell has a set that made it, and is kept since. -/
theorem held_run {cell : Cell V T} (h : (run limit ttl empty ops).held k = some cell) :
    ∃ before after, ops = before ++ (cell.setAt, .set k cell.value) :: after ∧
      Kept limit ttl (run limit ttl empty (before ++ [(cell.setAt, .set k cell.value)])) k after := by
  induction ops using List.reverseRecOn generalizing cell with
  | nil => cases h
  | append_singleton ops op ih =>
      rw [run_append] at h
      rcases held_step h with rfl | ⟨cell', hcell', hvalue, hsetAt, hkeep⟩
      · exact ⟨ops, [], rfl, trivial⟩
      · obtain ⟨before, after, rfl, hkept⟩ := ih hcell'
        rw [hvalue, hsetAt] at hkept ⊢
        refine ⟨before, after ++ [op], by simp, kept_append.mpr ⟨hkept, ?_, trivial⟩⟩
        rwa [← run_append, List.append_assoc, List.singleton_append, ← hvalue, ← hsetAt]

theorem counted_step (h : Counted s) (op : T × CacheOp K V) : Counted (step limit ttl s op) := by
  obtain ⟨now, op⟩ := op
  have herase : ∀ k, Counted ⟨s.held.erase k, s.uses⟩ := fun k k' cell hcell =>
    h k' cell (Table.erase_some hcell).2
  cases op with
  | get k =>
      cases hfound : s.held k with
      | none =>
          rw [step_get_miss hfound]
          exact h
      | some cell =>
          by_cases hexpired : cell.setAt + ttl ≤ now
          · rw [step_get_expired hfound hexpired]
            exact herase k
          · rw [step_get_hit hfound hexpired]
            exact counted_put h k cell.value cell.setAt
  | set k v =>
      intro k' cell hcell
      exact counted_put h k v now k' cell (keepRecent_some.mp hcell).1
  | invalidate k => exact herase k
  | clear =>
      intro k cell hcell
      cases hcell

theorem counted_run (h : Counted s) (ops : List (T × CacheOp K V)) :
    Counted (run limit ttl s ops) := by
  induction ops generalizing s with
  | nil => exact h
  | cons op ops ih => exact ih (counted_step h op)

/-- What was just set is the most recent. -/
theorem set_held (ttl : T) (h : Counted s) (hlimit : 1 ≤ limit) :
    (step limit ttl s (now, .set k v)).held k = some ⟨v, now, s.uses⟩ := by
  refine keepRecent_some.mpr ⟨Table.put_self _ _ _, ?_⟩
  have hnewest : newer (s.held.put k ⟨v, now, s.uses⟩) s.uses = ∅ := by
    ext k'
    simp only [newer, Set.mem_ofPred_eq, Set.mem_empty_iff_false, iff_false]
    rintro ⟨cell, hcell, hlater⟩
    have hcounted := counted_put h k v now k' cell hcell
    dsimp only at hcounted
    omega
  simp only [Recent, hnewest, Set.ncard_empty, Nat.cast_zero, zero_add]
  exact hlimit

/-- A get finds the value that the history says. -/
theorem found_iff_live (hlimit : 1 ≤ limit) (hclock : ∀ op ∈ ops, op.1 ≤ now) :
    found ttl now (run limit ttl empty ops) k = some v ↔ Live limit ttl ops now k v := by
  constructor
  · intro h
    unfold found at h
    cases hcell : (run limit ttl empty ops).held k with
    | none =>
        rw [hcell] at h
        cases h
    | some cell =>
        simp only [hcell, Option.ite_none_left_eq_some, Option.some.injEq, not_le] at h
        obtain ⟨hlive, rfl⟩ := h
        obtain ⟨before, after, hops, hkept⟩ := held_run hcell
        exact ⟨before, cell.setAt, after, hops, hlive, hkept⟩
  · rintro ⟨before, setAt, after, rfl, hlive, hkept⟩
    have hset : (run limit ttl empty (before ++ [(setAt, .set k v)])).held k =
        some ⟨v, setAt, (run limit ttl empty before).uses⟩ := by
      have hcounted : Counted (run limit ttl (empty : Lru K V T) before) :=
        counted_run counted_empty before
      rw [run_append]
      exact set_held ttl hcounted hlimit
    obtain ⟨cell, hcell, hvalue, hsetAt⟩ := run_held hset hkept fun op hop =>
      (hclock op (by simp [hop])).trans_lt hlive
    have hrun : (run limit ttl empty (before ++ (setAt, .set k v) :: after)).held k = some cell := by
      rw [← hcell, ← run_append, List.append_assoc, List.singleton_append]
    simp only [found, hrun, hsetAt, if_neg (not_le.mpr hlive), hvalue]

end Steps

/-! ## Cells in the order of their use -/

/-- The list has the cells of the cache, the last used at the end. -/
structure Lists (l : List (K × Cell V T)) (s : Lru K V T) : Prop where
  held : ∀ k cell, s.held k = some cell ↔ (k, cell) ∈ l
  keys : (l.map Prod.fst).Nodup
  order : l.Pairwise fun p q => p.2.usedAt < q.2.usedAt
  uses : ∀ p ∈ l, p.2.usedAt < s.uses

section Lists

variable {l : List (K × Cell V T)} {s : Lru K V T} {k : K} {limit : ℚ}

omit [DecidableEq K] in
theorem lists_clear (uses : Nat) : Lists [] (⟨Table.empty, uses⟩ : Lru K V T) where
  held := by simp [Table.empty]
  keys := List.nodup_nil
  order := .nil
  uses := by simp

theorem Lists.erase (h : Lists l s) (k : K) :
    Lists (l.filter fun p => p.1 ≠ k) ⟨s.held.erase k, s.uses⟩ where
  held := by
    intro k' cell
    rw [List.mem_filter, ← h.held, decide_eq_true_eq]
    constructor
    · intro hcell
      obtain ⟨hk, hcell⟩ := Table.erase_some hcell
      exact ⟨hcell, hk⟩
    · rintro ⟨hcell, hk⟩
      exact (Table.erase_of_ne _ hk).trans hcell
  keys := h.keys.sublist (List.filter_sublist.map _)
  order := h.order.sublist List.filter_sublist
  uses := fun p hp => h.uses p (List.mem_of_mem_filter hp)

/-- A use puts the cell at the end. -/
theorem Lists.put (h : Lists l s) (k : K) (v : V) (setAt : T) :
    Lists (l.filter (fun p => p.1 ≠ k) ++ [(k, ⟨v, setAt, s.uses⟩)])
      ⟨s.held.put k ⟨v, setAt, s.uses⟩, s.uses + 1⟩ where
  held := by
    intro k' cell
    rw [List.mem_append, List.mem_filter, ← h.held, List.mem_singleton, decide_eq_true_eq]
    constructor
    · intro hcell
      rcases Table.put_some hcell with ⟨rfl, rfl⟩ | ⟨hk, hcell⟩
      · exact .inr rfl
      · exact .inl ⟨hcell, hk⟩
    · rintro (⟨hcell, hk⟩ | hcell)
      · exact (Table.put_of_ne _ _ hk).trans hcell
      · cases hcell
        exact Table.put_self _ _ _
  keys := by
    rw [List.map_append, List.map_singleton]
    refine (h.erase k).keys.append (List.nodup_singleton _) ?_
    intro k' hk' hlast
    obtain ⟨p, hp, rfl⟩ := List.mem_map.mp hk'
    exact of_decide_eq_true (List.mem_filter.mp hp).2 (List.mem_singleton.mp hlast)
  order := by
    refine List.pairwise_append.mpr ⟨(h.erase k).order, List.pairwise_singleton _ _, ?_⟩
    intro p hp q hq
    rw [List.mem_singleton.mp hq]
    exact h.uses p (List.mem_of_mem_filter hp)
  uses := by
    intro p hp
    rcases List.mem_append.mp hp with hp | hp
    · exact Nat.lt_succ_of_lt (h.uses p (List.mem_of_mem_filter hp))
    · rw [List.mem_singleton.mp hp]
      exact Nat.lt_succ_self _

/-- The keys used after a cell are those behind it. -/
theorem Lists.ncard_newer {before after : List (K × Cell V T)} {p : K × Cell V T}
    (h : Lists (before ++ p :: after) s) : (newer s.held p.2.usedAt).ncard = after.length := by
  obtain ⟨-, hbehind, hbefore⟩ := List.pairwise_append.mp h.order
  have hnewer : newer s.held p.2.usedAt = ((after.map Prod.fst).toFinset : Set K) := by
    ext k'
    simp only [newer, Set.mem_ofPred_eq, List.coe_toFinset, List.mem_map]
    constructor
    · rintro ⟨cell, hcell, hlater⟩
      rcases List.mem_append.mp ((h.held k' cell).mp hcell) with hmem | hmem
      · have hearlier := hbefore _ hmem p List.mem_cons_self
        dsimp only at hearlier
        omega
      · rcases List.mem_cons.mp hmem with rfl | hmem
        · exact absurd hlater (Nat.lt_irrefl _)
        · exact ⟨_, hmem, rfl⟩
    · rintro ⟨q, hq, rfl⟩
      exact ⟨q.2, (h.held q.1 q.2).mpr (by simp [hq]), List.rel_of_pairwise_cons hbehind hq⟩
  have hnodup : (after.map Prod.fst).Nodup := by
    refine h.keys.sublist (List.Sublist.map _ ?_)
    exact ((List.sublist_cons_self p after).trans (List.sublist_append_right before _))
  rw [hnewer, Set.ncard_coe_finset, List.toFinset_card_of_nodup hnodup, List.length_map]

/-- Dropping from the front as long as there are too many leaves the recent
cells. -/
theorem Lists.keepRecent {front back : List (K × Cell V T)} (h : Lists (front ++ back) s)
    (hback : (back.length : ℚ) ≤ limit ∨ back = [])
    (hfront : front ≠ [] → limit < back.length + 1) :
    Lists back ⟨keepRecent limit s.held, s.uses⟩ where
  held := by
    intro k' cell
    rw [keepRecent_some, h.held]
    constructor
    · rintro ⟨hmem, hrecent⟩
      rcases List.mem_append.mp hmem with hmem | hmem
      · -- the whole back was used after it
        obtain ⟨before, after, rfl⟩ := List.append_of_mem hmem
        have hlists : Lists (before ++ (k', cell) :: (after ++ back)) s := by simpa using h
        rw [Recent, hlists.ncard_newer, List.length_append] at hrecent
        have hmany := hfront (by simp)
        push_cast at hrecent
        have hafter : (0 : ℚ) ≤ after.length := Nat.cast_nonneg _
        linarith
      · exact hmem
    · intro hmem
      refine ⟨List.mem_append_right _ hmem, ?_⟩
      obtain ⟨before, after, rfl⟩ := List.append_of_mem hmem
      have hlists : Lists (front ++ before ++ (k', cell) :: after) s := by simpa using h
      rw [Recent, hlists.ncard_newer]
      rcases hback with hback | hback
      · rw [List.length_append, List.length_cons] at hback
        push_cast at hback
        have hbefore : (0 : ℚ) ≤ before.length := Nat.cast_nonneg _
        linarith
      · simp at hback
  keys := h.keys.sublist (List.Sublist.map _ (List.sublist_append_right _ _))
  order := h.order.sublist (List.sublist_append_right _ _)
  uses := fun p hp => h.uses p (List.mem_append_right _ hp)

end Lists

end Lru

end SaasFoundation.Lib
