import SaasFoundation.Lib.Evolution
import Mathlib.Algebra.BigOperators.Group.List.Basic
import Mathlib.Data.List.Nodup
import Mathlib.Algebra.Ring.Rat

/-!
# Rows with revisions

A store keeps rows under keys; the world remembers what each key has held,
newest first. Where every write that takes effect raises the version of its
key by one, a version is that of one row only, for good. Where the writes of
a key since some moment are additions to a field, the field is what it was
plus what was added.
-/

namespace SaasFoundation.Lib

/-- How to look at the rows of a world, and at requests that add to a field
of a row. -/
structure Revisions (Op World K R F : Type) where
  history : World → K → List R
  version : R → ℤ
  /-- The field as a number; none if it is something else. -/
  counter : R → F → Option ℚ
  adds : Op → Option (K × F × ℚ)

namespace Revisions

variable {Op : Type} {Res : Op → Type} {World Job Out K R F : Type}
  (V : Revisions Op World K R F)

def versionAt (w : World) (k : K) : ℤ := ((V.history w k).head?.map V.version).getD 0

/-- Where there is no row, the field is 0. -/
def counterAt (w : World) (k : K) (f : F) : Option ℚ :=
  match (V.history w k).head? with
  | some row => V.counter row f
  | none => some 0

section Laws

variable {V}

theorem versionAt_congr {w w' : World} {k : K} (h : V.history w' k = V.history w k) :
    V.versionAt w' k = V.versionAt w k := by
  rw [versionAt, versionAt, h]

theorem counterAt_congr {w w' : World} {k : K} (h : V.history w' k = V.history w k) (f : F) :
    V.counterAt w' k f = V.counterAt w k f := by
  rw [counterAt, counterAt, h]

variable (V) [DecidableEq F]

/-- The new row is the next version, and an addition adds. -/
structure Revises (op : Op) (w w' : World) (k : K) (row : R) : Prop where
  history : V.history w' k = row :: V.history w k
  version : V.version row = V.versionAt w k + 1
  adds : ∀ k' f δ, V.adds op = some (k', f, δ) → k' = k ∧
    ∀ f', V.counter row f' =
      if f' = f then (V.counterAt w k f).map (· + δ) else V.counterAt w k f'

/-- What requests may do to the rows. `I` is what is known of every world of
a run. -/
structure Keeps (S : System Op Res World Job Out) (P : Op → Prop) (I : World → Prop) : Prop where
  uses : ∀ job, (S.start job).Uses P
  init : ∀ w, S.init w → I w ∧ ∀ k, V.history w k = []
  serve : ∀ w op r w', I w → P op → S.serve w op r w' →
    I w' ∧ ∀ k, V.history w' k = V.history w k ∨ ∃ row, V.Revises op w w' k row
  drift : ∀ w w', I w → S.drift w w' → I w' ∧ ∀ k, V.history w' k = V.history w k

/-- The write of the key took effect. -/
def Commits (e : Entry Op Res World) (k : K) : Prop := V.versionAt e.post k ≠ V.versionAt e.pre k

instance (e : Entry Op Res World) (k : K) : Decidable (V.Commits e k) :=
  inferInstanceAs (Decidable (_ ≠ _))

/-- The thread has put the row `new` where `old` was. -/
def Replaced (c : Config Op Res World Job Out) (i : Nat) (k : K) (old : Option R) (new : R) :
    Prop :=
  ∃ e ∈ c.log, e.tid = i ∧ (V.history e.pre k).head? = old ∧
    V.history e.post k = new :: V.history e.pre k

/-- What the entry added to the field. -/
def added [DecidableEq K] (k : K) (f : F) (e : Entry Op Res World) : ℚ :=
  match V.adds e.ev.op with
  | some (k', f', δ) => if k' = k ∧ f' = f ∧ V.Commits e k then δ else 0
  | none => 0

/-- No update is lost: every commit is one more version, a version is that
of one row, and additions add up. -/
structure NoLostUpdate [DecidableEq K] (c : Config Op Res World Job Out) : Prop where
  bumps : ∀ e ∈ c.log, ∀ k, V.history e.post k ≠ V.history e.pre k →
    ∃ row, V.history e.post k = row :: V.history e.pre k ∧
      V.version row = V.versionAt e.pre k + 1
  determined : ∀ k, ∀ row ∈ V.history c.world k, ∀ row' ∈ V.history c.world k,
    V.version row = V.version row' → row = row'
  adds : ∀ l₁ e l₂, c.log = l₁ ++ e :: l₂ → ∀ k,
    (∀ x ∈ l₂, V.Commits x k → (V.adds x.ev.op).isSome = true) → ∀ f,
      V.counterAt c.world k f =
        (V.counterAt e.post k f).map (· + (l₂.map (V.added k f)).sum)

variable {V} {S : System Op Res World Job Out} {P : Op → Prop} {I : World → Prop}
  {c : Config Op Res World Job Out}

theorem Revises.commits {e : Entry Op Res World} {k : K} {row : R}
    (h : V.Revises e.ev.op e.pre e.post k row) : V.Commits e k := by
  unfold Commits
  rw [versionAt, h.history]
  simp only [List.head?_cons, Option.map_some, Option.getD_some, h.version]
  omega

theorem Keeps.invariant (h : V.Keeps S P I) (hc : S.Reachable c) : I c.world := by
  induction hc with
  | init hw => exact (h.init _ hw).1
  | @step c d hc hs ih =>
      cases hs with
      | spawn _ => exact ih
      | @drift w hd => exact (h.drift _ _ ih hd).1
      | @request i job op f r w hi hserve =>
          have hop := (hc.step (.request hi hserve)).requests h.uses ⟨i, c.world, ⟨op, r⟩, w⟩
            (List.mem_append_right _ List.mem_cons_self)
          exact (h.serve _ op r w ih hop hserve).1

/-- What an entry did to a key. -/
theorem Keeps.entry (h : V.Keeps S P I) (hc : S.Reachable c) {e : Entry Op Res World}
    (he : e ∈ c.log) : I e.pre ∧ I e.post ∧ ∀ k,
      V.history e.post k = V.history e.pre k ∨ ∃ row, V.Revises e.ev.op e.pre e.post k row := by
  obtain ⟨l₁, l₂, hlog⟩ := List.append_of_mem he
  obtain ⟨d, hd, -, hworld⟩ := hc.before l₁ e l₂ hlog
  have hI := h.invariant hd
  rw [hworld] at hI
  exact ⟨hI, h.serve _ _ _ _ hI (hc.requests h.uses e he) (hc.served e he)⟩

/-- A history only grows. -/
theorem Keeps.grows (h : V.Keeps S P I) (hc : S.Reachable c) :
    ∀ e ∈ c.log, ∀ k, V.history e.post k <:+ V.history c.world k := by
  have hdirected : ∀ k, S.Directed P fun w w' => I w →
      I w' ∧ V.history w k <:+ V.history w' k := by
    intro k
    refine ⟨h.uses, fun w hw => ⟨hw, List.suffix_rfl⟩, ?_, ?_, ?_⟩
    · intro u v w huv hvw hu
      obtain ⟨hv, hsuffix⟩ := huv hu
      obtain ⟨hw, hsuffix'⟩ := hvw hv
      exact ⟨hw, hsuffix.trans hsuffix'⟩
    · intro w op r w' hop hserve hw
      obtain ⟨hw', hhistory⟩ := h.serve w op r w' hw hop hserve
      refine ⟨hw', ?_⟩
      rcases hhistory k with hsame | ⟨row, hrow⟩
      · exact hsame ▸ List.suffix_rfl
      · rw [hrow.history]
        exact List.suffix_cons _ _
    · intro w w' hdrift hw
      obtain ⟨hw', hsame⟩ := h.drift w w' hw hdrift
      refine ⟨hw', ?_⟩
      exact hsame k ▸ List.suffix_rfl
  intro e he k
  exact (((hdirected k).reaches hc e he).2 (h.entry hc he).2.1).2

/-- Versions fall along a history, from the newest row on. -/
theorem Keeps.decreasing (h : V.Keeps S P I) (hc : S.Reachable c) (k : K) :
    (V.history c.world k).Pairwise (fun row row' => V.version row' < V.version row) ∧
      ∀ row ∈ V.history c.world k, V.version row ≤ V.versionAt c.world k := by
  induction hc with
  | init hw => simp [(h.init _ hw).2 k]
  | @step c d hc hs ih =>
      cases hs with
      | spawn _ => exact ih
      | @drift w hd =>
          simp only [versionAt, (h.drift _ _ (h.invariant hc) hd).2 k]
          exact ih
      | @request i job op f r w hi hserve =>
          obtain ⟨-, -, hentry⟩ := h.entry (hc.step (.request hi hserve))
            (e := ⟨i, c.world, ⟨op, r⟩, w⟩) (List.mem_append_right _ List.mem_cons_self)
          rcases hentry k with hsame | ⟨row, hrow⟩
          · simp only at hsame
            simp only [versionAt, hsame]
            exact ih
          · have hhistory : V.history w k = row :: V.history c.world k := hrow.history
            have hversion : V.versionAt w k = V.version row := by
              rw [versionAt, hhistory]
              rfl
            have hnew : V.version row = V.versionAt c.world k + 1 := hrow.version
            simp only [hversion, hhistory, List.pairwise_cons, List.mem_cons]
            refine ⟨⟨?_, ih.1⟩, ?_⟩
            · intro old hold
              have := ih.2 old hold
              omega
            · rintro old (rfl | hold)
              · omega
              · have := ih.2 old hold
                omega

theorem Keeps.determined (h : V.Keeps S P I) (hc : S.Reachable c) {k : K} {row row' : R}
    (hrow : row ∈ V.history c.world k) (hrow' : row' ∈ V.history c.world k)
    (hversion : V.version row = V.version row') : row = row' := by
  have hdistinct : ((V.history c.world k).map V.version).Nodup := by
    rw [List.Nodup, List.pairwise_map]
    exact (h.decreasing hc k).1.imp fun hlt => by omega
  exact List.inj_on_of_nodup_map hdistinct hrow hrow' hversion

theorem Keeps.replaced_mem (h : V.Keeps S P I) (hc : S.Reachable c) {i : Nat} {k : K} {old new : R}
    (hreplaced : V.Replaced c i k (some old) new) : old ∈ V.history c.world k := by
  obtain ⟨e, he, -, hold, hnew⟩ := hreplaced
  apply (h.grows hc e he k).subset
  rw [hnew]
  exact List.mem_cons_of_mem _ (List.mem_of_mem_head? hold)

variable [DecidableEq K]

theorem added_of_same {e : Entry Op Res World} {k : K}
    (hsame : V.history e.post k = V.history e.pre k) (f : F) : V.added k f e = 0 := by
  have hnot : ¬ V.Commits e k := fun hcommits => hcommits (versionAt_congr hsame)
  unfold added
  split
  · rw [if_neg (fun hand => hnot hand.2.2)]
  · rfl

/-- A commit that adds, adds what it says. -/
theorem Revises.counterAt {e : Entry Op Res World} {k : K} {row : R}
    (h : V.Revises e.ev.op e.pre e.post k row) (hadds : (V.adds e.ev.op).isSome = true) (f : F) :
    V.counterAt e.post k f = (V.counterAt e.pre k f).map (· + V.added k f e) := by
  obtain ⟨⟨k', f', δ⟩, hδ⟩ := Option.isSome_iff_exists.mp hadds
  obtain ⟨rfl, hcounter⟩ := h.adds k' f' δ hδ
  have hafter : V.counterAt e.post k' f = V.counter row f := by
    rw [Revisions.counterAt, h.history]
    rfl
  rw [hafter, hcounter f]
  by_cases hf : f = f'
  · subst hf
    have hadded : V.added k' f e = δ := by simp [added, hδ, h.commits]
    rw [if_pos rfl, hadded]
  · have hadded : V.added k' f e = 0 := by simp [added, hδ, Ne.symm hf]
    rw [if_neg hf, hadded]
    simp

/-- Additions add up, over every run. -/
theorem Keeps.adds_up (h : V.Keeps S P I) (hc : S.Reachable c) :
    ∀ l₁ e l₂, c.log = l₁ ++ e :: l₂ → ∀ k,
      (∀ x ∈ l₂, V.Commits x k → (V.adds x.ev.op).isSome = true) → ∀ f,
        V.counterAt c.world k f =
          (V.counterAt e.post k f).map (· + (l₂.map (V.added k f)).sum) := by
  induction hc with
  | init _ => simp
  | @step c d hc hs ih =>
      intro l₁ e l₂ hlog k honly f
      cases hs with
      | spawn _ => exact ih l₁ e l₂ hlog k honly f
      | @drift w hd =>
          rw [counterAt_congr ((h.drift _ _ (h.invariant hc) hd).2 k)]
          exact ih l₁ e l₂ hlog k honly f
      | @request i job op g r w hi hserve =>
          obtain ⟨-, -, hentry⟩ := h.entry (hc.step (.request hi hserve))
            (e := ⟨i, c.world, ⟨op, r⟩, w⟩) (List.mem_append_right _ List.mem_cons_self)
          rcases List.eq_nil_or_concat l₂ with rfl | ⟨l₃, x, rfl⟩
          · obtain ⟨-, he⟩ := List.append_inj' hlog rfl
            cases he
            simp
          · rw [List.concat_eq_append] at *
            rw [← List.cons_append, ← List.append_assoc] at hlog
            obtain ⟨hlogc, hx⟩ := List.append_inj' hlog rfl
            cases hx
            have hbefore := ih l₁ e l₃ hlogc k
              (fun x hx => honly x (List.mem_append_left _ hx)) f
            -- the last entry adds what it added to the sum
            have hlast : V.counterAt w k f = (V.counterAt c.world k f).map
                (· + V.added k f ⟨i, c.world, ⟨op, r⟩, w⟩) := by
              rcases hentry k with hsame | ⟨row, hrow⟩
              · rw [added_of_same hsame]
                simp [counterAt_congr hsame]
              · exact hrow.counterAt
                  (honly _ (List.mem_append_right _ List.mem_cons_self) hrow.commits) f
            rw [hlast, hbefore, List.map_append, List.sum_append]
            simp [add_assoc, Function.comp_def]

theorem Keeps.noLostUpdate (h : V.Keeps S P I) (hc : S.Reachable c) : V.NoLostUpdate c where
  bumps := by
    intro e he k hne
    rcases (h.entry hc he).2.2 k with hsame | ⟨row, hrow⟩
    · exact absurd hsame hne
    · exact ⟨row, hrow.history, hrow.version⟩
  determined := fun k row hrow row' hrow' hversion => h.determined hc hrow hrow' hversion
  adds := h.adds_up hc

end Laws

end Revisions

end SaasFoundation.Lib
