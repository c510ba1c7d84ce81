import SaasFoundation.Lib.Asks

/-!
# What a run does in one direction only

A relation between an earlier and a later world that every request and every
drift keeps: clocks run forwards, counters grow, rows get older. What the
programs never ask for needs no proof.
-/

namespace SaasFoundation.Lib.System

variable {Op : Type} {Res : Op → Type} {World Job Out : Type} {S : System Op Res World Job Out}
  {c : Config Op Res World Job Out}

/-- Every request of a run is one that the programs can make. -/
theorem Reachable.requests {P : Op → Prop} (huses : ∀ job, (S.start job).Uses P)
    (h : S.Reachable c) : ∀ e ∈ c.log, P e.ev.op := by
  intro e he
  obtain ⟨l₁, l₂, hlog⟩ := List.append_of_mem he
  obtain ⟨t, -, hP⟩ := h.asked (J := fun _ _ op => P op)
    (fun job => (huses job).asks fun _ _ hop => hop) l₁ e l₂ hlog
  exact hP

/-- A preorder of worlds that a run follows; `P` are the requests that the
programs make. -/
structure Directed (S : System Op Res World Job Out) (P : Op → Prop) (R : World → World → Prop) :
    Prop where
  uses : ∀ job, (S.start job).Uses P
  refl : ∀ w, R w w
  trans : ∀ u v w, R u v → R v w → R u w
  serve : ∀ w op r w', P op → S.serve w op r w' → R w w'
  drift : ∀ w w', S.drift w w' → R w w'

variable {P : Op → Prop} {R : World → World → Prop}

/-- Every world of the run is related to the last one. -/
theorem Directed.reaches (hR : S.Directed P R) (h : S.Reachable c) :
    ∀ e ∈ c.log, R e.pre c.world ∧ R e.post c.world := by
  induction h with
  | init _ => simp
  | @step c d hc hs ih =>
      cases hs with
      | spawn _ => exact ih
      | @request i job op k r w hi hserve =>
          have hop := (hc.step (.request hi hserve)).requests hR.uses ⟨i, c.world, ⟨op, r⟩, w⟩
            (List.mem_append_right _ List.mem_cons_self)
          have hlast := hR.serve c.world op r w hop hserve
          intro e he
          rcases List.mem_append.mp he with he | he
          · obtain ⟨hpre, hpost⟩ := ih e he
            exact ⟨hR.trans _ _ _ hpre hlast, hR.trans _ _ _ hpost hlast⟩
          · rw [List.mem_singleton.mp he]
            exact ⟨hlast, hR.refl w⟩
      | @drift w hd =>
          intro e he
          obtain ⟨hpre, hpost⟩ := ih e he
          exact ⟨hR.trans _ _ _ hpre (hR.drift _ _ hd), hR.trans _ _ _ hpost (hR.drift _ _ hd)⟩

/-- The run has come from a world it could start in. -/
theorem Directed.started (hR : S.Directed P R) (h : S.Reachable c) :
    ∃ w, S.init w ∧ R w c.world := by
  induction h with
  | @init w hw => exact ⟨w, hw, hR.refl w⟩
  | @step c d hc hs ih =>
      obtain ⟨start, hinit, hle⟩ := ih
      cases hs with
      | spawn _ => exact ⟨start, hinit, hle⟩
      | @request i job op k r w hi hserve =>
          have hlast := hR.reaches (hc.step (.request hi hserve)) ⟨i, c.world, ⟨op, r⟩, w⟩
            (List.mem_append_right _ List.mem_cons_self)
          exact ⟨start, hinit, hR.trans _ _ _ hle hlast.1⟩
      | drift hd => exact ⟨start, hinit, hR.trans _ _ _ hle (hR.drift _ _ hd)⟩

/-- The world an earlier entry left, and the one a later entry met. -/
theorem Directed.between (hR : S.Directed P R) (h : S.Reachable c)
    {l₁ l₂ : List (Entry Op Res World)} {e : Entry Op Res World} (hlog : c.log = l₁ ++ e :: l₂) :
    ∀ e' ∈ l₁, R e'.pre e.pre ∧ R e'.post e.pre := by
  obtain ⟨d, hd, rfl, hworld⟩ := h.before l₁ e l₂ hlog
  rw [← hworld]
  exact hR.reaches hd

end SaasFoundation.Lib.System
