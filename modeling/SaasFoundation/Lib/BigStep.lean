import SaasFoundation.Lib.Prog

/-!
# Calls made one after another

A program run to its end over a world, with nothing in between: the
big-step meaning of a handler whose caller waits for it. The world answers
as it may, so a call can complete in more than one way.
-/

namespace SaasFoundation.Lib.Prog

variable {Op : Type} {Res : Op → Type} {World α β : Type}
  {serve : World → (op : Op) → Res op → World → Prop}

/-- From the world `w` the program may return `a` and leave `w'`. -/
def Completes (serve : World → (op : Op) → Res op → World → Prop) :
    Prog Op Res α → World → α → World → Prop
  | .ret b, w, a, w' => a = b ∧ w' = w
  | .ask op k, w, a, w' => ∃ r v, serve w op r v ∧ (k r).Completes serve v a w'

@[simp] theorem completes_ret {a b : α} {w w' : World} :
    (Prog.ret b : Prog Op Res α).Completes serve w a w' ↔ a = b ∧ w' = w := Iff.rfl

@[simp] theorem completes_ask {op : Op} {k : Res op → Prog Op Res α} {a : α} {w w' : World} :
    (Prog.ask op k).Completes serve w a w' ↔
      ∃ r v, serve w op r v ∧ (k r).Completes serve v a w' := Iff.rfl

theorem completes_bind {p : Prog Op Res α} {f : α → Prog Op Res β} {b : β} {w w' : World} :
    (p >>= f).Completes serve w b w' ↔
      ∃ a v, p.Completes serve w a v ∧ (f a).Completes serve v b w' := by
  induction p generalizing w with
  | ret a => simp
  | ask op k ih =>
      simp only [ask_bind, completes_ask, ih]
      constructor
      · rintro ⟨r, v, hserve, a, u, hk, hf⟩
        exact ⟨a, u, ⟨r, v, hserve, hk⟩, hf⟩
      · rintro ⟨a, u, ⟨r, v, hserve, hk⟩, hf⟩
        exact ⟨r, v, hserve, a, u, hk, hf⟩

/-- Every request the program can make from the world `w`, on every way it
can go, takes the world from one to the next as `R` says. -/
def Always (serve : World → (op : Op) → Res op → World → Prop) (R : World → World → Prop) :
    Prog Op Res α → World → Prop
  | .ret _, _ => True
  | .ask op k, w => ∀ r v, serve w op r v → R w v ∧ (k r).Always serve R v

/-- The worlds along the ways the program can go; it may break off
anywhere. -/
def Visits (serve : World → (op : Op) → Res op → World → Prop) :
    Prog Op Res α → World → World → Prop
  | .ret _, w, w' => w' = w
  | .ask op k, w, w' => w' = w ∨ ∃ r v, serve w op r v ∧ (k r).Visits serve v w'

variable {R R' : World → World → Prop}

theorem Always.bind {p : Prog Op Res α} {f : α → Prog Op Res β} {w : World}
    (hp : p.Always serve R w)
    (hf : ∀ a v, p.Completes serve w a v → (f a).Always serve R v) :
    (p >>= f).Always serve R w := by
  induction p generalizing w with
  | ret a => exact hf a w ⟨rfl, rfl⟩
  | ask op k ih =>
      intro r v hserve
      obtain ⟨hstep, hrest⟩ := hp r v hserve
      exact ⟨hstep, ih r hrest fun a u ha => hf a u ⟨r, v, hserve, ha⟩⟩

theorem Always.and {p : Prog Op Res α} {w : World} (h : p.Always serve R w)
    (h' : p.Always serve R' w) : p.Always serve (fun w v => R w v ∧ R' w v) w := by
  induction p generalizing w with
  | ret a => trivial
  | ask op k ih =>
      intro r v hserve
      exact ⟨⟨(h r v hserve).1, (h' r v hserve).1⟩, ih r (h r v hserve).2 (h' r v hserve).2⟩

theorem Always.mono {p : Prog Op Res α} {w : World} (h : p.Always serve R w)
    (hR : ∀ w v, R w v → R' w v) : p.Always serve R' w := by
  induction p generalizing w with
  | ret a => trivial
  | ask op k ih =>
      intro r v hserve
      exact ⟨hR _ _ (h r v hserve).1, ih r (h r v hserve).2⟩

/-- An invariant of the steps may be used at each of them. -/
theorem Always.with_invariant {I : World → Prop} {p : Prog Op Res α} {w : World}
    (hI : p.Always serve (fun w v => I w → I v) w) (h : p.Always serve R w) (hw : I w) :
    p.Always serve (fun w v => I w ∧ R w v) w := by
  induction p generalizing w with
  | ret a => trivial
  | ask op k ih =>
      intro r v hserve
      obtain ⟨hstep, hrest⟩ := hI r v hserve
      exact ⟨⟨hw, (h r v hserve).1⟩, ih r hrest (h r v hserve).2 (hstep hw)⟩

/-- What holds of a step for every request of the program. -/
theorem Uses.always {P : Op → Prop} {p : Prog Op Res α} (hp : p.Uses P)
    (hstep : ∀ w op r v, P op → serve w op r v → R w v) (w : World) : p.Always serve R w := by
  induction p generalizing w with
  | ret a => trivial
  | ask op k ih =>
      intro r v hserve
      exact ⟨hstep _ _ _ _ hp.1 hserve, ih r (hp.2 r) v⟩

/-- An invariant of the steps holds wherever the program gets to. -/
theorem Visits.invariant {I : World → Prop} {p : Prog Op Res α} {w w' : World}
    (h : p.Visits serve w w') (hp : p.Always serve (fun w v => I w → I v) w) (hw : I w) :
    I w' := by
  induction p generalizing w with
  | ret a =>
      rw [show w' = w from h]
      exact hw
  | ask op k ih =>
      rcases h with rfl | ⟨r, v, hserve, hrest⟩
      · exact hw
      · obtain ⟨hstep, halways⟩ := hp r v hserve
        exact ih r hrest halways (hstep hw)

theorem Completes.visits {p : Prog Op Res α} {a : α} {w w' : World}
    (h : p.Completes serve w a w') : p.Visits serve w w' := by
  induction p generalizing w with
  | ret b => exact h.2
  | ask op k ih =>
      obtain ⟨r, v, hserve, hrest⟩ := h
      exact .inr ⟨r, v, hserve, ih r hrest⟩

/-- What every request of the program keeps, the program keeps. -/
theorem Completes.keeps {R : World → World → Prop} {P : Op → Prop} {p : Prog Op Res α} {a : α}
    {w w' : World} (hrefl : ∀ w, R w w) (htrans : ∀ u v w, R u v → R v w → R u w)
    (hstep : ∀ w op r w', P op → serve w op r w' → R w w') (hp : p.Uses P)
    (h : p.Completes serve w a w') : R w w' := by
  induction p generalizing w with
  | ret b =>
      obtain ⟨-, rfl⟩ := h
      exact hrefl _
  | ask op k ih =>
      obtain ⟨r, v, hserve, hrest⟩ := h
      exact htrans _ _ _ (hstep _ _ _ _ hp.1 hserve) (ih r (hp.2 r) hrest)

/-- A program may return the same from a world that answers its requests
alike: `R` relates the two worlds, and every answer keeps them related. -/
theorem Completes.transfer {R : World → World → Prop} {P : Op → Prop} {p : Prog Op Res α} {a : α}
    {w w' v : World} (hstep : ∀ w v op r w', P op → R w v → serve w op r w' →
      ∃ v', serve v op r v' ∧ R w' v')
    (hp : p.Uses P) (hR : R w v) (h : p.Completes serve w a w') :
    ∃ v', p.Completes serve v a v' ∧ R w' v' := by
  induction p generalizing w v with
  | ret b =>
      obtain ⟨rfl, rfl⟩ := h
      exact ⟨v, ⟨rfl, rfl⟩, hR⟩
  | ask op k ih =>
      obtain ⟨r, u, hserve, hrest⟩ := h
      obtain ⟨v', hserve', hR'⟩ := hstep _ _ _ _ _ hp.1 hR hserve
      obtain ⟨v'', hdone, hlast⟩ := ih r (hp.2 r) hR' hrest
      exact ⟨v'', ⟨r, v', hserve', hdone⟩, hlast⟩

/-! ## Worlds that answer in one way -/

/-- The run of a program over a world that leaves nothing open. -/
def exec (step : World → (op : Op) → Res op × World) : Prog Op Res α → World → α × World
  | .ret a, w => (a, w)
  | .ask op k, w => (k (step w op).1).exec step (step w op).2

variable {step : World → (op : Op) → Res op × World}

@[simp] theorem exec_ret {a : α} {w : World} :
    (Prog.ret a : Prog Op Res α).exec step w = (a, w) := rfl

@[simp] theorem exec_ask {op : Op} {k : Res op → Prog Op Res α} {w : World} :
    (Prog.ask op k).exec step w = (k (step w op).1).exec step (step w op).2 := rfl

@[simp] theorem exec_bind {p : Prog Op Res α} {f : α → Prog Op Res β} {w : World} :
    (p >>= f).exec step w = (f (p.exec step w).1).exec step (p.exec step w).2 := by
  induction p generalizing w with
  | ret a => rfl
  | ask op k ih => exact ih _

end SaasFoundation.Lib.Prog
