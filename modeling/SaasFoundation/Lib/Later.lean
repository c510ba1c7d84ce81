import Mathlib.Logic.Relation
import SaasFoundation.Lib.Evolution
import SaasFoundation.Lib.Script

/-!
# One configuration after another

A call that was started after some moment of a run is one that the
configuration of that moment does not have. What a run adds to it is a tail
of the log; calls that had returned have no part in the tail.
-/

namespace SaasFoundation.Lib.System

variable {Op : Type} {Res : Op → Type} {World Job Out : Type} {S : System Op Res World Job Out}
  {c d : Config Op Res World Job Out}

/-- `d` comes after `c` in a run. -/
abbrev Later (S : System Op Res World Job Out) :
    Config Op Res World Job Out → Config Op Res World Job Out → Prop :=
  Relation.ReflTransGen S.Step

theorem Later.reachable (h : S.Later c d) (hc : S.Reachable c) : S.Reachable d := by
  induction h with
  | refl => exact hc
  | tail _ hs ih => exact ih.step hs

theorem Progress.refl (ts : List (Thread Op Res Job Out)) : Progress ts ts :=
  fun _ t ht => ⟨t, ht, rfl, fun _ h => h⟩

theorem Progress.trans {ts us vs : List (Thread Op Res Job Out)} (h : Progress ts us)
    (h' : Progress us vs) : Progress ts vs := by
  intro i t ht
  obtain ⟨u, hu, hjob, hret⟩ := h i t ht
  obtain ⟨v, hv, hjob', hret'⟩ := h' i u hu
  exact ⟨v, hv, hjob'.trans hjob, fun a ha => hret' a (hret a ha)⟩

/-- What the run from `c` to `d` has added to the log. -/
structure Since (c d : Config Op Res World Job Out) (new : List (Entry Op Res World)) : Prop where
  log : d.log = c.log ++ new
  progress : Progress c.threads d.threads
  /-- Calls that have returned make no more requests. -/
  active : ∀ e ∈ new, ∀ t a, c.threads[e.tid]? = some t → t.prog ≠ .ret a

theorem Since.refl (c : Config Op Res World Job Out) : Since c c [] where
  log := by simp
  progress := .refl _
  active := by simp

theorem Later.since (h : S.Later c d) : ∃ new, Since c d new := by
  induction h with
  | refl => exact ⟨[], .refl c⟩
  | @tail d e _ hs ih =>
      obtain ⟨new, hnew⟩ := ih
      have hprogress := hnew.progress.trans hs.progress
      cases hs with
      | spawn _ | drift _ => exact ⟨new, hnew.log, hprogress, hnew.active⟩
      | @request i job op k r w hi _ =>
          refine ⟨new ++ [⟨i, d.world, ⟨op, r⟩, w⟩], ?_, hprogress, ?_⟩
          · rw [hnew.log, List.append_assoc]
          · intro x hx t a ht hret
            rcases List.mem_append.mp hx with hx | hx
            · exact hnew.active x hx t a ht hret
            · -- the call would still have returned when it made the request
              rw [List.mem_singleton.mp hx] at ht
              obtain ⟨u, hu, -, hkeep⟩ := hnew.progress i t ht
              rw [hi] at hu
              cases hu
              exact nomatch hkeep a hret

/-- The history of a call that was started in between. -/
theorem Since.localLog_new {new : List (Entry Op Res World)} (h : Since c d new)
    (hc : S.Reachable c) {i : Nat} (hi : c.threads.length ≤ i) :
    localLog d.log i = localLog new i := by
  have hold : localLog c.log i = [] := by
    simp only [localLog, List.map_eq_nil_iff, List.filter_eq_nil_iff, decide_eq_true_eq]
    intro e he htid
    have := hc.tid_lt e he
    omega
  rw [h.log, localLog_append, hold, List.nil_append]

/-- The configuration in which a new entry was served. -/
theorem Later.before (h : S.Later c d) : ∀ n₁ e n₂, d.log = c.log ++ (n₁ ++ e :: n₂) →
    ∃ b, S.Later c b ∧ S.Later b d ∧ b.log = c.log ++ n₁ ∧ b.world = e.pre := by
  induction h with
  | refl => simp
  | @tail d x hd hs ih =>
      intro n₁ e n₂ hlog
      have hold : ∀ n₃, d.log = c.log ++ (n₁ ++ e :: n₃) →
          ∃ b, S.Later c b ∧ S.Later b x ∧ b.log = c.log ++ n₁ ∧ b.world = e.pre := by
        intro n₃ hlog'
        obtain ⟨b, hcb, hbd, hrest⟩ := ih n₁ e n₃ hlog'
        exact ⟨b, hcb, hbd.tail hs, hrest⟩
      cases hs with
      | spawn _ => exact hold n₂ hlog
      | drift _ => exact hold n₂ hlog
      | request hi hserve =>
          rcases List.eq_nil_or_concat n₂ with rfl | ⟨n₃, y, rfl⟩
          · rw [← List.append_assoc] at hlog
            obtain ⟨hd', he⟩ := List.append_inj' hlog rfl
            cases he
            exact ⟨d, hd, .single (.request hi hserve), hd', rfl⟩
          · rw [List.concat_eq_append, ← List.cons_append, ← List.append_assoc n₁,
              ← List.append_assoc c.log] at hlog
            exact hold n₃ (List.append_inj' hlog rfl).1

/-- A run leads from its worlds to later ones. -/
theorem Directed.later {P : Op → Prop} {R : World → World → Prop} (hR : S.Directed P R)
    (hc : S.Reachable c) (h : S.Later c d) : R c.world d.world := by
  induction h with
  | refl => exact hR.refl _
  | @tail d x hd hs ih =>
      have hreach := Later.reachable hd hc
      cases hs with
      | spawn _ => exact ih
      | @request i job op k r w hi hserve =>
          have hlast := hR.reaches (hreach.step (.request hi hserve)) ⟨i, d.world, ⟨op, r⟩, w⟩
            (List.mem_append_right _ List.mem_cons_self)
          exact hR.trans _ _ _ ih hlast.1
      | drift hdrift => exact hR.trans _ _ _ ih (hR.drift _ _ hdrift)

end SaasFoundation.Lib.System

namespace SaasFoundation.Lib.Interpreter

variable {Op : Type} {Res : Op → Type} {World Job Out Move : Type}
  {S : System Op Res World Job Out} (I : Interpreter S Move)

theorem run_later {c d : Config Op Res World Job Out} {as : List (Action Op Res World Job Move)}
    (h : I.run c as = some d) : S.Later c d := by
  induction as generalizing c with
  | nil =>
      cases h
      exact .refl
  | cons a as ih =>
      obtain ⟨e, he, hrest⟩ := Option.bind_eq_some_iff.mp h
      exact (ih hrest).head (I.act_step he)

/-- Two schedules, one after the other, with a property of their ends. -/
theorem exists_later {w : World} (hinit : S.init w) (as bs : List (Action Op Res World Job Move))
    (P : Config Op Res World Job Out → Config Op Res World Job Out → Bool)
    (h : ((I.run ⟨w, [], []⟩ as).any fun c => (I.run c bs).any (P c)) = true) :
    ∃ c d, S.Reachable c ∧ S.Later c d ∧ P c d = true := by
  obtain ⟨c, hc, hrest⟩ := (Option.any_eq_true _ _).mp h
  obtain ⟨d, hd, hP⟩ := (Option.any_eq_true _ _).mp hrest
  exact ⟨c, d, I.run_reachable (.init hinit) hc, I.run_later hd, hP⟩

end SaasFoundation.Lib.Interpreter

namespace SaasFoundation.Lib.Responder

variable {Op : Type} {Res : Op → Type} {World Job Out Choice Move : Type}
  {S : System Op Res World Job Out} (I : Responder S Choice Move)

theorem run_later {c d : Config Op Res World Job Out} {as : List (Turn Job Choice Move)}
    (h : I.run c as = some d) : S.Later c d := by
  induction as generalizing c with
  | nil =>
      cases h
      exact .refl
  | cons a as ih =>
      obtain ⟨e, he, hrest⟩ := Option.bind_eq_some_iff.mp h
      exact (ih hrest).head (I.act_step he)

/-- Two schedules, one after the other, with a property of their ends. -/
theorem exists_later {w : World} (hinit : S.init w) (as bs : List (Turn Job Choice Move))
    (P : Config Op Res World Job Out → Config Op Res World Job Out → Bool)
    (h : ((I.run ⟨w, [], []⟩ as).any fun c => (I.run c bs).any (P c)) = true) :
    ∃ c d, S.Reachable c ∧ S.Later c d ∧ P c d = true := by
  obtain ⟨c, hc, hrest⟩ := (Option.any_eq_true _ _).mp h
  obtain ⟨d, hd, hP⟩ := (Option.any_eq_true _ _).mp hrest
  exact ⟨c, d, I.run_reachable (.init hinit) hc, I.run_later hd, hP⟩

end SaasFoundation.Lib.Responder
