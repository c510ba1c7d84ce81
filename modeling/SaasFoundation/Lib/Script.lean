import SaasFoundation.Lib.Threads

/-!
# Running a schedule

A schedule is a list of actions: start this invocation, answer the pending
request of that thread, let the world move. An interpreter decides the
three relations of a system; a schedule it accepts ends in a reachable
configuration.
-/

namespace SaasFoundation.Lib

variable {Op : Type} {Res : Op → Type} {World Job Out Move : Type}

/-- Decision procedures for the relations of a system, sound but not
necessarily complete. -/
structure Interpreter (S : System Op Res World Job Out) (Move : Type) where
  permits : List (Thread Op Res Job Out) → Job → Bool
  serve : World → Event Op Res → Option World
  drift : World → Move → Option World
  permits_sound : ∀ ts job, permits ts job = true → S.permits ts job
  serve_sound : ∀ w e w', serve w e = some w' → S.serve w e.op e.res w'
  drift_sound : ∀ w m w', drift w m = some w' → S.drift w w'

/-- A step of a schedule. A pending request is answered by what the given
outside says about it in the world it meets. -/
inductive Action (Op : Type) (Res : Op → Type) (World Job Move : Type) where
  | spawn (job : Job)
  | answer (tid : Nat) (outside : World → (op : Op) → Res op)
  | drift (move : Move)

namespace Interpreter

variable {S : System Op Res World Job Out} (I : Interpreter S Move)

def act (c : Config Op Res World Job Out) :
    Action Op Res World Job Move → Option (Config Op Res World Job Out)
  | .spawn job =>
      if I.permits c.threads job then
        some { c with threads := c.threads ++ [⟨job, S.start job⟩] }
      else none
  | .answer i outside =>
      match c.threads[i]? with
      | some ⟨job, .ask op k⟩ =>
          let r := outside c.world op
          (I.serve c.world ⟨op, r⟩).map fun w =>
            ⟨w, c.threads.set i ⟨job, k r⟩, c.log ++ [⟨i, c.world, ⟨op, r⟩, w⟩]⟩
      | _ => none
  | .drift m => (I.drift c.world m).map fun w => { c with world := w }

def run (c : Config Op Res World Job Out) :
    List (Action Op Res World Job Move) → Option (Config Op Res World Job Out)
  | [] => some c
  | a :: as => (I.act c a).bind fun d => run d as

theorem act_step {c d : Config Op Res World Job Out} {a : Action Op Res World Job Move}
    (h : I.act c a = some d) : S.Step c d := by
  cases a with
  | spawn job =>
      simp only [act, Option.ite_none_right_eq_some, Option.some.injEq] at h
      obtain ⟨hperm, rfl⟩ := h
      exact .spawn (I.permits_sound _ _ hperm)
  | answer i outside =>
      simp only [act] at h
      split at h
      · rename_i job op k ht
        obtain ⟨w, hw, rfl⟩ := Option.map_eq_some_iff.mp h
        exact .request ht (I.serve_sound _ _ _ hw)
      · cases h
  | drift m =>
      obtain ⟨w, hw, rfl⟩ := Option.map_eq_some_iff.mp h
      exact .drift (I.drift_sound _ _ _ hw)

/-- A schedule the interpreter accepts is a run of the system. -/
theorem run_reachable {c d : Config Op Res World Job Out}
    {as : List (Action Op Res World Job Move)} (hc : S.Reachable c) (h : I.run c as = some d) :
    S.Reachable d := by
  induction as generalizing c with
  | nil =>
      cases h
      exact hc
  | cons a as ih =>
      obtain ⟨e, he, hrest⟩ := Option.bind_eq_some_iff.mp h
      exact ih (hc.step (I.act_step he)) hrest

/-- A schedule that can be run from an initial world, with a property of
its end that can be computed. -/
theorem exists_reachable {w : World} (hinit : S.init w)
    (as : List (Action Op Res World Job Move)) (P : Config Op Res World Job Out → Bool)
    (h : (I.run ⟨w, [], []⟩ as).any P = true) : ∃ c, S.Reachable c ∧ P c = true := by
  obtain ⟨c, hc, hP⟩ := (Option.any_eq_true _ _).mp h
  exact ⟨c, I.run_reachable (.init hinit) hc, hP⟩

end Interpreter

/-! ## Answers that are computed

Where replies cannot be compared, the schedule says how a request is
delivered and the world gives the reply. -/

/-- A responder decides the relations of a system; `Choice` is what the
outside may do to a request. -/
structure Responder (S : System Op Res World Job Out) (Choice Move : Type) where
  permits : List (Thread Op Res Job Out) → Job → Bool
  respond : World → Choice → (op : Op) → Res op × World
  drift : World → Move → Option World
  permits_sound : ∀ ts job, permits ts job = true → S.permits ts job
  respond_sound : ∀ w choice op, S.serve w op (respond w choice op).1 (respond w choice op).2
  drift_sound : ∀ w m w', drift w m = some w' → S.drift w w'

inductive Turn (Job Choice Move : Type) where
  | spawn (job : Job)
  | answer (tid : Nat) (choice : Choice)
  | drift (move : Move)

namespace Responder

variable {S : System Op Res World Job Out} {Choice : Type} (I : Responder S Choice Move)

def act (c : Config Op Res World Job Out) :
    Turn Job Choice Move → Option (Config Op Res World Job Out)
  | .spawn job =>
      if I.permits c.threads job then
        some { c with threads := c.threads ++ [⟨job, S.start job⟩] }
      else none
  | .answer i choice =>
      match c.threads[i]? with
      | some ⟨job, .ask op k⟩ =>
          let r := I.respond c.world choice op
          some ⟨r.2, c.threads.set i ⟨job, k r.1⟩, c.log ++ [⟨i, c.world, ⟨op, r.1⟩, r.2⟩]⟩
      | _ => none
  | .drift m => (I.drift c.world m).map fun w => { c with world := w }

def run (c : Config Op Res World Job Out) :
    List (Turn Job Choice Move) → Option (Config Op Res World Job Out)
  | [] => some c
  | a :: as => (I.act c a).bind fun d => run d as

theorem act_step {c d : Config Op Res World Job Out} {a : Turn Job Choice Move}
    (h : I.act c a = some d) : S.Step c d := by
  cases a with
  | spawn job =>
      simp only [act, Option.ite_none_right_eq_some, Option.some.injEq] at h
      obtain ⟨hperm, rfl⟩ := h
      exact .spawn (I.permits_sound _ _ hperm)
  | answer i choice =>
      simp only [act] at h
      split at h
      · rename_i job op k ht
        cases h
        exact .request ht (I.respond_sound _ _ _)
      · cases h
  | drift m =>
      obtain ⟨w, hw, rfl⟩ := Option.map_eq_some_iff.mp h
      exact .drift (I.drift_sound _ _ _ hw)

theorem run_reachable {c d : Config Op Res World Job Out} {as : List (Turn Job Choice Move)}
    (hc : S.Reachable c) (h : I.run c as = some d) : S.Reachable d := by
  induction as generalizing c with
  | nil =>
      cases h
      exact hc
  | cons a as ih =>
      obtain ⟨e, he, hrest⟩ := Option.bind_eq_some_iff.mp h
      exact ih (hc.step (I.act_step he)) hrest

theorem exists_reachable {w : World} (hinit : S.init w) (as : List (Turn Job Choice Move))
    (P : Config Op Res World Job Out → Bool) (h : (I.run ⟨w, [], []⟩ as).any P = true) :
    ∃ c, S.Reachable c ∧ P c = true := by
  obtain ⟨c, hc, hP⟩ := (Option.any_eq_true _ _).mp h
  exact ⟨c, I.run_reachable (.init hinit) hc, hP⟩

end Responder

/-- A program that runs alone over a world that answers it. -/
def Prog.solo {α : Type} (respond : World → (op : Op) → Res op × World) :
    Prog Op Res α → World → World × α
  | .ret a, w => (w, a)
  | .ask op k, w => (k (respond w op).1).solo respond (respond w op).2

end SaasFoundation.Lib
