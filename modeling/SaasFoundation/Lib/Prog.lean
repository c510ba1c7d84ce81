import Mathlib.Data.List.Basic

/-!
# Programs that talk to the outside

A handler is a finite tree: it has either returned, or it issues one
request and goes on with the reply. Every await of the source is one
`ask`, so that a scheduler may interleave handlers exactly there.

The tree says nothing about what the outside answers. A *run* pairs a
program with the requests it made and the replies it got; facts that hold
for every reply are facts about every run, and the store that constrains
the replies comes in only with `Threads`.
-/

namespace SaasFoundation.Lib

/-- A program over the requests `Op`, where request `op` is answered by a
`Res op`. -/
inductive Prog (Op : Type) (Res : Op → Type) (α : Type) : Type where
  | ret (a : α)
  | ask (op : Op) (k : Res op → Prog Op Res α)

/-- One request together with its reply. -/
structure Event (Op : Type) (Res : Op → Type) : Type where
  op : Op
  res : Res op

namespace Prog

variable {Op : Type} {Res : Op → Type} {α β γ : Type}

def bind (p : Prog Op Res α) (f : α → Prog Op Res β) : Prog Op Res β :=
  match p with
  | .ret a => f a
  | .ask op k => .ask op (fun r => (k r).bind f)

instance : Monad (Prog Op Res) where
  pure := .ret
  bind := bind

/-- Issue one request and return its reply. -/
def call (op : Op) : Prog Op Res (Res op) := .ask op .ret

@[simp] theorem pure_def (a : α) : (pure a : Prog Op Res α) = .ret a := rfl

@[simp] theorem ret_bind (a : α) (f : α → Prog Op Res β) :
    (Prog.ret a >>= f) = f a := rfl

@[simp] theorem ask_bind (op : Op) (k : Res op → Prog Op Res α)
    (f : α → Prog Op Res β) :
    (Prog.ask op k >>= f) = .ask op (fun r => k r >>= f) := rfl

@[simp] theorem call_bind (op : Op) (f : Res op → Prog Op Res β) :
    ((call op : Prog Op Res (Res op)) >>= f) = .ask op f := rfl

/-! ## Runs -/

/-- `Runs p es q`: having made the requests and got the replies `es`, the
program `p` has `q` left to do. -/
def Runs (p : Prog Op Res α) : List (Event Op Res) → Prog Op Res α → Prop
  | [], q => p = q
  | e :: es, q => ∃ k, p = .ask e.op k ∧ (k e.res).Runs es q

/-- A run to the end. -/
def Finishes (p : Prog Op Res α) (es : List (Event Op Res)) (a : α) : Prop :=
  p.Runs es (.ret a)

theorem Runs.append {p q r : Prog Op Res α} {es fs : List (Event Op Res)}
    (h : p.Runs es q) (h' : q.Runs fs r) : p.Runs (es ++ fs) r := by
  induction es generalizing p with
  | nil =>
      cases h
      exact h'
  | cons e es ih =>
      obtain ⟨k, rfl, hk⟩ := h
      exact ⟨k, rfl, ih hk⟩

/-- One more reply extends a run at its open end. -/
theorem Runs.snoc {p : Prog Op Res α} {es : List (Event Op Res)} {op : Op}
    {k : Res op → Prog Op Res α} (h : p.Runs es (.ask op k)) (r : Res op) :
    p.Runs (es ++ [⟨op, r⟩]) (k r) :=
  h.append ⟨k, rfl, rfl⟩

@[simp] theorem finishes_ret {a b : α} {es : List (Event Op Res)} :
    (Prog.ret b : Prog Op Res α).Finishes es a ↔ es = [] ∧ b = a := by
  cases es with
  | nil => simp [Finishes, Runs]
  | cons e es => simp [Finishes, Runs]

@[simp] theorem finishes_ask {op : Op} {k : Res op → Prog Op Res α} {a : α}
    {es : List (Event Op Res)} :
    (Prog.ask op k).Finishes es a ↔
      ∃ r fs, es = ⟨op, r⟩ :: fs ∧ (k r).Finishes fs a := by
  cases es with
  | nil => simp [Finishes, Runs]
  | cons e es =>
      obtain ⟨op', r⟩ := e
      constructor
      · rintro ⟨k', hk, hrun⟩
        cases hk
        exact ⟨r, es, rfl, hrun⟩
      · rintro ⟨r', fs, he, hrun⟩
        cases he
        exact ⟨k, rfl, hrun⟩

/-- A run of a sequence is a run of its first part followed by a run of the
rest: the one lemma by which the stages of a handler are taken apart. -/
theorem finishes_bind {p : Prog Op Res α} {f : α → Prog Op Res β} {b : β}
    {es : List (Event Op Res)} :
    (p >>= f).Finishes es b ↔
      ∃ es₁ es₂ a, es = es₁ ++ es₂ ∧ p.Finishes es₁ a ∧ (f a).Finishes es₂ b := by
  induction p generalizing es with
  | ret a => simp
  | ask op k ih =>
      simp only [ask_bind, finishes_ask, ih]
      constructor
      · rintro ⟨r, fs, rfl, es₁, es₂, a, rfl, h₁, h₂⟩
        exact ⟨⟨op, r⟩ :: es₁, es₂, a, rfl, ⟨r, es₁, rfl, h₁⟩, h₂⟩
      · rintro ⟨_, es₂, a, rfl, ⟨r, es₁, rfl, h₁⟩, h₂⟩
        exact ⟨r, es₁ ++ es₂, rfl, es₁, es₂, a, rfl, h₁, h₂⟩

/-- Where every request has some possible reply, a partial run is the
beginning of a complete one. Facts about the requests of complete runs
therefore hold of a handler that is still in flight. -/
theorem Runs.completes [∀ op, Nonempty (Res op)] {p q : Prog Op Res α}
    {es : List (Event Op Res)} (h : p.Runs es q) :
    ∃ fs a, p.Finishes (es ++ fs) a := by
  have hq : ∃ fs a, q.Finishes fs a := by
    clear h
    induction q with
    | ret a => exact ⟨[], a, rfl⟩
    | ask op k ih =>
        obtain ⟨r⟩ := (inferInstance : Nonempty (Res op))
        obtain ⟨fs, a, hfs⟩ := ih r
        exact ⟨⟨op, r⟩ :: fs, a, k, rfl, hfs⟩
  obtain ⟨fs, a, hfs⟩ := hq
  exact ⟨fs, a, h.append hfs⟩

/-- Run a program against an outside that always answers alike. -/
def play (outside : (op : Op) → Res op) : Prog Op Res α → List (Event Op Res) × α
  | .ret a => ([], a)
  | .ask op k =>
      let rest := (k (outside op)).play outside
      (⟨op, outside op⟩ :: rest.1, rest.2)

theorem play_finishes (outside : (op : Op) → Res op) (p : Prog Op Res α) :
    p.Finishes (p.play outside).1 (p.play outside).2 := by
  induction p with
  | ret a => rfl
  | ask op k ih => exact ⟨k, rfl, ih (outside op)⟩

theorem play_answers (outside : (op : Op) → Res op) (p : Prog Op Res α) :
    ∀ e ∈ (p.play outside).1, e.res = outside e.op := by
  induction p with
  | ret a => simp [play]
  | ask op k ih => exact List.forall_mem_cons.mpr ⟨rfl, ih (outside op)⟩

/-- A part of a run that has got past `pre` begins with all of it. -/
theorem past_prefix {es fs pre rest : List α} {e : α} (h : es ++ fs = pre ++ rest)
    (he : e ∈ es) (hpre : e ∉ pre) : ∃ as, es = pre ++ as := by
  rcases List.append_eq_append_iff.mp h with ⟨as, rfl, -⟩ | ⟨as, rfl, -⟩
  · exact absurd (List.mem_append_left _ he) hpre
  · exact ⟨as, rfl⟩

theorem mem_of_prefix {es fs pre rest : List α} {x e : α} (h : es ++ fs = pre ++ rest)
    (he : e ∈ es) (hpre : e ∉ pre) (hx : x ∈ pre) : x ∈ es := by
  obtain ⟨as, rfl⟩ := past_prefix h he hpre
  exact List.mem_append_left _ hx

/-! ## The requests a program can make -/

/-- Every request of the program satisfies `P`, whatever is answered. -/
def Uses (P : Op → Prop) : Prog Op Res α → Prop
  | .ret _ => True
  | .ask op k => P op ∧ ∀ r, (k r).Uses P

@[simp] theorem uses_ret {P : Op → Prop} {a : α} :
    (Prog.ret a : Prog Op Res α).Uses P := trivial

@[simp] theorem uses_ask {P : Op → Prop} {op : Op} {k : Res op → Prog Op Res α} :
    (Prog.ask op k).Uses P ↔ P op ∧ ∀ r, (k r).Uses P := Iff.rfl

theorem Uses.bind {P : Op → Prop} {p : Prog Op Res α} {f : α → Prog Op Res β}
    (hp : p.Uses P) (hf : ∀ a, (f a).Uses P) : (p >>= f).Uses P := by
  induction p with
  | ret a => exact hf a
  | ask op k ih => exact ⟨hp.1, fun r => ih r (hp.2 r)⟩

theorem Uses.mono {P Q : Op → Prop} {p : Prog Op Res α} (hp : p.Uses P)
    (h : ∀ op, P op → Q op) : p.Uses Q := by
  induction p with
  | ret a => trivial
  | ask op k ih => exact ⟨h op hp.1, fun r => ih r (hp.2 r)⟩

/-- A program in flight has only made, and will only make, the requests of
the program it started as. -/
theorem Uses.runs {P : Op → Prop} {p q : Prog Op Res α} (hp : p.Uses P)
    {es : List (Event Op Res)} (h : p.Runs es q) : (∀ e ∈ es, P e.op) ∧ q.Uses P := by
  induction es generalizing p with
  | nil =>
      cases h
      exact ⟨by simp, hp⟩
  | cons e es ih =>
      obtain ⟨k, rfl, hk⟩ := h
      obtain ⟨hes, hq⟩ := ih (hp.2 e.res) hk
      exact ⟨List.forall_mem_cons.mpr ⟨hp.1, hes⟩, hq⟩

theorem Uses.finishes {P : Op → Prop} {p : Prog Op Res α} (hp : p.Uses P)
    {es : List (Event Op Res)} {a : α} (h : p.Finishes es a) :
    ∀ e ∈ es, P e.op := by
  induction p generalizing es with
  | ret b =>
      obtain ⟨rfl, -⟩ := finishes_ret.mp h
      simp
  | ask op k ih =>
      obtain ⟨r, fs, rfl, hfs⟩ := finishes_ask.mp h
      intro e he
      rcases List.mem_cons.mp he with rfl | he
      · exact hp.1
      · exact ih r (hp.2 r) hfs e he

end Prog

end SaasFoundation.Lib
