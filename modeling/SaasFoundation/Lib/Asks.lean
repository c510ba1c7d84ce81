import SaasFoundation.Lib.Threads

/-!
# What a program knows when it asks

`Asks J` is the rule for programs that check before they act: whenever the
program makes a request, the relation `J` holds of its past and the request.
It is shown once for a program, by its structure, and read off every entry
of a run by `Reachable.asked`.

A program over a smaller signature runs over a larger one by `embed`.
-/

namespace SaasFoundation.Lib

variable {Op Op' : Type} {Res : Op → Type} {Res' : Op' → Type} {α β : Type}

namespace Prog

/-- Whenever the program asks `op` having seen `past`, `J past op` holds. -/
def Asks (J : List (Event Op Res) → Op → Prop) : List (Event Op Res) → Prog Op Res α → Prop
  | _, .ret _ => True
  | past, .ask op k => J past op ∧ ∀ r, Asks J (past ++ [⟨op, r⟩]) (k r)

variable {J : List (Event Op Res) → Op → Prop} {past es : List (Event Op Res)}

@[simp] theorem asks_ret {a : α} : Asks J past (.ret a : Prog Op Res α) := trivial

@[simp] theorem asks_ask {op : Op} {k : Res op → Prog Op Res α} :
    Asks J past (.ask op k) ↔ J past op ∧ ∀ r, Asks J (past ++ [⟨op, r⟩]) (k r) := Iff.rfl

theorem Asks.runs {p : Prog Op Res α} {op : Op} {k : Res op → Prog Op Res α} (h : Asks J past p)
    (hrun : p.Runs es (.ask op k)) : J (past ++ es) op := by
  induction es generalizing p past with
  | nil =>
      cases hrun
      rw [List.append_nil]
      exact h.1
  | cons e es ih =>
      obtain ⟨k', rfl, hrest⟩ := hrun
      have := ih (h.2 e.res) hrest
      rwa [List.append_assoc] at this

/-- The second part of a sequence knows how the first has gone. -/
theorem Asks.bind {p : Prog Op Res α} {f : α → Prog Op Res β} (hp : Asks J past p)
    (hf : ∀ es a, p.Finishes es a → Asks J (past ++ es) (f a)) : Asks J past (p >>= f) := by
  induction p generalizing past with
  | ret a =>
      have := hf [] a rfl
      rwa [List.append_nil] at this
  | ask op k ih =>
      refine ⟨hp.1, fun r => ih r (hp.2 r) ?_⟩
      intro es a hrun
      rw [List.append_assoc]
      exact hf (⟨op, r⟩ :: es) a ⟨k, rfl, hrun⟩

theorem Asks.mono {J' : List (Event Op Res) → Op → Prop} {p : Prog Op Res α} (h : Asks J past p)
    (hJ : ∀ past op, J past op → J' past op) : Asks J' past p := by
  induction p generalizing past with
  | ret a => trivial
  | ask op k ih => exact ⟨hJ past op h.1, fun r => ih r (h.2 r)⟩

theorem Uses.asks {P : Op → Prop} {p : Prog Op Res α} (h : p.Uses P)
    (hJ : ∀ past op, P op → J past op) : Asks J past p := by
  induction p generalizing past with
  | ret a => trivial
  | ask op k ih => exact ⟨hJ past op h.1, fun r => ih r (h.2 r)⟩

/-! ## Larger signatures -/

/-- The program with every request renamed. -/
def embed (f : Op → Op') : Prog Op (fun op => Res' (f op)) α → Prog Op' Res' α
  | .ret a => .ret a
  | .ask op k => .ask (f op) (fun r => (k r).embed f)

end Prog

def Event.embed (f : Op → Op') (e : Event Op (fun op => Res' (f op))) : Event Op' Res' :=
  ⟨f e.op, e.res⟩

namespace Prog

theorem finishes_embed {f : Op → Op'} {p : Prog Op (fun op => Res' (f op)) α}
    {es : List (Event Op' Res')} {a : α} :
    (p.embed f).Finishes es a ↔ ∃ fs, es = fs.map (Event.embed f) ∧ p.Finishes fs a := by
  induction p generalizing es with
  | ret b =>
      simp only [embed, finishes_ret]
      constructor
      · rintro ⟨rfl, rfl⟩
        exact ⟨[], rfl, rfl, rfl⟩
      · rintro ⟨fs, rfl, rfl, rfl⟩
        exact ⟨rfl, rfl⟩
  | ask op k ih =>
      simp only [embed, finishes_ask, ih]
      constructor
      · rintro ⟨r, _, rfl, fs, rfl, hfs⟩
        exact ⟨⟨op, r⟩ :: fs, rfl, r, fs, rfl, hfs⟩
      · rintro ⟨_, rfl, r, fs, rfl, hfs⟩
        exact ⟨r, fs.map (Event.embed f), rfl, fs, rfl, hfs⟩

theorem uses_embed (f : Op → Op') (p : Prog Op (fun op => Res' (f op)) α) :
    (p.embed f).Uses fun op => ∃ o, op = f o := by
  induction p with
  | ret a => trivial
  | ask op k ih => exact ⟨⟨op, rfl⟩, fun r => ih r⟩

theorem Uses.embed {f : Op → Op'} {P : Op' → Prop} {p : Prog Op (fun op => Res' (f op)) α}
    (h : p.Uses fun op => P (f op)) : (p.embed f).Uses P := by
  induction p with
  | ret a => trivial
  | ask op k ih => exact ⟨h.1, fun r => ih r (h.2 r)⟩

/-- An embedded program asks what it asked, of a past it shares. -/
theorem Asks.embed {f : Op → Op'} {J : List (Event Op' Res') → Op' → Prop}
    {base : List (Event Op' Res')} {past : List (Event Op (fun op => Res' (f op)))}
    {p : Prog Op (fun op => Res' (f op)) α}
    (h : Asks (fun es op => J (base ++ es.map (Event.embed f)) (f op)) past p) :
    Asks J (base ++ past.map (Event.embed f)) (p.embed f) := by
  induction p generalizing past with
  | ret a => trivial
  | ask op k ih =>
      refine ⟨h.1, fun r => ?_⟩
      have := ih r (h.2 r)
      rwa [List.map_append, ← List.append_assoc] at this

end Prog

namespace System

variable {World Job Out : Type} {S : System Op Res World Job Out} {c : Config Op Res World Job Out}

/-- Every entry was asked by a thread that knew what `J` says. -/
theorem Reachable.asked {J : Job → List (Event Op Res) → Op → Prop}
    (hJ : ∀ job, Prog.Asks (J job) [] (S.start job)) (h : S.Reachable c) :
    ∀ l₁ e l₂, c.log = l₁ ++ e :: l₂ →
      ∃ t, c.threads[e.tid]? = some t ∧ J t.job (localLog l₁ e.tid) e.ev.op := by
  induction h with
  | init _ => simp
  | @step c d hc hs ih =>
      intro l₁ e l₂ hlog
      have hold : (∃ l₃, c.log = l₁ ++ e :: l₃) →
          ∃ t, d.threads[e.tid]? = some t ∧ J t.job (localLog l₁ e.tid) e.ev.op := by
        rintro ⟨l₃, hc⟩
        obtain ⟨t, ht, hj⟩ := ih l₁ e l₃ hc
        obtain ⟨u, hu, hjob, -⟩ := hs.progress e.tid t ht
        exact ⟨u, hu, by rwa [hjob]⟩
      cases hs with
      | spawn _ => exact hold ⟨l₂, hlog⟩
      | drift _ => exact hold ⟨l₂, hlog⟩
      | @request i job op k r w hi _ =>
          rcases List.eq_nil_or_concat l₂ with rfl | ⟨l₃, x, rfl⟩
          · -- the entry is the new one: the thread was asking for it
            obtain ⟨rfl, he⟩ := List.append_inj' hlog rfl
            cases he
            refine ⟨_, List.getElem?_set_self (List.getElem?_eq_some_iff.mp hi).1, ?_⟩
            have hrun := hc.local_run i _ hi
            have := (hJ job).runs hrun
            rwa [List.nil_append] at this
          · rw [List.concat_eq_append, ← List.cons_append, ← List.append_assoc] at hlog
            exact hold ⟨l₃, (List.append_inj' hlog rfl).1⟩

end System

end SaasFoundation.Lib
