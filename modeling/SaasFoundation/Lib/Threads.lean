import SaasFoundation.Lib.Prog

/-!
# Handlers over a shared world

Any number of invocations run at once over one shared world. A step starts
an invocation, serves one request of one of them, or lets the world change
by itself (time passes, an expired row is swept). Requests are atomic and
nothing else is: between two requests of a handler anything may happen,
and a handler that crashes is one that is never scheduled again.

The configuration keeps a ghost log of the served requests with the world
before and after each. What a run did is read off its last configuration:
`Reachable.local_run` gives each handler's own history back as a run of
its program, `Reachable.served` the world's side of every entry.
-/

namespace SaasFoundation.Lib

variable {Op : Type} {Res : Op → Type} {World Job Out : Type}

/-- An invocation and what it still has to do. -/
structure Thread (Op : Type) (Res : Op → Type) (Job Out : Type) where
  job : Job
  prog : Prog Op Res Out

/-- A served request: who made it, the world it met and the world it left. -/
structure Entry (Op : Type) (Res : Op → Type) (World : Type) where
  tid : Nat
  pre : World
  ev : Event Op Res
  post : World

/-- The handlers and the world they share. `permits` says which invocations
may be started, given the threads there are: a caller can only hand on what
some earlier invocation returned. -/
structure System (Op : Type) (Res : Op → Type) (World Job Out : Type) where
  start : Job → Prog Op Res Out
  permits : List (Thread Op Res Job Out) → Job → Prop
  serve : World → (op : Op) → Res op → World → Prop
  drift : World → World → Prop
  init : World → Prop

/-- A configuration: the world, the threads in the order they were started
(a thread's id is its position) and the log, oldest entry first. -/
structure Config (Op : Type) (Res : Op → Type) (World Job Out : Type) where
  world : World
  threads : List (Thread Op Res Job Out)
  log : List (Entry Op Res World)

namespace System

variable (S : System Op Res World Job Out)

inductive Step : Config Op Res World Job Out → Config Op Res World Job Out → Prop
  | spawn {c : Config Op Res World Job Out} {job : Job} :
      S.permits c.threads job →
      Step c { c with threads := c.threads ++ [⟨job, S.start job⟩] }
  | request {c : Config Op Res World Job Out} {i : Nat} {job : Job} {op : Op}
      {k : Res op → Prog Op Res Out} {r : Res op} {w : World} :
      c.threads[i]? = some ⟨job, .ask op k⟩ → S.serve c.world op r w →
      Step c ⟨w, c.threads.set i ⟨job, k r⟩, c.log ++ [⟨i, c.world, ⟨op, r⟩, w⟩]⟩
  | drift {c : Config Op Res World Job Out} {w : World} :
      S.drift c.world w → Step c { c with world := w }

inductive Reachable : Config Op Res World Job Out → Prop
  | init {w : World} : S.init w → Reachable ⟨w, [], []⟩
  | step {c d : Config Op Res World Job Out} : Reachable c → S.Step c d → Reachable d

end System

/-- The requests of thread `i`, in order. -/
def localLog (log : List (Entry Op Res World)) (i : Nat) : List (Event Op Res) :=
  (log.filter (fun e => e.tid = i)).map Entry.ev

theorem mem_localLog {log : List (Entry Op Res World)} {i : Nat} {ev : Event Op Res} :
    ev ∈ localLog log i ↔ ∃ e ∈ log, e.tid = i ∧ e.ev = ev := by
  simp only [localLog, List.mem_map, List.mem_filter, decide_eq_true_eq, and_assoc]

theorem Entry.mem_localLog {log : List (Entry Op Res World)} {e : Entry Op Res World}
    (he : e ∈ log) : e.ev ∈ localLog log e.tid :=
  Lib.mem_localLog.mpr ⟨e, he, rfl, rfl⟩

@[simp] theorem localLog_append (l₁ l₂ : List (Entry Op Res World)) (i : Nat) :
    localLog (l₁ ++ l₂) i = localLog l₁ i ++ localLog l₂ i := by
  simp [localLog]

/-- Where a thread's log is cut, the whole log can be cut. -/
theorem localLog_split {log : List (Entry Op Res World)} {i : Nat} {ev : Event Op Res}
    {p₁ p₂ : List (Event Op Res)} (h : localLog log i = p₁ ++ ev :: p₂) :
    ∃ l₁ e l₂, log = l₁ ++ e :: l₂ ∧ e.tid = i ∧ e.ev = ev ∧ localLog l₁ i = p₁ ∧
      localLog l₂ i = p₂ := by
  obtain ⟨q₁, q, hq, hq₁, hrest⟩ := List.map_eq_append_iff.mp h
  obtain ⟨e, q₂, rfl, rfl, hq₂⟩ := List.map_eq_cons_iff.mp hrest
  obtain ⟨l₁, l, rfl, hl₁, hl⟩ := List.filter_eq_append_iff.mp hq
  obtain ⟨m, l₂, rfl, hm, he, hl₂⟩ := List.filter_eq_cons_iff.mp hl
  refine ⟨l₁ ++ m, e, l₂, by simp, by simpa using he, rfl, ?_, ?_⟩
  · -- what lies between belongs to other threads
    have hnone : localLog m i = [] := by
      simp only [localLog, List.map_eq_nil_iff, List.filter_eq_nil_iff]
      exact hm
    rw [localLog_append, hnone, List.append_nil, localLog, hl₁, hq₁]
  · rw [localLog, hl₂, hq₂]

/-- The entries of every thread but `i`. -/
def otherLog (log : List (Entry Op Res World)) (i : Nat) : List (Entry Op Res World) :=
  log.filter (fun e => !decide (e.tid = i))

theorem countP_split (R : Nat → Event Op Res → Bool) (log : List (Entry Op Res World)) (i : Nat) :
    log.countP (fun e => R e.tid e.ev) =
      (localLog log i).countP (R i) + (otherLog log i).countP (fun e => R e.tid e.ev) := by
  rw [List.countP_eq_countP_filter_add log _ (fun e => decide (e.tid = i)), localLog,
    List.countP_map]
  congr 1
  apply List.countP_congr
  intro e he
  have htid : e.tid = i := by simpa using (List.mem_filter.mp he).2
  rw [Function.comp_apply, htid]

theorem localLog_otherLog (log : List (Entry Op Res World)) (i j : Nat) :
    localLog (otherLog log i) j = if j = i then [] else localLog log j := by
  rw [localLog, otherLog, List.filter_filter]
  by_cases hj : j = i
  · rw [if_pos hj, List.map_eq_nil_iff, List.filter_eq_nil_iff]
    intro e _
    simp [hj]
  · rw [if_neg hj, localLog]
    congr 1
    apply List.filter_congr
    intro e _
    by_cases he : e.tid = j
    · simp [he, hj]
    · simp [he]

/-- What each thread does at least as often, all of them together do. -/
theorem countP_le_of_local {P Q : Nat → Event Op Res → Bool} (log : List (Entry Op Res World))
    (h : ∀ i, (localLog log i).countP (P i) ≤ (localLog log i).countP (Q i)) :
    log.countP (fun e => P e.tid e.ev) ≤ log.countP (fun e => Q e.tid e.ev) := by
  induction hn : log.length using Nat.strongRecOn generalizing log with
  | ind n ih =>
      cases log with
      | nil => simp
      | cons e log =>
          -- the first thread is done with; the others are fewer entries
          rw [countP_split P _ e.tid, countP_split Q _ e.tid]
          have hlt : (otherLog (e :: log) e.tid).length < n := by
            have := List.length_filter_le (fun x => !decide (x.tid = e.tid)) log
            rw [otherLog, List.filter_cons_of_neg (by simp), ← hn, List.length_cons]
            omega
          have hrest := ih _ hlt (otherLog (e :: log) e.tid) (fun i => ?_) rfl
          · have := h e.tid
            omega
          · rw [localLog_otherLog]
            split
            · simp
            · exact h i

namespace System

variable {S : System Op Res World Job Out} {c : Config Op Res World Job Out}

/-! ## What a reachable configuration knows about its past -/

/-- Every entry belongs to a thread that was started. -/
theorem Reachable.tid_lt (h : S.Reachable c) :
    ∀ e ∈ c.log, e.tid < c.threads.length := by
  induction h with
  | init _ => simp
  | step _ hs ih =>
      cases hs with
      | spawn _ =>
          intro e he
          have := ih e he
          simp only [List.length_append, List.length_singleton]
          omega
      | @request i _ _ _ _ _ hi _ =>
          intro e he
          simp only [List.length_set]
          rcases List.mem_append.mp he with he | he
          · exact ih e he
          · rw [List.mem_singleton.mp he]
            exact (List.getElem?_eq_some_iff.mp hi).1
      | drift _ => exact ih

/-- The log of a thread is a run of its program. -/
theorem Reachable.local_run (h : S.Reachable c) :
    ∀ i t, c.threads[i]? = some t → (S.start t.job).Runs (localLog c.log i) t.prog := by
  induction h with
  | init _ => simp
  | @step c d hc hs ih =>
      cases hs with
      | spawn _ =>
          intro i t ht
          rcases Nat.lt_or_ge i c.threads.length with hlt | hge
          · exact ih i t (by rwa [List.getElem?_append_left hlt] at ht)
          · -- the new thread: no entry of the log can be its own
            have hnil : localLog c.log i = [] := by
              simp only [localLog, List.map_eq_nil_iff, List.filter_eq_nil_iff,
                decide_eq_true_eq]
              intro e he heq
              have := hc.tid_lt e he
              omega
            rw [List.getElem?_append_right hge, List.getElem?_singleton] at ht
            split at ht
            · cases ht
              simp only [hnil]
              rfl
            · cases ht
      | @request i job op k r w hi _ =>
          intro j t ht
          rw [localLog_append]
          by_cases hij : i = j
          · subst hij
            have hlt := (List.getElem?_eq_some_iff.mp hi).1
            rw [List.getElem?_set_self hlt] at ht
            cases ht
            simpa [localLog] using (ih i _ hi).snoc r
          · rw [List.getElem?_set_ne hij] at ht
            simpa [localLog, hij] using ih j t ht
      | drift _ => exact ih

/-- Every entry was served by the world. -/
theorem Reachable.served (h : S.Reachable c) :
    ∀ e ∈ c.log, S.serve e.pre e.ev.op e.ev.res e.post := by
  induction h with
  | init _ => simp
  | step _ hs ih =>
      cases hs with
      | spawn _ => exact ih
      | request _ hserve =>
          intro e he
          rcases List.mem_append.mp he with he | he
          · exact ih e he
          · rw [List.mem_singleton.mp he]
            exact hserve
      | drift _ => exact ih

/-- The configuration an entry was served in. -/
theorem Reachable.before (h : S.Reachable c) : ∀ l₁ e l₂, c.log = l₁ ++ e :: l₂ →
    ∃ d, S.Reachable d ∧ d.log = l₁ ∧ d.world = e.pre := by
  induction h with
  | init _ => simp
  | @step c d hc hs ih =>
      intro l₁ e l₂ hlog
      cases hs with
      | spawn _ => exact ih l₁ e l₂ hlog
      | drift _ => exact ih l₁ e l₂ hlog
      | request _ _ =>
          rcases List.eq_nil_or_concat l₂ with rfl | ⟨l₃, x, rfl⟩
          · obtain ⟨rfl, he⟩ := List.append_inj' hlog rfl
            cases he
            exact ⟨c, hc, rfl, rfl⟩
          · rw [List.concat_eq_append, ← List.cons_append, ← List.append_assoc] at hlog
            exact ih l₁ e l₃ (List.append_inj' hlog rfl).1

/-- A thread that has returned stays as it is, and every thread keeps its
invocation. -/
def Progress (ts us : List (Thread Op Res Job Out)) : Prop :=
  ∀ (i : Nat) (t : Thread Op Res Job Out), ts[i]? = some t →
    ∃ u : Thread Op Res Job Out, us[i]? = some u ∧ u.job = t.job ∧
      ∀ a, t.prog = .ret a → u.prog = .ret a

theorem Step.progress {d : Config Op Res World Job Out} (h : S.Step c d) :
    Progress c.threads d.threads := by
  intro i t ht
  cases h with
  | spawn _ =>
      have hlt := (List.getElem?_eq_some_iff.mp ht).1
      exact ⟨t, by rwa [List.getElem?_append_left hlt], rfl, fun _ h => h⟩
  | @request j job op k r w hj _ =>
      by_cases hij : j = i
      · subst hij
        rw [hj] at ht
        cases ht
        have hlt := (List.getElem?_eq_some_iff.mp hj).1
        exact ⟨_, List.getElem?_set_self hlt, rfl, fun _ h => nomatch h⟩
      · exact ⟨t, by rwa [List.getElem?_set_ne hij], rfl, fun _ h => h⟩
  | drift _ => exact ⟨t, ht, rfl, fun _ h => h⟩

/-- Where progress never withdraws a permission, every thread of a
reachable configuration is still permitted there. -/
theorem Reachable.permitted
    (hmono : ∀ ts us job, Progress ts us → S.permits ts job → S.permits us job)
    (h : S.Reachable c) : ∀ t ∈ c.threads, S.permits c.threads t.job := by
  induction h with
  | init _ => simp
  | @step c d _ hs ih =>
      have hprog := hs.progress
      have hold : ∀ t ∈ c.threads, S.permits d.threads t.job :=
        fun t ht => hmono _ _ _ hprog (ih t ht)
      cases hs with
      | spawn hperm =>
          intro t ht
          rcases List.mem_append.mp ht with ht | ht
          · exact hold t ht
          · rw [List.mem_singleton.mp ht]
            exact hmono _ _ _ hprog hperm
      | @request i job op k r w hi _ =>
          intro t ht
          rcases List.mem_or_eq_of_mem_set ht with ht | rfl
          · exact hold t ht
          · exact hold ⟨job, .ask op k⟩ (List.mem_of_getElem? hi)
      | drift _ => exact hold

end System

end SaasFoundation.Lib
