import Mathlib.Algebra.Order.Ring.Rat
import Mathlib.Tactic.Linarith
import SaasFoundation.Lib.Store
import SaasFoundation.Lib.Script
import SaasFoundation.Lib.Slots

/-!
# The promise cache

`TtlCache` keeps promises, never the values they settle to. A promise is
known by the number of its load, in the order in which loads are started.
`getOrLoad` runs to its end without an await, and a loader neither throws nor
calls the cache before its first one, so a call is one step. Loads
settle in between, in any order and however late. A load is settled when
the promise that is cached is: the handler that evicts a rejected load is
what rejects it.
-/

namespace SaasFoundation.Vestibulum.SharedDistribution

open Lib

/-! ## The cache -/

inductive Outcome (V : Type) where
  | pending
  | resolved (value : V)
  | rejected
deriving DecidableEq

/-- A call of the loader. -/
structure Load (K V : Type) where
  key : K
  startedAt : ℚ
  outcome : Outcome V
deriving DecidableEq

structure TtlCache.Entry where
  promise : Nat
  expiresAt : ℚ
deriving DecidableEq

/-- The entries, and the loads the calls have started. -/
structure TtlCache (K V : Type) where
  entries : Table K TtlCache.Entry
  loads : List (Load K V)

namespace TtlCache

variable {K V : Type}

def empty : TtlCache K V := ⟨Table.empty, []⟩

/-- The entry that answers a call at `now`. -/
def live (c : TtlCache K V) (now : ℚ) (key : K) : Option Entry :=
  match c.entries key with
  | some entry => if entry.expiresAt > now then some entry else none
  | none => none

def settle (promise : Nat) (outcome : Outcome V) (c : TtlCache K V) : TtlCache K V :=
  { c with loads := c.loads.modify promise fun load => { load with outcome := outcome } }

def resolve (promise : Nat) (value : V) (c : TtlCache K V) : TtlCache K V :=
  c.settle promise (.resolved value)

section

variable [DecidableEq K]

/-- The promise a call returns. -/
def getOrLoad (ttlMs now : ℚ) (key : K) (c : TtlCache K V) : Nat × TtlCache K V :=
  match c.live now key with
  | some entry => (entry.promise, c)
  | none =>
      let promise := c.loads.length
      (promise, ⟨c.entries.put key ⟨promise, now + ttlMs⟩, c.loads ++ [⟨key, now, .pending⟩]⟩)

/-- The entry goes when the promise in it is still the one that rejects. -/
def evict (key : K) (promise : Nat) (c : TtlCache K V) : TtlCache K V :=
  if (c.entries key).map Entry.promise = some promise then
    { c with entries := c.entries.erase key }
  else c

def reject (promise : Nat) (c : TtlCache K V) : TtlCache K V :=
  match c.loads[promise]? with
  | some load => (c.evict load.key promise).settle promise .rejected
  | none => c

end

/-! ## What the operations do -/

variable {c : TtlCache K V} {ttlMs now : ℚ} {key : K} {p : Nat}

theorem live_some {entry : Entry} (h : c.live now key = some entry) :
    c.entries key = some entry ∧ now < entry.expiresAt := by
  unfold live at h
  split at h
  · rename_i found hfound
    split at h
    · rename_i hlive
      cases h
      exact ⟨hfound, hlive⟩
    · cases h
  · cases h

theorem live_none (h : c.live now key = none) {entry : Entry}
    (hentry : c.entries key = some entry) : entry.expiresAt ≤ now := by
  unfold live at h
  rw [hentry] at h
  by_contra hlive
  rw [not_le] at hlive
  simp [hlive] at h

@[simp] theorem settle_entries (c : TtlCache K V) (p : Nat) (o : Outcome V) :
    (c.settle p o).entries = c.entries := rfl

/-- Settling a load leaves its key and its start, and every other load. -/
theorem settle_some {q : Nat} {o : Outcome V} {l : Load K V}
    (h : (c.settle p o).loads[q]? = some l) : ∃ l', c.loads[q]? = some l' ∧ l.key = l'.key ∧
      l.startedAt = l'.startedAt ∧ l.outcome = if p = q then o else l'.outcome := by
  simp only [settle, List.getElem?_modify] at h
  by_cases hpq : p = q
  · simp only [hpq, ↓reduceIte, Option.map_eq_map, Option.map_eq_some_iff] at h
    obtain ⟨l', hl', rfl⟩ := h
    exact ⟨l', hl', rfl, rfl, by simp [hpq]⟩
  · simp only [hpq, ↓reduceIte, Option.map_eq_map, Option.map_id'] at h
    exact ⟨l, h, rfl, rfl, by simp [hpq]⟩

section

variable [DecidableEq K]

/-- A call hits a live entry and changes nothing, or starts a load. -/
theorem getOrLoad_cases (ttlMs now : ℚ) (key : K) (c : TtlCache K V) :
    (∃ entry, c.live now key = some entry ∧ c.getOrLoad ttlMs now key = (entry.promise, c)) ∨
      (c.live now key = none ∧ c.getOrLoad ttlMs now key = (c.loads.length,
        ⟨c.entries.put key ⟨c.loads.length, now + ttlMs⟩, c.loads ++ [⟨key, now, .pending⟩]⟩)) := by
  unfold getOrLoad
  cases hlive : c.live now key with
  | some entry => exact .inl ⟨entry, rfl, rfl⟩
  | none => exact .inr ⟨rfl, rfl⟩

theorem getOrLoad_kept {q : Nat} {l : Load K V} (h : c.loads[q]? = some l) :
    (c.getOrLoad ttlMs now key).2.loads[q]? = some l := by
  rcases getOrLoad_cases ttlMs now key c with ⟨entry, -, heq⟩ | ⟨-, heq⟩
  · rwa [heq]
  · rw [heq, Slots.snoc_keeps _ h]

@[simp] theorem evict_loads (c : TtlCache K V) (key : K) (p : Nat) :
    (c.evict key p).loads = c.loads := by
  unfold evict
  split
  · rfl
  · rfl

/-- Eviction leaves an entry, or removes the one of that very promise. -/
theorem evict_entries (c : TtlCache K V) (key : K) (p : Nat) {k : K} {entry : Entry}
    (h : c.entries k = some entry) : (c.evict key p).entries k = some entry ∨
      (c.evict key p).entries k = none ∧ k = key ∧ entry.promise = p := by
  unfold evict
  by_cases hp : (c.entries key).map Entry.promise = some p
  · rw [if_pos hp]
    by_cases hk : k = key
    · subst hk
      rw [h, Option.map_some, Option.some.injEq] at hp
      exact .inr ⟨Table.erase_self _ _, rfl, hp⟩
    · exact .inl ((Table.erase_of_ne _ hk).trans h)
  · rw [if_neg hp]
    exact .inl h

/-- What is there after an eviction was there before, and is of another
promise. -/
theorem evict_some {k : K} {entry : Entry} (h : (c.evict key p).entries k = some entry) :
    c.entries k = some entry ∧ (k = key → entry.promise ≠ p) := by
  unfold evict at h
  by_cases hp : (c.entries key).map Entry.promise = some p
  · rw [if_pos hp] at h
    obtain ⟨hk, hentry⟩ := Table.erase_some h
    exact ⟨hentry, fun heq => absurd heq hk⟩
  · rw [if_neg hp] at h
    refine ⟨h, ?_⟩
    rintro rfl heq
    rw [h, Option.map_some, heq] at hp
    exact hp rfl

theorem reject_of_none (h : c.loads[p]? = none) : c.reject p = c := by
  unfold reject
  rw [h]

theorem reject_of_some {l : Load K V} (h : c.loads[p]? = some l) :
    c.reject p = (c.evict l.key p).settle p .rejected := by
  unfold reject
  rw [h]

end

theorem settle_kept {q : Nat} (p : Nat) (o : Outcome V) {l : Load K V}
    (h : c.loads[q]? = some l) : ∃ l', (c.settle p o).loads[q]? = some l' ∧ l'.key = l.key ∧
      l'.startedAt = l.startedAt ∧ (p ≠ q → l' = l) := by
  by_cases hpq : p = q
  · exact ⟨{ l with outcome := o }, by simp [settle, hpq, h], rfl, rfl, fun hne => absurd hpq hne⟩
  · exact ⟨l, by simp [settle, hpq, h], rfl, rfl, fun _ => rfl⟩

/-! ## The invariant -/

/-- What holds of the entries on any clock. -/
structure Filed (ttlMs : ℚ) (c : TtlCache K V) : Prop where
  /-- An entry is that of a load for its key, which has not rejected. -/
  listed : ∀ key entry, c.entries key = some entry → ∃ l, c.loads[entry.promise]? = some l ∧
    l.key = key ∧ l.outcome ≠ .rejected ∧ entry.expiresAt = l.startedAt + ttlMs
  /-- No load for the key is newer than the entry. -/
  newest : ∀ key entry, c.entries key = some entry → ∀ (p : Nat) (l : Load K V),
    c.loads[p]? = some l → l.key = key → p ≤ entry.promise

/-- What holds of entries and loads at `now`, where time runs forwards. -/
structure Coherent (ttlMs now : ℚ) (c : TtlCache K V) : Prop extends Filed ttlMs c where
  past : ∀ (p : Nat) (l : Load K V), c.loads[p]? = some l → l.startedAt ≤ now
  /-- A load keeps its entry until it rejects or the TTL is over. -/
  kept : ∀ (p : Nat) (l : Load K V), c.loads[p]? = some l → now < l.startedAt + ttlMs →
    l.outcome ≠ .rejected → ∃ entry, c.entries l.key = some entry ∧ entry.promise = p

theorem empty_filed (ttlMs : ℚ) : Filed ttlMs (empty : TtlCache K V) where
  listed := by
    intro key entry h
    cases h
  newest := by
    intro key entry h
    cases h

theorem empty_coherent (ttlMs now : ℚ) : Coherent ttlMs now (empty : TtlCache K V) where
  toFiled := empty_filed ttlMs
  past := by simp [empty]
  kept := by simp [empty]

theorem Coherent.tick {now' : ℚ} (h : Coherent ttlMs now c) (hle : now ≤ now') :
    Coherent ttlMs now' c where
  toFiled := h.toFiled
  past := fun p l hl => (h.past p l hl).trans hle
  kept := fun p l hl hlive => h.kept p l hl (hle.trans_lt hlive)

/-- With no live entry, every load for the key has rejected or is over. -/
theorem Coherent.miss (h : Coherent ttlMs now c) (hlive : c.live now key = none) {l : Load K V}
    (hl : c.loads[p]? = some l) (hkey : l.key = key) (hyoung : now < l.startedAt + ttlMs) :
    l.outcome = .rejected := by
  by_contra hout
  obtain ⟨entry, hentry, rfl⟩ := h.kept p l hl hyoung hout
  obtain ⟨l', hl', -, -, hexp⟩ := h.listed l.key entry hentry
  rw [hl] at hl'
  cases hl'
  rw [hkey] at hentry
  have := live_none hlive hentry
  rw [hexp] at this
  exact absurd hyoung (not_lt.mpr this)

theorem Filed.resolve (h : Filed ttlMs c) (p : Nat) (value : V) :
    Filed ttlMs (c.resolve p value) where
  listed := by
    intro k entry hentry
    obtain ⟨m, hm, hkey, hout, hexp⟩ := h.listed k entry hentry
    by_cases hp : p = entry.promise
    · refine ⟨{ m with outcome := .resolved value }, ?_, hkey, by simp, hexp⟩
      simp [TtlCache.resolve, settle, hp, hm]
    · exact ⟨m, by simp [TtlCache.resolve, settle, hp, hm], hkey, hout, hexp⟩
  newest := by
    intro k entry hentry q m hm hkey
    obtain ⟨m', hm', hkey', -⟩ := settle_some hm
    exact h.newest k entry hentry q m' hm' (hkey'.symm.trans hkey)

theorem Coherent.resolve (h : Coherent ttlMs now c) {l : Load K V} (hl : c.loads[p]? = some l)
    (hpending : l.outcome = .pending) (value : V) : Coherent ttlMs now (c.resolve p value) where
  toFiled := h.toFiled.resolve p value
  past := by
    intro q m hm
    obtain ⟨m', hm', -, hstart, -⟩ := settle_some hm
    rw [hstart]
    exact h.past q m' hm'
  kept := by
    intro q m hm hyoung hout
    obtain ⟨m', hm', hkey, hstart, hout'⟩ := settle_some hm
    rw [hstart] at hyoung
    have hkept : m'.outcome ≠ .rejected := by
      by_cases hpq : p = q
      · subst hpq
        rw [hl] at hm'
        cases hm'
        simp [hpending]
      · rwa [hout', if_neg hpq] at hout
    rw [hkey]
    exact h.kept q m' hm' hyoung hkept

variable [DecidableEq K]

theorem Filed.getOrLoad (h : Filed ttlMs c) : Filed ttlMs (c.getOrLoad ttlMs now key).2 := by
  rcases getOrLoad_cases ttlMs now key c with ⟨entry, -, heq⟩ | ⟨-, heq⟩
  · rw [heq]
    exact h
  · rw [heq]
    constructor
    case listed =>
      intro k entry hentry
      rcases Table.put_some hentry with ⟨rfl, rfl⟩ | ⟨-, hold⟩
      · exact ⟨⟨k, now, .pending⟩, by simp, rfl, by simp, rfl⟩
      · obtain ⟨l, hl, hl'⟩ := h.listed k entry hold
        exact ⟨l, Slots.snoc_keeps _ hl, hl'⟩
    case newest =>
      intro k entry hentry q l hl hkey
      rcases Table.put_some hentry with ⟨rfl, rfl⟩ | ⟨hne, hold⟩
      · rcases Slots.snoc_cases hl with hl | ⟨rfl, -⟩
        · exact (Slots.lt_of_some hl).le
        · exact Nat.le_refl _
      · rcases Slots.snoc_cases hl with hl | ⟨-, rfl⟩
        · exact h.newest k entry hold q l hl hkey
        · exact absurd hkey.symm hne

theorem Coherent.getOrLoad (h : Coherent ttlMs now c) :
    Coherent ttlMs now (c.getOrLoad ttlMs now key).2 := by
  have hfiled := @Filed.getOrLoad K V c ttlMs now key _ h.toFiled
  rcases getOrLoad_cases ttlMs now key c with ⟨entry, -, heq⟩ | ⟨hlive, heq⟩
  · rw [heq]
    exact h
  · rw [heq] at hfiled ⊢
    refine ⟨hfiled, ?_, ?_⟩
    · intro q l hl
      rcases Slots.snoc_cases hl with hl | ⟨-, rfl⟩
      · exact h.past q l hl
      · exact le_refl _
    · intro q l hl hyoung hout
      rcases Slots.snoc_cases hl with hl | ⟨rfl, rfl⟩
      · -- the new load takes no entry of a load that is still young
        have hne : l.key ≠ key := fun hkey => hout (h.miss hlive hl hkey hyoung)
        obtain ⟨entry, hentry, hp⟩ := h.kept q l hl hyoung hout
        exact ⟨entry, (Table.put_of_ne _ _ hne).trans hentry, hp⟩
      · exact ⟨⟨c.loads.length, now + ttlMs⟩, Table.put_self _ _ _, rfl⟩

theorem Filed.reject (h : Filed ttlMs c) (p : Nat) : Filed ttlMs (c.reject p) := by
  cases hp : c.loads[p]? with
  | none => rwa [reject_of_none hp]
  | some lp =>
      rw [reject_of_some hp]
      constructor
      case listed =>
        intro k entry hentry
        obtain ⟨hold, hother⟩ := evict_some hentry
        obtain ⟨m, hm, hkey, hout, hexp⟩ := h.listed k entry hold
        -- an entry of the promise itself would have been evicted
        have hne : p ≠ entry.promise := by
          rintro rfl
          rw [hp] at hm
          cases hm
          exact hother hkey.symm rfl
        exact ⟨m, by simp [settle, hne, hm], hkey, hout, hexp⟩
      case newest =>
        intro k entry hentry q m hm hkey
        obtain ⟨m', hm', hkey', -⟩ := settle_some hm
        rw [evict_loads] at hm'
        exact h.newest k entry (evict_some hentry).1 q m' hm' (hkey'.symm.trans hkey)

theorem Coherent.reject (h : Coherent ttlMs now c) : Coherent ttlMs now (c.reject p) := by
  have hfiled := h.toFiled.reject p
  cases hp : c.loads[p]? with
  | none => rwa [reject_of_none hp]
  | some lp =>
      rw [reject_of_some hp] at hfiled ⊢
      refine ⟨hfiled, ?_, ?_⟩
      · intro q m hm
        obtain ⟨m', hm', -, hstart, -⟩ := settle_some hm
        rw [evict_loads] at hm'
        rw [hstart]
        exact h.past q m' hm'
      · intro q m hm hyoung hout
        obtain ⟨m', hm', hkey, hstart, hout'⟩ := settle_some hm
        rw [evict_loads] at hm'
        have hpq : p ≠ q := by
          rintro rfl
          rw [if_pos rfl] at hout'
          exact hout hout'
        rw [hout', if_neg hpq] at hout
        rw [hstart] at hyoung
        obtain ⟨entry, hentry, hq⟩ := h.kept q m' hm' hyoung hout
        rcases evict_entries c lp.key p hentry with hkept | ⟨-, -, hgone⟩
        · exact ⟨entry, by rw [hkey, settle_entries, hkept], hq⟩
        · exact absurd (hgone.symm.trans hq) hpq

/-! ## Calls and settlements -/

structure World (K V : Type) where
  cache : TtlCache K V
  now : ℚ

/-- Time passes, or a pending load settles. -/
inductive Drift : World K V → World K V → Prop
  | tick {w : World K V} {now : ℚ} : w.now ≤ now → Drift w { w with now := now }
  | resolve {w : World K V} {p : Nat} {l : Load K V} (value : V) :
      w.cache.loads[p]? = some l → l.outcome = .pending →
      Drift w { w with cache := w.cache.resolve p value }
  | reject {w : World K V} {p : Nat} {l : Load K V} :
      w.cache.loads[p]? = some l → l.outcome = .pending →
      Drift w { w with cache := w.cache.reject p }

/-- Any number of calls on one cache; the request is the key. -/
def container (V : Type) (ttlMs : ℚ) : System K (fun _ => Nat) (World K V) K Nat where
  start := fun key => Prog.call key
  permits := fun _ _ => True
  serve := fun w key promise w' =>
    (promise, w'.cache) = w.cache.getOrLoad ttlMs w.now key ∧ w'.now = w.now
  drift := Drift
  init := fun w => w.cache = empty

abbrev CacheConfig (K V : Type) := Config K (fun _ => Nat) (World K V) K Nat

/-- The call has started a load. -/
def Starts (e : Lib.Entry K (fun _ => Nat) (World K V)) : Prop :=
  e.ev.res = e.pre.cache.loads.length ∧
    e.post.cache.loads = e.pre.cache.loads ++ [⟨e.ev.op, e.pre.now, .pending⟩]

/-- What callers may rely on. -/
structure Protocol (ttlMs : ℚ) (c : CacheConfig K V) : Prop where
  /-- A load is started within the TTL of another for its key only when that
  one has rejected. -/
  spaced : ∀ l₁ e l₂ e' l₃, c.log = l₁ ++ e :: l₂ ++ e' :: l₃ → Starts e → Starts e' →
    e.ev.op = e'.ev.op → e'.pre.now - e.pre.now < ttlMs →
      ∃ l, e'.pre.cache.loads[e.ev.res]? = some l ∧ l.outcome = .rejected
  /-- A promise is that of a load for the key, started within the TTL. -/
  returned : ∀ l₁ e l₂, c.log = l₁ ++ e :: l₂ → ∃ s ∈ l₁ ++ [e], Starts s ∧
    s.ev.res = e.ev.res ∧ s.ev.op = e.ev.op ∧ s.pre.now ≤ e.pre.now ∧ e.pre.now - s.pre.now < ttlMs
  /-- A rejection removes its own entry, if any. -/
  rejection : ∀ (p : Nat) (key : K) (entry : Entry), c.world.cache.entries key = some entry →
    (c.world.cache.reject p).entries key = some entry ∨
      (c.world.cache.reject p).entries key = none ∧ entry.promise = p
  /-- After a rejection, a call starts a load unless a newer one is there. -/
  retry : ∀ e ∈ c.log, ∀ (p : Nat) (l : Load K V), e.pre.cache.loads[p]? = some l →
    l.key = e.ev.op → l.outcome = .rejected →
      (∀ entry, e.pre.cache.entries e.ev.op = some entry → entry.promise ≤ p) → Starts e

variable {config : CacheConfig K V}

theorem starts_of_miss {e : Lib.Entry K (fun _ => Nat) (World K V)}
    (h : (container V ttlMs).serve e.pre e.ev.op e.ev.res e.post)
    (hlive : e.pre.cache.live e.pre.now e.ev.op = none) : Starts e := by
  rcases getOrLoad_cases ttlMs e.pre.now e.ev.op e.pre.cache with ⟨_, hhit, -⟩ | ⟨-, heq⟩
  · rw [hlive] at hhit
    cases hhit
  · have hserve := h.1
    rw [heq, Prod.mk.injEq] at hserve
    exact ⟨hserve.1, by rw [hserve.2]⟩

theorem coherent (h : (container V ttlMs).Reachable config) :
    Coherent ttlMs config.world.now config.world.cache := by
  induction h with
  | init hw =>
      rw [show _ = _ from hw]
      exact empty_coherent _ _
  | step _ hs ih =>
      cases hs with
      | spawn _ => exact ih
      | @request _ _ key _ promise w _ hserve =>
          obtain ⟨hcache, hnow⟩ := hserve
          rw [hnow, show w.cache = _ from (Prod.mk.inj hcache).2]
          exact ih.getOrLoad
      | drift hd =>
          cases hd with
          | tick hle => exact ih.tick hle
          | resolve value hl hpending => exact ih.resolve hl hpending value
          | reject _ _ => exact ih.reject

/-- The call has hit, or it has started a load. -/
theorem serve_loads {e : Lib.Entry K (fun _ => Nat) (World K V)}
    (h : (container V ttlMs).serve e.pre e.ev.op e.ev.res e.post) :
    e.post.cache.loads = e.pre.cache.loads ∨ Starts e := by
  cases hlive : e.pre.cache.live e.pre.now e.ev.op with
  | none => exact .inr (starts_of_miss h hlive)
  | some entry =>
      have hserve := h.1
      rw [TtlCache.getOrLoad, hlive, Prod.mk.injEq] at hserve
      exact .inl (by rw [hserve.2])

/-- Loads are kept, with their key and their start. -/
theorem started_kept (h : (container V ttlMs).Reachable config) : ∀ e ∈ config.log, Starts e →
    ∃ l, config.world.cache.loads[e.ev.res]? = some l ∧ l.key = e.ev.op ∧
      l.startedAt = e.pre.now := by
  induction h with
  | init _ => simp
  | @step c d hc hs ih =>
      cases hs with
      | spawn _ => exact ih
      | @request i job key k promise w hi hserve =>
          intro e he hstarts
          rcases List.mem_append.mp he with he | he
          · obtain ⟨l, hl, hrest⟩ := ih e he hstarts
            rw [show w.cache = _ from (Prod.mk.inj hserve.1).2]
            exact ⟨l, getOrLoad_kept hl, hrest⟩
          · rw [List.mem_singleton.mp he] at hstarts ⊢
            obtain ⟨hres, hnew⟩ := hstarts
            refine ⟨⟨key, c.world.now, .pending⟩, ?_, rfl, rfl⟩
            rw [show w.cache.loads = _ from hnew, show promise = _ from hres]
            exact List.getElem?_concat_length
      | drift hd =>
          intro e he hstarts
          obtain ⟨l, hl, hkey, hstart⟩ := ih e he hstarts
          cases hd with
          | tick _ => exact ⟨l, hl, hkey, hstart⟩
          | resolve value _ _ =>
              obtain ⟨l', hl', hkey', hstart', -⟩ := settle_kept _ (.resolved value) hl
              exact ⟨l', hl', hkey'.trans hkey, hstart'.trans hstart⟩
          | reject hp _ =>
              rw [reject_of_some hp]
              rw [← evict_loads] at hl
              obtain ⟨l', hl', hkey', hstart', -⟩ := settle_kept _ .rejected hl
              exact ⟨l', hl', hkey'.trans hkey, hstart'.trans hstart⟩

/-- Every load was started by a call. -/
theorem load_started (h : (container V ttlMs).Reachable config) : ∀ (p : Nat) (l : Load K V),
    config.world.cache.loads[p]? = some l → ∃ s ∈ config.log, Starts s ∧ s.ev.res = p ∧
      s.ev.op = l.key ∧ s.pre.now = l.startedAt := by
  induction h with
  | init hw =>
      rw [show _ = _ from hw]
      simp [empty]
  | @step c d hc hs ih =>
      cases hs with
      | spawn _ => exact ih
      | @request i job key k promise w hi hserve =>
          intro p l hl
          have hold : c.world.cache.loads[p]? = some l → ∃ s ∈ c.log ++
              [⟨i, c.world, ⟨key, promise⟩, w⟩], Starts s ∧ s.ev.res = p ∧ s.ev.op = l.key ∧
                s.pre.now = l.startedAt := by
            intro hl
            obtain ⟨s, hs, hrest⟩ := ih p l hl
            exact ⟨s, List.mem_append_left _ hs, hrest⟩
          rcases serve_loads (e := ⟨i, c.world, ⟨key, promise⟩, w⟩) hserve with hsame | hstarts
          · exact hold (by rwa [← hsame])
          · obtain ⟨hres, hnew⟩ := hstarts
            have hnew' : w.cache.loads = _ := hnew
            rw [hnew'] at hl
            rcases Slots.snoc_cases hl with hl | ⟨rfl, rfl⟩
            · exact hold hl
            · exact ⟨_, List.mem_append_right _ List.mem_cons_self, ⟨hres, hnew⟩, hres, rfl, rfl⟩
      | drift hd =>
          intro p l hl
          cases hd with
          | tick _ => exact ih p l hl
          | resolve value _ _ =>
              obtain ⟨l', hl', hkey, hstart, -⟩ := settle_some hl
              rw [hkey, hstart]
              exact ih p l' hl'
          | reject hp _ =>
              rw [reject_of_some hp] at hl
              obtain ⟨l', hl', hkey, hstart, -⟩ := settle_some hl
              rw [evict_loads] at hl'
              rw [hkey, hstart]
              exact ih p l' hl'

/-! ## The protocol -/

/-- Where a load for the key is young and has not rejected, a call hits it. -/
theorem spaced (h : (container V ttlMs).Reachable config)
    {e : Lib.Entry K (fun _ => Nat) (World K V)} (he : e ∈ config.log) (hstarts : Starts e)
    (hinv : Coherent ttlMs e.pre.now e.pre.cache)
    {l : Load K V} (hl : e.pre.cache.loads[p]? = some l) (hkey : l.key = e.ev.op)
    (hyoung : e.pre.now < l.startedAt + ttlMs) : l.outcome = .rejected := by
  have hserve := (h.served e he).1
  rcases getOrLoad_cases ttlMs e.pre.now e.ev.op e.pre.cache with ⟨entry, hlive, heq⟩ | ⟨hlive, -⟩
  · -- a hit does not return a promise that is not there yet
    rw [heq, Prod.mk.injEq] at hserve
    obtain ⟨m, hm, -⟩ := hinv.listed _ entry (live_some hlive).1
    have := Slots.lt_of_some hm
    have := hserve.1.symm.trans hstarts.1
    omega
  · exact hinv.miss hlive hl hkey hyoung

/-- The load whose promise a call returns. -/
theorem returned (h : (container V ttlMs).Reachable config)
    {e : Lib.Entry K (fun _ => Nat) (World K V)} (he : e ∈ config.log)
    (hinv : Coherent ttlMs e.pre.now e.pre.cache) : Starts e ∨
      ∃ l, e.pre.cache.loads[e.ev.res]? = some l ∧ l.key = e.ev.op ∧
        l.startedAt ≤ e.pre.now ∧ e.pre.now < l.startedAt + ttlMs := by
  have hserve := h.served e he
  cases hlive : e.pre.cache.live e.pre.now e.ev.op with
  | none => exact .inl (starts_of_miss hserve hlive)
  | some entry =>
      have hhit := hserve.1
      rw [TtlCache.getOrLoad, hlive, Prod.mk.injEq] at hhit
      obtain ⟨hentry, hyoung⟩ := live_some hlive
      obtain ⟨l, hl, hkey, -, hexp⟩ := hinv.listed _ entry hentry
      rw [hexp] at hyoung
      exact .inr ⟨l, by rw [hhit.1, hl], hkey, hinv.past _ l hl, hyoung⟩

/-- A rejected load has no entry, so an entry is that of a newer load. -/
theorem retry (h : (container V ttlMs).Reachable config)
    {e : Lib.Entry K (fun _ => Nat) (World K V)} (he : e ∈ config.log)
    (hinv : Coherent ttlMs e.pre.now e.pre.cache) {l : Load K V}
    (hl : e.pre.cache.loads[p]? = some l) (hkey : l.key = e.ev.op) (hrej : l.outcome = .rejected)
    (hnone : ∀ entry, e.pre.cache.entries e.ev.op = some entry → entry.promise ≤ p) :
    Starts e := by
  refine starts_of_miss (h.served e he) ?_
  cases hlive : e.pre.cache.live e.pre.now e.ev.op with
  | none => rfl
  | some entry =>
      have hentry := (live_some hlive).1
      obtain ⟨m, hm, -, hout, -⟩ := hinv.listed _ entry hentry
      have hle := hinv.newest _ entry hentry p l hl hkey
      have hge := hnone entry hentry
      obtain rfl : p = entry.promise := by omega
      rw [hl] at hm
      cases hm
      exact absurd hrej hout

theorem reject_entries (p : Nat) {key : K} {entry : Entry} (h : c.entries key = some entry) :
    (c.reject p).entries key = some entry ∨
      (c.reject p).entries key = none ∧ entry.promise = p := by
  cases hp : c.loads[p]? with
  | none => exact .inl (by rw [reject_of_none hp, h])
  | some l =>
      rw [reject_of_some hp, settle_entries]
      rcases evict_entries c l.key p h with hkept | ⟨hgone, -, heq⟩
      · exact .inl hkept
      · exact .inr ⟨hgone, heq⟩

namespace Small

inductive Move where
  | tick (now : ℚ)
  | resolve (promise value : Nat)
  | reject (promise : Nat)

def drift (w : World String Nat) : Move → Option (World String Nat)
  | .tick now => if w.now ≤ now then some { w with now := now } else none
  | .resolve p value =>
      if (w.cache.loads[p]?).map Load.outcome = some .pending then
        some { w with cache := w.cache.resolve p value }
      else none
  | .reject p =>
      if (w.cache.loads[p]?).map Load.outcome = some .pending then
        some { w with cache := w.cache.reject p }
      else none

def responder (ttlMs : ℚ) : Responder (container (K := String) Nat ttlMs) Unit Move where
  permits := fun _ _ => true
  respond := fun w _ key =>
    ((w.cache.getOrLoad ttlMs w.now key).1,
      { w with cache := (w.cache.getOrLoad ttlMs w.now key).2 })
  drift := drift
  permits_sound := fun _ _ _ => trivial
  respond_sound := fun _ _ _ => ⟨rfl, rfl⟩
  drift_sound := by
    intro w m w' h
    cases m with
    | tick now =>
        simp only [drift, Option.ite_none_right_eq_some, Option.some.injEq] at h
        rw [← h.2]
        exact .tick h.1
    | resolve p value =>
        simp only [drift, Option.ite_none_right_eq_some, Option.some.injEq] at h
        obtain ⟨hpending, rfl⟩ := h
        obtain ⟨l, hl, hout⟩ := Option.map_eq_some_iff.mp hpending
        exact .resolve value hl hout
    | reject p =>
        simp only [drift, Option.ite_none_right_eq_some, Option.some.injEq] at h
        obtain ⟨hpending, rfl⟩ := h
        obtain ⟨l, hl, hout⟩ := Option.map_eq_some_iff.mp hpending
        exact .reject hl hout

/-- Load 0 outlives the TTL and rejects when load 1 has taken its place;
load 1 rejects as well, and the next call starts load 2 at once. -/
def lateRejection : List (Turn String Unit Move) :=
  [.spawn "acme", .answer 0 (), .drift (.tick 300), .spawn "acme", .answer 1 (),
    .drift (.reject 0), .spawn "acme", .answer 2 (), .drift (.reject 1), .spawn "acme",
    .answer 3 ()]

end Small

end TtlCache

end SaasFoundation.Vestibulum.SharedDistribution
