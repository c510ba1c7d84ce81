import Mathlib.Algebra.Order.Ring.Rat
import Mathlib.Logic.Relation
import Mathlib.Tactic.Linarith
import SaasFoundation.Lib.Slots
import SaasFoundation.Lib.Store

/-!
# The residency cache

`residency.ts`. A call of `CachedResidencyPolicy` answers from the cache or
starts a lookup of its own; calls that miss while a lookup is under way start
another. A lookup is known by the number of the call that started it. Lookups
end in any order, and each that resolves is stored over what is there.
-/

namespace SaasFoundation.Foundation.Region

open Lib

/-- The number of the lookup is no part of the entry; it is kept to say where
the region comes from. -/
structure CacheEntry (Region : Type) where
  region : Option Region
  expires : ℚ
  lookup : Nat

inductive Outcome (Region : Type) where
  | waiting
  | returned (region : Option Region) (lookup : Nat)
  | rejected

structure Call (TenantId Region : Type) where
  tenantId : TenantId
  outcome : Outcome Region

/-- The cache, and the calls in the order in which they were made. -/
structure CachedResidencyPolicy (TenantId Region : Type) where
  cache : Table TenantId (CacheEntry Region)
  calls : List (Call TenantId Region)

namespace CachedResidencyPolicy

variable {TenantId Region : Type}

def empty : CachedResidencyPolicy TenantId Region := ⟨Table.empty, []⟩

def addCall (tenantId : TenantId) (outcome : Outcome Region)
    (c : CachedResidencyPolicy TenantId Region) : CachedResidencyPolicy TenantId Region :=
  { c with calls := c.calls ++ [⟨tenantId, outcome⟩] }

/-- `getResidencyRegion` up to its await. -/
def getResidencyRegion (now : ℚ) (tenantId : TenantId)
    (c : CachedResidencyPolicy TenantId Region) : CachedResidencyPolicy TenantId Region :=
  match c.cache tenantId with
  | some cached =>
      if cached.expires > now then c.addCall tenantId (.returned cached.region cached.lookup)
      else c.addCall tenantId .waiting
  | none => c.addCall tenantId .waiting

def setCall (i : Nat) (tenantId : TenantId) (outcome : Outcome Region)
    (c : CachedResidencyPolicy TenantId Region) : CachedResidencyPolicy TenantId Region :=
  { c with calls := c.calls.set i ⟨tenantId, outcome⟩ }

section

variable [DecidableEq TenantId]

/-- `getResidencyRegion` from its await on, where the lookup has resolved. -/
def resolve (ttlMs now : ℚ) (i : Nat) (tenantId : TenantId) (region : Option Region)
    (c : CachedResidencyPolicy TenantId Region) : CachedResidencyPolicy TenantId Region :=
  { c.setCall i tenantId (.returned region i) with
    cache := c.cache.put tenantId ⟨region, now + ttlMs, i⟩ }

end

/-! ## Runs -/

/-- A call is made, or the lookup of one ends; the clock may show anything. -/
inductive Action (TenantId Region : Type) where
  | call (now : ℚ) (tenantId : TenantId)
  | resolved (now : ℚ) (call : Nat) (region : Option Region)
  | rejected (call : Nat)

/-- The tenant of a call whose lookup is under way. -/
def waiting (c : CachedResidencyPolicy TenantId Region) (i : Nat) : Option TenantId :=
  match c.calls[i]? with
  | some ⟨tenantId, .waiting⟩ => some tenantId
  | _ => none

/-- Call `i` has returned what lookup `p` has answered. -/
def Returned (c : CachedResidencyPolicy TenantId Region) (i : Nat) (tenantId : TenantId)
    (region : Option Region) (p : Nat) : Prop :=
  c.calls[i]? = some ⟨tenantId, .returned region p⟩

/-- Between two states: when a call has returned the result of a lookup, a
call for the tenant that is made later does not return that of an earlier one. -/
def NeverBack (c d : CachedResidencyPolicy TenantId Region) : Prop :=
  ∀ i tenantId region p, c.Returned i tenantId region p →
    ∀ j region' q, c.calls.length ≤ j → d.Returned j tenantId region' q → p ≤ q

/-- No lookup resolves when one that was started later is in the cache. -/
def InOrder (c : CachedResidencyPolicy TenantId Region) : Action TenantId Region → Prop
  | .resolved _ i _ => ∀ tenantId cached, c.waiting i = some tenantId →
      c.cache tenantId = some cached → cached.lookup ≤ i
  | _ => True

theorem waiting_some {c : CachedResidencyPolicy TenantId Region} {i : Nat} {tenantId : TenantId}
    (h : c.waiting i = some tenantId) : c.calls[i]? = some ⟨tenantId, .waiting⟩ := by
  unfold waiting at h
  split at h
  · rename_i t hcall
    cases h
    exact hcall
  · cases h

variable [DecidableEq TenantId]

def step (ttlMs : ℚ) (c : CachedResidencyPolicy TenantId Region) :
    Action TenantId Region → Option (CachedResidencyPolicy TenantId Region)
  | .call now tenantId => some (c.getResidencyRegion now tenantId)
  | .resolved now i region =>
      (c.waiting i).map fun tenantId => c.resolve ttlMs now i tenantId region
  | .rejected i => (c.waiting i).map fun tenantId => c.setCall i tenantId .rejected

/-- A run of steps that are all `ok` where they are made. -/
abbrev Run (ttlMs : ℚ)
    (ok : CachedResidencyPolicy TenantId Region → Action TenantId Region → Prop) :
    CachedResidencyPolicy TenantId Region → CachedResidencyPolicy TenantId Region → Prop :=
  Relation.ReflTransGen fun c d => ∃ a, ok c a ∧ c.step ttlMs a = some d

variable {c d : CachedResidencyPolicy TenantId Region} {ttlMs : ℚ} {a : Action TenantId Region}

/-- A call hits a live entry. -/
theorem call_hit {tenantId : TenantId} {cached : CacheEntry Region} {now : ℚ}
    (hcached : c.cache tenantId = some cached) (hlive : now < cached.expires) :
    c.step ttlMs (.call now tenantId) =
      some (c.addCall tenantId (.returned cached.region cached.lookup)) := by
  rw [step, getResidencyRegion, hcached]
  exact congrArg some (if_pos hlive)

/-- What a step does: a hit, a miss, a lookup that resolves, one that does not. -/
theorem step_cases (h : c.step ttlMs a = some d) :
    (∃ now tenantId cached, a = .call now tenantId ∧ c.cache tenantId = some cached ∧
      now < cached.expires ∧ d = c.addCall tenantId (.returned cached.region cached.lookup)) ∨
    (∃ now tenantId, a = .call now tenantId ∧ d = c.addCall tenantId .waiting) ∨
    (∃ now i region tenantId, a = .resolved now i region ∧ c.waiting i = some tenantId ∧
      d = c.resolve ttlMs now i tenantId region) ∨
    (∃ i tenantId, a = .rejected i ∧ c.waiting i = some tenantId ∧
      d = c.setCall i tenantId .rejected) := by
  cases a with
  | call now tenantId =>
      simp only [step, getResidencyRegion, Option.some.injEq] at h
      split at h
      · rename_i cached hcached
        split at h
        · rename_i hlive
          exact .inl ⟨now, tenantId, cached, rfl, hcached, hlive, h.symm⟩
        · exact .inr (.inl ⟨now, tenantId, rfl, h.symm⟩)
      · exact .inr (.inl ⟨now, tenantId, rfl, h.symm⟩)
  | resolved now i region =>
      obtain ⟨tenantId, hwaiting, rfl⟩ := Option.map_eq_some_iff.mp h
      exact .inr (.inr (.inl ⟨now, i, region, tenantId, rfl, hwaiting, rfl⟩))
  | rejected i =>
      obtain ⟨tenantId, hwaiting, rfl⟩ := Option.map_eq_some_iff.mp h
      exact .inr (.inr (.inr ⟨i, tenantId, rfl, hwaiting, rfl⟩))

/-! ## Where results come from -/

/-- What is cached and what is returned are answers of lookups. -/
structure Genuine (c : CachedResidencyPolicy TenantId Region) : Prop where
  cached : ∀ tenantId cached, c.cache tenantId = some cached →
    c.Returned cached.lookup tenantId cached.region cached.lookup
  returned : ∀ i tenantId region p, c.Returned i tenantId region p →
    c.Returned p tenantId region p

omit [DecidableEq TenantId] in
theorem Returned.addCall {tenantId t : TenantId} {region : Option Region} {p i : Nat}
    {outcome : Outcome Region} (h : c.Returned i tenantId region p) :
    (c.addCall t outcome).Returned i tenantId region p :=
  Slots.snoc_keeps _ h

omit [DecidableEq TenantId] in
/-- A call that has returned is not one that waits. -/
theorem Returned.setCall {tenantId t : TenantId} {region : Option Region} {p i j : Nat}
    {outcome : Outcome Region} (h : c.Returned i tenantId region p)
    (hwaiting : c.waiting j = some t) : (c.setCall j t outcome).Returned i tenantId region p := by
  have hne : j ≠ i := by
    rintro rfl
    have hcall := waiting_some hwaiting
    rw [show c.calls[j]? = _ from h] at hcall
    cases hcall
  exact (List.getElem?_set_ne hne).trans h

theorem returned_resolve {tenantId : TenantId} {region : Option Region} {now : ℚ} {i : Nat}
    (hwaiting : c.waiting i = some tenantId) :
    (c.resolve ttlMs now i tenantId region).Returned i tenantId region i :=
  List.getElem?_set_self (Slots.lt_of_some (waiting_some hwaiting))

theorem Returned.step {i : Nat} {tenantId : TenantId} {region : Option Region} {p : Nat}
    (h : c.Returned i tenantId region p) (hs : c.step ttlMs a = some d) :
    d.Returned i tenantId region p := by
  rcases step_cases hs with ⟨now, t, cached, -, -, -, rfl⟩ | ⟨now, t, -, rfl⟩ |
    ⟨now, j, r, t, -, hwaiting, rfl⟩ | ⟨j, t, -, hwaiting, rfl⟩
  · exact h.addCall
  · exact h.addCall
  · exact h.setCall hwaiting
  · exact h.setCall hwaiting

/-- What has been returned is old, or what is in the cache, or the call's own
answer, which is in the cache from now on. -/
theorem returned_of_step (hs : c.step ttlMs a = some d) {i : Nat} {tenantId : TenantId}
    {region : Option Region} {p : Nat} (h : d.Returned i tenantId region p) :
    c.Returned i tenantId region p ∨
      (∃ cached, c.cache tenantId = some cached ∧ d.cache tenantId = some cached ∧
        region = cached.region ∧ p = cached.lookup) ∨
      (p = i ∧ ∃ expires, d.cache tenantId = some ⟨region, expires, i⟩) := by
  rcases step_cases hs with ⟨now, t, cached, -, hcached, -, rfl⟩ | ⟨now, t, -, rfl⟩ |
    ⟨now, j, r, t, -, hwaiting, rfl⟩ | ⟨j, t, -, hwaiting, rfl⟩
  · rcases Slots.snoc_cases h with hold | ⟨-, hnew⟩
    · exact .inl hold
    · cases hnew
      exact .inr (.inl ⟨cached, hcached, hcached, rfl, rfl⟩)
  · rcases Slots.snoc_cases h with hold | ⟨-, hnew⟩
    · exact .inl hold
    · cases hnew
  · rcases Slots.set_cases h with ⟨-, hold⟩ | ⟨rfl, hnew⟩
    · exact .inl hold
    · cases hnew
      exact .inr (.inr ⟨rfl, _, Table.put_self _ _ _⟩)
  · rcases Slots.set_cases h with ⟨-, hold⟩ | ⟨-, hnew⟩
    · exact .inl hold
    · cases hnew

/-- What is in the cache is old, or what a lookup has just answered. -/
theorem cached_of_step (hs : c.step ttlMs a = some d) {tenantId : TenantId}
    {cached : CacheEntry Region} (h : d.cache tenantId = some cached) :
    c.cache tenantId = some cached ∨ d.Returned cached.lookup tenantId cached.region cached.lookup := by
  rcases step_cases hs with ⟨now, t, _, -, -, -, rfl⟩ | ⟨now, t, -, rfl⟩ |
    ⟨now, j, r, t, -, hwaiting, rfl⟩ | ⟨j, t, -, hwaiting, rfl⟩
  · exact .inl h
  · exact .inl h
  · rcases Table.put_some h with ⟨rfl, rfl⟩ | ⟨-, hold⟩
    · exact .inr (returned_resolve hwaiting)
    · exact .inl hold
  · exact .inl h

theorem calls_grow (hs : c.step ttlMs a = some d) : c.calls.length ≤ d.calls.length := by
  rcases step_cases hs with ⟨now, t, cached, -, -, -, rfl⟩ | ⟨now, t, -, rfl⟩ |
    ⟨now, j, r, t, -, -, rfl⟩ | ⟨j, t, -, -, rfl⟩
  · exact (List.sublist_append_left _ _).length_le
  · exact (List.sublist_append_left _ _).length_le
  · exact (List.length_set ..).ge
  · exact (List.length_set ..).ge

theorem Genuine.step (h : Genuine c) (hs : c.step ttlMs a = some d) : Genuine d := by
  have hcached : ∀ tenantId cached, d.cache tenantId = some cached →
      d.Returned cached.lookup tenantId cached.region cached.lookup := by
    intro tenantId cached hd
    rcases cached_of_step hs hd with hold | hnew
    · exact (h.cached tenantId cached hold).step hs
    · exact hnew
  refine ⟨hcached, ?_⟩
  intro i tenantId region p hi
  rcases returned_of_step hs hi with hold | ⟨cached, -, hd, rfl, rfl⟩ | ⟨rfl, -⟩
  · exact (h.returned i tenantId region p hold).step hs
  · exact hcached tenantId cached hd
  · exact hi

omit [DecidableEq TenantId] in
theorem empty_genuine : Genuine (empty : CachedResidencyPolicy TenantId Region) where
  cached := by
    intro tenantId cached h
    cases h
  returned := by
    intro i tenantId region p h
    cases h

/-- Every result, of any run, is what some lookup has answered. -/
theorem genuine {ok : CachedResidencyPolicy TenantId Region → Action TenantId Region → Prop}
    (h : Run ttlMs ok empty c) : Genuine c := by
  induction h with
  | refl => exact empty_genuine
  | tail _ hs ih =>
      obtain ⟨a, -, hs⟩ := hs
      exact ih.step hs

/-! ## Lookups that resolve in order -/

/-- The cache holds a result for the tenant that is no older than lookup `p`. -/
def HoldsFrom (p : Nat) (tenantId : TenantId) (c : CachedResidencyPolicy TenantId Region) :
    Prop :=
  ∃ cached, c.cache tenantId = some cached ∧ p ≤ cached.lookup

theorem HoldsFrom.step {p : Nat} {tenantId : TenantId} (h : HoldsFrom p tenantId c)
    (hok : InOrder c a) (hs : c.step ttlMs a = some d) : HoldsFrom p tenantId d := by
  obtain ⟨cached, hcached, hp⟩ := h
  rcases step_cases hs with ⟨now, t, _, -, -, -, rfl⟩ | ⟨now, t, -, rfl⟩ |
    ⟨now, i, region, t, rfl, hwaiting, rfl⟩ | ⟨i, t, -, -, rfl⟩
  · exact ⟨cached, hcached, hp⟩
  · exact ⟨cached, hcached, hp⟩
  · by_cases ht : tenantId = t
    · subst ht
      exact ⟨_, Table.put_self _ _ _, hp.trans (hok tenantId cached hwaiting hcached)⟩
    · exact ⟨cached, (Table.put_of_ne _ _ ht).trans hcached, hp⟩
  · exact ⟨cached, hcached, hp⟩

/-- The cache is no older than what any call has returned. -/
def Newest (c : CachedResidencyPolicy TenantId Region) : Prop :=
  ∀ i tenantId region p, c.Returned i tenantId region p → HoldsFrom p tenantId c

theorem Newest.step (h : Newest c) (hok : InOrder c a) (hs : c.step ttlMs a = some d) :
    Newest d := by
  intro i tenantId region p hi
  rcases returned_of_step hs hi with hold | ⟨cached, -, hd, -, rfl⟩ | ⟨rfl, expires, hd⟩
  · exact (h i tenantId region p hold).step hok hs
  · exact ⟨cached, hd, Nat.le_refl _⟩
  · exact ⟨_, hd, Nat.le_refl _⟩

theorem newest (h : Run ttlMs InOrder empty c) : Newest c := by
  induction h with
  | refl =>
      intro i tenantId region p h
      cases h
  | tail _ hs ih =>
      obtain ⟨a, hok, hs⟩ := hs
      exact ih.step hok hs

/-- What holds from when the result of lookup `p` is in the cache: no call
from number `n` on returns an older one. -/
structure Since (n p : Nat) (tenantId : TenantId) (c : CachedResidencyPolicy TenantId Region) :
    Prop where
  made : n ≤ c.calls.length
  holds : HoldsFrom p tenantId c
  later : ∀ j region q, n ≤ j → c.Returned j tenantId region q → p ≤ q

theorem Since.step {n p : Nat} {tenantId : TenantId} (h : Since n p tenantId c) (hp : p < n)
    (hok : InOrder c a) (hs : c.step ttlMs a = some d) : Since n p tenantId d := by
  refine ⟨h.made.trans (calls_grow hs), h.holds.step hok hs, ?_⟩
  intro j region q hj hcall
  rcases returned_of_step hs hcall with hold | ⟨cached, hcached, -, -, rfl⟩ | ⟨rfl, -⟩
  · exact h.later j region q hj hold
  · -- a hit returns what is in the cache
    obtain ⟨cached', hcached', hle⟩ := h.holds
    rw [hcached] at hcached'
    cases hcached'
    exact hle
  · -- the lookup of a call made since is newer than `p`
    omega

theorem Since.run {n p : Nat} {tenantId : TenantId} (h : Since n p tenantId c) (hp : p < n)
    (hrun : Run ttlMs InOrder c d) : Since n p tenantId d := by
  induction hrun with
  | refl => exact h
  | tail _ hs ih =>
      obtain ⟨a, hok, hs⟩ := hs
      exact ih.step hp hok hs

/-- After a lookup that resolves out of order, the very next call goes back. -/
theorem back_of_out_of_order
    {ok : CachedResidencyPolicy TenantId Region → Action TenantId Region → Prop}
    (hc : Run ttlMs ok empty c) (httl : 0 < ttlMs) {now : ℚ} {i : Nat} {region : Option Region}
    (hlate : ¬ InOrder c (.resolved now i region)) :
    ∃ tenantId d e, c.step ttlMs (.resolved now i region) = some d ∧
      d.step ttlMs (.call now tenantId) = some e ∧ ¬ NeverBack c e := by
  simp only [InOrder, not_forall, not_le] at hlate
  obtain ⟨tenantId, cached, hwaiting, hcached, hlt⟩ := hlate
  have hnewer := (genuine hc).cached tenantId cached hcached
  have hstored : (c.resolve ttlMs now i tenantId region).cache tenantId =
      some ⟨region, now + ttlMs, i⟩ := Table.put_self _ _ _
  have hlive : now < now + ttlMs := by linarith
  have hhit : (c.resolve ttlMs now i tenantId region).step ttlMs (.call now tenantId) =
      some ((c.resolve ttlMs now i tenantId region).addCall tenantId (.returned region i)) :=
    call_hit hstored hlive
  have hstore : c.step ttlMs (.resolved now i region) =
      some (c.resolve ttlMs now i tenantId region) := by
    rw [step, hwaiting, Option.map_some]
  refine ⟨tenantId, _, _, hstore, hhit, ?_⟩
  intro hback
  have hlast : ((c.resolve ttlMs now i tenantId region).addCall tenantId
      (.returned region i)).Returned c.calls.length tenantId region i := by
    have hlen : c.calls.length = (c.resolve ttlMs now i tenantId region).calls.length :=
      (List.length_set ..).symm
    rw [hlen]
    exact List.getElem?_concat_length
  have hle := hback _ _ _ _ hnewer _ _ _ (Nat.le_refl _) hlast
  exact absurd hlt (Nat.not_lt.mpr hle)

/-- Where lookups resolve in order, no result is followed by an older one. -/
theorem residency_never_back (ttlMs : ℚ) (c d : CachedResidencyPolicy TenantId Region)
    (hc : Run ttlMs InOrder empty c) (hd : Run ttlMs InOrder c d) : NeverBack c d := by
  intro i tenantId region p hi j region' q hj hcall
  have hp : p < c.calls.length := Slots.lt_of_some ((genuine hc).returned i tenantId region p hi)
  have hsince : Since c.calls.length p tenantId c := by
    refine ⟨Nat.le_refl _, newest hc i tenantId region p hi, ?_⟩
    intro k r s hk hkcall
    have := Slots.lt_of_some hkcall
    omega
  exact (hsince.run hp hd).later j region' q hj hcall

namespace Small

/-- Tenants are numbers here. -/
abbrev Policy := CachedResidencyPolicy Nat String

/-- One tenant has asked once. -/
def once : Policy :=
  ⟨Table.put Table.empty 7 ⟨some "EU", 0 + 60000, 0⟩, [⟨7, .returned (some "EU") 0⟩]⟩

theorem run_once : Run 60000 InOrder (empty : Policy) once := by
  refine (Relation.ReflTransGen.single ⟨.call 0 7, trivial, rfl⟩).tail
    ⟨.resolved 0 0 (some "EU"), ?_, rfl⟩
  intro tenantId cached _ h
  cases h

theorem once_hit :
    once.step 60000 (.call 5 7) = some (once.addCall 7 (.returned (some "EU") 0)) := by
  have hcached : once.cache 7 = some ⟨some "EU", 0 + 60000, 0⟩ := rfl
  exact call_hit hcached (by norm_num)

theorem residency_never_back_once :
    NeverBack once (once.addCall 7 (.returned (some "EU") 0)) :=
  residency_never_back 60000 once _ run_once (.single ⟨.call 5 7, trivial, once_hit⟩)

/-- Two lookups are under way, and the later one resolves first. -/
def overtaken : Policy :=
  ⟨Table.put Table.empty 7 ⟨some "EU", 0 + 60000, 1⟩,
    [⟨7, .waiting⟩, ⟨7, .returned (some "EU") 1⟩]⟩

/-- The older answer has been stored over the newer. -/
def stale : Policy :=
  ⟨Table.put overtaken.cache 7 ⟨some "US", 1 + 60000, 0⟩,
    [⟨7, .returned (some "US") 0⟩, ⟨7, .returned (some "EU") 1⟩]⟩

/-- A third call returns the region from before the one that the second has
returned. -/
theorem residency_back : ∃ d : Policy, Run 60000 (fun _ _ => True) empty overtaken ∧
    Run 60000 (fun _ _ => True) overtaken d ∧ ¬ NeverBack overtaken d := by
  refine ⟨stale.addCall 7 (.returned (some "US") 0), ?_, ?_, ?_⟩
  · exact ((Relation.ReflTransGen.single ⟨.call 0 7, trivial, rfl⟩).tail
      ⟨.call 0 7, trivial, rfl⟩).tail ⟨.resolved 0 1 (some "EU"), trivial, rfl⟩
  · have hstale : Run 60000 (fun _ _ => True) overtaken stale :=
      .single ⟨.resolved 1 0 (some "US"), trivial, rfl⟩
    have hcached : stale.cache 7 = some ⟨some "US", 1 + 60000, 0⟩ := rfl
    exact hstale.tail ⟨.call 2 7, trivial, call_hit hcached (by norm_num)⟩
  · intro h
    exact absurd (h 1 7 (some "EU") 1 rfl 2 (some "US") 0 (Nat.le_refl 2) rfl) (by decide)

end Small

end CachedResidencyPolicy

end SaasFoundation.Foundation.Region
