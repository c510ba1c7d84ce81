import Mathlib.Logic.Function.Basic

/-!
# Tables with conditional writes

A table is a partial function. A conditional write that is acknowledged was
enabled and has happened; one that failed may have happened all the same,
when only the acknowledgement was lost.
-/

namespace SaasFoundation.Lib

/-- A table: at most one row under each key. -/
abbrev Table (K R : Type) := K → Option R

namespace Table

variable {K R : Type} [DecidableEq K]

def empty : Table K R := fun _ => none

def put (t : Table K R) (k : K) (r : R) : Table K R := Function.update t k (some r)

def erase (t : Table K R) (k : K) : Table K R := Function.update t k none

@[simp] theorem put_self (t : Table K R) (k : K) (r : R) : t.put k r k = some r := by
  simp [put]

@[simp] theorem erase_self (t : Table K R) (k : K) : t.erase k k = none := by
  simp [erase]

theorem put_of_ne (t : Table K R) {k k' : K} (r : R) (h : k' ≠ k) : t.put k r k' = t k' := by
  simp [put, h]

theorem erase_of_ne (t : Table K R) {k k' : K} (h : k' ≠ k) : t.erase k k' = t k' := by
  simp [erase, h]

theorem put_apply (t : Table K R) (k k' : K) (r : R) :
    t.put k r k' = if k' = k then some r else t k' := by
  by_cases hk : k' = k
  · rw [if_pos hk, hk, put_self]
  · rw [if_neg hk, put_of_ne t r hk]

theorem erase_apply (t : Table K R) (k k' : K) :
    t.erase k k' = if k' = k then none else t k' := by
  by_cases hk : k' = k
  · rw [if_pos hk, hk, erase_self]
  · rw [if_neg hk, erase_of_ne t hk]

/-- A row put under a free key and erased again leaves nothing behind. -/
theorem erase_put {t : Table K R} {k : K} (r : R) (h : t k = none) : (t.put k r).erase k = t := by
  funext k'
  by_cases hk : k' = k
  · rw [hk, erase_self, h]
  · rw [erase_of_ne _ hk, put_of_ne t r hk]

/-- A row of the smaller table is the row of the larger one. -/
theorem erase_some {t : Table K R} {k k' : K} {r : R} (h : t.erase k k' = some r) :
    k' ≠ k ∧ t k' = some r := by
  by_cases hk : k' = k
  · subst hk
    simp at h
  · exact ⟨hk, by rwa [erase_of_ne t hk] at h⟩

/-- The only new row of a put is the one that was put. -/
theorem put_some {t : Table K R} {k k' : K} {r r' : R} (h : t.put k r k' = some r') :
    (k' = k ∧ r' = r) ∨ (k' ≠ k ∧ t k' = some r') := by
  by_cases hk : k' = k
  · subst hk
    rw [put_self] at h
    cases h
    exact .inl ⟨rfl, rfl⟩
  · exact .inr ⟨hk, by rwa [put_of_ne t r hk] at h⟩

/-- A row that is erased is gone, and every other row is kept. -/
theorem erase_keeps (t : Table K R) (k k' : K) {r : R} (h : t k' = some r) :
    t.erase k k' = some r ∨ t.erase k k' = none := by
  by_cases hk : k' = k
  · subst hk
    exact .inr (erase_self t k')
  · exact .inl (by rw [erase_of_ne t hk, h])

theorem erase_free (t : Table K R) (k : K) {k' : K} (h : t k' = none) :
    t.erase k k' = none := by
  by_cases hk : k' = k
  · subst hk
    exact erase_self t k'
  · rw [erase_of_ne t hk, h]

theorem erase_absent {t : Table K R} {k : K} (h : t k = none) : t.erase k = t := by
  funext k'
  by_cases hk : k' = k
  · rw [hk, erase_self, h]
  · rw [erase_of_ne t hk]

/-- A put under a free key leaves every row that is there. -/
theorem put_keeps (t : Table K R) {k k' : K} {r r' : R} (hfree : t k = none)
    (h : t k' = some r) : t.put k r' k' = some r := by
  rw [put_of_ne t r', h]
  intro hk
  rw [hk, hfree] at h
  cases h

end Table

/-- The outcome of a write under the condition `cond`, which would turn the
world `w` into `applied`. -/
def ConditionalWrite {World E A : Type} (cond : Prop) (w applied : World)
    (reply : Except E A) (w' : World) : Prop :=
  match reply with
  | .ok _ => cond ∧ w' = applied
  | .error _ => w' = w ∨ cond ∧ w' = applied

namespace ConditionalWrite

variable {World E A : Type} {cond : Prop} {w applied w' : World}

theorem changed {reply : Except E A} (h : ConditionalWrite cond w applied reply w') :
    w' = w ∨ cond ∧ w' = applied := by
  cases reply with
  | ok a => exact .inr h
  | error e => exact h

end ConditionalWrite

end SaasFoundation.Lib
