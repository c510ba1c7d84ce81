import SaasFoundation.Lib.Store

/-!
# Leases

A lease on a key is a row with a deadline, put where there is none or only
one whose deadline has passed. Whoever put it holds it until it is released
or the deadline comes; holders are a ghost of the run, not of the table.

The invariant is about holders whose deadline is still ahead. It survives a
release that checks nothing, as long as only such holders release.
-/

namespace SaasFoundation.Lib

variable {K Owner : Type}

/-- `holds i k d`: owner `i` has put a lease on `k` with deadline `d` and
not released it. A holder whose deadline is ahead has its row in the table,
and is the only such holder of the key. -/
def Leased (table : Table K Int) (now : Int) (holds : Owner → K → Int → Prop) : Prop :=
  ∀ i k d, holds i k d → now < d →
    table k = some d ∧ ∀ j d', holds j k d' → now < d' → j = i

namespace Leased

variable {table table' : Table K Int} {now now' : Int} {holds holds' : Owner → K → Int → Prop}

theorem unique (h : Leased table now holds) {i j : Owner} {k : K} {d d' : Int}
    (hi : holds i k d) (hj : holds j k d') (hd : now < d) (hd' : now < d') : i = j :=
  ((h i k d hi hd).2 j d' hj hd').symm

/-- Deadlines pass and holders leave. -/
theorem mono (h : Leased table now holds) (hle : now ≤ now')
    (hsub : ∀ i k d, holds' i k d → holds i k d) : Leased table now' holds' := by
  intro i k d hi hd
  obtain ⟨hrow, huniq⟩ := h i k d (hsub i k d hi) (by omega)
  refine ⟨hrow, ?_⟩
  intro j d' hj hd'
  exact huniq j d' (hsub j k d' hj) (by omega)

/-- Rows may be taken off the table where no holder has a deadline ahead. -/
theorem take (h : Leased table now holds) (hsub : ∀ i k d, holds' i k d → holds i k d)
    (hrows : ∀ i k d, holds' i k d → now < d → table' k = table k) :
    Leased table' now holds' := by
  intro i k d hi hd
  obtain ⟨hrow, huniq⟩ := h i k d (hsub i k d hi) hd
  refine ⟨(hrows i k d hi hd).trans hrow, ?_⟩
  intro j d' hj hd'
  exact huniq j d' (hsub j k d' hj) hd'

/-- A lease may be put where there is no row, or one whose deadline is no
longer ahead. -/
def Free (table : Table K Int) (now : Int) (k : K) : Prop :=
  ∀ d, table k = some d → d ≤ now

theorem not_holds_of_free (h : Leased table now holds) {i : Owner} {k : K} {d : Int}
    (hfree : Free table now k) (hi : holds i k d) : d ≤ now := by
  by_contra hlt
  have hrow := (h i k d hi (by omega)).1
  have := hfree d hrow
  omega

/-- Putting leases with one deadline on free keys: the owner becomes their
only holder. `holds'` need not say that the owner holds them: a write whose
acknowledgement is lost makes no holder. -/
theorem put (h : Leased table now holds) (owner : Owner) (deadline : Int) (keys : K → Prop)
    (hfree : ∀ k, keys k → Free table now k)
    (hrow : ∀ k, keys k → table' k = some deadline)
    (hother : ∀ k, ¬ keys k → table' k = table k)
    (hholds : ∀ i k d, holds' i k d → holds i k d ∨ (keys k ∧ i = owner ∧ d = deadline)) :
    Leased table' now holds' := by
  intro i k d hi hd
  by_cases hk : keys k
  · -- whoever held the key before is past its deadline
    have hnew : ∀ j d', holds' j k d' → now < d' → j = owner ∧ d' = deadline := by
      intro j d' hj hd'
      rcases hholds j k d' hj with hold | ⟨-, hown⟩
      · have := h.not_holds_of_free (hfree k hk) hold
        omega
      · exact hown
    obtain ⟨rfl, rfl⟩ := hnew i d hi hd
    refine ⟨hrow k hk, ?_⟩
    intro j d' hj hd'
    exact (hnew j d' hj hd').1
  · have hold : ∀ j d', holds' j k d' → holds j k d' := by
      intro j d' hj
      exact (hholds j k d' hj).resolve_right (fun hnew => hk hnew.1)
    obtain ⟨hkrow, huniq⟩ := h i k d (hold i d hi) hd
    refine ⟨(hother k hk).trans hkrow, ?_⟩
    intro j d' hj hd'
    exact huniq j d' (hold j d' hj) hd'

end Leased

end SaasFoundation.Lib
