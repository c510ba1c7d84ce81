import SaasFoundation.Lib.JsObject
import SaasFoundation.Vestibulum.Idp.Names

/-!
# Histories of registrations

A consumer that records every name it is given, and passes the record along,
never gives one name to two tenants.
-/

namespace SaasFoundation.Vestibulum.Idp

open Lib

/-- One registration: a name that is returned is recorded, as by `Map.set`. -/
def register (rt : Runtime) (names : List (String × String)) (tenantId : String) :
    List (String × String) :=
  match normaliseIdpName rt tenantId names with
  | .ok name => setProperty tenantId name names
  | .error _ => names

/-- The record after a history of registrations. -/
def registered (rt : Runtime) (tenantIds : List String) : List (String × String) :=
  tenantIds.foldl (register rt) []

/-- A valid provider name. -/
def IsProviderName (name : String) : Prop :=
  (∃ slug, name = "tenant-" ++ String.ofList slug ∧ IsSlug slug) ∧ Text.jsLength name ≤ 32

/-- What the record and the next registration have to do with each other. -/
structure CollisionFree (rt : Runtime) (names : List (String × String)) : Prop where
  distinct : ∀ tenant₁ tenant₂ name, names.lookup tenant₁ = some name →
    names.lookup tenant₂ = some name → tenant₁ = tenant₂
  clash : ∀ tenantId other, names.lookup other = some (idpName rt tenantId) → other ≠ tenantId →
    ∃ e, normaliseIdpName rt tenantId names = .error e ∧ e.reason = .nameCollision
  otherwise : ∀ tenantId,
    (∀ other, names.lookup other = some (idpName rt tenantId) → other = tenantId) →
      normaliseIdpName rt tenantId names = .ok (idpName rt tenantId)
  again : ∀ tenantId name, names.lookup tenantId = some name →
    normaliseIdpName rt tenantId names = .ok name
  shape : ∀ tenantId name, normaliseIdpName rt tenantId names = .ok name → IsProviderName name

/-- Every tenant is recorded with the name made of its id, and no name
twice. -/
structure Recorded (rt : Runtime) (names : List (String × String)) : Prop where
  derived : ∀ p ∈ names, p.2 = idpName rt p.1
  unique : ∀ p ∈ names, ∀ q ∈ names, p.2 = q.2 → p.1 = q.1

section History

variable {rt : Runtime} {names : List (String × String)} {tenantId name : String}

theorem idpName_isProviderName (rt : Runtime) (tenantId : String) :
    IsProviderName (idpName rt tenantId) :=
  ⟨⟨slugOf rt tenantId, idpName_eq rt tenantId, slugOf_isSlug rt tenantId⟩,
    idpName_length_le rt tenantId⟩

theorem mem_of_lookup (h : names.lookup tenantId = some name) : (tenantId, name) ∈ names := by
  obtain ⟨before, after, rfl, -⟩ := List.lookup_eq_some_iff.mp h
  simp

theorem Recorded.lookup (h : Recorded rt names) {p : String × String} (hp : p ∈ names) :
    names.lookup p.1 = some p.2 := by
  have hfound : (names.lookup p.1).isSome := by
    rw [List.lookup_isSome_iff]
    exact ⟨p, hp, beq_self_eq_true p.1⟩
  obtain ⟨name, hname⟩ := Option.isSome_iff_exists.mp hfound
  have hderived : name = idpName rt p.1 := h.derived _ (mem_of_lookup hname)
  rw [hname, hderived, h.derived p hp]

theorem Recorded.nil : Recorded rt [] := ⟨by simp, by simp⟩

/-- The step: the guard has seen every other name. -/
theorem Recorded.register (h : Recorded rt names) (tenantId : String) :
    Recorded rt (register rt names tenantId) := by
  unfold Idp.register
  cases hname : normaliseIdpName rt tenantId names with
  | error e => exact h
  | ok name =>
      obtain ⟨rfl, hfree⟩ := normaliseIdpName_guarded hname
      constructor
      · intro p hp
        rcases mem_setProperty hp with rfl | hp
        · rfl
        · exact h.derived p hp
      · intro p hp q hq hsame
        have hnew : ∀ r ∈ names, r.2 = idpName rt tenantId → r.1 = tenantId := by
          intro r hr hrname
          by_contra hother
          exact hfree r hr hother hrname
        rcases mem_setProperty hp with rfl | hp
        · rcases mem_setProperty hq with rfl | hq
          · rfl
          · exact (hnew q hq hsame.symm).symm
        · rcases mem_setProperty hq with rfl | hq
          · exact hnew p hp hsame
          · exact h.unique p hp q hq hsame

theorem Recorded.run (h : Recorded rt names) (tenantIds : List String) :
    Recorded rt (tenantIds.foldl (Idp.register rt) names) := by
  induction tenantIds generalizing names with
  | nil => exact h
  | cons tenantId tenantIds ih => exact ih (h.register tenantId)

theorem Recorded.collisionFree (h : Recorded rt names) : CollisionFree rt names where
  distinct := by
    intro tenant₁ tenant₂ name h₁ h₂
    exact h.unique _ (mem_of_lookup h₁) _ (mem_of_lookup h₂) rfl
  clash := by
    intro tenantId other hother hne
    rcases normaliseIdpName_cases rt tenantId names with ⟨e, herror, hreason, -⟩ | ⟨-, hfree⟩
    · exact ⟨e, herror, hreason⟩
    · exact absurd rfl (hfree _ (mem_of_lookup hother) hne)
  otherwise := by
    intro tenantId hnone
    rcases normaliseIdpName_cases rt tenantId names with ⟨e, -, -, p, hp, hne, hname⟩ | ⟨hok, -⟩
    · have hother := h.lookup hp
      rw [hname] at hother
      exact absurd (hnone p.1 hother) hne
    · exact hok
  again := by
    intro tenantId name hname
    have hmem := mem_of_lookup hname
    have hderived : name = idpName rt tenantId := h.derived _ hmem
    rcases normaliseIdpName_cases rt tenantId names with ⟨e, -, -, p, hp, hne, hsame⟩ | ⟨hok, -⟩
    · exact absurd (h.unique p hp _ hmem (hsame.trans hderived.symm)) hne
    · rw [hok, hderived]
  shape := by
    intro tenantId name hname
    obtain ⟨rfl, -⟩ := normaliseIdpName_guarded hname
    exact idpName_isProviderName rt tenantId

/-- No history gives one name to two tenants. -/
theorem registered_collisionFree (rt : Runtime) (tenantIds : List String) :
    CollisionFree rt (registered rt tenantIds) :=
  (Recorded.nil.run tenantIds).collisionFree

end History

end SaasFoundation.Vestibulum.Idp
