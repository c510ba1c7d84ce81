import Mathlib.Data.Rat.Floor
import SaasFoundation.Foundation.Audit.AuditLog
import SaasFoundation.Foundation.Tenant.TenantId

/-!
# The audit table

`dynamo-store.ts`: the row of an event, and which rows share a partition.
The tenant stands in the key of two of the three partitions, before the
action in one of them.
-/

namespace SaasFoundation.Foundation.Audit

open Lib Tenant

variable {N : Type}

def actorKind : AuditActor → String
  | .user _ _ => "user"
  | .service _ => "service"
  | .system _ => "system"
  | .anonymous => "anonymous"

def actorIdFor : AuditActor → String
  | .user userSub _ => userSub
  | .service serviceName => serviceName
  | .system component => component
  | .anonymous => "_anonymous"

/-- The attributes of a row. -/
structure AuditItem where
  PK : String
  SK : String
  PK1 : String
  SK1 : String
  PK2 : String
  SK2 : String
  event : String
  ttl : ℤ

/-- `event.tenantId ?? "_global"`. -/
def tenantPart (event : AuditEvent N) : String := event.tenantId.getD "_global"

def buildItem (stringify : AuditEvent N → String) (event : AuditEvent N) (ttlEpochSeconds : ℤ) :
    AuditItem where
  PK := "AUDIT#" ++ tenantPart event
  SK := event.timestamp ++ "#" ++ event.id
  PK1 := "ACTOR#" ++ actorKind event.actor ++ "#" ++ actorIdFor event.actor
  SK1 := event.timestamp
  PK2 := "ACTION#" ++ tenantPart event ++ "#" ++ event.action
  SK2 := event.timestamp
  event := stringify event
  ttl := ttlEpochSeconds

/-- What `put` hands to DynamoDB. -/
def putItem (stringify : AuditEvent N → String) (clock retentionSeconds : ℚ)
    (event : AuditEvent N) : AuditItem :=
  buildItem stringify event (⌊clock / 1000⌋ + ⌊retentionSeconds⌋)

/-! ## Tenants apart -/

/-- What the schema lets through: `TenantIdSchema` and `AuditActionSchema`. -/
structure Emittable (event : AuditEvent N) : Prop where
  tenantId : ∀ id ∈ event.tenantId, isTenantId id = true
  action : event.action ≠ ""

/-- One is of a tenant that is called like the place of those that are of
none. -/
def NamedGlobal (e₁ e₂ : AuditEvent N) : Prop :=
  e₁.tenantId = some "_global" ∧ e₂.tenantId = none

/-- The tenant of the first goes on behind a `#` where that of the second
ends, and the action of the second begins with the rest. -/
def Straddles (e₁ e₂ : AuditEvent N) : Prop :=
  ∃ between, tenantPart e₁ = tenantPart e₂ ++ "#" ++ between ∧
    e₂.action = between ++ "#" ++ e₁.action

/-- Two events that are put in one partition. -/
def Mixed (e₁ e₂ : AuditEvent N) : Prop :=
  NamedGlobal e₁ e₂ ∨ NamedGlobal e₂ e₁ ∨ Straddles e₁ e₂ ∨ Straddles e₂ e₁

section Partitions

variable {e₁ e₂ : AuditEvent N} {stringify : AuditEvent N → String} {ttl₁ ttl₂ : ℤ}

theorem tenantPart_eq_iff (h : e₁.tenantId ≠ e₂.tenantId) :
    tenantPart e₁ = tenantPart e₂ ↔ NamedGlobal e₁ e₂ ∨ NamedGlobal e₂ e₁ := by
  unfold tenantPart NamedGlobal
  cases h₁ : e₁.tenantId with
  | none =>
      cases h₂ : e₂.tenantId with
      | none => exact absurd (h₁.trans h₂.symm) h
      | some t => simp [eq_comm]
  | some s =>
      cases h₂ : e₂.tenantId with
      | none => simp
      | some t =>
          have hne : s ≠ t := by
            rintro rfl
            exact h (h₁.trans h₂.symm)
          simp [hne]

theorem straddles_iff : Straddles e₁ e₂ ↔ ∃ between,
    (tenantPart e₁).toList = (tenantPart e₂).toList ++ '#' :: between ∧
      e₂.action.toList = between ++ '#' :: e₁.action.toList :=
  Text.exists_between_iff rfl

theorem pk_eq_iff : (buildItem stringify e₁ ttl₁).PK = (buildItem stringify e₂ ttl₂).PK ↔
    tenantPart e₁ = tenantPart e₂ := by
  rw [← String.toList_inj, ← String.toList_inj]
  simp [buildItem]

/-- Two ways to read one key. -/
theorem pk2_eq_iff : (buildItem stringify e₁ ttl₁).PK2 = (buildItem stringify e₂ ttl₂).PK2 ↔
    tenantPart e₁ = tenantPart e₂ ∧ e₁.action = e₂.action ∨ Straddles e₁ e₂ ∨
      Straddles e₂ e₁ := by
  have hlists : (buildItem stringify e₁ ttl₁).PK2 = (buildItem stringify e₂ ttl₂).PK2 ↔
      (tenantPart e₁).toList ++ '#' :: e₁.action.toList =
        (tenantPart e₂).toList ++ '#' :: e₂.action.toList := by
    rw [← String.toList_inj]
    simp [buildItem]
  rw [hlists, Text.append_sep_eq_iff, straddles_iff, straddles_iff, String.toList_inj,
    String.toList_inj]

end Partitions

/-- The events of a tenant share a partition with those of another one, or of
none, only where they are mixed up: the tenant is called `_global`, or a `#`
of a tenant's id is taken for the one before the action. -/
theorem partitions_apart_iff (stringify : AuditEvent N → String) (e₁ e₂ : AuditEvent N)
    (ttl₁ ttl₂ : ℤ) (h : e₁.tenantId ≠ e₂.tenantId) :
    ((buildItem stringify e₁ ttl₁).PK ≠ (buildItem stringify e₂ ttl₂).PK ∧
      (buildItem stringify e₁ ttl₁).PK2 ≠ (buildItem stringify e₂ ttl₂).PK2) ↔
      ¬ Mixed e₁ e₂ := by
  rw [Ne, Ne, pk_eq_iff, pk2_eq_iff, tenantPart_eq_iff h, Mixed]
  constructor
  · rintro ⟨hpk, hpk2⟩ (hglobal | hglobal | hstraddles | hstraddles)
    · exact hpk (.inl hglobal)
    · exact hpk (.inr hglobal)
    · exact hpk2 (.inr (.inl hstraddles))
    · exact hpk2 (.inr (.inr hstraddles))
  · intro hmixed
    refine ⟨?_, ?_⟩
    · rintro (hglobal | hglobal)
      · exact hmixed (.inl hglobal)
      · exact hmixed (.inr (.inl hglobal))
    · rintro (⟨hglobal | hglobal, -⟩ | hstraddles | hstraddles)
      · exact hmixed (.inl hglobal)
      · exact hmixed (.inr (.inl hglobal))
      · exact hmixed (.inr (.inr (.inl hstraddles)))
      · exact hmixed (.inr (.inr (.inr hstraddles)))

namespace Small

def event (tenantId : Option String) (action : String) : AuditEvent Bool where
  tenantId := tenantId
  actor := .system "cron"
  action := action
  resource := none
  outcome := .success
  failureReason := none
  severity := .info
  requestId := none
  traceId := none
  ipAddress := none
  userAgent := none
  metadata := none
  id := "1"
  timestamp := "2026-01-01T00:00:00.000Z"

theorem partitions_apart_plain :
    let row := fun tenant action => buildItem (fun _ => "{}") (event tenant action) 0
    (row (some "acme") "auth.login").PK ≠ (row (some "globex") "auth.login").PK ∧
      (row (some "acme") "auth.login").PK2 ≠ (row (some "globex") "auth.login").PK2 := by
  refine (partitions_apart_iff (fun _ => "{}") (event (some "acme") "auth.login")
    (event (some "globex") "auth.login") 0 0 (by decide)).mpr ?_
  rintro (⟨-, hnone⟩ | ⟨-, hnone⟩ | hstraddles | hstraddles)
  · cases hnone
  · cases hnone
  · obtain ⟨between, hfront, -⟩ := straddles_iff.mp hstraddles
    cases hfront
  · obtain ⟨between, hfront, -⟩ := straddles_iff.mp hstraddles
    cases hfront

/-- A tenant is called `_global`; or one is called `a`, one `a#b`. -/
theorem partitions_meet : ¬ ∀ (e₁ e₂ : AuditEvent Bool), Emittable e₁ → Emittable e₂ →
    e₁.tenantId.isSome → e₁.tenantId ≠ e₂.tenantId →
      (buildItem (fun _ => "{}") e₁ 0).PK ≠ (buildItem (fun _ => "{}") e₂ 0).PK ∧
        (buildItem (fun _ => "{}") e₁ 0).PK2 ≠ (buildItem (fun _ => "{}") e₂ 0).PK2 := by
  intro hclaim
  have hglobal : Emittable (event (some "_global") "auth.login") :=
    ⟨by simp [event]; decide, by simp [event]⟩
  have hnone : Emittable (event none "auth.login") := ⟨by simp [event], by simp [event]⟩
  exact (hclaim (event (some "_global") "auth.login") (event none "auth.login") hglobal hnone rfl
    (by decide)).1 rfl

/-- The actions of one tenant are found among those of another. -/
example : (buildItem (fun _ => "{}") (event (some "a#b") "c") 0).PK2 =
    (buildItem (fun _ => "{}") (event (some "a") "b#c") 0).PK2 := rfl

end Small

end SaasFoundation.Foundation.Audit
