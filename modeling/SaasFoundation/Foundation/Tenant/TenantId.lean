import SaasFoundation.Lib.Text

/-!
# Tenant ids

`tenant.ts`: a tenant id is a short text without white space and control
characters. Everything else may be in one.
-/

namespace SaasFoundation.Foundation.Tenant

open Lib Lib.Text

def tenantIdMinLength : Nat := 1
def tenantIdMaxLength : Nat := 256

/-- `/^[^\s\x00-\x1f\x7f]+$/`. -/
def tenantIdPattern (value : List Char) : Bool :=
  !value.isEmpty && value.all fun c => !isSpace c && decide (0x20 ≤ c.toNat) && c.toNat != 0x7f

structure TenantIdValidationError where
  input : String
  message : String
  deriving DecidableEq

/-- `null` is the success. -/
def validateTenantIdShape (value : String) : Option String :=
  if jsLength value < tenantIdMinLength then some "must be at least 1 character"
  else if tenantIdMaxLength < jsLength value then some "must be at most 256 characters"
  else if !tenantIdPattern value.toList then
    some "must not contain whitespace or control characters"
  else none

def tenantId (value : String) : Except TenantIdValidationError String :=
  match validateTenantIdShape value with
  | some reason => .error ⟨value, "Invalid TenantId: " ++ reason⟩
  | none => .ok value

def isTenantId (value : String) : Bool := (validateTenantIdShape value).isNone

/-- The constructor lets through what the predicate holds of, unchanged. -/
theorem tenantId_ok {value id : String} :
    tenantId value = .ok id ↔ isTenantId value = true ∧ id = value := by
  unfold tenantId isTenantId
  cases validateTenantIdShape value with
  | none => simp [eq_comm]
  | some reason => simp

end SaasFoundation.Foundation.Tenant
