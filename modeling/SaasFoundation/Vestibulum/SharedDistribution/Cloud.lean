import SaasFoundation.Lib.BigStep
import SaasFoundation.Vestibulum.SharedDistribution.Registry

/-!
# Cognito and the stores, with faults

What a healthy service does with a request of the tenant actions, and the
two ways in which a request can fail: it is not executed, or it is executed
and its response is lost.
-/

namespace SaasFoundation.Vestibulum.SharedDistribution

open Lib

/-- The stores, and the app clients that exist. -/
structure Cloud extends World where
  clients : Table String UserPoolClient

/-- The users of the pool: every page of `ListUsers` brings the listing
nearer to its end. -/
structure Directory where
  page : Option String → UserPage
  left : Option String → Nat
  ends : ∀ token, (page token).paginationToken.getD "" ≠ "" →
    left (page token).paginationToken < left token

/-- A request that is executed, and its answer. A deleted app client cannot
be deleted again; `Date.now()` is a time value. -/
def Performs (users : Directory) (w : Cloud) : (op : Request) → Reply op → Cloud → Prop
  | .now, t, w' => t = w.now ∧ -IsoDate.maxTime ≤ t ∧ t ≤ IsoDate.maxTime ∧ w' = w
  | .concurrentOrder, _, w' => w' = w
  | .getIdempotency k, reply, w' => reply = .ok (w.idempotency k) ∧ w' = w
  | .reserve r, reply, w' =>
      if r.enabled w.reservations then
        reply = .ok () ∧ w' = { w with reservations := r.apply w.reservations }
      else reply = .error .transactionCanceled ∧ w' = w
  | .createUserPoolClient client, reply, w' =>
      ∃ clientId, clientId ≠ "" ∧ w.clients clientId = none ∧ reply = .ok (some clientId) ∧
        w' = { w with clients := w.clients.put clientId client }
  | .deleteUserPoolClient clientId, reply, w' =>
      if (w.clients clientId).isSome then
        reply = .ok () ∧ w' = { w with clients := w.clients.erase clientId }
      else reply = .error .other ∧ w' = w
  | .putClientConfig row, reply, w' =>
      if w.configs row.clientId = none then
        reply = .ok () ∧ w' = { w with configs := w.configs.put row.clientId row }
      else reply = .error .conditionalCheckFailed ∧ w' = w
  | .putIdempotency k record, reply, w' =>
      reply = .ok () ∧ w' = { w with idempotency := w.idempotency.put k record }
  | .deleteReservation k, reply, w' =>
      reply = .ok () ∧ w' = { w with reservations := w.reservations.erase k }
  | .queryTenantId tenantId, reply, w' => w' = w ∧
      ((∃ row, reply = .ok (some row) ∧ w.configs row.clientId = some row ∧
          row.tenantId = tenantId) ∨
        reply = .ok none ∧ ∀ k row, w.configs k = some row → row.tenantId ≠ tenantId)
  | .updateClientConfig clientId domains updatedAt, reply, w' =>
      if (w.configs clientId).isSome then
        reply = .ok () ∧
          w' = { w with configs := updatedConfigs w.configs clientId domains updatedAt }
      else reply = .error .conditionalCheckFailed ∧ w' = w
  | .deleteClientConfig clientId, reply, w' =>
      reply = .ok () ∧ w' = { w with configs := w.configs.erase clientId }
  | .listUsers token, reply, w' => reply = .ok (users.page token) ∧ w' = w
  | .adminUserGlobalSignOut _, reply, w' => reply = .ok () ∧ w' = w

/-- The reply is an error. -/
def Failed : (op : Request) → Reply op → Prop
  | .now, _ => False
  | .concurrentOrder, _ => False
  | .getIdempotency _, reply => ∃ e, reply = .error e
  | .reserve _, reply => ∃ e, reply = .error e
  | .createUserPoolClient _, reply => ∃ e, reply = .error e
  | .deleteUserPoolClient _, reply => ∃ e, reply = .error e
  | .putClientConfig _, reply => ∃ e, reply = .error e
  | .putIdempotency _ _, reply => ∃ e, reply = .error e
  | .deleteReservation _, reply => ∃ e, reply = .error e
  | .queryTenantId _, reply => ∃ e, reply = .error e
  | .updateClientConfig _ _ _, reply => ∃ e, reply = .error e
  | .deleteClientConfig _, reply => ∃ e, reply = .error e
  | .listUsers _, reply => ∃ e, reply = .error e
  | .adminUserGlobalSignOut _, reply => ∃ e, reply = .error e

/-- A request that is executed or not, with its response or without. -/
inductive Lossy (users : Directory) (w : Cloud) (op : Request) (reply : Reply op) (w' : Cloud) : Prop
  | answered : Performs users w op reply w' → Lossy users w op reply w'
  | notExecuted : Failed op reply → w' = w → Lossy users w op reply w'
  | responseLost {lost : Reply op} : Failed op reply → Performs users w op lost w' →
      Lossy users w op reply w'

/-- A request whose answer is no error was executed. -/
theorem Lossy.performed {users : Directory} {w w' : Cloud} {op : Request} {r : Reply op}
    (h : Lossy users w op r w') (hr : ¬ Failed op r) : Performs users w op r w' := by
  cases h with
  | answered hperf => exact hperf
  | notExecuted hfail _ => exact absurd hfail hr
  | responseLost hfail _ => exact absurd hfail hr

/-- A request has been executed, or has left the world as it was. -/
theorem Lossy.cases {users : Directory} {w w' : Cloud} {op : Request} {r : Reply op}
    (h : Lossy users w op r w') : w' = w ∨ ∃ r', Performs users w op r' w' := by
  cases h with
  | answered hperf => exact .inr ⟨r, hperf⟩
  | notExecuted _ hw => exact .inl hw
  | responseLost _ hperf => exact .inr ⟨_, hperf⟩

end SaasFoundation.Vestibulum.SharedDistribution
