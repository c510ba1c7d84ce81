import SaasFoundation.Lib.Script
import SaasFoundation.Lib.Store
import SaasFoundation.Vestibulum.SharedDistribution.Tenants

/-!
# The tenant registry

Any number of admin calls over the `ClientConfig` table, the reservations
and the idempotency records. There is one clock: a handler reads the time
of the stores. TTL takes reservations and records once they have expired.
-/

namespace SaasFoundation.Vestibulum.SharedDistribution

open Lib

structure World where
  /-- Milliseconds. -/
  now : Int
  configs : Table String ClientConfigRow
  /-- The `expires_at` of each reservation, in seconds. -/
  reservations : Table String Int
  idempotency : Table String IdempotencyRecord
  issuedClients : List String

inductive Job where
  | createTenant (req : CreateTenantRequest)
  | updateTenant (req : UpdateTenantRequest)
  | deleteTenant (pages : Nat) (req : DeleteTenantRequest)

inductive Output where
  | created (result : Except Thrown CreateTenantResponse)
  | updated (result : Except Thrown UpdateTenantResponse)
  | deleted (result : Except Thrown Unit)

def start (tenantParent : String) : Job → Handler Output
  | .createTenant req => do
      let result ← createTenant tenantParent req
      pure (.created result)
  | .updateTenant req => do
      let result ← updateTenant req
      pure (.updated result)
  | .deleteTenant pages req => do
      let result ← deleteTenant pages req
      pure (.deleted result)

/-! ## The tables -/

/-- `attribute_not_exists(key) OR expires_at < :now`. -/
def reservable (reservations : Table String Int) (now : Int) (key : String) : Bool :=
  match reservations key with
  | none => true
  | some expiresAt => decide (expiresAt < now)

def Reservation.enabled (r : Reservation) (reservations : Table String Int) : Bool :=
  r.keys.all (reservable reservations r.now)

def Reservation.apply (r : Reservation) (reservations : Table String Int) : Table String Int :=
  (reservations.put (subdomainKey r.subdomain) r.expiresAt).put (tenantIdKey r.tenantId) r.expiresAt

/-- The row an update leaves. -/
def updatedConfigs (configs : Table String ClientConfigRow) (clientId : String)
    (allowedEmailDomains : List String) (updatedAt : String) : Table String ClientConfigRow :=
  match configs clientId with
  | none => configs
  | some row => configs.put clientId
      { row with allowedEmailDomains := allowedEmailDomains, updatedAt := some updatedAt }

/-- What the outside may answer, and what it does to the world. -/
def serve (w : World) : (op : Request) → Reply op → World → Prop
  | .now, t, w' => t = w.now ∧ w' = w
  | .getIdempotency k, reply, w' => (∀ record, reply = .ok record → record = w.idempotency k) ∧ w' = w
  | .reserve r, reply, w' =>
      ConditionalWrite (r.enabled w.reservations = true) w
        { w with reservations := r.apply w.reservations } reply w'
  | .createUserPoolClient _, reply, w' =>
      match reply with
      | .ok (some clientId) =>
          clientId ∉ w.issuedClients ∧ w' = { w with issuedClients := clientId :: w.issuedClients }
      | _ => w' = w
  | .putClientConfig row, reply, w' =>
      ConditionalWrite (w.configs row.clientId = none) w
        { w with configs := w.configs.put row.clientId row } reply w'
  | .putIdempotency k record, reply, w' =>
      ConditionalWrite True w { w with idempotency := w.idempotency.put k record } reply w'
  | .deleteReservation k, reply, w' =>
      ConditionalWrite True w { w with reservations := w.reservations.erase k } reply w'
  | .queryTenantId tenantId, reply, w' =>
      (∀ row, reply = .ok (some row) → row.tenantId = tenantId) ∧ w' = w
  | .updateClientConfig clientId domains updatedAt, reply, w' =>
      ConditionalWrite ((w.configs clientId).isSome) w
        { w with configs := updatedConfigs w.configs clientId domains updatedAt } reply w'
  | .deleteClientConfig clientId, reply, w' =>
      ConditionalWrite True w { w with configs := w.configs.erase clientId } reply w'
  | _, _, w' => w' = w

/-- What the world does by itself: time passes, expired items are taken. -/
inductive Move where
  | tick (now : Int)
  | sweepReservation (k : String)
  | sweepIdempotency (k : String)

def World.move (w : World) : Move → Option World
  | .tick now => if w.now ≤ now then some { w with now := now } else none
  | .sweepReservation k => do
      let expiresAt ← w.reservations k
      if expiresAt * 1000 ≤ w.now then some { w with reservations := w.reservations.erase k }
      else none
  | .sweepIdempotency k => do
      let record ← w.idempotency k
      let expiresAt ← record.expiresAt
      if expiresAt * 1000 ≤ w.now then some { w with idempotency := w.idempotency.erase k } else none

abbrev TenantThread := Thread Request Reply Job Output
abbrev TenantConfig := Config Request Reply World Job Output

/-- The tenant admin API over empty tables. -/
def tenantAdmin (tenantParent : String) : System Request Reply World Job Output where
  start := start tenantParent
  permits := fun _ _ => True
  serve := serve
  drift := fun w w' => ∃ m, w.move m = some w'
  init := fun w => w.configs = Table.empty ∧ w.reservations = Table.empty ∧
    w.idempotency = Table.empty ∧ w.issuedClients = []

/-! ## What a step can change -/

/-- Everything a served request can do to the world. -/
inductive Change (w : World) : Request → World → Prop
  | nothing {op : Request} : Change w op w
  | reserve {r : Reservation} (henabled : r.enabled w.reservations = true) :
      Change w (.reserve r) { w with reservations := r.apply w.reservations }
  | issueClient {client : UserPoolClient} (clientId : String) :
      Change w (.createUserPoolClient client)
        { w with issuedClients := clientId :: w.issuedClients }
  | putConfig {row : ClientConfigRow} (hfree : w.configs row.clientId = none) :
      Change w (.putClientConfig row) { w with configs := w.configs.put row.clientId row }
  | putIdempotency {k : String} {record : IdempotencyRecord} :
      Change w (.putIdempotency k record) { w with idempotency := w.idempotency.put k record }
  | release {k : String} :
      Change w (.deleteReservation k) { w with reservations := w.reservations.erase k }
  | updateConfig {clientId : String} {domains : List String} {updatedAt : String} :
      Change w (.updateClientConfig clientId domains updatedAt)
        { w with configs := updatedConfigs w.configs clientId domains updatedAt }
  | deleteConfig {clientId : String} :
      Change w (.deleteClientConfig clientId) { w with configs := w.configs.erase clientId }

section Changes

variable {w w' : World}

theorem serve_change {op : Request} {r : Reply op} (h : serve w op r w') : Change w op w' := by
  cases op with
  | now | getIdempotency k | queryTenantId tenantId =>
      rw [h.2]
      exact .nothing
  | reserve r =>
      rcases ConditionalWrite.changed h with rfl | ⟨hc, rfl⟩
      · exact .nothing
      · exact .reserve hc
  | createUserPoolClient client =>
      rcases r with e | (_ | clientId)
      · cases h
        exact .nothing
      · cases h
        exact .nothing
      · rw [h.2]
        exact .issueClient clientId
  | putClientConfig row =>
      rcases ConditionalWrite.changed h with rfl | ⟨hc, rfl⟩
      · exact .nothing
      · exact .putConfig hc
  | putIdempotency k record =>
      rcases ConditionalWrite.changed h with rfl | ⟨-, rfl⟩
      · exact .nothing
      · exact .putIdempotency
  | deleteReservation k =>
      rcases ConditionalWrite.changed h with rfl | ⟨-, rfl⟩
      · exact .nothing
      · exact .release
  | updateClientConfig clientId domains updatedAt =>
      rcases ConditionalWrite.changed h with rfl | ⟨-, rfl⟩
      · exact .nothing
      · exact .updateConfig
  | deleteClientConfig clientId =>
      rcases ConditionalWrite.changed h with rfl | ⟨-, rfl⟩
      · exact .nothing
      · exact .deleteConfig
  | _ =>
      cases h
      exact .nothing

/-- Everything a move can do to the world. -/
theorem move_cases {m : Move} (h : w.move m = some w') :
    (∃ now, w.now ≤ now ∧ w' = { w with now := now }) ∨
    (∃ k e, w.reservations k = some e ∧ e * 1000 ≤ w.now ∧
      w' = { w with reservations := w.reservations.erase k }) ∨
    (∃ k, w' = { w with idempotency := w.idempotency.erase k }) := by
  cases m with
  | tick now =>
      simp only [World.move, Option.ite_none_right_eq_some, Option.some.injEq] at h
      exact .inl ⟨now, h.1, h.2.symm⟩
  | sweepReservation k =>
      simp only [World.move, Option.bind_eq_bind, Option.bind_eq_some_iff,
        Option.ite_none_right_eq_some, Option.some.injEq] at h
      obtain ⟨e, he, hle, rfl⟩ := h
      exact .inr (.inl ⟨k, e, he, hle, rfl⟩)
  | sweepIdempotency k =>
      simp only [World.move, Option.bind_eq_bind, Option.bind_eq_some_iff,
        Option.ite_none_right_eq_some, Option.some.injEq] at h
      obtain ⟨record, -, e, -, -, rfl⟩ := h
      exact .inr (.inr ⟨k, rfl⟩)

/-- A request takes no time. -/
theorem serve_now {op : Request} {r : Reply op} (h : serve w op r w') : w'.now = w.now := by
  cases serve_change h <;> rfl

theorem move_now {m : Move} (h : w.move m = some w') : w.now ≤ w'.now := by
  rcases move_cases h with ⟨now, hle, rfl⟩ | ⟨_, _, _, _, rfl⟩ | ⟨_, rfl⟩
  · exact hle
  · exact Int.le_refl _
  · exact Int.le_refl _

end Changes

section Handlers

variable {tenantParent : String} {c : TenantConfig}

/-- Whatever was served was served no later than now. -/
theorem served_before (h : (tenantAdmin tenantParent).Reachable c) :
    ∀ e ∈ c.log, e.pre.now ≤ c.world.now := by
  induction h with
  | init _ => simp
  | step _ hs ih =>
      cases hs with
      | spawn _ => exact ih
      | request _ hserve =>
          intro e he
          rw [serve_now hserve]
          rcases List.mem_append.mp he with he | he
          · exact ih e he
          · exact Int.le_of_eq (by rw [List.mem_singleton.mp he])
      | drift hd =>
          intro e he
          obtain ⟨m, hm⟩ := hd
          exact Int.le_trans (ih e he) (move_now hm)

/-- A clock that was read lies in the past. -/
theorem clock_le (h : (tenantAdmin tenantParent).Reachable c) {i : Nat} {t : Int}
    (ht : ⟨.now, t⟩ ∈ localLog c.log i) : t ≤ c.world.now := by
  obtain ⟨e, he, -, hev⟩ := mem_localLog.mp ht
  have hserve := h.served e he
  rw [hev] at hserve
  have hread : t = e.pre.now := hserve.1
  have := served_before h e he
  omega

end Handlers

/-! ## Running a schedule of the registry -/

/-- One possible world after an event: a write that failed has not
happened. -/
def World.serve (w : World) : Event Request Reply → Option World
  | ⟨.now, t⟩ => if t = w.now then some w else none
  | ⟨.getIdempotency k, .ok record⟩ => if record = w.idempotency k then some w else none
  | ⟨.reserve r, .ok _⟩ =>
      if r.enabled w.reservations then
        some { w with reservations := r.apply w.reservations }
      else none
  | ⟨.createUserPoolClient _, .ok (some clientId)⟩ =>
      if clientId ∈ w.issuedClients then none
      else some { w with issuedClients := clientId :: w.issuedClients }
  | ⟨.putClientConfig row, .ok _⟩ =>
      if w.configs row.clientId = none then
        some { w with configs := w.configs.put row.clientId row }
      else none
  | ⟨.putIdempotency k record, .ok _⟩ =>
      some { w with idempotency := w.idempotency.put k record }
  | ⟨.deleteReservation k, .ok _⟩ => some { w with reservations := w.reservations.erase k }
  | ⟨.queryTenantId tenantId, .ok (some row)⟩ =>
      if row.tenantId = tenantId then some w else none
  | ⟨.updateClientConfig clientId domains updatedAt, .ok _⟩ =>
      if (w.configs clientId).isSome then
        some { w with configs := updatedConfigs w.configs clientId domains updatedAt }
      else none
  | ⟨.deleteClientConfig clientId, .ok _⟩ => some { w with configs := w.configs.erase clientId }
  | _ => some w

theorem World.serve_sound (w : World) (e : Event Request Reply) (w' : World)
    (h : w.serve e = some w') : SharedDistribution.serve w e.op e.res w' := by
  obtain ⟨op, r⟩ := e
  cases op with
  | now =>
      simp only [World.serve, Option.ite_none_right_eq_some, Option.some.injEq] at h
      exact ⟨h.1, h.2.symm⟩
  | getIdempotency k =>
      cases r with
      | error x =>
          cases h
          exact ⟨(fun _ h => by cases h), rfl⟩
      | ok record =>
          simp only [World.serve, Option.ite_none_right_eq_some, Option.some.injEq] at h
          obtain ⟨ha, rfl⟩ := h
          refine ⟨fun b hb => ?_, rfl⟩
          cases hb
          exact ha
  | reserve _ | putClientConfig _ | updateClientConfig _ _ _ =>
      cases r with
      | error x =>
          cases h
          exact .inl rfl
      | ok a =>
          simp only [World.serve, Option.ite_none_right_eq_some, Option.some.injEq] at h
          exact ⟨h.1, h.2.symm⟩
  | putIdempotency _ _ | deleteReservation _ | deleteClientConfig _ =>
      cases r with
      | error x =>
          cases h
          exact .inl rfl
      | ok a =>
          cases h
          exact ⟨trivial, rfl⟩
  | createUserPoolClient client =>
      rcases r with x | (_ | clientId)
      · cases h
        rfl
      · cases h
        rfl
      · simp only [World.serve, Option.ite_none_left_eq_some, Option.some.injEq] at h
        exact ⟨h.1, h.2.symm⟩
  | queryTenantId tenantId =>
      rcases r with x | (_ | row)
      · cases h
        exact ⟨fun _ h => (nomatch h), rfl⟩
      · cases h
        exact ⟨fun _ h => (nomatch h), rfl⟩
      · simp only [World.serve, Option.ite_none_right_eq_some, Option.some.injEq] at h
        obtain ⟨ha, rfl⟩ := h
        refine ⟨fun b hb => ?_, rfl⟩
        cases hb
        exact ha
  | _ =>
      cases h
      rfl

def interpreter (tenantParent : String) : Interpreter (tenantAdmin tenantParent) Move where
  permits := fun _ _ => true
  serve := World.serve
  drift := World.move
  permits_sound := fun _ _ _ => trivial
  serve_sound := World.serve_sound
  drift_sound := fun _ m _ h => ⟨m, h⟩

/-! ## A small registry -/

namespace Small

def tenantParent : String := "tenants.example.com"

/-- An outside where everything works and Cognito issues `clientId`. -/
def outside (clientId : String) (w : World) : (op : Request) → Reply op
  | .now => w.now
  | .concurrentOrder => true
  | .getIdempotency k => .ok (w.idempotency k)
  | .reserve r => if r.enabled w.reservations then .ok () else .error .transactionCanceled
  | .createUserPoolClient _ => .ok (some clientId)
  | .deleteUserPoolClient _ => .ok ()
  | .putClientConfig _ => .ok ()
  | .putIdempotency _ _ => .ok ()
  | .deleteReservation _ => .ok ()
  | .queryTenantId _ => .ok none
  | .updateClientConfig _ _ _ => .ok ()
  | .deleteClientConfig _ => .ok ()
  | .listUsers _ => .ok ⟨[], none⟩
  | .adminUserGlobalSignOut _ => .ok ()

/-- 2023-11-14T22:13:20Z. -/
def world : World := ⟨1700000000000, Table.empty, Table.empty, Table.empty, []⟩

theorem world_init : (tenantAdmin tenantParent).init world := ⟨rfl, rfl, rfl, rfl⟩

abbrev Schedule := List (Action Request Reply World Job Move)

/-- Answer the next `n` requests of call `i`. -/
def answers (i n : Nat) (clientId : String) : Schedule :=
  List.replicate n (.answer i (outside clientId))

def createRequest (subdomain tenantId idempotencyKey : String) : CreateTenantRequest :=
  ⟨subdomain, tenantId, ["example.com"], idempotencyKey⟩

end Small

end SaasFoundation.Vestibulum.SharedDistribution
