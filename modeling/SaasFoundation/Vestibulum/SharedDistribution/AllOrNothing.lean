import Mathlib.Logic.Relation
import SaasFoundation.Vestibulum.SharedDistribution.Cloud

/-!
# A tenant or nothing

One call of `createTenant`, of which any request may fail without being
executed. Six requests change something, and each has its own remedy: the
app client is deleted when its row cannot be stored, the reservations are
released or run out, and whether the record of the call is kept does not
matter.
-/

namespace SaasFoundation.Vestibulum.SharedDistribution.AllOrNothing

open Lib Lib.Prog

/-- Nobody else is there: time passes, and expired items go. -/
def Passes : Cloud → Cloud → Prop :=
  Relation.ReflTransGen fun w v =>
    v.clients = w.clients ∧ ∃ m, w.toWorld.move m = some v.toWorld

/-- The delete that takes back the app client. -/
def Request.isCompensation : Request → Bool
  | .deleteUserPoolClient _ => true
  | _ => false

/-- A request of the call, some time after the last: it is executed, or it
fails and is not. The compensation does not fail. -/
inductive Alone (users : Directory) (w : Cloud) (op : Request) (reply : Reply op) (w' : Cloud) : Prop
  | answered {v : Cloud} : Passes w v → Performs users v op reply w' → Alone users w op reply w'
  | notExecuted : Passes w w' → Failed op reply → Request.isCompensation op = false →
      Alone users w op reply w'

/-- The response of a record that still counts. -/
def Replayed (req : CreateTenantRequest) (w : Cloud) (response : CreateTenantResponse) : Prop :=
  ∃ record expiresAt, w.idempotency (compositeIdempotencyKey req) = some record ∧
    record.response = some response ∧ record.expiresAt = some expiresAt ∧ w.now / 1000 < expiresAt

/-- No app client and no row more or less. -/
structure Unchanged (w w' : Cloud) : Prop where
  clients : w'.clients = w.clients
  configs : w'.configs = w.configs

/-- One app client more, and one row, of the tenant in the response. -/
structure Created (req : CreateTenantRequest) (response : CreateTenantResponse) (w w' : Cloud) :
    Prop where
  subdomain : response.subdomain = req.subdomain
  tenantId : response.tenantId = req.tenantId
  newClient : w.clients response.clientId = none
  newRow : w.configs response.clientId = none
  clients : ∃ client, w'.clients = w.clients.put response.clientId client
  configs : ∃ row, w'.configs = w.configs.put response.clientId row ∧
    row.clientId = response.clientId ∧ row.subdomain = response.subdomain ∧
    row.tenantId = response.tenantId

/-- A reservation that was not there before is the call's own, and expires
within 60 seconds. -/
def RunsOut (req : CreateTenantRequest) (w w' : Cloud) : Prop :=
  ∀ k expiresAt, w'.reservations k = some expiresAt → w.reservations k = some expiresAt ∨
    (k = subdomainKey req.subdomain ∨ k = tenantIdKey req.tenantId) ∧
      expiresAt * 1000 ≤ w'.now + 60000

variable {users : Directory} {w v w' : Cloud} {tenantParent : String} {req : CreateTenantRequest}

theorem Unchanged.trans (h : Unchanged w v) (h' : Unchanged v w') : Unchanged w w' :=
  ⟨h'.clients.trans h.clients, h'.configs.trans h.configs⟩

/-- What is new later is new. -/
theorem Created.after {response : CreateTenantResponse} (h : Unchanged w v)
    (h' : Created req response v w') : Created req response w w' := by
  obtain ⟨hsub, htid, hclient, hrow, hnewClient, hnewRow⟩ := h'
  rw [h.clients] at hclient hnewClient
  rw [h.configs] at hrow hnewRow
  exact ⟨hsub, htid, hclient, hrow, hnewClient, hnewRow⟩

/-! ## Time -/

/-- What time does: it goes forward, and no reservation comes of it. -/
structure Later (w w' : Cloud) : Prop extends Unchanged w w' where
  now : w.now ≤ w'.now
  reservations : ∀ k e, w'.reservations k = some e → w.reservations k = some e

theorem Later.refl (w : Cloud) : Later w w := ⟨⟨rfl, rfl⟩, Int.le_refl _, fun _ _ h => h⟩

theorem Later.trans (h : Later w v) (h' : Later v w') : Later w w' where
  clients := h'.clients.trans h.clients
  configs := h'.configs.trans h.configs
  now := Int.le_trans h.now h'.now
  reservations := fun k e he => h.reservations k e (h'.reservations k e he)

theorem later_move (hclients : v.clients = w.clients) {m : Move}
    (hm : w.toWorld.move m = some v.toWorld) : Later w v := by
  rcases move_cases hm with ⟨now, hle, hv⟩ | ⟨k, e, -, -, hv⟩ | ⟨k, hv⟩
  · exact ⟨⟨hclients, by rw [hv]⟩, by rw [hv]; exact hle, fun k e he => by rwa [hv] at he⟩
  · refine ⟨⟨hclients, by rw [hv]⟩, Int.le_of_eq (by rw [hv]), fun k' e' he' => ?_⟩
    rw [hv] at he'
    exact (Table.erase_some he').2
  · exact ⟨⟨hclients, by rw [hv]⟩, Int.le_of_eq (by rw [hv]),
      fun k e he => by rwa [hv] at he⟩

theorem Passes.later (h : Passes w v) : Later w v := by
  induction h with
  | refl => exact .refl w
  | tail _ hstep ih =>
      obtain ⟨hclients, m, hm⟩ := hstep
      exact ih.trans (later_move hclients hm)

/-- A record that is there was there. -/
theorem Passes.idempotency (h : Passes w v) {k : String} {record : IdempotencyRecord}
    (hv : v.idempotency k = some record) : w.idempotency k = some record := by
  induction h with
  | refl => exact hv
  | tail _ hstep ih =>
      obtain ⟨-, m, hm⟩ := hstep
      apply ih
      rcases move_cases hm with ⟨_, _, heq⟩ | ⟨_, _, _, _, heq⟩ | ⟨k', heq⟩
      · rwa [heq] at hv
      · rwa [heq] at hv
      · rw [heq] at hv
        exact (Table.erase_some hv).2

/-! ## Requests -/

theorem alone_now {t : Int} (h : Alone users w .now t w') :
    Passes w w' ∧ t = w'.now ∧ ∃ text, IsoDate.toIsoString t = some text := by
  cases h with
  | answered hpass hperf =>
      obtain ⟨rfl, hlow, hhigh, rfl⟩ := hperf
      exact ⟨hpass, rfl, by simp [IsoDate.toIsoString, hlow, hhigh]⟩
  | notExecuted _ hfail _ => cases hfail

/-- A delete takes a reservation or does not. -/
theorem alone_deleteReservation {k : String} {r : Except AwsError Unit}
    (h : Alone users w (.deleteReservation k) r w') : Later w w' := by
  cases h with
  | answered hpass hperf =>
      obtain ⟨-, rfl⟩ := hperf
      exact hpass.later.trans ⟨⟨rfl, rfl⟩, Int.le_refl _, fun _ _ he => (Table.erase_some he).2⟩
  | notExecuted hpass _ _ => exact hpass.later

theorem alone_putIdempotency {k : String} {record : IdempotencyRecord} {r : Except AwsError Unit}
    (h : Alone users w (.putIdempotency k record) r w') : Later w w' := by
  cases h with
  | answered hpass hperf =>
      obtain ⟨-, rfl⟩ := hperf
      exact hpass.later.trans ⟨⟨rfl, rfl⟩, Int.le_refl _, fun _ _ he => he⟩
  | notExecuted hpass _ _ => exact hpass.later

/-- The app client that is there is deleted. -/
theorem alone_deleteClient {clientId : String} {r : Except AwsError Unit}
    (hclient : w.clients clientId ≠ none) (h : Alone users w (.deleteUserPoolClient clientId) r w') :
    Later { w with clients := w.clients.erase clientId } w' := by
  cases h with
  | @answered v hpass hperf =>
      have hlater := hpass.later
      have hsome : (v.clients clientId).isSome := by
        rw [hlater.clients]
        exact Option.isSome_iff_ne_none.mpr hclient
      simp only [Performs, if_pos hsome] at hperf
      obtain ⟨-, rfl⟩ := hperf
      exact ⟨⟨by rw [hlater.clients], hlater.configs⟩, hlater.now, hlater.reservations⟩
  | notExecuted _ _ hno => cases hno

/-- The row is stored under a free key, or nothing is. -/
theorem alone_putClientConfig {row : ClientConfigRow} {r : Except AwsError Unit}
    (h : Alone users w (.putClientConfig row) r w') :
    (∃ e, r = .error e) ∧ Later w w' ∨
      r = .ok () ∧ w.configs row.clientId = none ∧
        Later { w with configs := w.configs.put row.clientId row } w' := by
  cases h with
  | @answered v hpass hperf =>
      have hlater := hpass.later
      simp only [Performs] at hperf
      split at hperf
      · rename_i hfree
        obtain ⟨hr, rfl⟩ := hperf
        rw [hlater.configs] at hfree
        refine .inr ⟨hr, hfree, ⟨hlater.clients, ?_⟩, hlater.now, hlater.reservations⟩
        rw [hlater.configs]
      · obtain ⟨hr, rfl⟩ := hperf
        exact .inl ⟨⟨_, hr⟩, hlater⟩
  | notExecuted hpass hfail _ => exact .inl ⟨hfail, hpass.later⟩

theorem alone_createUserPoolClient {client : UserPoolClient} {r : Except AwsError (Option String)}
    (h : Alone users w (.createUserPoolClient client) r w') :
    (∃ e, r = .error e) ∧ Later w w' ∨
      ∃ clientId, clientId ≠ "" ∧ r = .ok (some clientId) ∧ w.clients clientId = none ∧
        Later { w with clients := w.clients.put clientId client } w' := by
  cases h with
  | answered hpass hperf =>
      have hlater := hpass.later
      obtain ⟨clientId, hne, hfree, hr, rfl⟩ := hperf
      rw [hlater.clients] at hfree
      exact .inr ⟨clientId, hne, hr, hfree, ⟨by rw [hlater.clients], hlater.configs⟩, hlater.now,
        hlater.reservations⟩
  | notExecuted hpass hfail _ => exact .inl ⟨hfail, hpass.later⟩

/-- The reservations are made together or not at all. -/
theorem alone_reserve {s : Reservation} {r : Except AwsError Unit}
    (h : Alone users w (.reserve s) r w') :
    (∃ e, r = .error e) ∧ Later w w' ∨
      r = .ok () ∧ Unchanged w w' ∧ w.now ≤ w'.now ∧
        ∀ k e, w'.reservations k = some e → w.reservations k = some e ∨
          (k = subdomainKey s.subdomain ∨ k = tenantIdKey s.tenantId) ∧ e = s.expiresAt := by
  cases h with
  | answered hpass hperf =>
      have hlater := hpass.later
      simp only [Performs] at hperf
      split at hperf
      · obtain ⟨hr, rfl⟩ := hperf
        refine .inr ⟨hr, ⟨hlater.clients, hlater.configs⟩, hlater.now, fun k e he => ?_⟩
        rcases Table.put_some he with ⟨hk, he⟩ | ⟨-, he⟩
        · exact .inr ⟨.inr hk, he⟩
        rcases Table.put_some he with ⟨hk, he⟩ | ⟨-, he⟩
        · exact .inr ⟨.inl hk, he⟩
        · exact .inl (hlater.reservations k e he)
      · obtain ⟨hr, rfl⟩ := hperf
        exact .inl ⟨⟨_, hr⟩, hlater⟩
  | notExecuted hpass hfail _ => exact .inl ⟨hfail, hpass.later⟩

/-! ## The parts of the call -/

theorem releaseReservations_later {subdomain tenantId : String} {u : Unit}
    (h : (releaseReservations subdomain tenantId).Completes (Alone users) w u w') :
    Later w w' := by
  simp only [releaseReservations, call_bind, completes_ask, pure_def, completes_ret] at h
  obtain ⟨order, v₁, horder, r, v₂, hfirst, r', v₃, hsecond, -, rfl⟩ := h
  have hask : Later w v₁ := by
    cases horder with
    | answered hpass hperf =>
        cases hperf
        exact hpass.later
    | notExecuted _ hfail _ => cases hfail
  exact (hask.trans (alone_deleteReservation hfirst)).trans (alone_deleteReservation hsecond)

/-- A release and a result. -/
theorem releaseThen_later {subdomain tenantId : String} {x out : Except Thrown CreateTenantResponse}
    (h : (do releaseReservations subdomain tenantId; pure x :
      Handler (Except Thrown CreateTenantResponse)).Completes (Alone users) w out w') :
    out = x ∧ Later w w' := by
  obtain ⟨u, v, hrelease, hout, rfl⟩ := completes_bind.mp h
  exact ⟨hout, releaseReservations_later hrelease⟩

/-- The row is stored, or the app client is gone again. -/
theorem storeTenant_ends {clientId createdAt : String} {out : Except Thrown CreateTenantResponse}
    (hclient : w.clients clientId ≠ none)
    (h : (storeTenant tenantParent req clientId createdAt).Completes (Alone users) w out w') :
    (∃ e, out = .error e) ∧ Later { w with clients := w.clients.erase clientId } w' ∨
      out = .ok (tenantResponse req tenantParent clientId createdAt) ∧
        w.configs clientId = none ∧
        Later { w with
          configs := w.configs.put clientId (tenantRow req tenantParent clientId createdAt) } w' := by
  simp only [storeTenant, call_bind, completes_ask] at h
  obtain ⟨stored, v, hstore, h⟩ := h
  rcases alone_putClientConfig hstore with ⟨⟨e, rfl⟩, hlater⟩ | ⟨rfl, hfree, hlater⟩
  · -- the row is not there: compensate
    simp only [completes_ask] at h
    obtain ⟨deleted, v', hdelete, h⟩ := h
    obtain ⟨rfl, hrelease⟩ := releaseThen_later h
    have hthere : v.clients clientId ≠ none := by rwa [hlater.clients]
    have hgone := (alone_deleteClient hthere hdelete).trans hrelease
    refine .inl ⟨⟨_, rfl⟩, ⟨?_, hgone.configs.trans hlater.configs⟩,
      Int.le_trans hlater.now hgone.now,
      fun k e he => hlater.reservations k e (hgone.reservations k e he)⟩
    rw [hgone.clients, hlater.clients]
  · simp only [completes_ask] at h
    obtain ⟨t, v₁, hnow, recorded, v₂, hrecord, h⟩ := h
    obtain ⟨rfl, hrelease⟩ := releaseThen_later h
    exact .inr ⟨rfl, hfree, ((hlater.trans (alone_now hnow).1.later).trans
      (alone_putIdempotency hrecord)).trans hrelease⟩

/-- How a call ends that holds the reservations. -/
theorem createReserved_ends {out : Except Thrown CreateTenantResponse}
    (h : (createReserved tenantParent req).Completes (Alone users) w out w') :
    w.now ≤ w'.now ∧ (∀ k e, w'.reservations k = some e → w.reservations k = some e) ∧
      ((∃ e, out = .error e) ∧ Unchanged w w' ∨
        ∃ response, out = .ok response ∧ Created req response w w') := by
  simp only [createReserved, call_bind, completes_ask] at h
  obtain ⟨created, v, hcreate, h⟩ := h
  rcases alone_createUserPoolClient hcreate with
    ⟨⟨e, rfl⟩, hlater⟩ | ⟨clientId, hne, rfl, hfree, hlater⟩
  · obtain ⟨rfl, hrelease⟩ := releaseThen_later h
    have hall := hlater.trans hrelease
    exact ⟨hall.now, hall.reservations, .inl ⟨⟨_, rfl⟩, hall.toUnchanged⟩⟩
  · simp only [Option.getD_some, if_neg hne, completes_ask] at h
    obtain ⟨t, v₁, hnow, h⟩ := h
    obtain ⟨hpass, -, text, htext⟩ := alone_now hnow
    simp only [htext] at h
    have hlater₁ := hlater.trans hpass.later
    have hthere : v₁.clients clientId ≠ none := by
      rw [hlater₁.clients]
      simp
    rcases storeTenant_ends hthere h with ⟨herror, hend⟩ | ⟨rfl, hnew, hend⟩
    · refine ⟨Int.le_trans hlater₁.now hend.now,
        fun k e he => hlater₁.reservations k e (hend.reservations k e he),
        .inl ⟨herror, ?_, hend.configs.trans hlater₁.configs⟩⟩
      have hclients : w'.clients =
          (w.clients.put clientId (appClient req tenantParent)).erase clientId := by
        rw [hend.clients, hlater₁.clients]
      exact hclients.trans (Table.erase_put _ hfree)
    · refine ⟨Int.le_trans hlater₁.now hend.now,
        fun k e he => hlater₁.reservations k e (hend.reservations k e he), .inr ⟨_, rfl, ?_⟩⟩
      rw [hlater₁.configs] at hnew
      exact ⟨rfl, rfl, hfree, hnew, ⟨_, hend.clients.trans hlater₁.clients⟩,
        ⟨_, by rw [hend.configs, hlater₁.configs]; rfl, rfl, rfl, rfl⟩⟩

/-- How a call ends that replays nothing. -/
theorem reserveTenant_ends {out : Except Thrown CreateTenantResponse}
    (h : (reserveTenant tenantParent req).Completes (Alone users) w out w') :
    RunsOut req w w' ∧ ((∃ e, out = .error e) ∧ Unchanged w w' ∨
      ∃ response, out = .ok response ∧ Created req response w w') := by
  simp only [reserveTenant, call_bind, completes_ask] at h
  obtain ⟨t, v, hnow, reserved, v₁, hreserve, h⟩ := h
  obtain ⟨hpass, rfl, -⟩ := alone_now hnow
  have hlater := hpass.later
  rcases alone_reserve hreserve with ⟨⟨e, rfl⟩, hnone⟩ | ⟨rfl, hsame, hclock, hmade⟩
  · -- nothing is reserved, and the call ends
    have hend : (∃ e, out = .error e) ∧ w' = v₁ := by
      cases e <;> exact ⟨⟨_, h.1⟩, h.2⟩
    obtain ⟨herror, rfl⟩ := hend
    have hall := hlater.trans hnone
    exact ⟨fun k e he => .inl (hall.reservations k e he), .inl ⟨herror, hall.toUnchanged⟩⟩
  · obtain ⟨hclock', hkept, hend⟩ := createReserved_ends h
    constructor
    · intro k e he
      rcases hmade k e (hkept k e he) with hold | ⟨hk, rfl⟩
      · exact .inl (hlater.reservations k e hold)
      · refine .inr ⟨hk, ?_⟩
        simp only
        omega
    · have hbefore := hlater.toUnchanged.trans hsame
      rcases hend with ⟨herror, hun⟩ | ⟨response, hout, hcreated⟩
      · exact .inl ⟨herror, hbefore.trans hun⟩
      · exact .inr ⟨response, hout, hcreated.after hbefore⟩

/-- Whether a record counts is a matter of the time it is read at. -/
theorem idempotencyLive_ends {item : Option IdempotencyRecord} {live : Bool}
    (h : (idempotencyLive item).Completes (Alone users) w live w') :
    Passes w w' ∧ (live = true → ∃ record expiresAt, item = some record ∧
      record.expiresAt = some expiresAt ∧ w'.now / 1000 < expiresAt) := by
  unfold idempotencyLive at h
  split at h
  · obtain ⟨rfl, rfl⟩ := h
    exact ⟨.refl, fun h => (nomatch h)⟩
  · split at h
    · obtain ⟨rfl, rfl⟩ := h
      exact ⟨.refl, fun h => (nomatch h)⟩
    · rename_i record _ expiresAt hexpires
      simp only [call_bind, completes_ask, pure_def, completes_ret] at h
      obtain ⟨t, v, hnow, hlive, rfl⟩ := h
      obtain ⟨hpass, rfl, -⟩ := alone_now hnow
      exact ⟨hpass, fun htrue => ⟨record, expiresAt, rfl, hexpires,
        of_decide_eq_true (hlive.symm.trans htrue)⟩⟩

theorem storedResponse_ok {item : Option IdempotencyRecord} {response : CreateTenantResponse}
    (h : storedResponse req item = .ok response) :
    item.bind IdempotencyRecord.response = some response := by
  unfold storedResponse at h
  split at h
  · cases h
  · rename_i hstored
    simp only at h
    split at h
    · cases h
    · rw [hstored, Except.ok.inj h]

/-- **All or nothing.** Whichever requests of a call fail:

* if it throws, there are the app clients and the rows that there were, and
  its reservations are released or expire within 60 seconds;
* if it returns a response that it does not replay, there is one app client
  more and one row, of the tenant in the response. -/
theorem createTenant_allOrNothing (users : Directory) (tenantParent : String)
    (req : CreateTenantRequest) (w w' : Cloud) (out : Except Thrown CreateTenantResponse)
    (h : (createTenant tenantParent req).Completes (Alone users) w out w') :
    (∀ e, out = .error e → Unchanged w w' ∧ RunsOut req w w') ∧
    (∀ response, out = .ok response →
      Created req response w w' ∨ Replayed req w response ∧ Unchanged w w') := by
  simp only [createTenant, call_bind, completes_ask] at h
  obtain ⟨existing, v, hget, h⟩ := h
  have hread : Passes w v ∧ ∀ item, existing = .ok item →
      item = v.idempotency (compositeIdempotencyKey req) := by
    cases hget with
    | answered hpass hperf =>
        obtain ⟨rfl, rfl⟩ := hperf
        exact ⟨hpass, fun item hitem => (Except.ok.inj hitem).symm⟩
    | notExecuted hpass hfail _ =>
        obtain ⟨e, rfl⟩ := hfail
        exact ⟨hpass, fun item hitem => (nomatch hitem)⟩
  obtain ⟨hpass, hitem⟩ := hread
  have hkept : ∀ {u : Cloud}, Later w u → RunsOut req w u :=
    fun hlater k e he => .inl (hlater.reservations k e he)
  cases existing with
  | error e =>
      obtain ⟨rfl, rfl⟩ := h
      exact ⟨fun _ _ => ⟨hpass.later.toUnchanged, hkept hpass.later⟩, fun _ hok => (nomatch hok)⟩
  | ok item =>
      obtain ⟨live, v₁, hlive, h⟩ := completes_bind.mp h
      obtain ⟨hpass₁, hcounts⟩ := idempotencyLive_ends hlive
      have hlater := hpass.later.trans hpass₁.later
      cases live with
      | true =>
          -- nothing is changed, whatever the record says
          simp only [if_true] at h
          obtain ⟨rfl, rfl⟩ := h
          refine ⟨fun e _ => ⟨hlater.toUnchanged, hkept hlater⟩, fun response hout => .inr ⟨?_,
            hlater.toUnchanged⟩⟩
          obtain ⟨record, expiresAt, rfl, hexpires, hbefore⟩ := hcounts rfl
          refine ⟨record, expiresAt, hpass.idempotency (hitem _ rfl).symm, ?_, hexpires, ?_⟩
          · exact storedResponse_ok hout
          · have hclock := hlater.now
            omega
      | false =>
          simp only [Bool.false_eq_true, if_false] at h
          obtain ⟨hruns, hend⟩ := reserveTenant_ends h
          rcases hend with ⟨⟨e, rfl⟩, hsame⟩ | ⟨response, rfl, hcreated⟩
          · refine ⟨fun _ _ => ⟨hlater.toUnchanged.trans hsame, fun k e he => ?_⟩,
              fun _ hok => (nomatch hok)⟩
            rcases hruns k e he with hold | hown
            · exact .inl (hlater.reservations k e hold)
            · exact .inr hown
          · refine ⟨fun _ herror => (nomatch herror), fun response' hout => .inl ?_⟩
            cases hout
            exact hcreated.after hlater.toUnchanged

/-! ## A row that cannot be stored -/

namespace Small

theorem noUsers_ends : ∀ token : Option String, (none : Option String).getD "" ≠ "" → 0 < 0 :=
  fun _ h => absurd rfl h

def noUsers : Directory where
  page := fun _ => ⟨[], none⟩
  left := fun _ => 0
  ends := noUsers_ends

/-- 2023-11-14T22:13:20Z. -/
def nothing : Cloud where
  now := 1700000000000
  configs := Table.empty
  reservations := Table.empty
  idempotency := Table.empty
  issuedClients := []
  clients := Table.empty

def acme : CreateTenantRequest := ⟨"acme", "t-1", [], "key-0001"⟩

def reserved : Cloud :=
  { nothing with
    reservations := (⟨"acme", "t-1", 1700000000, 1700000060⟩ : Reservation).apply nothing.reservations }

def withClient : Cloud :=
  { reserved with
    clients := reserved.clients.put "client-1" (appClient acme "tenants.example.com") }

/-- One of the two reservations is released. -/
def halfReleased : Cloud :=
  { reserved with
    clients := withClient.clients.erase "client-1"
    reservations := reserved.reservations.erase (subdomainKey "acme") }

theorem compensates : (createTenant "tenants.example.com" acme).Completes (Alone noUsers) nothing
    (.error (.aws .other)) halfReleased := by
  have hnow : ∀ w : Cloud, w.now = 1700000000000 → Alone noUsers w .now 1700000000000 w :=
    fun w hw => .answered .refl ⟨hw.symm, by decide, by decide, rfl⟩
  refine ⟨.ok none, nothing, .answered .refl ⟨rfl, rfl⟩, (1700000000000 : Int), nothing,
    hnow _ rfl, .ok (), reserved, .answered .refl ⟨rfl, rfl⟩, ?_⟩
  refine ⟨.ok (some "client-1"), withClient,
    .answered .refl ⟨"client-1", by decide, rfl, rfl, rfl⟩, (1700000000000 : Int), withClient,
    hnow _ rfl, .error .other, withClient, .notExecuted .refl ⟨_, rfl⟩ rfl, ?_⟩
  refine ⟨.ok (), _, .answered .refl ⟨rfl, rfl⟩, true, _, .answered .refl rfl, ?_⟩
  exact ⟨.ok (), _, .answered .refl ⟨rfl, rfl⟩, .error .other, _,
    .notExecuted .refl ⟨_, rfl⟩ rfl, rfl, rfl⟩

theorem createTenant_compensates :
    Unchanged nothing halfReleased ∧ RunsOut acme nothing halfReleased :=
  (createTenant_allOrNothing noUsers "tenants.example.com" acme nothing halfReleased _
    compensates).1 _ rfl

end Small

end SaasFoundation.Vestibulum.SharedDistribution.AllOrNothing
