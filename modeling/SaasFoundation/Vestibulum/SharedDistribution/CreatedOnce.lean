import SaasFoundation.Lib.Asks
import SaasFoundation.Vestibulum.SharedDistribution.Uniqueness

/-!
# A tenant that is created once

Any number of calls of `createTenant` for one tenant under one idempotency
key. The call that wins leaves a record, and who reads it replays. But the
record is read before the reservation is made, and not again after: a call
that read too early and reserves too late creates the tenant once more.

Where no reservation is granted once a row of the tenant is stored, one
call creates it, and the others replay or are turned away.
-/

namespace SaasFoundation.Vestibulum.SharedDistribution

open Lib

variable {tenantParent : String} {c : TenantConfig}

/-- Every call is to create the tenant of `req`, under its key. -/
def AllCreate (req : CreateTenantRequest) (c : TenantConfig) : Prop :=
  ∀ t ∈ c.threads, ∃ domains, t.job = .createTenant { req with allowedEmailDomains := domains }

def AllFinished (c : TenantConfig) : Prop :=
  ∀ t ∈ c.threads, ∃ out, t.prog = .ret out

/-- Every write of a record was acknowledged. -/
def AllRecorded (c : TenantConfig) : Prop :=
  ∀ e ∈ c.log, ∀ k record, e.ev.op = .putIdempotency k record →
    e.ev = ⟨.putIdempotency k record, .ok ()⟩

/-- The request has not failed. A transaction may be cancelled, what follows
the row may fail, and `Date.now()` is a time value. -/
def Answered : Event Request Reply → Prop
  | ⟨.now, t⟩ => -IsoDate.maxTime ≤ t ∧ t ≤ IsoDate.maxTime
  | ⟨.getIdempotency _, reply⟩ => ∃ item, reply = .ok item
  | ⟨.reserve _, reply⟩ => reply = .ok () ∨ reply = .error .transactionCanceled
  | ⟨.createUserPoolClient _, reply⟩ => ∃ clientId, clientId ≠ "" ∧ reply = .ok (some clientId)
  | ⟨.putClientConfig _, reply⟩ => reply = .ok ()
  | _ => True

def AllAnswered (c : TenantConfig) : Prop := ∀ e ∈ c.log, Answered e.ev

/-- The response of the call that stored the row. -/
def responseOf (row : ClientConfigRow) : CreateTenantResponse where
  tenantId := row.tenantId
  subdomain := row.subdomain
  siteBaseUrl := row.siteBaseUrl
  clientId := row.clientId
  createdAt := row.createdAt

/-- The call stored the row, and returned its response. -/
def Creates (c : TenantConfig) (row : ClientConfigRow) : Prop :=
  ∃ i t, c.threads[i]? = some t ∧ ⟨.putClientConfig row, .ok ()⟩ ∈ localLog c.log i ∧
    t.prog = .ret (.created (.ok (responseOf row)))

/-- At most one app client and one row; every call returns the response of
the call that created them, or `ConflictError`. -/
structure CreatedOnce (c : TenantConfig) : Prop where
  oneClient : c.world.issuedClients.length ≤ 1
  oneRow : ∀ id id' row row', c.world.configs id = some row → c.world.configs id' = some row' →
    id = id'
  results : ∀ t ∈ c.threads,
    (∃ row, c.world.configs row.clientId = some row ∧ Creates c row ∧
      t.prog = .ret (.created (.ok (responseOf row)))) ∨
    ∃ message, t.prog = .ret (.created (.error (.conflictError message)))

/-! ## One call -/

section Call

variable {req : CreateTenantRequest} {es : List (Event Request Reply)}
  {out : Except Thrown CreateTenantResponse}

/-- The app client that an event makes, or the row. -/
def created : Event Request Reply → Option (String ⊕ ClientConfigRow)
  | ⟨.createUserPoolClient _, .ok clientId⟩ => clientId.map .inl
  | ⟨.putClientConfig row, .ok _⟩ => some (.inr row)
  | _ => none

def creations (es : List (Event Request Reply)) : List (String ⊕ ClientConfigRow) :=
  es.filterMap created

theorem creations_cons (e : Event Request Reply) (es : List (Event Request Reply)) :
    creations (e :: es) = (created e).toList ++ creations es := by
  cases h : created e <;> simp [creations, h]

/-- How a call ends none of whose requests failed. -/
inductive Ends (tenantParent : String) (req : CreateTenantRequest)
    (es : List (Event Request Reply)) : Except Thrown CreateTenantResponse → Prop
  | replayed {record : IdempotencyRecord} : creations es = [] →
      ⟨.getIdempotency (compositeIdempotencyKey req), .ok (some record)⟩ ∈ es →
      Ends tenantParent req es (storedResponse req (some record))
  | refused {message : String} : creations es = [] →
      Ends tenantParent req es (.error (.conflictError message))
  | created {clientId createdAt : String} :
      creations es = [.inl clientId, .inr (tenantRow req tenantParent clientId createdAt)] →
      Ends tenantParent req es (.ok (tenantResponse req tenantParent clientId createdAt))

/-- Releasing makes nothing. -/
theorem releaseThen_ends {subdomain tenantId : String} {x : Except Thrown CreateTenantResponse}
    (h : (do releaseReservations subdomain tenantId; pure x :
      Handler (Except Thrown CreateTenantResponse)).Finishes es out) :
    out = x ∧ creations es = [] := by
  simp only [releaseReservations, Prog.call_bind, Prog.ask_bind, Prog.pure_def, Prog.ret_bind,
    Prog.finishes_ask, Prog.finishes_ret] at h
  obtain ⟨_, _, rfl, _, _, rfl, _, _, rfl, rfl, hout⟩ := h
  exact ⟨hout.symm, rfl⟩

theorem storeTenant_stores {clientId createdAt : String}
    (h : (storeTenant tenantParent req clientId createdAt).Finishes es out)
    (ha : ∀ e ∈ es, Answered e) :
    creations es = [.inr (tenantRow req tenantParent clientId createdAt)] ∧
      out = .ok (tenantResponse req tenantParent clientId createdAt) := by
  simp only [storeTenant, Prog.call_bind, Prog.finishes_ask] at h
  obtain ⟨stored, fs, rfl, h⟩ := h
  obtain rfl : stored = .ok () := ha _ List.mem_cons_self
  simp only [Prog.finishes_ask] at h
  obtain ⟨t, _, rfl, recorded, rest, rfl, h⟩ := h
  obtain ⟨hout, hrest⟩ := releaseThen_ends h
  exact ⟨by simp [creations_cons, created, hrest], hout⟩

theorem createReserved_creates (h : (createReserved tenantParent req).Finishes es out)
    (ha : ∀ e ∈ es, Answered e) : ∃ clientId createdAt,
      creations es = [.inl clientId, .inr (tenantRow req tenantParent clientId createdAt)] ∧
      out = .ok (tenantResponse req tenantParent clientId createdAt) := by
  simp only [createReserved, Prog.call_bind, Prog.finishes_ask] at h
  obtain ⟨created, fs, rfl, h⟩ := h
  obtain ⟨clientId, hne, rfl⟩ := ha _ List.mem_cons_self
  simp only [Option.getD_some, if_neg hne, Prog.finishes_ask] at h
  obtain ⟨t, gs, rfl, h⟩ := h
  obtain ⟨hlow, hhigh⟩ : -IsoDate.maxTime ≤ t ∧ t ≤ IsoDate.maxTime := ha ⟨.now, t⟩ (by simp)
  have htext : ∃ text, IsoDate.toIsoString t = some text := by
    simp [IsoDate.toIsoString, hlow, hhigh]
  obtain ⟨text, htext⟩ := htext
  simp only [htext] at h
  obtain ⟨hrow, hout⟩ := storeTenant_stores h fun e he => ha e (by simp [he])
  exact ⟨clientId, _, by simp [creations_cons, created, hrow], hout⟩

theorem reserveTenant_creates (h : (reserveTenant tenantParent req).Finishes es out)
    (ha : ∀ e ∈ es, Answered e) : (creations es = [] ∧ ∃ message,
        out = .error (.conflictError message)) ∨
      ∃ clientId createdAt,
        creations es = [.inl clientId, .inr (tenantRow req tenantParent clientId createdAt)] ∧
        out = .ok (tenantResponse req tenantParent clientId createdAt) := by
  simp only [reserveTenant, Prog.call_bind, Prog.finishes_ask] at h
  obtain ⟨t, _, rfl, reserved, fs, rfl, h⟩ := h
  have hreply : reserved = .ok () ∨ reserved = .error .transactionCanceled :=
    ha _ (List.mem_cons_of_mem _ List.mem_cons_self)
  rcases hreply with rfl | rfl
  · obtain ⟨clientId, createdAt, hmade, hout⟩ :=
      createReserved_creates h fun e he => ha e (by simp [he])
    exact .inr ⟨clientId, createdAt, by simp [creations_cons, created, hmade], hout⟩
  · obtain ⟨rfl, rfl⟩ := Prog.finishes_ret.mp h
    exact .inl ⟨rfl, _, rfl⟩

/-- Looking at a record makes nothing. -/
theorem idempotencyLive_reads {item : Option IdempotencyRecord} {live : Bool}
    (h : (idempotencyLive item).Finishes es live) :
    creations es = [] ∧ (live = true → ∃ record, item = some record) := by
  rcases finishes_idempotencyLive h with ⟨rfl, rfl⟩ | ⟨nowMs, rfl, hrecord⟩
  · refine ⟨rfl, fun hlive => ?_⟩
    cases hlive
  · exact ⟨rfl, fun _ => hrecord⟩

theorem createTenant_ends (h : (createTenant tenantParent req).Finishes es out)
    (ha : ∀ e ∈ es, Answered e) : Ends tenantParent req es out := by
  simp only [createTenant, Prog.call_bind, Prog.finishes_ask] at h
  obtain ⟨existing, fs, rfl, h⟩ := h
  obtain ⟨item, rfl⟩ : ∃ item, existing = .ok item := ha _ List.mem_cons_self
  obtain ⟨gs, hs, live, rfl, hlive, h⟩ := Prog.finishes_bind.mp h
  obtain ⟨hquiet, hrecord⟩ := idempotencyLive_reads hlive
  have hskip : creations (⟨.getIdempotency (compositeIdempotencyKey req), .ok item⟩ :: (gs ++ hs)) =
      creations hs := by
    show creations (gs ++ hs) = creations hs
    rw [creations, List.filterMap_append, ← creations, hquiet, List.nil_append, creations]
  cases live with
  | true =>
      simp only [if_true] at h
      obtain ⟨rfl, rfl⟩ := Prog.finishes_ret.mp h
      obtain ⟨record, rfl⟩ := hrecord rfl
      exact .replayed hskip List.mem_cons_self
  | false =>
      simp only [Bool.false_eq_true, if_false] at h
      rcases reserveTenant_creates h fun e he => ha e (by simp [he]) with
        ⟨hnone, message, rfl⟩ | ⟨clientId, createdAt, hmade, rfl⟩
      · exact .refused (hskip.trans hnone)
      · exact .created (hskip.trans hmade)

end Call

/-! ## What a call knows -/

/-- A row has the names of the call; a record holds the response for a row
that the call has stored; and a call that creates changes no row. -/
def Knows (job : Job) (past : List (Event Request Reply)) : Request → Prop
  | .putClientConfig row => ∃ req, job = .createTenant req ∧ row.subdomain = req.subdomain ∧
      row.tenantId = req.tenantId
  | .putIdempotency _ record => ∃ row, ⟨.putClientConfig row, .ok ()⟩ ∈ past ∧
      record.response = some (responseOf row)
  | .updateClientConfig _ _ _ => ∀ req, job ≠ .createTenant req
  | .deleteClientConfig _ => ∀ req, job ≠ .createTenant req
  | _ => True

section Knows

variable {req : CreateTenantRequest} {past : List (Event Request Reply)}

theorem releaseThen_knows {job : Job} {subdomain tenantId : String}
    {x : Except Thrown CreateTenantResponse} :
    Prog.Asks (Knows job) past (do releaseReservations subdomain tenantId; pure x) := by
  simp only [releaseReservations, Prog.call_bind, Prog.ask_bind, Prog.asks_ask]
  exact ⟨trivial, fun _ => ⟨trivial, fun _ => ⟨trivial, fun _ => trivial⟩⟩⟩

theorem storeTenant_knows {clientId createdAt : String} :
    Prog.Asks (Knows (.createTenant req)) past
      (storeTenant tenantParent req clientId createdAt) := by
  simp only [storeTenant, Prog.call_bind, Prog.asks_ask]
  refine ⟨⟨req, rfl, rfl, rfl⟩, fun stored => ?_⟩
  cases stored with
  | error e => exact ⟨trivial, fun _ => releaseThen_knows⟩
  | ok u =>
      simp only [Prog.asks_ask]
      exact ⟨trivial, fun t => ⟨⟨tenantRow req tenantParent clientId createdAt, by simp, rfl⟩,
        fun _ => releaseThen_knows⟩⟩

theorem createReserved_knows :
    Prog.Asks (Knows (.createTenant req)) past (createReserved tenantParent req) := by
  simp only [createReserved, Prog.call_bind, Prog.asks_ask]
  refine ⟨trivial, fun created => ?_⟩
  split
  · exact releaseThen_knows
  · split
    · exact releaseThen_knows
    · simp only [Prog.asks_ask]
      refine ⟨trivial, fun t => ?_⟩
      split
      · trivial
      · exact storeTenant_knows

theorem createTenant_knows :
    Prog.Asks (Knows (.createTenant req)) past (createTenant tenantParent req) := by
  simp only [createTenant, Prog.call_bind, Prog.asks_ask]
  refine ⟨trivial, fun existing => ?_⟩
  split
  · trivial
  · rename_i item
    have hlive : (idempotencyLive item).Uses (· = .now) :=
      @idempotencyLive_uses (· = .now) rfl item
    refine (hlive.asks ?_).bind fun es live _ => ?_
    · rintro past op rfl
      trivial
    · split
      · trivial
      · simp only [reserveTenant, Prog.call_bind, Prog.asks_ask]
        refine ⟨trivial, fun t => ⟨trivial, fun reserved => ?_⟩⟩
        split
        · trivial
        · trivial
        · exact createReserved_knows

/-- The other actions store neither rows nor records. -/
theorem ofChange_knows {job : Job} (hjob : ∀ req, job ≠ .createTenant req) {op : Request}
    (h : op.ofChange) : Knows job past op := by
  cases op with
  | putClientConfig row => cases h
  | putIdempotency k record => cases h
  | updateClientConfig id domains updatedAt => exact hjob
  | deleteClientConfig id => exact hjob
  | _ => trivial

theorem start_knows (tenantParent : String) (job : Job) :
    Prog.Asks (Knows job) [] (start tenantParent job) := by
  cases job with
  | createTenant req => exact createTenant_knows.bind fun _ _ _ => trivial
  | updateTenant req =>
      have huses : (start tenantParent (.updateTenant req)).Uses Request.ofChange :=
        (updateTenant_uses req).bind fun _ => trivial
      exact huses.asks fun _ _ => ofChange_knows (by intro _ h; cases h)
  | deleteTenant pages req =>
      have huses : (start tenantParent (.deleteTenant pages req)).Uses Request.ofChange :=
        (deleteTenant_uses pages req).bind fun _ => trivial
      exact huses.asks fun _ _ => ofChange_knows (by intro _ h; cases h)

end Knows

/-! ## What a step leaves -/

section Steps

variable {w w' : World}

theorem move_keeps {m : Move} (h : w.move m = some w') :
    w'.issuedClients = w.issuedClients ∧ w'.configs = w.configs ∧
      ∀ k record, w'.idempotency k = some record → w.idempotency k = some record := by
  rcases move_cases h with ⟨_, _, rfl⟩ | ⟨_, _, _, _, rfl⟩ | ⟨k, rfl⟩
  · exact ⟨rfl, rfl, fun _ _ h => h⟩
  · exact ⟨rfl, rfl, fun _ _ h => h⟩
  · exact ⟨rfl, rfl, fun _ _ h => (Table.erase_some h).2⟩

theorem serve_issued {op : Request} {r : Reply op} (h : serve w op r w') :
    w'.issuedClients = w.issuedClients ∨ ∃ id, created ⟨op, r⟩ = some (.inl id) ∧
      id ∉ w.issuedClients ∧ w'.issuedClients = id :: w.issuedClients := by
  by_cases hop : ∃ client, op = .createUserPoolClient client
  · obtain ⟨client, rfl⟩ := hop
    rcases r with e | (_ | id)
    · cases h
      exact .inl rfl
    · cases h
      exact .inl rfl
    · obtain ⟨hnew, rfl⟩ := h
      exact .inr ⟨id, rfl, hnew, rfl⟩
  · cases serve_change h with
    | issueClient id => exact absurd ⟨_, rfl⟩ hop
    | _ => exact .inl rfl

/-- A row comes of a put under a free key, which has happened if it was
acknowledged. -/
theorem serve_rows {op : Request} {r : Reply op} (h : serve w op r w')
    (hupdate : ∀ id domains updatedAt, op ≠ .updateClientConfig id domains updatedAt)
    (hdelete : ∀ id, op ≠ .deleteClientConfig id) :
    (w'.configs = w.configs ∧
      ∀ row, (⟨op, r⟩ : Event Request Reply) ≠ ⟨.putClientConfig row, .ok ()⟩) ∨
      ∃ row, op = .putClientConfig row ∧ w.configs row.clientId = none ∧
        w'.configs = w.configs.put row.clientId row := by
  by_cases hop : ∃ row, op = .putClientConfig row
  · obtain ⟨row, rfl⟩ := hop
    cases r with
    | ok u =>
        obtain ⟨hfree, rfl⟩ := h
        exact .inr ⟨row, rfl, hfree, rfl⟩
    | error e =>
        rcases h with rfl | ⟨hfree, rfl⟩
        · refine .inl ⟨rfl, fun row' heq => ?_⟩
          cases heq
        · exact .inr ⟨row, rfl, hfree, rfl⟩
  · have hno : ∀ row, (⟨op, r⟩ : Event Request Reply) ≠ ⟨.putClientConfig row, .ok ()⟩ :=
      fun row heq => hop ⟨row, congrArg Event.op heq⟩
    cases serve_change h with
    | putConfig _ => exact absurd ⟨_, rfl⟩ hop
    | updateConfig => exact absurd rfl (hupdate _ _ _)
    | deleteConfig => exact absurd rfl (hdelete _)
    | _ => exact .inl ⟨rfl, hno⟩

theorem serve_records {op : Request} {r : Reply op} (h : serve w op r w') :
    w'.idempotency = w.idempotency ∨
      ∃ k record, op = .putIdempotency k record ∧ w'.idempotency = w.idempotency.put k record := by
  cases serve_change h with
  | putIdempotency => exact .inr ⟨_, _, rfl, rfl⟩
  | _ => exact .inl rfl

end Steps

/-! ## What a run leaves -/

/-- App clients are issued once, and each in a request of the log. -/
theorem issued_once (h : (tenantAdmin tenantParent).Reachable c) :
    c.world.issuedClients.Nodup ∧
      ∀ id ∈ c.world.issuedClients, ∃ e ∈ c.log, created e.ev = some (.inl id) := by
  induction h with
  | init hw =>
      obtain ⟨-, -, -, hnone⟩ := hw
      simp [hnone]
  | @step c d hc hs ih =>
      cases hs with
      | spawn _ => exact ih
      | drift hd =>
          obtain ⟨m, hm⟩ := hd
          rw [(move_keeps hm).1]
          exact ih
      | @request i job op next r w hi hserve =>
          have hold : ∀ id ∈ c.world.issuedClients, ∃ e ∈ c.log ++ [⟨i, c.world, ⟨op, r⟩, w⟩],
              created e.ev = some (.inl id) := by
            intro id hid
            obtain ⟨e, he, hcreated⟩ := ih.2 id hid
            exact ⟨e, List.mem_append_left _ he, hcreated⟩
          rcases serve_issued hserve with hsame | ⟨id, hcreated, hnew, heq⟩
          · rw [hsame]
            exact ⟨ih.1, hold⟩
          · rw [heq]
            refine ⟨List.nodup_cons.mpr ⟨hnew, ih.1⟩, fun id' hid' => ?_⟩
            rcases List.mem_cons.mp hid' with rfl | hid'
            · exact ⟨_, List.mem_append_right _ List.mem_cons_self, hcreated⟩
            · exact hold id' hid'

/-- While no row is changed, the rows are those that were put. -/
theorem rows_put (h : (tenantAdmin tenantParent).Reachable c)
    (hchange : ∀ e ∈ c.log, (∀ id domains updatedAt,
      e.ev.op ≠ .updateClientConfig id domains updatedAt) ∧ ∀ id, e.ev.op ≠ .deleteClientConfig id) :
    (∀ e ∈ c.log, ∀ row, e.ev = ⟨.putClientConfig row, .ok ()⟩ →
      c.world.configs row.clientId = some row) ∧
    ∀ id row, c.world.configs id = some row → row.clientId = id ∧
      ∃ e ∈ c.log, e.ev.op = .putClientConfig row := by
  induction h with
  | init hw =>
      refine ⟨by simp, fun id row hrow => ?_⟩
      rw [hw.1] at hrow
      cases hrow
  | step hc hs ih =>
      cases hs with
      | spawn _ => exact ih hchange
      | drift hd =>
          obtain ⟨m, hm⟩ := hd
          rw [(move_keeps hm).2.1]
          exact ih hchange
      | request hi hserve =>
          obtain ⟨hput, hrows⟩ := ih fun e he => hchange e (List.mem_append_left _ he)
          obtain ⟨hupdate, hdelete⟩ := hchange _ (List.mem_append_right _ List.mem_cons_self)
          rcases serve_rows hserve hupdate hdelete with ⟨hsame, hno⟩ | ⟨row, rfl, hfree, heq⟩
          · rw [hsame]
            constructor
            · intro e he row hev
              rcases List.mem_append.mp he with he | he
              · exact hput e he row hev
              · rw [List.mem_singleton.mp he] at hev
                exact absurd hev (hno row)
            · intro id row hrow
              obtain ⟨hid, e, he, hop⟩ := hrows id row hrow
              exact ⟨hid, e, List.mem_append_left _ he, hop⟩
          · rw [heq]
            constructor
            · intro e he row' hev
              rcases List.mem_append.mp he with he | he
              · exact Table.put_keeps _ hfree (hput e he row' hev)
              · rw [List.mem_singleton.mp he] at hev
                cases hev
                exact Table.put_self _ _ _
            · intro id row' hrow
              rcases Table.put_some hrow with ⟨rfl, rfl⟩ | ⟨-, hrow⟩
              · exact ⟨rfl, _, List.mem_append_right _ List.mem_cons_self, rfl⟩
              · obtain ⟨hid, e, he, hop⟩ := hrows id row' hrow
                exact ⟨hid, e, List.mem_append_left _ he, hop⟩

/-- A record is the response for a row that was stored. -/
theorem records_put (h : (tenantAdmin tenantParent).Reachable c) :
    ∀ k record, c.world.idempotency k = some record → ∃ row,
      record.response = some (responseOf row) ∧
      ∃ e ∈ c.log, e.ev = ⟨.putClientConfig row, .ok ()⟩ := by
  induction h with
  | init hw =>
      intro k record hrecord
      rw [hw.2.2.1] at hrecord
      cases hrecord
  | @step c d hc hs ih =>
      have hstep := hc.step hs
      cases hs with
      | spawn _ => exact ih
      | drift hd =>
          obtain ⟨m, hm⟩ := hd
          exact fun k record hrecord => ih k record ((move_keeps hm).2.2 k record hrecord)
      | @request i job op next r w hi hserve =>
          have hold : ∀ k record, c.world.idempotency k = some record → ∃ row,
              record.response = some (responseOf row) ∧
              ∃ e ∈ c.log ++ [⟨i, c.world, ⟨op, r⟩, w⟩],
                e.ev = ⟨.putClientConfig row, .ok ()⟩ := by
            intro k record hrecord
            obtain ⟨row, hresponse, e, he, hev⟩ := ih k record hrecord
            exact ⟨row, hresponse, e, List.mem_append_left _ he, hev⟩
          intro k record hrecord
          rcases serve_records hserve with hsame | ⟨k', record', rfl, heq⟩
          · rw [hsame] at hrecord
            exact hold k record hrecord
          · simp only at hrecord
            rw [heq] at hrecord
            rcases Table.put_some hrecord with ⟨rfl, rfl⟩ | ⟨-, hrecord⟩
            · obtain ⟨t, ht, hknows⟩ := hstep.asked (start_knows tenantParent) c.log _ [] rfl
              obtain ⟨row, hput, hresponse⟩ := hknows
              obtain ⟨e, he, -, hev⟩ := mem_localLog.mp hput
              exact ⟨row, hresponse, e, List.mem_append_left _ he, hev⟩
            · exact hold k record hrecord

/-! ## A run to its end -/

section Finished

variable {req : CreateTenantRequest}

/-- A call that is at its end, with all its requests. -/
theorem finished_ends (h : (tenantAdmin tenantParent).Reachable c) (hall : AllCreate req c)
    (hanswered : AllAnswered c) (hfinished : AllFinished c) {i : Nat} {t : TenantThread}
    (hi : c.threads[i]? = some t) : ∃ domains result, t.prog = .ret (.created result) ∧
      Ends tenantParent { req with allowedEmailDomains := domains } (localLog c.log i) result := by
  have hmem := List.mem_of_getElem? hi
  obtain ⟨domains, hjob⟩ := hall t hmem
  obtain ⟨out, hprog⟩ := hfinished t hmem
  have hrun := h.local_run i t hi
  rw [hjob, hprog] at hrun
  obtain ⟨es₁, es₂, result, hes, hcreate, hret⟩ := Prog.finishes_bind.mp hrun
  obtain ⟨rfl, hout⟩ := Prog.finishes_ret.mp hret
  rw [List.append_nil] at hes
  refine ⟨domains, result, by rw [hprog, ← hout], createTenant_ends (hes ▸ hcreate) ?_⟩
  intro ev hev
  obtain ⟨e, he, -, rfl⟩ := mem_localLog.mp hev
  exact hanswered e he

/-- What the call that made an entry knew. -/
theorem entry_knows (h : (tenantAdmin tenantParent).Reachable c) (hall : AllCreate req c)
    {e : Entry Request Reply World} (he : e ∈ c.log) : ∃ domains past,
      Knows (.createTenant { req with allowedEmailDomains := domains }) past e.ev.op := by
  obtain ⟨l₁, l₂, hlog⟩ := List.append_of_mem he
  obtain ⟨t, ht, hknows⟩ := h.asked (start_knows tenantParent) l₁ e l₂ hlog
  obtain ⟨domains, hjob⟩ := hall t (List.mem_of_getElem? ht)
  rw [hjob] at hknows
  exact ⟨domains, _, hknows⟩

/-- The rows are those that were put, and all are of the one tenant. -/
theorem rows_same (h : (tenantAdmin tenantParent).Reachable c) (hall : AllCreate req c) :
    (∀ e ∈ c.log, ∀ row, e.ev = ⟨.putClientConfig row, .ok ()⟩ →
      c.world.configs row.clientId = some row) ∧
    ∀ id row, c.world.configs id = some row →
      row.clientId = id ∧ row.subdomain = req.subdomain ∧ row.tenantId = req.tenantId := by
  have hchange : ∀ e ∈ c.log, (∀ id domains updatedAt,
      e.ev.op ≠ .updateClientConfig id domains updatedAt) ∧
      ∀ id, e.ev.op ≠ .deleteClientConfig id := by
    intro e he
    obtain ⟨domains, past, hknows⟩ := entry_knows h hall he
    constructor
    · intro id domains' updatedAt hop
      rw [hop] at hknows
      exact hknows _ rfl
    · intro id hop
      rw [hop] at hknows
      exact hknows _ rfl
  obtain ⟨hput, hrows⟩ := rows_put h hchange
  refine ⟨hput, fun id row hrow => ?_⟩
  obtain ⟨hid, e, he, hop⟩ := hrows id row hrow
  obtain ⟨domains, past, hknows⟩ := entry_knows h hall he
  rw [hop] at hknows
  obtain ⟨req', hreq, hsub, htid⟩ := hknows
  cases hreq
  exact ⟨hid, hsub, htid⟩

theorem created_row {es : List (Event Request Reply)} {row : ClientConfigRow}
    (h : .inr row ∈ creations es) : ⟨.putClientConfig row, .ok ()⟩ ∈ es := by
  obtain ⟨⟨op, r⟩, he, hrow⟩ := List.mem_filterMap.mp h
  cases op with
  | putClientConfig row' =>
      cases r with
      | error e => cases hrow
      | ok u =>
          cases hrow
          exact he
  | createUserPoolClient client =>
      rcases r with e | (_ | id) <;> cases hrow
  | _ => cases hrow

/-- A call that has made both has returned the response. -/
theorem creates_of_made {i : Nat} {t : TenantThread} {clientId createdAt : String}
    (hi : c.threads[i]? = some t)
    (hmade : creations (localLog c.log i) =
      [.inl clientId, .inr (tenantRow req tenantParent clientId createdAt)])
    (hprog : t.prog =
      .ret (.created (.ok (tenantResponse req tenantParent clientId createdAt)))) :
    Creates c (tenantRow req tenantParent clientId createdAt) :=
  ⟨i, t, hi, created_row (by simp [hmade]), hprog⟩

/-- A record that was read was written before. -/
theorem read_record (h : (tenantAdmin tenantParent).Reachable c) {e : Entry Request Reply World}
    (he : e ∈ c.log) {k : String} {record : IdempotencyRecord}
    (hev : e.ev = ⟨.getIdempotency k, .ok (some record)⟩) : ∃ row,
      record.response = some (responseOf row) ∧
      ∃ e' ∈ c.log, e'.ev = ⟨.putClientConfig row, .ok ()⟩ := by
  obtain ⟨l₁, l₂, hlog⟩ := List.append_of_mem he
  obtain ⟨d, hd, rfl, hworld⟩ := h.before l₁ e l₂ hlog
  have hserve := h.served e he
  rw [hev] at hserve
  obtain ⟨row, hresponse, e', he', hev'⟩ :=
    records_put hd k record (by rw [hworld]; exact (hserve.1 _ rfl).symm)
  exact ⟨row, hresponse, e', by rw [hlog]; exact List.mem_append_left _ he', hev'⟩

/-- **Created once.** In every run of calls for one tenant under one key
that ends with all of them finished, if

* no request has failed, those apart that follow the row,
* rows are stored and reservations released before the reservation of the
  call expires, and
* no reservation is granted once a row of the tenant is stored,

there are at most one app client and one row, and every call returns the
response of the call that created them, or `ConflictError`. -/
theorem created_once (h : (tenantAdmin tenantParent).Reachable c) (hall : AllCreate req c)
    (hfinished : AllFinished c) (htime : ActsInTime c) (hanswered : AllAnswered c)
    (hnames : ReservesFreeNames c) : CreatedOnce c := by
  obtain ⟨hput, hrows⟩ := rows_same h hall
  have hunique : UniqueTenants c.world.configs := tenants_unique h hnames htime
  have hone : ∀ id id' row row', c.world.configs id = some row →
      c.world.configs id' = some row' → id = id' := by
    intro id id' row row' hrow hrow'
    exact hunique id id' row row' hrow hrow'
      (.inl ((hrows id row hrow).2.1.trans (hrows id' row' hrow').2.1.symm))
  -- who made anything has made both, and returned the response
  have hmakes : ∀ e ∈ c.log, ∀ x, created e.ev = some x → ∃ row, Creates c row ∧
      (x = .inl row.clientId ∨ x = .inr row) := by
    intro e he x hx
    obtain ⟨t, ht⟩ : ∃ t, c.threads[e.tid]? = some t :=
      ⟨_, List.getElem?_eq_getElem (h.tid_lt e he)⟩
    have hin : x ∈ creations (localLog c.log e.tid) :=
      List.mem_filterMap.mpr ⟨e.ev, Entry.mem_localLog he, hx⟩
    obtain ⟨domains, result, hprog, hends⟩ := finished_ends h hall hanswered hfinished ht
    cases hends with
    | replayed hnone _ =>
        rw [hnone] at hin
        cases hin
    | refused hnone =>
        rw [hnone] at hin
        cases hin
    | created hmade =>
        refine ⟨_, creates_of_made ht hmade hprog, ?_⟩
        rw [hmade, List.mem_cons, List.mem_singleton] at hin
        exact hin
  have hthere : ∀ row, Creates c row → c.world.configs row.clientId = some row := by
    rintro row ⟨i, t, -, hrow, -⟩
    obtain ⟨e, he, -, hev⟩ := mem_localLog.mp hrow
    exact hput e he row hev
  refine ⟨?_, hone, ?_⟩
  · -- two app clients would have two rows
    obtain ⟨hnodup, hissued⟩ := issued_once h
    have hrow : ∀ id ∈ c.world.issuedClients, ∃ row, c.world.configs id = some row := by
      intro id hid
      obtain ⟨e, he, hx⟩ := hissued id hid
      obtain ⟨row, hcreates, hid | hno⟩ := hmakes e he _ hx
      · rw [Sum.inl.inj hid]
        exact ⟨row, hthere row hcreates⟩
      · cases hno
    match hclients : c.world.issuedClients with
    | [] => simp
    | [id] => simp
    | id :: id' :: rest =>
        exfalso
        rw [hclients] at hrow hnodup
        obtain ⟨row, hid⟩ := hrow id List.mem_cons_self
        obtain ⟨row', hid'⟩ := hrow id' (List.mem_cons_of_mem _ List.mem_cons_self)
        rw [hone id id' row row' hid hid', List.nodup_cons] at hnodup
        exact hnodup.1 List.mem_cons_self
  · intro t ht
    obtain ⟨i, hi⟩ := List.getElem?_of_mem ht
    obtain ⟨domains, result, hprog, hends⟩ := finished_ends h hall hanswered hfinished hi
    cases hends with
    | refused _ => exact .inr ⟨_, hprog⟩
    | created hmade =>
        have hcreates := creates_of_made hi hmade hprog
        exact .inl ⟨_, hthere _ hcreates, hcreates, hprog⟩
    | @replayed record _ hget =>
        -- the record that was read is the response for a row
        obtain ⟨e, he, -, hev⟩ := mem_localLog.mp hget
        obtain ⟨row, hresponse, e', he', hev'⟩ := read_record h he hev
        obtain ⟨row', hcreates, hx⟩ := hmakes e' he' (.inr row) (by rw [hev']; rfl)
        obtain rfl : row = row' := by
          rcases hx with hno | hrow
          · cases hno
          · exact Sum.inr.inj hrow
        refine .inl ⟨row, hthere row hcreates, hcreates, ?_⟩
        obtain ⟨-, hsub, htid⟩ := hrows _ _ (hthere row hcreates)
        rw [hprog]
        simp [storedResponse, hresponse, responseOf, hsub, htid]

end Finished

/-! ## Running it -/

/-- `AllCreate`, `AllFinished`: the calls. -/
def allDone (req : CreateTenantRequest) (c : TenantConfig) : Bool :=
  c.threads.all fun t =>
    (match t.job with
      | .createTenant req' => req' == req
      | _ => false) &&
    match t.prog with
    | .ret _ => true
    | .ask _ _ => false

theorem allDone_sound {req : CreateTenantRequest} (h : allDone req c = true) :
    AllCreate req c ∧ AllFinished c := by
  have hthread := List.all_eq_true.mp h
  simp only [Bool.and_eq_true] at hthread
  constructor
  · intro t ht
    have hjob := (hthread t ht).1
    split at hjob
    · rename_i req' heq
      exact ⟨req.allowedEmailDomains, by rw [heq, beq_iff_eq.mp hjob]⟩
    · cases hjob
  · intro t ht
    have hprog := (hthread t ht).2
    split at hprog
    · exact ⟨_, by assumption⟩
    · cases hprog

/-- `Answered`, and a record that is written. -/
def answered : Event Request Reply → Bool
  | ⟨.now, t⟩ => decide (-IsoDate.maxTime ≤ t ∧ t ≤ IsoDate.maxTime)
  | ⟨.getIdempotency _, .ok _⟩ => true
  | ⟨.getIdempotency _, .error _⟩ => false
  | ⟨.reserve _, reply⟩ => reply == .ok () || reply == .error .transactionCanceled
  | ⟨.createUserPoolClient _, .ok (some clientId)⟩ => clientId != ""
  | ⟨.createUserPoolClient _, _⟩ => false
  | ⟨.putClientConfig _, reply⟩ => reply == .ok ()
  | ⟨.putIdempotency _ _, reply⟩ => reply == .ok ()
  | _ => true

theorem answered_sound (h : (c.log.all fun e => answered e.ev) = true) :
    AllAnswered c ∧ AllRecorded c := by
  have hall := List.all_eq_true.mp h
  constructor
  · intro e he
    have hev := hall e he
    generalize e.ev = ev at hev
    obtain ⟨op, r⟩ := ev
    cases op with
    | now => exact of_decide_eq_true (p := -IsoDate.maxTime ≤ (r : Int) ∧ r ≤ IsoDate.maxTime) hev
    | getIdempotency k =>
        cases r with
        | ok item => exact ⟨item, rfl⟩
        | error x => cases hev
    | reserve s => simpa [answered, Answered] using hev
    | createUserPoolClient client =>
        rcases r with x | (_ | clientId)
        · cases hev
        · cases hev
        · exact ⟨clientId, by simpa [answered] using hev, rfl⟩
    | putClientConfig row => exact beq_iff_eq.mp hev
    | _ => trivial
  · intro e he k record hop
    have hev := hall e he
    obtain ⟨i, pre, ⟨op, r⟩, post⟩ := e
    obtain rfl : op = .putIdempotency k record := hop
    exact congrArg (Event.mk (Request.putIdempotency k record)) (beq_iff_eq.mp hev)

namespace Small

def acme : CreateTenantRequest := createRequest "acme" "acme" "key-0001"

/-- One call wins, a second is turned away, and a third replays. -/
def once : Schedule :=
  [.spawn (.createTenant acme), .spawn (.createTenant acme)] ++ answers 0 3 "client-1" ++
    answers 1 3 "client-2" ++ answers 0 8 "client-1" ++
    [.spawn (.createTenant acme)] ++ answers 2 2 "client-3"

/-- The second call looks for a record before the first has begun, and
reserves after it has ended. -/
def late : Schedule :=
  [.spawn (.createTenant acme), .spawn (.createTenant acme)] ++ answers 1 1 "client-2" ++
    answers 0 11 "client-1" ++ answers 1 10 "client-2"

end Small

theorem created_once_overlap : ∃ c, (tenantAdmin Small.tenantParent).Reachable c ∧
    c.threads.length = 3 ∧ CreatedOnce c := by
  obtain ⟨c, hc, hend⟩ := (interpreter Small.tenantParent).exists_reachable Small.world_init
    Small.once (fun c => allDone Small.acme c && actsInTime c &&
      (c.log.all fun e => answered e.ev) && reservesFreeNames c && c.threads.length == 3)
    (by decide +kernel)
  simp only [Bool.and_eq_true, beq_iff_eq] at hend
  obtain ⟨⟨⟨⟨hdone, htime⟩, hanswered⟩, hfree⟩, hthree⟩ := hend
  exact ⟨c, hc, hthree, created_once hc (allDone_sound hdone).1 (allDone_sound hdone).2
    (actsInTime_sound htime) (answered_sound hanswered).1 (reservesFreeNames_sound hc hfree)⟩

/-- A call that is late enough creates the tenant again. -/
theorem created_twice : ¬ ∀ (tenantParent : String) (req : CreateTenantRequest) (c : TenantConfig),
    (tenantAdmin tenantParent).Reachable c → AllCreate req c → AllFinished c → ActsInTime c →
      AllRecorded c → AllAnswered c → CreatedOnce c := by
  intro hclaim
  obtain ⟨c, hc, hend⟩ := (interpreter Small.tenantParent).exists_reachable Small.world_init
    Small.late (fun c => allDone Small.acme c && actsInTime c &&
      (c.log.all fun e => answered e.ev) &&
      namesOf c "client-1" == some ("acme", "acme") && namesOf c "client-2" == some ("acme", "acme"))
    (by decide +kernel)
  simp only [Bool.and_eq_true, beq_iff_eq, namesOf, Option.map_eq_some_iff] at hend
  obtain ⟨⟨⟨⟨hdone, htime⟩, hanswered⟩, row, hrow, -⟩, row', hrow', -⟩ := hend
  have honce := hclaim _ Small.acme c hc (allDone_sound hdone).1 (allDone_sound hdone).2
    (actsInTime_sound htime) (answered_sound hanswered).2 (answered_sound hanswered).1
  exact absurd (honce.oneRow _ _ row row' hrow hrow') (by decide)

end SaasFoundation.Vestibulum.SharedDistribution
