import SaasFoundation.Lib.IsoDate
import SaasFoundation.Lib.Prog
import SaasFoundation.Vestibulum.Runtime

/-!
# The tenant actions of the admin Lambda

`createTenant`, `updateTenant` and `deleteTenant` over the `ClientConfig`
table, the reservations, the idempotency records and Cognito. Audit lines
and metrics are written to the log only and are left out.

`releaseReservations` sends its two deletes together; which of them lands
first is asked of the outside. A delete whose reply is not waited for is
one that is served late, and nothing follows it.
-/

namespace SaasFoundation.Vestibulum.SharedDistribution

open Lib

/-! ## Rows -/

/-- A tenant: one row for each Cognito app client. -/
structure ClientConfigRow where
  clientId : String
  subdomain : String
  tenantId : String
  siteBaseUrl : String
  allowedEmailDomains : List String
  createdAt : String
  updatedAt : Option String
deriving DecidableEq, Repr

structure CreateTenantRequest where
  subdomain : String
  tenantId : String
  allowedEmailDomains : List String
  idempotencyKey : String
deriving DecidableEq, Repr

structure CreateTenantResponse where
  tenantId : String
  subdomain : String
  siteBaseUrl : String
  clientId : String
  createdAt : String
deriving DecidableEq, Repr

/-- A stored response; either attribute may be unreadable. -/
structure IdempotencyRecord where
  response : Option CreateTenantResponse
  expiresAt : Option Int
deriving DecidableEq, Repr

/-- The reservation transaction: two puts, each under
`attribute_not_exists(key) OR expires_at < :now`. -/
structure Reservation where
  subdomain : String
  tenantId : String
  now : Int
  expiresAt : Int
deriving DecidableEq, Repr

def subdomainKey (subdomain : String) : String := "subdomain#" ++ subdomain
def tenantIdKey (tenantId : String) : String := "tenantId#" ++ tenantId

def Reservation.keys (r : Reservation) : List String :=
  [subdomainKey r.subdomain, tenantIdKey r.tenantId]

/-- `CreateUserPoolClient`, as far as it depends on the tenant. -/
structure UserPoolClient where
  clientName : String
  explicitAuthFlows : List String
  callbackUrls : List String
  logoutUrls : List String
deriving DecidableEq, Repr

/-- A page of `ListUsers`. -/
structure UserPage where
  usernames : List (Option String)
  paginationToken : Option String
deriving DecidableEq, Repr

/-- A DynamoDB string set cannot be empty. -/
def domainSet (allowedEmailDomains : List String) : List String :=
  if allowedEmailDomains.isEmpty then ["__EMPTY__"] else allowedEmailDomains

/-! ## The signature -/

inductive AwsError where
  | transactionCanceled
  | conditionalCheckFailed
  | other
deriving DecidableEq, Repr

inductive Request where
  | now
  /-- Which of two deletes sent together is served first. -/
  | concurrentOrder
  | getIdempotency (key : String)
  | reserve (r : Reservation)
  | createUserPoolClient (client : UserPoolClient)
  | deleteUserPoolClient (clientId : String)
  /-- `PutItem` under `attribute_not_exists(clientId)`. -/
  | putClientConfig (row : ClientConfigRow)
  | putIdempotency (key : String) (record : IdempotencyRecord)
  /-- An unconditional `DeleteItem`. -/
  | deleteReservation (key : String)
  /-- `Query` of `TenantIdIndex`, first item. -/
  | queryTenantId (tenantId : String)
  /-- `UpdateItem` under `attribute_exists(clientId)`. -/
  | updateClientConfig (clientId : String) (allowedEmailDomains : List String)
      (updatedAt : String)
  | deleteClientConfig (clientId : String)
  | listUsers (paginationToken : Option String)
  | adminUserGlobalSignOut (username : String)
deriving DecidableEq, Repr

abbrev Reply : Request → Type
  | .now => Int
  | .concurrentOrder => Bool
  | .getIdempotency _ => Except AwsError (Option IdempotencyRecord)
  | .reserve _ => Except AwsError Unit
  | .createUserPoolClient _ => Except AwsError (Option String)
  | .deleteUserPoolClient _ => Except AwsError Unit
  | .putClientConfig _ => Except AwsError Unit
  | .putIdempotency _ _ => Except AwsError Unit
  | .deleteReservation _ => Except AwsError Unit
  | .queryTenantId _ => Except AwsError (Option ClientConfigRow)
  | .updateClientConfig _ _ _ => Except AwsError Unit
  | .deleteClientConfig _ => Except AwsError Unit
  | .listUsers _ => Except AwsError UserPage
  | .adminUserGlobalSignOut _ => Except AwsError Unit

abbrev Handler (α : Type) := Prog Request Reply α

/-- Make one request. -/
abbrev request (op : Request) : Handler (Reply op) := Prog.call op

instance (op : Request) : Nonempty (Reply op) := by
  cases op <;>
    first
      | exact ⟨(0 : Int)⟩
      | exact ⟨true⟩
      | exact ⟨.error .other⟩

/-- What an action throws. -/
inductive Thrown where
  | conflictError (message : String)
  | idempotencyConflictError (message : String)
  | tenantNotFoundError (message : String)
  | error (message : String)
  | rangeError
  | aws (e : AwsError)
  /-- No error of the source: `ListUsers` never stopped paging. -/
  | endlessPages
deriving DecidableEq, Repr

/-! ## `createTenant` -/

/-- Both deletes are sent; a failure of either is swallowed. -/
def releaseReservations (subdomain tenantId : String) : Handler Unit := do
  let subdomainFirst ← request .concurrentOrder
  let first := if subdomainFirst then subdomainKey subdomain else tenantIdKey tenantId
  let second := if subdomainFirst then tenantIdKey tenantId else subdomainKey subdomain
  let _ ← request (.deleteReservation first)
  let _ ← request (.deleteReservation second)
  pure ()

/-- Whether a stored record still counts. The clock is read only for a
record with a readable expiry. -/
def idempotencyLive (item : Option IdempotencyRecord) : Handler Bool :=
  match item with
  | none => pure false
  | some record =>
      match record.expiresAt with
      | none => pure false
      | some expiresAt => do
          let nowMs ← request .now
          pure (decide (nowMs / 1000 < expiresAt))

/-- The response of a live record, or the conflict it is. -/
def storedResponse (req : CreateTenantRequest) (item : Option IdempotencyRecord) :
    Except Thrown CreateTenantResponse :=
  let conflict := Thrown.idempotencyConflictError
    "Idempotency conflict: Idempotency key reused with different tenant identity"
  match item.bind IdempotencyRecord.response with
  | none => .error conflict
  | some stored =>
      if stored.subdomain ≠ req.subdomain ∨ stored.tenantId ≠ req.tenantId then .error conflict
      else .ok stored

def siteBaseUrl (subdomain tenantParent : String) : String :=
  "https://" ++ subdomain ++ "." ++ tenantParent

def appClient (req : CreateTenantRequest) (tenantParent : String) : UserPoolClient where
  clientName := "tenant-" ++ req.subdomain
  explicitAuthFlows := ["ALLOW_CUSTOM_AUTH"]
  callbackUrls := [siteBaseUrl req.subdomain tenantParent ++ "/login/callback"]
  logoutUrls := [siteBaseUrl req.subdomain tenantParent ++ "/logout"]

def tenantRow (req : CreateTenantRequest) (tenantParent clientId createdAt : String) :
    ClientConfigRow where
  clientId := clientId
  subdomain := req.subdomain
  tenantId := req.tenantId
  siteBaseUrl := siteBaseUrl req.subdomain tenantParent
  allowedEmailDomains := domainSet req.allowedEmailDomains
  createdAt := createdAt
  updatedAt := none

def tenantResponse (req : CreateTenantRequest) (tenantParent clientId createdAt : String) :
    CreateTenantResponse where
  tenantId := req.tenantId
  subdomain := req.subdomain
  siteBaseUrl := siteBaseUrl req.subdomain tenantParent
  clientId := clientId
  createdAt := createdAt

def compositeIdempotencyKey (req : CreateTenantRequest) : String :=
  req.idempotencyKey ++ "#" ++ req.subdomain

/-- Steps 4 to 6: the row, the record, the release. -/
def storeTenant (tenantParent : String) (req : CreateTenantRequest) (clientId createdAt : String) :
    Handler (Except Thrown CreateTenantResponse) := do
  let stored : Except AwsError Unit ←
    request (.putClientConfig (tenantRow req tenantParent clientId createdAt))
  match stored with
  | .error e => do
      -- compensation: the app client goes before the reservations
      let _ ← request (.deleteUserPoolClient clientId)
      releaseReservations req.subdomain req.tenantId
      pure (.error (.aws e))
  | .ok () => do
      let response := tenantResponse req tenantParent clientId createdAt
      let nowMs ← request .now
      let _ ← request (.putIdempotency (compositeIdempotencyKey req)
        ⟨some response, some (nowMs / 1000 + 86400)⟩)
      releaseReservations req.subdomain req.tenantId
      pure (.ok response)

/-- Step 3 and what follows it, with the reservations held. -/
def createReserved (tenantParent : String) (req : CreateTenantRequest) :
    Handler (Except Thrown CreateTenantResponse) := do
  let created : Except AwsError (Option String) ←
    request (.createUserPoolClient (appClient req tenantParent))
  match created with
  | .error e => do
      releaseReservations req.subdomain req.tenantId
      pure (.error (.aws e))
  | .ok clientId =>
      if clientId.getD "" = "" then do
        releaseReservations req.subdomain req.tenantId
        pure (.error (.error "Cognito returned empty ClientId"))
      else do
        let nowMs ← request .now
        match IsoDate.toIsoString nowMs with
        | none => pure (.error .rangeError)
        | some createdAt => storeTenant tenantParent req (clientId.getD "") (String.ofList createdAt)

/-- Step 2: the reservations, for 60 seconds from the clock. -/
def reserveTenant (tenantParent : String) (req : CreateTenantRequest) :
    Handler (Except Thrown CreateTenantResponse) := do
  let nowMs ← request .now
  let now := nowMs / 1000
  let reserved : Except AwsError Unit ←
    request (.reserve ⟨req.subdomain, req.tenantId, now, now + 60⟩)
  match reserved with
  | .error .transactionCanceled =>
      pure (.error (.conflictError ("Subdomain or tenantId already in use: " ++ req.subdomain
        ++ " / " ++ req.tenantId)))
  | .error e => pure (.error (.aws e))
  | .ok () => createReserved tenantParent req

def createTenant (tenantParent : String) (req : CreateTenantRequest) :
    Handler (Except Thrown CreateTenantResponse) := do
  let existing : Except AwsError (Option IdempotencyRecord) ←
    request (.getIdempotency (compositeIdempotencyKey req))
  match existing with
  | .error e => pure (.error (.aws e))
  | .ok item => do
      let live ← idempotencyLive item
      if live then pure (storedResponse req item) else reserveTenant tenantParent req

/-! ## `updateTenant` -/

structure UpdateTenantRequest where
  tenantId : String
  allowedEmailDomains : List String
deriving DecidableEq, Repr

structure UpdateTenantResponse where
  tenantId : String
  updatedAt : String
deriving DecidableEq, Repr

def tenantNotFound (tenantId : String) : Thrown :=
  .tenantNotFoundError ("Tenant not found: " ++ tenantId)

def updateTenant (req : UpdateTenantRequest) : Handler (Except Thrown UpdateTenantResponse) := do
  let found : Except AwsError (Option ClientConfigRow) ← request (.queryTenantId req.tenantId)
  match found with
  | .error e => pure (.error (.aws e))
  | .ok none => pure (.error (tenantNotFound req.tenantId))
  | .ok (some item) => do
      let nowMs ← request .now
      match IsoDate.toIsoString nowMs with
      | none => pure (.error .rangeError)
      | some text => do
          let updatedAt := String.ofList text
          let updated : Except AwsError Unit ← request
            (.updateClientConfig item.clientId (domainSet req.allowedEmailDomains) updatedAt)
          match updated with
          | .error e => pure (.error (.aws e))
          | .ok () => pure (.ok ⟨req.tenantId, updatedAt⟩)

/-! ## `deleteTenant` -/

structure DeleteTenantRequest where
  tenantId : String
  revokeActiveSessions : Option Bool
deriving DecidableEq, Repr

/-- The sign-outs of a page; no failure stops the rest. -/
def signOutAll : List (Option String) → Handler Unit
  | [] => pure ()
  | username :: rest => do
      match username with
      | none => signOutAll rest
      | some name =>
          if name = "" then signOutAll rest
          else do
            let _ ← request (.adminUserGlobalSignOut name)
            signOutAll rest

/-- Every page of the pool's users, up to `pages` of them. -/
def revokeAllSessionsForClient : (pages : Nat) → (paginationToken : Option String) →
    Handler (Except Thrown Unit)
  | 0, _ => pure (.error .endlessPages)
  | pages + 1, token => do
      let listed : Except AwsError UserPage ← request (.listUsers token)
      match listed with
      | .error e => pure (.error (.aws e))
      | .ok page => do
          signOutAll page.usernames
          if page.paginationToken.getD "" = "" then pure (.ok ())
          else revokeAllSessionsForClient pages page.paginationToken

/-- The app client goes first: from then on no token is issued for it. -/
def deleteClientAndRow (clientId : String) : Handler (Except Thrown Unit) := do
  let client : Except AwsError Unit ← request (.deleteUserPoolClient clientId)
  match client with
  | .error e => pure (.error (.aws e))
  | .ok () => do
      let row : Except AwsError Unit ← request (.deleteClientConfig clientId)
      match row with
      | .error e => pure (.error (.aws e))
      | .ok () => pure (.ok ())

def deleteTenant (pages : Nat) (req : DeleteTenantRequest) : Handler (Except Thrown Unit) := do
  let found : Except AwsError (Option ClientConfigRow) ← request (.queryTenantId req.tenantId)
  match found with
  | .error e => pure (.error (.aws e))
  | .ok none => pure (.error (tenantNotFound req.tenantId))
  | .ok (some item) =>
      if req.revokeActiveSessions = some true then do
        let revoked ← revokeAllSessionsForClient pages none
        match revoked with
        | .error e => pure (.error e)
        | .ok () => deleteClientAndRow item.clientId
      else deleteClientAndRow item.clientId

/-! ## What a run of `createTenant` looks like -/

section Runs

variable {tenantParent : String} {req : CreateTenantRequest} {es : List (Event Request Reply)}
  {out : Except Thrown CreateTenantResponse}

/-- The requests that matter for who owns a name: the reservation, the row
and the release. -/
def Request.isClaim : Request → Bool
  | .reserve _ => true
  | .putClientConfig _ => true
  | .deleteReservation _ => true
  | _ => false

def claims (es : List (Event Request Reply)) : List (Event Request Reply) :=
  es.filter (fun e => e.op.isClaim)

@[simp] theorem claims_nil : claims [] = [] := rfl

@[simp] theorem claims_append (es fs : List (Event Request Reply)) :
    claims (es ++ fs) = claims es ++ claims fs := List.filter_append ..

theorem claims_cons (e : Event Request Reply) (es : List (Event Request Reply)) :
    claims (e :: es) = if e.op.isClaim then e :: claims es else claims es := List.filter_cons ..

/-- The two deletes of a release, in the order they were served. -/
inductive Released (subdomain tenantId : String) : List (Event Request Reply) → Prop
  | subdomainFirst (r r' : Except AwsError Unit) :
      Released subdomain tenantId [⟨.deleteReservation (subdomainKey subdomain), r⟩,
        ⟨.deleteReservation (tenantIdKey tenantId), r'⟩]
  | tenantIdFirst (r r' : Except AwsError Unit) :
      Released subdomain tenantId [⟨.deleteReservation (tenantIdKey tenantId), r⟩,
        ⟨.deleteReservation (subdomainKey subdomain), r'⟩]

theorem finishes_releaseReservations {subdomain tenantId : String} {u : Unit}
    (h : (releaseReservations subdomain tenantId).Finishes es u) :
    Released subdomain tenantId (claims es) := by
  simp only [releaseReservations, Prog.call_bind, Prog.finishes_ask, Prog.pure_def,
    Prog.finishes_ret] at h
  obtain ⟨first, _, rfl, r, _, rfl, r', _, rfl, rfl, -⟩ := h
  cases first with
  | true => exact .subdomainFirst r r'
  | false => exact .tenantIdFirst r r'

/-- The claims of a call, from the clock it reserved at. -/
inductive Claims (req : CreateTenantRequest) (now : Int) : List (Event Request Reply) → Prop
  | refused (e : AwsError) :
      Claims req now [⟨.reserve ⟨req.subdomain, req.tenantId, now, now + 60⟩, .error e⟩]
  | abandoned :
      Claims req now [⟨.reserve ⟨req.subdomain, req.tenantId, now, now + 60⟩, .ok ()⟩]
  | released {rel : List (Event Request Reply)} (hrel : Released req.subdomain req.tenantId rel) :
      Claims req now (⟨.reserve ⟨req.subdomain, req.tenantId, now, now + 60⟩, .ok ()⟩ :: rel)
  | stored {row : ClientConfigRow} {reply : Except AwsError Unit}
      {rel : List (Event Request Reply)} (hsub : row.subdomain = req.subdomain)
      (htid : row.tenantId = req.tenantId) (hrel : Released req.subdomain req.tenantId rel) :
      Claims req now (⟨.reserve ⟨req.subdomain, req.tenantId, now, now + 60⟩, .ok ()⟩ ::
        ⟨.putClientConfig row, reply⟩ :: rel)

theorem finishes_storeTenant {clientId createdAt : String}
    (h : (storeTenant tenantParent req clientId createdAt).Finishes es out) :
    ∃ row reply rel, row.subdomain = req.subdomain ∧ row.tenantId = req.tenantId ∧
      claims es = ⟨.putClientConfig row, reply⟩ :: rel ∧
      Released req.subdomain req.tenantId rel := by
  simp only [storeTenant, Prog.call_bind, Prog.finishes_ask] at h
  obtain ⟨reply, _, rfl, h⟩ := h
  refine ⟨_, reply, ?_⟩
  cases reply with
  | error e =>
      simp only [Prog.finishes_ask] at h
      obtain ⟨_, _, rfl, h⟩ := h
      obtain ⟨rel, tail, u, rfl, hrel, h⟩ := Prog.finishes_bind.mp h
      simp only [Prog.pure_def, Prog.finishes_ret] at h
      obtain ⟨rfl, -⟩ := h
      exact ⟨_, rfl, rfl, by simp [claims_cons, Request.isClaim], finishes_releaseReservations hrel⟩
  | ok u =>
      simp only [Prog.finishes_ask] at h
      obtain ⟨_, _, rfl, _, _, rfl, h⟩ := h
      obtain ⟨rel, tail, u, rfl, hrel, h⟩ := Prog.finishes_bind.mp h
      simp only [Prog.pure_def, Prog.finishes_ret] at h
      obtain ⟨rfl, -⟩ := h
      exact ⟨_, rfl, rfl, by simp [claims_cons, Request.isClaim], finishes_releaseReservations hrel⟩

/-- With the reservations held, a call releases them, stores a row and
releases them, or stops. -/
theorem finishes_createReserved (h : (createReserved tenantParent req).Finishes es out) (now : Int) :
    Claims req now
      (⟨.reserve ⟨req.subdomain, req.tenantId, now, now + 60⟩, .ok ()⟩ :: claims es) := by
  have hreleased : ∀ {gs : List (Event Request Reply)} {x : Except Thrown CreateTenantResponse},
      (do releaseReservations req.subdomain req.tenantId; pure x :
        Handler (Except Thrown CreateTenantResponse)).Finishes gs out →
      Released req.subdomain req.tenantId (claims gs) := by
    intro gs x hgs
    obtain ⟨rel, tail, u, rfl, hrel, hend⟩ := Prog.finishes_bind.mp hgs
    simp only [Prog.pure_def, Prog.finishes_ret] at hend
    obtain ⟨rfl, -⟩ := hend
    simpa using finishes_releaseReservations hrel
  simp only [createReserved, Prog.call_bind, Prog.finishes_ask] at h
  obtain ⟨created, fs, rfl, h⟩ := h
  rw [claims_cons, if_neg (by simp [Request.isClaim])]
  split at h
  · exact .released (hreleased h)
  · split at h
    · exact .released (hreleased h)
    · simp only [Prog.finishes_ask] at h
      obtain ⟨nowMs, gs, rfl, h⟩ := h
      rw [claims_cons, if_neg (by simp [Request.isClaim])]
      split at h
      · simp only [Prog.pure_def, Prog.finishes_ret] at h
        rw [h.1]
        exact .abandoned
      · obtain ⟨row, reply, rel, hsub, htid, heq, hrel⟩ := finishes_storeTenant h
        rw [heq]
        exact .stored hsub htid hrel

theorem finishes_reserveTenant (h : (reserveTenant tenantParent req).Finishes es out) :
    ∃ t rest, es = ⟨.now, t⟩ :: rest ∧ Claims req (t / 1000) (claims rest) := by
  simp only [reserveTenant, Prog.call_bind, Prog.finishes_ask] at h
  obtain ⟨t, _, rfl, reserved, rest, rfl, h⟩ := h
  refine ⟨t, _, rfl, ?_⟩
  rw [claims_cons, if_pos (by simp [Request.isClaim])]
  split at h
  · simp only [Prog.pure_def, Prog.finishes_ret] at h
    rw [h.1]
    exact .refused _
  · simp only [Prog.pure_def, Prog.finishes_ret] at h
    rw [h.1]
    exact .refused _
  · exact finishes_createReserved h _

/-- Without a record to look at, the clock is not even read. -/
theorem finishes_idempotencyLive {item : Option IdempotencyRecord} {live : Bool}
    (h : (idempotencyLive item).Finishes es live) :
    es = [] ∧ live = false ∨ ∃ nowMs, es = [⟨.now, nowMs⟩] ∧ ∃ record, item = some record := by
  unfold idempotencyLive at h
  split at h
  · obtain ⟨rfl, rfl⟩ := Prog.finishes_ret.mp h
    exact .inl ⟨rfl, rfl⟩
  · split at h
    · obtain ⟨rfl, rfl⟩ := Prog.finishes_ret.mp h
      exact .inl ⟨rfl, rfl⟩
    · simp only [Prog.call_bind, Prog.finishes_ask, Prog.pure_def, Prog.finishes_ret] at h
      obtain ⟨nowMs, _, rfl, rfl, -⟩ := h
      exact .inr ⟨nowMs, rfl, _, rfl⟩

/-- A call claims nothing, or reads the clock and goes on from there. -/
theorem finishes_createTenant (h : (createTenant tenantParent req).Finishes es out) :
    claims es = [] ∨ ∃ head t rest, es = head ++ ⟨.now, t⟩ :: rest ∧ claims head = [] ∧
      Claims req (t / 1000) (claims rest) := by
  simp only [createTenant, Prog.call_bind, Prog.finishes_ask] at h
  obtain ⟨existing, fs, rfl, h⟩ := h
  cases existing with
  | error e =>
      simp only [Prog.pure_def, Prog.finishes_ret] at h
      rw [h.1]
      exact .inl rfl
  | ok item =>
      obtain ⟨gs, hs, live, rfl, hlive, h⟩ := Prog.finishes_bind.mp h
      have hquiet : claims gs = [] := by
        rcases finishes_idempotencyLive hlive with ⟨rfl, -⟩ | ⟨nowMs, rfl, -⟩
        · rfl
        · rfl
      cases live with
      | true =>
          simp only [if_true, Prog.pure_def, Prog.finishes_ret] at h
          rw [h.1]
          exact .inl (by simp [claims_cons, Request.isClaim, hquiet])
      | false =>
          simp only [Bool.false_eq_true, if_false] at h
          obtain ⟨t, rest, rfl, hclaims⟩ := finishes_reserveTenant h
          exact .inr ⟨⟨.getIdempotency (compositeIdempotencyKey req), .ok item⟩ :: gs, t, rest,
            by simp, by simp [claims_cons, Request.isClaim, hquiet], hclaims⟩

end Runs

theorem idempotencyLive_uses {P : Request → Prop} (hnow : P .now)
    (item : Option IdempotencyRecord) : (idempotencyLive item).Uses P := by
  unfold idempotencyLive
  split
  · trivial
  · split
    · trivial
    · exact ⟨hnow, fun _ => trivial⟩

/-- The requests of the other two actions: none of them claims a name. -/
def Request.ofChange : Request → Prop
  | .now => True
  | .queryTenantId _ => True
  | .updateClientConfig _ _ _ => True
  | .deleteUserPoolClient _ => True
  | .deleteClientConfig _ => True
  | .listUsers _ => True
  | .adminUserGlobalSignOut _ => True
  | _ => False

theorem Request.ofChange.not_claim {op : Request} (h : op.ofChange) : op.isClaim = false := by
  cases op <;> first | rfl | cases h

theorem updateTenant_uses (req : UpdateTenantRequest) :
    (updateTenant req).Uses Request.ofChange := by
  simp only [updateTenant, Prog.call_bind, Prog.uses_ask]
  refine ⟨trivial, fun found => ?_⟩
  split
  · trivial
  · trivial
  · simp only [Prog.uses_ask]
    refine ⟨trivial, fun nowMs => ?_⟩
    split
    · trivial
    · simp only [Prog.uses_ask]
      refine ⟨trivial, fun updated => ?_⟩
      split <;> trivial

theorem signOutAll_uses {P : Request → Prop}
    (hout : ∀ username, P (.adminUserGlobalSignOut username)) (usernames : List (Option String)) :
    (signOutAll usernames).Uses P := by
  induction usernames with
  | nil => trivial
  | cons username rest ih =>
      unfold signOutAll
      split
      · exact ih
      · split
        · exact ih
        · exact ⟨hout _, fun _ => ih⟩

theorem revokeAllSessionsForClient_uses {P : Request → Prop}
    (hlist : ∀ token, P (.listUsers token))
    (hout : ∀ username, P (.adminUserGlobalSignOut username)) (pages : Nat)
    (token : Option String) : (revokeAllSessionsForClient pages token).Uses P := by
  induction pages generalizing token with
  | zero => trivial
  | succ pages ih =>
      simp only [revokeAllSessionsForClient, Prog.call_bind, Prog.uses_ask]
      refine ⟨hlist _, fun listed => ?_⟩
      split
      · trivial
      · refine (signOutAll_uses hout _).bind fun _ => ?_
        split
        · trivial
        · exact ih _

theorem deleteTenant_uses (pages : Nat) (req : DeleteTenantRequest) :
    (deleteTenant pages req).Uses Request.ofChange := by
  have hdelete : ∀ clientId, (deleteClientAndRow clientId).Uses Request.ofChange := by
    intro clientId
    simp only [deleteClientAndRow, Prog.call_bind, Prog.uses_ask]
    refine ⟨trivial, fun client => ?_⟩
    split
    · trivial
    · simp only [Prog.uses_ask]
      refine ⟨trivial, fun row => ?_⟩
      split <;> trivial
  simp only [deleteTenant, Prog.call_bind, Prog.uses_ask]
  refine ⟨trivial, fun found => ?_⟩
  split
  · trivial
  · trivial
  · split
    · have hrevoke := revokeAllSessionsForClient_uses (P := Request.ofChange)
        (fun _ => trivial) (fun _ => trivial) pages none
      refine hrevoke.bind fun revoked => ?_
      split
      · trivial
      · exact hdelete _
    · exact hdelete _

end SaasFoundation.Vestibulum.SharedDistribution
