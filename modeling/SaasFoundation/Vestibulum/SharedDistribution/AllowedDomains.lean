import SaasFoundation.Vestibulum.SharedDistribution.ClientConfigLoader

/-!
# Allowed domains, written and read

A string set of DynamoDB is not empty, so `createTenant` and `updateTenant`
write an empty list as `["__EMPTY__"]`. Four readers take it back:
`parseRow` behind the two loaders, `getTenant` and `listTenants`.
-/

namespace SaasFoundation.Vestibulum.SharedDistribution.AllowedDomains

open Lib
open ClientConfigLoader (LookupKey)
open Triggers (isTenantSubdomain isTenantId parseRow)

/-! ## What is accepted -/

def isLowerAlnum (c : Char) : Bool := decide ('a' ≤ c ∧ c ≤ 'z') || c.isDigit

/-- `[a-z0-9]([a-z0-9-]*[a-z0-9])?`. -/
def isDomainLabel (label : List Char) : Bool :=
  label.head?.any isLowerAlnum && label.all (fun c => isLowerAlnum c || c == '-') &&
    label.getLast?.any isLowerAlnum

/-- `EmailDomainSchema`: two labels or more. -/
def isEmailDomain (s : String) : Bool :=
  let labels := s.toList.splitOn '.'
  decide (2 ≤ labels.length) && labels.all isDomainLabel

/-! ## The read-only actions -/

inductive ReadRequest where
  /-- `Query` of `TenantIdIndex`, first item. -/
  | queryTenantId (tenantId : String)
  | scan (limit : Nat) (exclusiveStartKey : Option Json)

structure ScanPage where
  items : List ClientConfigRow
  lastEvaluatedKey : Option Json

abbrev ReadReply : ReadRequest → Type
  | .queryTenantId _ => Except AwsError (Option ClientConfigRow)
  | .scan _ _ => Except AwsError ScanPage

abbrev ReadHandler (α : Type) := Prog ReadRequest ReadReply α

/-- Make one request. -/
abbrev read (op : ReadRequest) : ReadHandler (ReadReply op) := Prog.call op

inductive ReadThrown where
  | tenantNotFoundError (message : String)
  | validation
  | aws (e : AwsError)

/-- The set with the mark of the empty list taken off. -/
def decodeDomains (domainsSS : List String) : List String :=
  if domainsSS = ["__EMPTY__"] then [] else domainsSS

/-- The row both actions make of an item. -/
def adminRow (item : ClientConfigRow) : Except ReadThrown ClientConfigRow :=
  if isTenantSubdomain item.subdomain && isTenantId item.tenantId then
    .ok { item with allowedEmailDomains := decodeDomains item.allowedEmailDomains }
  else .error .validation

def getTenant (tenantId : String) : ReadHandler (Except ReadThrown ClientConfigRow) := do
  let found : Except AwsError (Option ClientConfigRow) ← read (.queryTenantId tenantId)
  match found with
  | .error e => pure (.error (.aws e))
  | .ok none => pure (.error (.tenantNotFoundError ("Tenant not found: " ++ tenantId)))
  | .ok (some item) => pure (adminRow item)

structure ListTenantsRequest where
  cursor : Option String
  limit : Option Nat

structure ListTenantsResponse where
  items : List ClientConfigRow
  nextCursor : Option String

/-- `Buffer` and `JSON` on cursors; `none` is a text that cannot be parsed. -/
structure Cursors where
  decode : String → Option Json
  encode : Json → String

def listTenants (cursors : Cursors) (req : ListTenantsRequest) :
    ReadHandler (Except ReadThrown ListTenantsResponse) := do
  let exclusiveStartKey :=
    match req.cursor with
    | none | some "" => none
    | some cursor => cursors.decode cursor
  let scanned : Except AwsError ScanPage ← read (.scan (req.limit.getD 20) exclusiveStartKey)
  match scanned with
  | .error e => pure (.error (.aws e))
  | .ok page =>
      match page.items.mapM adminRow with
      | .error e => pure (.error e)
      | .ok items => pure (.ok ⟨items, page.lastEvaluatedKey.map cursors.encode⟩)

/-! ## Writers and readers -/

/-- A call for these domains has stored this set. -/
inductive Stores (domains stored : List String) : Prop
  | created {tenantParent : String} {req : CreateTenantRequest}
      {es : List (Event Request Reply)} {out : Except Thrown CreateTenantResponse}
      {row : ClientConfigRow} :
      req.allowedEmailDomains = domains → (createTenant tenantParent req).Finishes es out →
      ⟨.putClientConfig row, .ok ()⟩ ∈ es → row.allowedEmailDomains = stored →
      Stores domains stored
  | updated {req : UpdateTenantRequest} {es : List (Event Request Reply)}
      {out : Except Thrown UpdateTenantResponse} {clientId updatedAt : String} :
      req.allowedEmailDomains = domains → (updateTenant req).Finishes es out →
      ⟨.updateClientConfig clientId stored updatedAt, .ok ()⟩ ∈ es → Stores domains stored

inductive Reader where
  | loadClientConfigByClientId
  | loadClientConfigBySubdomain
  | getTenant
  | listTenants

/-- The reader, given the item, returns the row. -/
def Reader.Yields (item row : ClientConfigRow) : Reader → Prop
  | .loadClientConfigByClientId =>
      (LookupKey.byClientId item.clientId).loaded (.ok (some item)) = .ok (some row)
  | .loadClientConfigBySubdomain =>
      (LookupKey.bySubdomain item.subdomain).loaded (.ok (some item)) = .ok (some row)
  | .getTenant => ∃ tenantId,
      (AllowedDomains.getTenant tenantId).Finishes [⟨.queryTenantId tenantId, .ok (some item)⟩]
        (.ok row)
  | .listTenants => ∃ cursors req limit key page out, ∃ i : Nat,
      (AllowedDomains.listTenants cursors req).Finishes [⟨.scan limit key, .ok page⟩] (.ok out) ∧
        page.items[i]? = some item ∧ out.items[i]? = some row

/-- The reader returns rows of the item, and each with these domains. -/
def Reader.RoundTrips (item : ClientConfigRow) (domains : List String) (reader : Reader) : Prop :=
  (∃ row, reader.Yields item row) ∧
    ∀ row, reader.Yields item row → ∀ d, d ∈ row.allowedEmailDomains ↔ d ∈ domains

/-! ## What is stored -/

section Stored

variable {domains stored : List String}

/-- The sets an action writes. -/
def Request.Writes (domains : List String) : Request → Prop
  | .putClientConfig row => row.allowedEmailDomains = domainSet domains
  | .updateClientConfig _ stored _ => stored = domainSet domains
  | _ => True

theorem releaseReservations_writes (subdomain tenantId : String) :
    (releaseReservations subdomain tenantId).Uses (Request.Writes domains) :=
  ⟨trivial, fun _ => ⟨trivial, fun _ => ⟨trivial, fun _ => trivial⟩⟩⟩

theorem storeTenant_writes (tenantParent : String) (req : CreateTenantRequest)
    (clientId createdAt : String) : (storeTenant tenantParent req clientId createdAt).Uses
      (Request.Writes req.allowedEmailDomains) := by
  refine ⟨rfl, ?_⟩
  intro put
  cases put with
  | error e =>
      refine ⟨trivial, fun _ => ?_⟩
      exact (releaseReservations_writes _ _).bind fun _ => trivial
  | ok _ =>
      refine ⟨trivial, fun _ => ⟨trivial, fun _ => ?_⟩⟩
      exact (releaseReservations_writes _ _).bind fun _ => trivial

theorem createReserved_writes (tenantParent : String) (req : CreateTenantRequest) :
    (createReserved tenantParent req).Uses (Request.Writes req.allowedEmailDomains) := by
  simp only [createReserved, Prog.call_bind, Prog.uses_ask]
  refine ⟨trivial, fun created => ?_⟩
  split
  · exact (releaseReservations_writes _ _).bind fun _ => trivial
  · split
    · exact (releaseReservations_writes _ _).bind fun _ => trivial
    · simp only [Prog.uses_ask]
      refine ⟨trivial, fun nowMs => ?_⟩
      split
      · trivial
      · exact storeTenant_writes _ _ _ _

theorem createTenant_writes (tenantParent : String) (req : CreateTenantRequest) :
    (createTenant tenantParent req).Uses (Request.Writes req.allowedEmailDomains) := by
  simp only [createTenant, Prog.call_bind, Prog.uses_ask]
  refine ⟨trivial, fun existing => ?_⟩
  split
  · trivial
  · refine (idempotencyLive_uses trivial _).bind fun live => ?_
    split
    · trivial
    · simp only [reserveTenant, Prog.call_bind, Prog.uses_ask]
      refine ⟨trivial, fun nowMs => ⟨trivial, fun reserved => ?_⟩⟩
      split
      · trivial
      · trivial
      · exact createReserved_writes _ _

theorem updateTenant_writes (req : UpdateTenantRequest) :
    (updateTenant req).Uses (Request.Writes req.allowedEmailDomains) := by
  simp only [updateTenant, Prog.call_bind, Prog.uses_ask]
  refine ⟨trivial, fun found => ?_⟩
  split
  · trivial
  · trivial
  · simp only [Prog.uses_ask]
    refine ⟨trivial, fun nowMs => ?_⟩
    split
    · trivial
    · simp only [Prog.uses_ask]
      refine ⟨rfl, fun updated => ?_⟩
      split <;> trivial

theorem Stores.domainSet (h : Stores domains stored) : stored = domainSet domains := by
  cases h with
  | created hreq hrun hput hrow =>
      rw [← hrow, ← hreq]
      exact (createTenant_writes _ _).finishes hrun _ hput
  | updated hreq hrun hupdate =>
      rw [← hreq]
      exact (updateTenant_writes _).finishes hrun _ hupdate

end Stored

/-! ## What is read -/

variable {item row : ClientConfigRow} {domains stored : List String}

/-- The two loaders return the stored set. -/
theorem parseRow_domains {clientId : String} (h : parseRow clientId item = .ok row) :
    row.allowedEmailDomains = item.allowedEmailDomains := by
  unfold parseRow at h
  split at h
  · cases h
    rfl
  · cases h

theorem adminRow_domains (h : adminRow item = .ok row) :
    row.allowedEmailDomains = decodeDomains item.allowedEmailDomains := by
  unfold adminRow at h
  split at h
  · cases h
    rfl
  · cases h

theorem mapM_getElem? {items rows : List ClientConfigRow} (h : items.mapM adminRow = .ok rows)
    {i : Nat} (hitem : items[i]? = some item) (hrow : rows[i]? = some row) :
    adminRow item = .ok row := by
  induction items generalizing rows i with
  | nil => simp at hitem
  | cons first items ih =>
      rw [List.mapM_cons] at h
      cases hfirst : adminRow first with
      | error e =>
          rw [hfirst] at h
          cases h
      | ok firstRow =>
          cases hrest : items.mapM adminRow with
          | error e =>
              rw [hfirst, hrest] at h
              cases h
          | ok rest =>
              rw [hfirst, hrest] at h
              cases h
              cases i with
              | zero =>
                  simp only [List.getElem?_cons_zero, Option.some.injEq] at hitem hrow
                  rw [← hitem, ← hrow, hfirst]
              | succ i => exact ih hrest hitem hrow

/-- The admin actions return the row without the mark. -/
theorem getTenant_row {tenantId : String}
    (h : (getTenant tenantId).Finishes [⟨.queryTenantId tenantId, .ok (some item)⟩] (.ok row)) :
    adminRow item = .ok row := by
  simp only [getTenant, Prog.call_bind, Prog.finishes_ask] at h
  obtain ⟨found, fs, hes, h⟩ := h
  cases hes
  simp only [Prog.pure_def, Prog.finishes_ret] at h
  exact h.2

theorem listTenants_row {cursors : Cursors} {req : ListTenantsRequest} {limit : Nat}
    {key : Option Json} {page : ScanPage} {out : ListTenantsResponse}
    (h : (listTenants cursors req).Finishes [⟨.scan limit key, .ok page⟩] (.ok out)) :
    page.items.mapM adminRow = .ok out.items := by
  simp only [listTenants, Prog.call_bind, Prog.finishes_ask] at h
  obtain ⟨scanned, fs, hes, h⟩ := h
  cases hes
  split at h
  · rename_i heq
    cases heq
  · rename_i heq
    cases heq
    cases hrows : page.items.mapM adminRow with
    | error e =>
        rw [hrows] at h
        simp only [Prog.pure_def, Prog.finishes_ret] at h
        cases h.2
    | ok items =>
        rw [hrows] at h
        simp only [Prog.pure_def, Prog.finishes_ret] at h
        cases h.2
        rfl

theorem loaded_row {key : LookupKey} (h : key.loaded (.ok (some item)) = .ok (some row)) :
    row.allowedEmailDomains = item.allowedEmailDomains := by
  have hparse : key.parse item = .ok row := by
    cases hkey : key.parse item with
    | error e => simp [LookupKey.loaded, hkey, Except.map] at h
    | ok parsed =>
        simp only [LookupKey.loaded, hkey, Except.map, Except.ok.injEq, Option.some.injEq] at h
        rw [h]
  cases key with
  | byClientId clientId | bySubdomain subdomain => exact parseRow_domains hparse

/-- A row comes with the stored set or with the decoded one. -/
theorem yields_domains {reader : Reader} (h : reader.Yields item row) :
    row.allowedEmailDomains = item.allowedEmailDomains ∨
      row.allowedEmailDomains = decodeDomains item.allowedEmailDomains := by
  cases reader with
  | loadClientConfigByClientId | loadClientConfigBySubdomain => exact .inl (loaded_row h)
  | getTenant =>
      obtain ⟨tenantId, hrun⟩ := h
      exact .inr (adminRow_domains (getTenant_row hrun))
  | listTenants =>
      obtain ⟨cursors, req, limit, key, page, out, i, hrun, hitem, hrow⟩ := h
      exact .inr (adminRow_domains (mapM_getElem? (listTenants_row hrun) hitem hrow))

/-- Every reader returns a row of an item that `createTenant` can write. -/
theorem exists_yields (hsub : isTenantSubdomain item.subdomain = true)
    (htid : isTenantId item.tenantId = true) (reader : Reader) :
    ∃ row, reader.Yields item row := by
  obtain ⟨row, hadmin⟩ : ∃ row, adminRow item = .ok row := by
    rw [adminRow, hsub, htid]
    exact ⟨_, rfl⟩
  cases reader with
  | loadClientConfigByClientId | loadClientConfigBySubdomain =>
      refine ⟨item, ?_⟩
      simp [Reader.Yields, LookupKey.loaded, LookupKey.parse, parseRow, hsub, htid, Except.map]
  | getTenant =>
      refine ⟨row, item.tenantId, ?_⟩
      simp only [getTenant, Prog.call_bind, Prog.finishes_ask]
      refine ⟨_, [], rfl, ?_⟩
      exact Prog.finishes_ret.mpr ⟨rfl, hadmin⟩
  | listTenants =>
      refine ⟨row, ⟨fun _ => none, fun _ => ""⟩, ⟨none, none⟩, 20, none, ⟨[item], none⟩,
        ⟨[row], none⟩, 0, ?_, rfl, rfl⟩
      simp only [listTenants, Prog.call_bind, Prog.finishes_ask]
      refine ⟨_, [], rfl, ?_⟩
      simp only [List.mapM_cons, List.mapM_nil, hadmin]
      rfl

/-- The mark is no domain. -/
theorem mark_not_mem (hvalid : ∀ d ∈ domains, isEmailDomain d = true) :
    "__EMPTY__" ∉ domains := by
  intro hmem
  have := hvalid _ hmem
  revert this
  decide

/-- All readers return the domains that were written exactly when there are
any: the loaders leave the mark of the empty list in. -/
theorem round_trip (hvalid : ∀ d ∈ domains, isEmailDomain d = true) (hstores : Stores domains stored)
    (hitem : item.allowedEmailDomains.Perm stored)
    (hsub : isTenantSubdomain item.subdomain = true) (htid : isTenantId item.tenantId = true) :
    (∀ reader : Reader, reader.RoundTrips item domains) ↔ domains ≠ [] := by
  rw [hstores.domainSet] at hitem
  constructor
  · rintro hall rfl
    have hmark : item.allowedEmailDomains = ["__EMPTY__"] := List.perm_singleton.mp hitem
    obtain ⟨⟨row, hyields⟩, hsame⟩ := hall .loadClientConfigByClientId
    have hrow : "__EMPTY__" ∈ row.allowedEmailDomains := by
      rw [loaded_row hyields, hmark]
      exact List.mem_cons_self
    exact absurd ((hsame row hyields _).mp hrow) List.not_mem_nil
  · intro hne reader
    have hset : domainSet domains = domains := by
      unfold domainSet
      rw [if_neg (by simpa using hne)]
    rw [hset] at hitem
    -- the decoders see no mark
    have hdecode : decodeDomains item.allowedEmailDomains = item.allowedEmailDomains := by
      unfold decodeDomains
      rw [if_neg]
      intro hmark
      refine mark_not_mem hvalid (hitem.mem_iff.mp ?_)
      rw [hmark]
      exact List.mem_cons_self
    refine ⟨exists_yields hsub htid reader, ?_⟩
    intro row hyields d
    have hrow := yields_domains hyields
    rw [hdecode, or_self] at hrow
    rw [hrow]
    exact hitem.mem_iff

/-! ## An update to no domains -/

namespace Small

def acme (allowedEmailDomains : List String) : ClientConfigRow :=
  ⟨"client-1", "acme", "tenant-1", "https://acme.example.com", allowedEmailDomains,
    "1970-01-01T00:00:00.000Z", none⟩

/-- An outside in which everything succeeds. -/
def outside : (op : Request) → Reply op
  | .now => (0 : Int)
  | .concurrentOrder => true
  | .getIdempotency _ => .ok none
  | .reserve _ => .ok ()
  | .createUserPoolClient _ => .ok (some "client-1")
  | .deleteUserPoolClient _ => .ok ()
  | .putClientConfig _ => .ok ()
  | .putIdempotency _ _ => .ok ()
  | .deleteReservation _ => .ok ()
  | .queryTenantId _ => .ok (some (acme []))
  | .updateClientConfig _ _ _ => .ok ()
  | .deleteClientConfig _ => .ok ()
  | .listUsers _ => .ok ⟨[], none⟩
  | .adminUserGlobalSignOut _ => .ok ()

theorem stores (domains : List String) : Stores domains (domainSet domains) := by
  have hrun := Prog.play_finishes outside (updateTenant ⟨"tenant-1", domains⟩)
  have hupdate : ⟨.updateClientConfig "client-1" (domainSet domains) "1970-01-01T00:00:00.000Z",
      .ok ()⟩ ∈ ((updateTenant ⟨"tenant-1", domains⟩).play outside).1 :=
    List.mem_cons_of_mem _ (List.mem_cons_of_mem _ List.mem_cons_self)
  exact .updated rfl hrun hupdate

theorem round_trip_example :
    Reader.loadClientConfigByClientId.RoundTrips (acme ["b.example", "a.example"])
        ["a.example", "b.example"] ∧
      Reader.loadClientConfigBySubdomain.RoundTrips (acme ["b.example", "a.example"])
        ["a.example", "b.example"] ∧
      Reader.getTenant.RoundTrips (acme ["b.example", "a.example"]) ["a.example", "b.example"] ∧
      Reader.listTenants.RoundTrips (acme ["b.example", "a.example"]) ["a.example", "b.example"] := by
  have hread : ∀ reader : Reader,
      reader.RoundTrips (acme ["b.example", "a.example"]) ["a.example", "b.example"] :=
    (round_trip (by decide) (stores _) (List.Perm.swap _ _ _) (by decide) (by decide)).mpr
      (List.cons_ne_nil _ _)
  exact ⟨hread _, hread _, hread _, hread _⟩

theorem mark_read : ¬ ∀ (domains stored : List String) (item : ClientConfigRow),
    (∀ d ∈ domains, isEmailDomain d = true) → Stores domains stored →
      item.allowedEmailDomains.Perm stored → isTenantSubdomain item.subdomain = true →
        isTenantId item.tenantId = true → ∀ reader : Reader, reader.RoundTrips item domains := by
  intro hall
  obtain ⟨⟨row, hyields⟩, hsame⟩ := hall [] _ (acme ["__EMPTY__"]) (by simp) (stores [])
    (List.Perm.refl _) (by decide) (by decide) .loadClientConfigBySubdomain
  have hrow : "__EMPTY__" ∈ row.allowedEmailDomains := by
    rw [loaded_row hyields]
    exact List.mem_cons_self
  exact absurd ((hsame row hyields _).mp hrow) List.not_mem_nil

end Small

end SaasFoundation.Vestibulum.SharedDistribution.AllowedDomains
