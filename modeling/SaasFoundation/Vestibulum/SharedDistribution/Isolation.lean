import SaasFoundation.Vestibulum.SharedDistribution.PassThrough
import SaasFoundation.Vestibulum.SharedDistribution.TokenClaims
import SaasFoundation.Vestibulum.SharedDistribution.Uniqueness

/-!
# Tenant isolation, from the registry to the edge

The registry keeps a subdomain and a tenant id for each tenant. The token
trigger writes the tenant id into the token; the edge compares it with the
label of the host, which is a subdomain. Where the two are one string, or
the tenant id can be no label, a token passes on its own tenant's host
only. Nothing makes them one string: a tenant whose id is another tenant's
subdomain gets tokens for that tenant's host.
-/

namespace SaasFoundation.Vestibulum.SharedDistribution

open Lib

section Rows

variable {tenantParent : String} {c : TenantConfig}

/-- What a call of `createTenant` asks for: it never changes a row, and
the row it stores has the names of the request. -/
def Request.ofCreate (req : CreateTenantRequest) : Request → Prop
  | .putClientConfig row => row.subdomain = req.subdomain ∧ row.tenantId = req.tenantId
  | _ => True

theorem releaseReservations_uses (req : CreateTenantRequest) (subdomain tenantId : String) :
    (releaseReservations subdomain tenantId).Uses (Request.ofCreate req) := by
  simp only [releaseReservations, Prog.call_bind, Prog.uses_ask]
  exact ⟨trivial, fun _ => ⟨trivial, fun _ => ⟨trivial, fun _ => trivial⟩⟩⟩

theorem storeTenant_uses (req : CreateTenantRequest) (clientId createdAt : String) :
    (storeTenant tenantParent req clientId createdAt).Uses (Request.ofCreate req) := by
  have hrelease : ∀ {x : Except Thrown CreateTenantResponse},
      (do releaseReservations req.subdomain req.tenantId; pure x :
        Handler (Except Thrown CreateTenantResponse)).Uses (Request.ofCreate req) :=
    (releaseReservations_uses req _ _).bind fun _ => trivial
  simp only [storeTenant, Prog.call_bind, Prog.uses_ask]
  refine ⟨⟨rfl, rfl⟩, fun stored => ?_⟩
  cases stored with
  | error e => exact ⟨trivial, fun _ => hrelease⟩
  | ok u => exact ⟨trivial, fun _ => ⟨trivial, fun _ => hrelease⟩⟩

theorem createReserved_uses (req : CreateTenantRequest) :
    (createReserved tenantParent req).Uses (Request.ofCreate req) := by
  simp only [createReserved, Prog.call_bind, Prog.uses_ask]
  refine ⟨trivial, fun created => ?_⟩
  split
  · exact (releaseReservations_uses req _ _).bind fun _ => trivial
  · split
    · exact (releaseReservations_uses req _ _).bind fun _ => trivial
    · simp only [Prog.uses_ask]
      refine ⟨trivial, fun nowMs => ?_⟩
      split
      · trivial
      · exact storeTenant_uses req _ _

theorem createTenant_uses (req : CreateTenantRequest) :
    (createTenant tenantParent req).Uses (Request.ofCreate req) := by
  simp only [createTenant, Prog.call_bind, Prog.uses_ask]
  refine ⟨trivial, fun existing => ?_⟩
  split
  · trivial
  · refine (idempotencyLive_uses trivial _).bind fun live => ?_
    split
    · trivial
    · simp only [reserveTenant, Prog.call_bind, Prog.uses_ask]
      refine ⟨trivial, fun nowMs => ⟨trivial, fun reserved => ?_⟩⟩
      split
      · trivial
      · trivial
      · exact createReserved_uses req

/-- Who may store a row, and with which names. -/
def Stores (job : Job) (_ : List (Event Request Reply)) (op : Request) : Prop :=
  ∀ row, op = .putClientConfig row →
    ∃ req, job = .createTenant req ∧ row.subdomain = req.subdomain ∧ row.tenantId = req.tenantId

theorem start_stores (job : Job) : Prog.Asks (Stores job) [] (start tenantParent job) := by
  cases job with
  | createTenant req =>
      have huses : (start tenantParent (.createTenant req)).Uses (Request.ofCreate req) :=
        (createTenant_uses req).bind fun _ => trivial
      refine huses.asks ?_
      rintro past op hop row rfl
      exact ⟨req, rfl, hop⟩
  | updateTenant req =>
      have huses : (start tenantParent (.updateTenant req)).Uses Request.ofChange :=
        (updateTenant_uses req).bind fun _ => trivial
      refine huses.asks ?_
      rintro past op hop row rfl
      cases hop
  | deleteTenant pages req =>
      have huses : (start tenantParent (.deleteTenant pages req)).Uses Request.ofChange :=
        (deleteTenant_uses pages req).bind fun _ => trivial
      refine huses.asks ?_
      rintro past op hop row rfl
      cases hop

/-- A row with these names was stored in the run. -/
def StoredNames (log : List (Entry Request Reply World)) (row : ClientConfigRow) : Prop :=
  ∃ e ∈ log, ∃ stored, e.ev.op = .putClientConfig stored ∧ stored.subdomain = row.subdomain ∧
    stored.tenantId = row.tenantId

theorem configs_storedNames (h : (tenantAdmin tenantParent).Reachable c) :
    ∀ id row, c.world.configs id = some row → StoredNames c.log row := by
  induction h with
  | init hw =>
      intro id row hrow
      rw [hw.1] at hrow
      cases hrow
  | @step c d hc hs ih =>
      cases hs with
      | spawn _ => exact ih
      | @request i job op k r w hi hserve =>
          have hkept : NamesKept c.world.configs w.configs → ∀ id row, w.configs id = some row →
              StoredNames (c.log ++ [⟨i, c.world, ⟨op, r⟩, w⟩]) row := by
            intro hnames id row hrow
            obtain ⟨old, hold, hsub, htid⟩ := hnames id row hrow
            obtain ⟨e, he, stored, hop, hsub', htid'⟩ := ih id old hold
            exact ⟨e, List.mem_append_left _ he, stored, hop, hsub'.trans hsub, htid'.trans htid⟩
          cases serve_change hserve with
          | @putConfig row' hfree =>
              intro id row hrow
              rcases Table.put_some hrow with ⟨-, rfl⟩ | ⟨-, hrow⟩
              · exact ⟨_, List.mem_append_right _ List.mem_cons_self, row, rfl, rfl, rfl⟩
              · obtain ⟨e, he, stored, hstored⟩ := ih id row hrow
                exact ⟨e, List.mem_append_left _ he, stored, hstored⟩
          | updateConfig => exact hkept (.updated _ _ _ _)
          | deleteConfig => exact hkept (.erase _ _)
          | _ => exact hkept (.refl _)
      | drift hd =>
          obtain ⟨m, hm⟩ := hd
          intro id row hrow
          apply ih id row
          rcases move_cases hm with ⟨_, _, rfl⟩ | ⟨_, _, _, _, rfl⟩ | ⟨_, rfl⟩ <;> exact hrow

/-- Every row has the names some call asked for. -/
theorem row_requested (h : (tenantAdmin tenantParent).Reachable c) {id : String}
    {row : ClientConfigRow} (hrow : c.world.configs id = some row) :
    ∃ t ∈ c.threads, ∃ req, t.job = .createTenant req ∧ row.subdomain = req.subdomain ∧
      row.tenantId = req.tenantId := by
  obtain ⟨e, he, stored, hop, hsub, htid⟩ := configs_storedNames h id row hrow
  obtain ⟨l₁, l₂, hlog⟩ := List.append_of_mem he
  obtain ⟨t, ht, hstores⟩ := h.asked start_stores l₁ e l₂ hlog
  obtain ⟨req, hjob, hsub', htid'⟩ := hstores stored hop
  exact ⟨t, List.mem_of_getElem? ht, req, hjob, hsub.symm.trans hsub', htid.symm.trans htid'⟩

end Rows

/-! ## From the row to the host -/

open Edge in
/-- Labels come in one shape. -/
theorem label_shape {rt : Runtime} {cfg : EdgeConfig} {host label : String}
    (h : extractTenantSubdomain rt cfg host = some label) :
    defaultTenantPattern label.toList = true ∧ cfg.tenantPattern label.toList = true := by
  simp only [extractTenantSubdomain, Option.bind_eq_bind, Option.bind_eq_some_iff] at h
  obtain ⟨candidate, hshared, hlabel⟩ := h
  have hdefault : defaultTenantPattern candidate = true := by
    simp only [extractTenantSubdomainShared] at hshared
    split at hshared
    · cases hshared
    · split at hshared
      · cases hshared
      · split at hshared
        · cases hshared
        · split at hshared
          · cases hshared
          · split at hshared
            · rename_i hpattern
              cases hshared
              exact hpattern
            · cases hshared
  split at hlabel
  · rename_i hpattern
    cases hlabel
    rw [String.toList_ofList]
    exact ⟨hdefault, hpattern⟩
  · cases hlabel

/-- An ID token minted for the row's app client: Cognito handed the wrapped
handler a V1 event, the loader the row's tenant, and the token carries what
came back. -/
def MintedFor (lib : Edge.JwtLibrary) (row : ClientConfigRow) (token : String) : Prop :=
  ∃ (inner : Triggers.Inner) (event result : Triggers.PreTokenEvent) (base : Record)
    (loaded : ClientConfigRow) (header : Edge.JwtHeader) (payload : Json),
    event.version = .v1 ∧ event.clientId = row.clientId ∧ loaded.tenantId = row.tenantId ∧
    Triggers.wrapLoaded inner (.ok (some loaded)) event = .ok result ∧
    lib.decomposeUnverifiedJwt token = .ok ⟨header, payload⟩ ∧
    ∀ name value, (Triggers.mintIdToken event.version base result).lookup name = some value →
      payload.get name = some (.str value)

/-- The wrapper's contract, read off the payload. -/
theorem MintedFor.tenantId {lib : Edge.JwtLibrary} {row : ClientConfigRow} {token : String}
    (h : MintedFor lib row token) : ∃ header payload,
      lib.decomposeUnverifiedJwt token = .ok ⟨header, payload⟩ ∧
      payload.get Triggers.tenantIdClaim = some (.str row.tenantId) := by
  obtain ⟨inner, event, result, base, loaded, header, payload, hversion, -, htid, hwrap, hdec,
    hcarries⟩ := h
  refine ⟨header, payload, hdec, hcarries _ _ ?_⟩
  obtain ⟨row', heq, hcheck⟩ := Triggers.wrapLoaded_ok hwrap
  cases heq
  rw [hversion, ← htid]
  exact Triggers.mintIdToken_v1 base hcheck

/-- Every call asks for one string as both names, or for a tenant id that
is no label. -/
def NamesAgree (cfg : Edge.EdgeConfig) (c : TenantConfig) : Prop :=
  ∀ t ∈ c.threads, ∀ req, t.job = .createTenant req →
    req.tenantId = req.subdomain ∨ Edge.defaultTenantPattern req.tenantId.toList = false ∨
      cfg.tenantPattern req.tenantId.toList = false

/-- In every run whose calls ask for names that agree, a tenant's tokens
pass on the tenant's own host only. -/
theorem tenant_isolation {tenantParent : String} {c : TenantConfig} {rt : Runtime}
    {cfg : Edge.EdgeConfig} {lib : Edge.JwtLibrary} {Signed : String → Json → Prop}
    (h : (tenantAdmin tenantParent).Reachable c) (hagree : NamesAgree cfg c)
    (hlib : lib.Documented Signed) {row : ClientConfigRow} {token : String}
    (hrow : c.world.configs row.clientId = some row) (hmint : MintedFor lib row token)
    {cache : Edge.JwksCache} {outside : Edge.Outside} {event : Edge.CloudFrontRequestEvent}
    {req : Edge.CloudFrontRequest}
    (hpass : (Edge.handler rt cfg lib cache outside event).2.result = .request req)
    (hcookie : Edge.extractTokenFromCookies (req.header "cookie") = some token) :
    Edge.hostLabel rt cfg req = some row.subdomain := by
  obtain ⟨keys, label, token', hadm⟩ := Edge.admitted_of_request hlib hpass
  have htoken : token' = token := by
    rw [hadm.cookie] at hcookie
    exact Option.some.inj hcookie
  subst htoken
  have hlabel : label = row.tenantId := by
    obtain ⟨header, payload, hdec, htenant⟩ := hmint.tenantId
    obtain ⟨header', -, payload', -, -, hdec', -, -, -, -, -, -, -, -, hclaims⟩ := hadm.verified
    rw [hdec] at hdec'
    cases hdec'
    have heq := hclaims.tenantId.symm.trans htenant
    exact Json.str.inj (Option.some.inj heq)
  rw [hadm.hostLabel, hlabel]
  obtain ⟨host, -, hextract⟩ := hadm.host
  obtain ⟨hdefault, hpattern⟩ := label_shape hextract
  rw [hlabel] at hdefault hpattern
  -- the label is the tenant id, so the tenant id is a label
  obtain ⟨t, ht, create, hjob, hsub, htid⟩ := row_requested h hrow
  rw [htid] at hdefault hpattern
  rcases hagree t ht create hjob with heq | hshape | hshape
  · rw [htid, heq, hsub]
  · rw [hdefault] at hshape
    cases hshape
  · rw [hpattern] at hshape
    cases hshape

/-! ## Two tenants -/

namespace Small

/-- The payload of an ID token: its string claims and its expiry. -/
def payload (claims : Record) (exp : Rat) : Json :=
  .obj (claims.map (fun p => (p.1, .str p.2)) ++ [("exp", .num exp)])

theorem payload_get {claims : Record} {exp : Rat} {name value : String}
    (h : claims.lookup name = some value) : (payload claims exp).get name = some (.str value) := by
  have hmap : ∀ record : Record, (record.map fun p => (p.1, Json.str p.2)).lookup name =
      (record.lookup name).map Json.str := by
    intro record
    induction record with
    | nil => rfl
    | cons p rest ih =>
        rw [List.map_cons, List.lookup_cons, List.lookup_cons, ih]
        by_cases hp : (name == p.1) = true
        · simp [hp]
        · simp [Bool.not_eq_true _ ▸ hp]
  show List.lookup name _ = _
  rw [List.lookup_append, hmap, h]
  rfl

/-- A sign-in through the first app client. -/
def preTokenEvent : Triggers.PreTokenEvent :=
  ⟨.v1, "user-1", "client-1", [("email", "ann@example.com")], none⟩

/-- What Cognito puts into an ID token by itself. -/
def baseClaims : Record :=
  [("iss", Edge.Small.cfg.poolIssuer), ("token_use", "id"), ("aud", "client-1")]

/-- The claims of a token of the tenant `tenantId`. -/
def tokenClaims (tenantId : String) : Record :=
  Triggers.mintIdToken .v1 baseClaims (Triggers.presetTenantId preTokenEvent tenantId)

/-- The one token there is, for the tenant `tenantId`. -/
def tokens (tenantId : String) : List (String × Edge.DecomposedJwt) :=
  [("jwt-1", ⟨⟨some "RS256", some "key-1"⟩, payload (tokenClaims tenantId) 1700000600⟩)]

theorem minted {row : ClientConfigRow} {tenantId : String} (hclient : row.clientId = "client-1")
    (htid : row.tenantId = tenantId) :
    MintedFor (.tabulated (tokens tenantId)) row "jwt-1" := by
  refine ⟨Triggers.preTokenGeneration, preTokenEvent,
    Triggers.presetTenantId preTokenEvent tenantId, baseClaims,
    { Triggers.Small.acmeRow with tenantId := tenantId }, ⟨some "RS256", some "key-1"⟩,
    payload (tokenClaims tenantId) 1700000600, rfl, hclient.symm, htid.symm, ?_, rfl, ?_⟩
  · simp [Triggers.wrapLoaded, Triggers.preTokenGeneration, Triggers.checkTenantId,
      Triggers.presetTenantId, preTokenEvent, Triggers.PreTokenEvent.overrideDetails,
      Triggers.setField]
  · intro name value h
    exact payload_get h

/-- The answer of the edge to the token on a host. -/
def answer (tenantId host : String) : Edge.Answer :=
  (Edge.handler Edge.Small.rt Edge.Small.cfg (.tabulated (tokens tenantId)) .empty
    (Edge.Small.outside 1700000000000) ⟨[Edge.Small.request host]⟩).2

/-- One call after another, each for its own app client. -/
def createAll (tenants : List (String × String)) : Schedule :=
  (tenants.zipIdx 1).flatMap fun (names, n) =>
    [.spawn (.createTenant (createRequest names.1 names.2 ("key-000" ++ toString n)))] ++
      answers (n - 1) 11 ("client-" ++ toString n)

/-- The row of the first app client. -/
def firstRow (c : TenantConfig) : Option (String × String × String) :=
  (c.world.configs "client-1").map fun row => (row.clientId, row.subdomain, row.tenantId)

theorem firstRow_eq {c : TenantConfig} {subdomain tenantId : String}
    (h : firstRow c = some ("client-1", subdomain, tenantId)) :
    ∃ row, c.world.configs row.clientId = some row ∧ row.clientId = "client-1" ∧
      row.subdomain = subdomain ∧ row.tenantId = tenantId := by
  obtain ⟨row, hrow, hnames⟩ := Option.map_eq_some_iff.mp h
  simp only [Prod.mk.injEq] at hnames
  obtain ⟨hclient, hsub, htid⟩ := hnames
  exact ⟨row, by rw [hclient, hrow], hclient, hsub, htid⟩

/-- The names the calls of a run ask for. -/
def requestedNames (c : TenantConfig) : List (String × String) :=
  c.threads.filterMap fun t => match t.job with
    | .createTenant req => some (req.subdomain, req.tenantId)
    | _ => none

theorem namesAgree_of {cfg : Edge.EdgeConfig} {c : TenantConfig} {names : List (String × String)}
    (h : requestedNames c = names)
    (hnames : ∀ p ∈ names, p.2 = p.1 ∨ Edge.defaultTenantPattern p.2.toList = false) :
    NamesAgree cfg c := by
  intro t ht req hjob
  have hmem : (req.subdomain, req.tenantId) ∈ names := by
    rw [← h]
    exact List.mem_filterMap.mpr ⟨t, ht, by rw [hjob]⟩
  rcases hnames _ hmem with heq | hshape
  · exact .inl heq
  · exact .inr (.inl hshape)

end Small

theorem tenant_isolation_two : ∃ c, (tenantAdmin Small.tenantParent).Reachable c ∧
    (Small.answer "acme" "acme.tenants.example.com").result =
      .request (Edge.Small.request "acme.tenants.example.com") ∧
    Edge.hostLabel Edge.Small.rt Edge.Small.cfg (Edge.Small.request "acme.tenants.example.com") =
      some "acme" := by
  obtain ⟨c, hc, hend⟩ := (interpreter Small.tenantParent).exists_reachable Small.world_init
    (Small.createAll [("acme", "acme"), ("beta", "b_2")])
    (fun c => Small.firstRow c == some ("client-1", "acme", "acme") &&
      Small.requestedNames c == [("acme", "acme"), ("beta", "b_2")]) (by decide +kernel)
  simp only [Bool.and_eq_true, beq_iff_eq] at hend
  obtain ⟨row, hrow, hclient, hsub, htid⟩ := Small.firstRow_eq hend.1
  have hpass : (Small.answer "acme" "acme.tenants.example.com").result =
      .request (Edge.Small.request "acme.tenants.example.com") := by decide +kernel
  refine ⟨c, hc, hpass, ?_⟩
  rw [← hsub]
  exact tenant_isolation hc (Small.namesAgree_of hend.2 (by decide))
    (Edge.tabulated_documented _) hrow (Small.minted hclient htid) hpass (by decide +kernel)

/-- Two tenants with each other's names: all of them distinct, and the
first one's token passes on the second one's host. -/
theorem tenant_isolation_swapped : ¬ ∀ (tenantParent : String) (c : TenantConfig) (rt : Runtime)
    (cfg : Edge.EdgeConfig) (lib : Edge.JwtLibrary) (Signed : String → Json → Prop)
    (row : ClientConfigRow) (token : String) (cache : Edge.JwksCache) (outside : Edge.Outside)
    (event : Edge.CloudFrontRequestEvent) (req : Edge.CloudFrontRequest),
    (tenantAdmin tenantParent).Reachable c → UniqueTenants c.world.configs →
    lib.Documented Signed → c.world.configs row.clientId = some row → MintedFor lib row token →
    (Edge.handler rt cfg lib cache outside event).2.result = .request req →
    Edge.extractTokenFromCookies (req.header "cookie") = some token →
    Edge.hostLabel rt cfg req = some row.subdomain := by
  intro hclaim
  obtain ⟨c, hc, hend⟩ := (interpreter Small.tenantParent).exists_reachable Small.world_init
    (Small.createAll [("acme", "beta"), ("beta", "acme")])
    (fun c => Small.firstRow c == some ("client-1", "acme", "beta") && reservesFreeNames c &&
      actsInTime c) (by decide +kernel)
  simp only [Bool.and_eq_true, beq_iff_eq] at hend
  obtain ⟨⟨hfirst, hfree⟩, htime⟩ := hend
  obtain ⟨row, hrow, hclient, hsub, htid⟩ := Small.firstRow_eq hfirst
  have hpass : (Small.answer "beta" "beta.tenants.example.com").result =
      .request (Edge.Small.request "beta.tenants.example.com") := by decide +kernel
  have hunique : UniqueTenants c.world.configs :=
    (Inv.reachable hc (reservesFreeNames_sound hc hfree) (actsInTime_sound htime)).unique
  have hlabel := hclaim _ c _ _ _ _ row "jwt-1" _ _ _ _ hc hunique (Edge.tabulated_documented _)
    hrow (Small.minted hclient htid) hpass (by decide +kernel)
  rw [hsub] at hlabel
  revert hlabel
  decide +kernel

end SaasFoundation.Vestibulum.SharedDistribution
