import SaasFoundation.Vestibulum.SharedDistribution.Edge

/-!
# What the edge lets through

A request passes only with a token that was verified and names the tenant
of the host; everything else is answered at the edge. A token that has
expired still counts as verified for another 60 seconds, the clock skew
the handler asks the library to tolerate.
-/

namespace SaasFoundation.Vestibulum.SharedDistribution.Edge

open Lib Lib.Text

section Checks

variable {rt : Runtime} {cfg : EdgeConfig} {lib : JwtLibrary} {Signed : String → Json → Prop}

theorem asString_eq_some {v : Option Json} {s : String} :
    Json.asString v = some s ↔ v = some (.str s) := by
  constructor
  · intro h
    unfold Json.asString at h
    split at h
    · rw [Option.some.inj h]
    · cases h
  · rintro rfl
    rfl

theorem hasNumericExp_iff {payload : Json} :
    hasNumericExp payload = true ↔ ∃ n, payload.get "exp" = some (.num n) := by
  unfold hasNumericExp
  split
  · rename_i n hn
    exact ⟨fun _ => ⟨n, hn⟩, fun _ => rfl⟩
  · rename_i hnot
    constructor
    · intro h
      cases h
    · rintro ⟨n, hn⟩
      exact absurd hn (hnot n)

/-- What `verifyJwt` has seen of a token it accepts: its key is one of the
keys supplied, and the library verified it against that key alone. -/
structure Verified (lib : JwtLibrary) (token : String) (opts : VerifyJwtOptions) (nowMs : Int)
    (header : JwtHeader) (jwk payload : Json) (kid : String) : Prop where
  decomposed : ∃ claims, lib.decomposeUnverifiedJwt token = .ok ⟨header, claims⟩
  alg : header.alg = some "RS256"
  hasKid : header.kid = some kid ∧ kid ≠ ""
  supplied : jwk ∈ opts.jwks ∧ jwk.get "kid" = some (.str kid)
  verified : lib.verifyJwtSync token [jwk] ⟨opts.issuer, opts.clockSkewSec, driftCheck kid⟩ nowMs =
    .ok payload
  exp : ∃ n, payload.get "exp" = some (.num n)

section Verify

variable {token : String} {opts : VerifyJwtOptions} {nowMs : Int} {payload : Json}

theorem verifyWith_ok {kid : String} {jwk : Json}
    (h : verifyWith lib token opts nowMs kid jwk = .ok payload) :
    lib.verifyJwtSync token [jwk] ⟨opts.issuer, opts.clockSkewSec, driftCheck kid⟩ nowMs =
      .ok payload ∧ ∃ n, payload.get "exp" = some (.num n) := by
  unfold verifyWith at h
  split at h
  · cases h
  · rename_i claims hverify
    split at h
    · rename_i hexp
      cases h
      exact ⟨hverify, hasNumericExp_iff.mp hexp⟩
    · cases h

theorem pickKey_ok {header : JwtHeader} (h : pickKey lib token opts nowMs header = .ok payload) :
    ∃ kid jwk, (header.kid = some kid ∧ kid ≠ "") ∧
      (jwk ∈ opts.jwks ∧ jwk.get "kid" = some (.str kid)) ∧
      verifyWith lib token opts nowMs kid jwk = .ok payload := by
  unfold pickKey at h
  simp only at h
  split at h
  · cases h
  · rename_i hkid
    split at h
    · cases h
    · rename_i jwk hfind
      refine ⟨header.kid.getD "", jwk, ⟨?_, hkid⟩, ⟨List.mem_of_find?_eq_some hfind, ?_⟩, h⟩
      · cases hheader : header.kid with
        | none => simp [hheader] at hkid
        | some kid => rfl
      · have hnamed := List.find?_some hfind
        exact asString_eq_some.mp (beq_iff_eq.mp hnamed)

theorem verifyJwt_ok (h : verifyJwt lib token opts nowMs = .ok payload) :
    ∃ header jwk kid, Verified lib token opts nowMs header jwk payload kid := by
  unfold verifyJwt at h
  split at h
  · cases h
  · split at h
    · cases h
    · rename_i decomposed hdecomposed
      split at h
      · cases h
      · rename_i alg halg
        split at h
        · cases h
        · split at h
          · cases h
          · rename_i hrs256
            obtain ⟨kid, jwk, hkid, hsupplied, hverify⟩ := pickKey_ok h
            obtain ⟨hverified, hexp⟩ := verifyWith_ok hverify
            have halg' : decomposed.header.alg = some "RS256" := by
              rw [halg, not_not.mp hrs256]
            exact ⟨decomposed.header, jwk, kid, ⟨decomposed.payload, hdecomposed⟩, halg', hkid,
              hsupplied, hverified, hexp⟩

end Verify

/-! ## Answers -/

/-- Answered at the edge: a redirect, a refusal or a bad request. -/
def Answer.Turned (a : Answer) : Prop :=
  ∃ res, a.result = .response res ∧ res.status ∈ ["302", "403", "400"]

theorem refuse_turned (reason : RefuseReason) : (refuse reason).Turned :=
  ⟨_, rfl, by decide⟩

theorem loginRedirect_turned (req : CloudFrontRequest) (subdomain : String) :
    (loginRedirect req subdomain).Turned :=
  ⟨_, rfl, List.mem_cons_self⟩

/-- Whatever the message of a failed verification says. -/
theorem mapVerifyErrorToResponse_turned (req : CloudFrontRequest) (subdomain msg : String) :
    (mapVerifyErrorToResponse req subdomain msg).Turned := by
  unfold mapVerifyErrorToResponse
  split
  · exact refuse_turned _
  · split
    · exact refuse_turned _
    · split
      · exact refuse_turned _
      · exact loginRedirect_turned _ _

theorem Answer.Turned.not_request {a : Answer} (h : a.Turned) (req : CloudFrontRequest) :
    a.result ≠ .request req := by
  obtain ⟨res, hres, -⟩ := h
  rw [hres]
  intro heq
  cases heq

/-- The claims with which a request for `label` passes. -/
structure ClaimsFor (label : String) (claims : Json) : Prop where
  tokenUse : claims.get "token_use" = some (.str "id")
  tenantId : claims.get "custom:tenant_id" = some (.str label)
  aud : ∃ aud, claims.get "aud" = some (.str aud) ∧ aud ≠ ""

theorem checkClaims_cases (req : CloudFrontRequest) (label : String) (claims : Json) :
    (checkClaims req label claims).Turned ∨
    ClaimsFor label claims ∧ checkClaims req label claims = ⟨.request req, none⟩ := by
  unfold checkClaims
  split
  · exact .inl (refuse_turned _)
  · rename_i huse
    split
    · exact .inl (refuse_turned _)
    · rename_i claimTenantId htenant
      split
      · exact .inl (refuse_turned _)
      · rename_i hmatch
        split
        · exact .inl (refuse_turned _)
        · rename_i haud
          refine .inr ⟨⟨asString_eq_some.mp (not_not.mp huse), ?_, ?_⟩, rfl⟩
          · rw [← not_not.mp hmatch]
            exact asString_eq_some.mp htenant
          · cases hstring : Json.asString (claims.get "aud") with
            | none => simp [hstring] at haud
            | some aud => exact ⟨aud, asString_eq_some.mp hstring, by simpa [hstring] using haud⟩

/-- The checks a request has passed when it goes on to the origin. -/
structure Admitted (rt : Runtime) (cfg : EdgeConfig) (lib : JwtLibrary)
    (Signed : String → Json → Prop) (keys : List Json) (nowMs : Int) (req : CloudFrontRequest)
    (label token : String) : Prop where
  host : ∃ host, req.host = some host ∧ extractTenantSubdomain rt cfg host = some label
  cookie : extractTokenFromCookies (req.header "cookie") = some token
  /-- Signed RS256 by the one supplied key its header names. -/
  verified : ∃ header jwk payload kid n, lib.decomposeUnverifiedJwt token = .ok ⟨header, payload⟩ ∧
    header.alg = some "RS256" ∧ header.kid = some kid ∧ jwk ∈ keys ∧
    jwk.get "kid" = some (.str kid) ∧ Signed token jwk ∧
    payload.get "iss" = some (.str cfg.poolIssuer) ∧
    payload.get "exp" = some (.num n) ∧ (nowMs : Rat) ≤ 1000 * (n + 60) ∧
    ClaimsFor label payload

/-- The host of a request names this tenant. -/
def hostLabel (rt : Runtime) (cfg : EdgeConfig) (req : CloudFrontRequest) : Option String :=
  req.host.bind (extractTenantSubdomain rt cfg)

section Handler

variable {cache : JwksCache} {outside : Outside} {event : CloudFrontRequestEvent}

/-- A verified token of the library, with the pinned issuer and the skew
the handler sets. -/
theorem admitted_of_claims (hlib : lib.Documented Signed) {keys : List Json} {nowMs : Int}
    {req : CloudFrontRequest} {label token : String} {claims : Json}
    (hhost : ∃ host, req.host = some host ∧ extractTenantSubdomain rt cfg host = some label)
    (hcookie : extractTokenFromCookies (req.header "cookie") = some token)
    (hverify : verifyJwt lib token ⟨cfg.poolIssuer, keys, ["RS256"], 60⟩ nowMs = .ok claims)
    (hclaims : ClaimsFor label claims) : Admitted rt cfg lib Signed keys nowMs req label token := by
  refine ⟨hhost, hcookie, ?_⟩
  obtain ⟨header, jwk, kid, hv⟩ := verifyJwt_ok hverify
  obtain ⟨n, hn⟩ := hv.exp
  have hdecomposed : lib.decomposeUnverifiedJwt token = .ok ⟨header, claims⟩ := by
    obtain ⟨claims', hheader⟩ := hv.decomposed
    obtain ⟨header', hpayload⟩ := hlib.decoded hv.verified
    rw [hheader] at hpayload
    cases hpayload
    exact hheader
  have hsigned : Signed token jwk := by
    obtain ⟨jwk', hmem, hsigned⟩ := hlib.signature hv.verified
    rwa [List.mem_singleton.mp hmem] at hsigned
  exact ⟨header, jwk, claims, kid, n, hdecomposed, hv.alg, hv.hasKid.1, hv.supplied.1,
    hv.supplied.2, hsigned, hlib.issuer hv.verified, hn, hlib.exp hv.verified n hn, hclaims⟩

/-- Every answer of the handler: the first record's request, after all its
checks, or a response of its own. -/
theorem handler_cases (hlib : lib.Documented Signed) :
    (handler rt cfg lib cache outside event).2.Turned ∨
    ∃ req keys label token, event.records.head? = some req ∧
      (handler rt cfg lib cache outside event).2.result = .request req ∧
      (cache.getJwks cfg.jwksTtlMs outside.cacheNow outside.fetched).2 = .ok keys ∧
      Admitted rt cfg lib Signed keys outside.verifyNow req label token := by
  unfold handler
  split
  · exact .inl ⟨_, rfl, by decide⟩
  · rename_i req hreq
    split
    · exact .inl (refuse_turned _)
    · rename_i hhost
      split
      · exact .inl (refuse_turned _)
      · rename_i label hlabel
        simp only
        split
        · exact .inl (loginRedirect_turned _ _)
        · rename_i htoken
          split
          · exact .inl (loginRedirect_turned _ _)
          · rename_i cache' keys hkeys
            split
            · exact .inl (mapVerifyErrorToResponse_turned _ _ _)
            · rename_i claims hverify
              rcases checkClaims_cases req label claims with hturned | ⟨hclaims, hpass⟩
              · exact .inl hturned
              · have hhost' : req.host = some (req.host.getD "") := by
                  cases hh : req.host with
                  | none => simp [hh] at hhost
                  | some host => rfl
                have hcookie : extractTokenFromCookies (req.header "cookie") =
                    some ((extractTokenFromCookies (req.header "cookie")).getD "") := by
                  cases hc : extractTokenFromCookies (req.header "cookie") with
                  | none => simp [hc] at htoken
                  | some token => rfl
                have hadm := admitted_of_claims hlib ⟨_, hhost', hlabel⟩ hcookie hverify hclaims
                exact .inr ⟨req, keys, label, _, hreq, by rw [hpass], by rw [hkeys], hadm⟩

theorem admitted_of_request (hlib : lib.Documented Signed) {req : CloudFrontRequest}
    (h : (handler rt cfg lib cache outside event).2.result = .request req) :
    ∃ keys label token, Admitted rt cfg lib Signed keys outside.verifyNow req label token := by
  rcases handler_cases hlib with hturned | ⟨req', keys, label, token, -, hpass, -, hadm⟩
  · exact absurd h (hturned.not_request req)
  · rw [h] at hpass
    cases hpass
    exact ⟨keys, label, token, hadm⟩

end Handler

theorem Admitted.hostLabel {keys : List Json} {nowMs : Int} {req : CloudFrontRequest}
    {label token : String} (h : Admitted rt cfg lib Signed keys nowMs req label token) :
    hostLabel rt cfg req = some label := by
  obtain ⟨host, hhost, hlabel⟩ := h.host
  rw [Edge.hostLabel, hhost, Option.bind_some, hlabel]

/-- A token names one tenant, whatever keys and clock it is verified with. -/
theorem Admitted.same_label {keys keys' : List Json} {nowMs nowMs' : Int}
    {req req' : CloudFrontRequest} {label label' token : String}
    (h : Admitted rt cfg lib Signed keys nowMs req label token)
    (h' : Admitted rt cfg lib Signed keys' nowMs' req' label' token) : label = label' := by
  obtain ⟨header, -, payload, -, -, hdec, -, -, -, -, -, -, -, -, hclaims⟩ := h.verified
  obtain ⟨header', -, payload', -, -, hdec', -, -, -, -, -, -, -, -, hclaims'⟩ := h'.verified
  rw [hdec] at hdec'
  cases hdec'
  have htenant := hclaims.tenantId.symm.trans hclaims'.tenantId
  exact Json.str.inj (Option.some.inj htenant)

/-- The edge lets a request through only after every check, and answers
everything else itself; one cookie value passes for one tenant only. -/
theorem passThrough_sound (hlib : lib.Documented Signed) :
    (∀ (cache : JwksCache) (outside : Outside) (event : CloudFrontRequestEvent),
      (handler rt cfg lib cache outside event).2.Turned ∨
      ∃ req keys label token, event.records.head? = some req ∧
        (handler rt cfg lib cache outside event).2.result = .request req ∧
        (cache.getJwks cfg.jwksTtlMs outside.cacheNow outside.fetched).2 = .ok keys ∧
        Admitted rt cfg lib Signed keys outside.verifyNow req label token) ∧
    ∀ (cache cache' : JwksCache) (outside outside' : Outside)
      (event event' : CloudFrontRequestEvent) (req req' : CloudFrontRequest),
      (handler rt cfg lib cache outside event).2.result = .request req →
      (handler rt cfg lib cache' outside' event').2.result = .request req' →
      extractTokenFromCookies (req.header "cookie") =
        extractTokenFromCookies (req'.header "cookie") →
      ∃ label, hostLabel rt cfg req = some label ∧ hostLabel rt cfg req' = some label := by
  refine ⟨fun cache outside event => handler_cases hlib, ?_⟩
  intro cache cache' outside outside' event event' req req' hpass hpass' hcookie
  obtain ⟨keys, label, token, hadm⟩ := admitted_of_request hlib hpass
  obtain ⟨keys', label', token', hadm'⟩ := admitted_of_request hlib hpass'
  have htoken : token = token' := by
    rw [hadm.cookie, hadm'.cookie] at hcookie
    exact Option.some.inj hcookie
  subst htoken
  have hlabel := hadm.same_label hadm'
  subst hlabel
  exact ⟨label, hadm.hostLabel, hadm'.hostLabel⟩

/-! ## The keys of a container -/

/-- Everything `getJwks` can do: hand out a set that is young enough, put
a fetched one in its place, or fail and forget. -/
theorem getJwks_cases (cache : JwksCache) (ttlMs now : Int)
    (fetched : Except String FetchResponse) :
    (∃ keys, cache.cachedKeys = some keys ∧ now - cache.cachedAt < ttlMs ∧
      cache.getJwks ttlMs now fetched = (cache, .ok keys)) ∨
    (∃ response keys, fetched = .ok response ∧ response.keys = .ok keys ∧
      cache.getJwks ttlMs now fetched = (⟨some keys, now⟩, .ok keys)) ∨
    ∃ e, cache.getJwks ttlMs now fetched = (.empty, .error e) := by
  have hrefresh : (∃ response keys, fetched = .ok response ∧ response.keys = .ok keys ∧
        JwksCache.getJwks.refresh now fetched = (⟨some keys, now⟩, .ok keys)) ∨
      ∃ e, JwksCache.getJwks.refresh now fetched = (.empty, .error e) := by
    cases fetched with
    | error e => exact .inr ⟨e, rfl⟩
    | ok response =>
        cases hkeys : response.keys with
        | error e => exact .inr ⟨e, by simp [JwksCache.getJwks.refresh, hkeys]⟩
        | ok keys => exact .inl ⟨response, keys, rfl, hkeys, by simp [JwksCache.getJwks.refresh, hkeys]⟩
  cases hcached : cache.cachedKeys with
  | none =>
      simp only [JwksCache.getJwks, hcached]
      exact .inr hrefresh
  | some keys =>
      simp only [JwksCache.getJwks, hcached]
      by_cases hyoung : now - cache.cachedAt < ttlMs
      · exact .inl ⟨keys, rfl, hyoung, by rw [if_pos hyoung]⟩
      · rw [if_neg hyoung]
        exact .inr hrefresh

/-- One container: the cache after the invocations in `past`. -/
inductive Container (rt : Runtime) (cfg : EdgeConfig) (lib : JwtLibrary) :
    List Outside → JwksCache → Prop
  | fresh : Container rt cfg lib [] .empty
  | served {past : List Outside} {cache : JwksCache} (outside : Outside)
      (event : CloudFrontRequestEvent) (h : Container rt cfg lib past cache) :
      Container rt cfg lib (past ++ [outside]) (handler rt cfg lib cache outside event).1

/-- The set was fetched by this invocation, all of it. -/
def Outside.Fetched (o : Outside) (keys : List Json) : Prop :=
  ∃ response, o.fetched = .ok response ∧ response.keys = .ok keys

/-- The handler leaves the cache alone or as `getJwks` left it. -/
theorem handler_cache (cache : JwksCache) (outside : Outside) (event : CloudFrontRequestEvent) :
    (handler rt cfg lib cache outside event).1 = cache ∨
    (handler rt cfg lib cache outside event).1 =
      (cache.getJwks cfg.jwksTtlMs outside.cacheNow outside.fetched).1 := by
  unfold handler
  split
  · exact .inl rfl
  · split
    · exact .inl rfl
    · split
      · exact .inl rfl
      · simp only
        split
        · exact .inl rfl
        · split
          · rename_i hkeys
            exact .inr (by rw [hkeys])
          · rename_i hkeys
            split
            · exact .inr (by rw [hkeys])
            · exact .inr (by rw [hkeys])

theorem Container.cached {past : List Outside} {cache : JwksCache} {keys : List Json}
    (h : Container rt cfg lib past cache) (hkeys : cache.cachedKeys = some keys) :
    ∃ o ∈ past, o.cacheNow = cache.cachedAt ∧ o.Fetched keys := by
  induction h with
  | fresh => cases hkeys
  | @served past cache outside event hc ih =>
      have hold : cache.cachedKeys = some keys →
          ∃ o ∈ past ++ [outside], o.cacheNow = cache.cachedAt ∧ o.Fetched keys := by
        intro hcached
        obtain ⟨o, ho, hat, hfetched⟩ := ih hcached
        exact ⟨o, List.mem_append_left _ ho, hat, hfetched⟩
      rcases handler_cache cache outside event with heq | heq
      · rw [heq] at hkeys ⊢
        exact hold hkeys
      · rw [heq] at hkeys ⊢
        rcases getJwks_cases cache cfg.jwksTtlMs outside.cacheNow outside.fetched with
          ⟨_, -, -, hget⟩ | ⟨response, fresh, hfetched, hset, hget⟩ | ⟨e, hget⟩
        · rw [hget] at hkeys ⊢
          exact hold hkeys
        · rw [hget] at hkeys ⊢
          cases hkeys
          exact ⟨outside, List.mem_append_right _ List.mem_cons_self, rfl, response, hfetched, hset⟩
        · rw [hget] at hkeys
          cases hkeys

/-- A container verifies with one fetched set, less than the lifetime old:
keys of an older set are not kept beside it. -/
theorem Container.supplied {past : List Outside} {cache : JwksCache} {outside : Outside}
    {keys : List Json} (h : Container rt cfg lib past cache) (httl : 0 < cfg.jwksTtlMs)
    (hkeys : (cache.getJwks cfg.jwksTtlMs outside.cacheNow outside.fetched).2 = .ok keys) :
    ∃ o ∈ past ++ [outside], o.Fetched keys ∧ outside.cacheNow - o.cacheNow < cfg.jwksTtlMs := by
  rcases getJwks_cases cache cfg.jwksTtlMs outside.cacheNow outside.fetched with
    ⟨cached, hcached, hyoung, hget⟩ | ⟨response, fresh, hfetched, hset, hget⟩ | ⟨e, hget⟩
  · rw [hget] at hkeys
    cases hkeys
    obtain ⟨o, ho, hat, hfetched⟩ := h.cached hcached
    exact ⟨o, List.mem_append_left _ ho, hfetched, by omega⟩
  · rw [hget] at hkeys
    cases hkeys
    exact ⟨outside, List.mem_append_right _ List.mem_cons_self, ⟨response, hfetched, hset⟩,
      by omega⟩
  · rw [hget] at hkeys
    cases hkeys

end Checks

/-! ## A library that is looked up in a table -/

/-- The claim, if it is a number. -/
def numericClaim (payload : Json) (name : String) : Option Rat :=
  match payload.get name with
  | some (.num n) => some n
  | _ => none

/-- The tokens there are, each signed by the key its header names. -/
def JwtLibrary.tabulated (tokens : List (String × DecomposedJwt)) : JwtLibrary where
  decomposeUnverifiedJwt := fun token =>
    match tokens.lookup token with
    | none => .error "JWT string does not consist of exactly 3 parts (header, payload, signature)"
    | some decomposed => .ok decomposed
  verifyJwtSync := fun token keys opts nowMs =>
    match tokens.lookup token with
    | none => .error "JWT string does not consist of exactly 3 parts (header, payload, signature)"
    | some ⟨header, payload⟩ =>
        match keys.find? fun jwk => Json.asString (jwk.get "kid") == header.kid with
        | none => .error "JWK not found in the JWKS"
        | some jwk =>
            if Json.asString (payload.get "iss") ≠ some opts.issuer then .error "Issuer not allowed"
            else if (numericClaim payload "exp").any
                fun n => !decide ((nowMs : Rat) ≤ 1000 * (n + opts.graceSeconds)) then
              .error "Token expired"
            else if (numericClaim payload "nbf").any
                fun n => !decide (1000 * (n - opts.graceSeconds) ≤ (nowMs : Rat)) then
              .error "Token can't be used yet"
            else
              match opts.customJwtCheck header jwk with
              | some message => .error message
              | none => .ok payload

def tabulatedSigned (tokens : List (String × DecomposedJwt)) (token : String) (jwk : Json) : Prop :=
  ∃ decomposed, tokens.lookup token = some decomposed ∧
    Json.asString (jwk.get "kid") = decomposed.header.kid

/-- Everything a verified token was checked for. -/
theorem tabulated_ok {tokens : List (String × DecomposedJwt)} {token : String} {keys : List Json}
    {opts : VerifyOptions} {nowMs : Int} {payload : Json}
    (h : (JwtLibrary.tabulated tokens).verifyJwtSync token keys opts nowMs = .ok payload) :
    ∃ header, tokens.lookup token = some ⟨header, payload⟩ ∧
      (∃ jwk ∈ keys, Json.asString (jwk.get "kid") = header.kid) ∧
      payload.get "iss" = some (.str opts.issuer) ∧
      (∀ n, numericClaim payload "exp" = some n → (nowMs : Rat) ≤ 1000 * (n + opts.graceSeconds)) ∧
      ∀ n, numericClaim payload "nbf" = some n → 1000 * (n - opts.graceSeconds) ≤ (nowMs : Rat) := by
  simp only [JwtLibrary.tabulated] at h
  split at h
  · cases h
  · rename_i header claims hlookup
    split at h
    · cases h
    · rename_i jwk hfind
      split at h
      · cases h
      · rename_i hiss
        split at h
        · cases h
        · rename_i hexp
          split at h
          · cases h
          · rename_i hnbf
            split at h
            · cases h
            · cases h
              have hkid := List.find?_some hfind
              refine ⟨header, hlookup, ⟨jwk, List.mem_of_find?_eq_some hfind, beq_iff_eq.mp hkid⟩,
                asString_eq_some.mp (not_not.mp hiss), ?_, ?_⟩
              · intro n hn
                rw [hn] at hexp
                simpa using hexp
              · intro n hn
                rw [hn] at hnbf
                simpa using hnbf

theorem tabulated_documented (tokens : List (String × DecomposedJwt)) :
    (JwtLibrary.tabulated tokens).Documented (tabulatedSigned tokens) where
  decoded := by
    intro token keys opts nowMs payload h
    obtain ⟨header, hlookup, -⟩ := tabulated_ok h
    refine ⟨header, ?_⟩
    simp only [JwtLibrary.tabulated, hlookup]
  signature := by
    intro token keys opts nowMs payload h
    obtain ⟨header, hlookup, ⟨jwk, hmem, hkid⟩, -⟩ := tabulated_ok h
    exact ⟨jwk, hmem, _, hlookup, hkid⟩
  issuer := by
    intro token keys opts nowMs payload h
    obtain ⟨header, -, -, hiss, -⟩ := tabulated_ok h
    exact hiss
  exp := by
    intro token keys opts nowMs payload h n hn
    obtain ⟨header, -, -, -, hexp, -⟩ := tabulated_ok h
    exact hexp n (by rw [numericClaim, hn])
  nbf := by
    intro token keys opts nowMs payload h n hn
    obtain ⟨header, -, -, -, -, hnbf⟩ := tabulated_ok h
    exact hnbf n (by rw [numericClaim, hn])

namespace Small

def rt : Runtime := .tabulated [] [] (fun _ => none) sha_nil hmac_nil

def cfg : EdgeConfig where
  tenantParent := "tenants.example.com"
  tenantPattern := defaultTenantPattern
  poolIssuer := "https://cognito-idp.eu-central-1.amazonaws.com/eu-central-1_abc"
  jwksUrl := "https://cognito-idp.eu-central-1.amazonaws.com/eu-central-1_abc/.well-known/jwks.json"
  jwksTtlMs := 900000

/-- An ID token for the tenant `acme`, up to 2023-11-14T22:13:20Z. -/
def tokens : List (String × DecomposedJwt) :=
  [("jwt-1", ⟨⟨some "RS256", some "key-1"⟩,
    .obj [("iss", .str cfg.poolIssuer), ("exp", .num 1700000000), ("token_use", .str "id"),
      ("custom:tenant_id", .str "acme"), ("aud", .str "client-1")]⟩)]

def keySet : Json := .obj [("keys", .arr [.obj [("kid", .str "key-1"), ("kty", .str "RSA")]])]

/-- With both clocks at `now` and the key set to be fetched. -/
def outside (now : Int) : Outside := ⟨now, .ok ⟨true, 200, .ok keySet⟩, now⟩

def request (host : String) : CloudFrontRequest where
  headers := some [("host", [⟨some "Host", host⟩]),
    ("cookie", [⟨some "Cookie", "theme=dark; vestibulum_id_token=\"jwt-1\""⟩])]
  uri := some "/"
  method := some "GET"
  querystring := some ""

/-- The answer on a fresh container. -/
def answer (now : Int) (host : String) : Answer :=
  (handler rt cfg (.tabulated tokens) .empty (outside now) ⟨[request host]⟩).2

end Small

theorem passThrough_sound_acme :
    (Small.answer 1699999990000 "ACME.tenants.example.com:443").result =
      .request (Small.request "ACME.tenants.example.com:443") ∧
    (Small.answer 1700000000000 "acme.tenants.example.com.").result =
      .request (Small.request "acme.tenants.example.com.") ∧
    ∃ label, hostLabel Small.rt Small.cfg (Small.request "ACME.tenants.example.com:443") =
        some label ∧
      hostLabel Small.rt Small.cfg (Small.request "acme.tenants.example.com.") = some label := by
  have hpass : (Small.answer 1699999990000 "ACME.tenants.example.com:443").result =
      .request (Small.request "ACME.tenants.example.com:443") := by decide +kernel
  have hpass' : (Small.answer 1700000000000 "acme.tenants.example.com.").result =
      .request (Small.request "acme.tenants.example.com.") := by decide +kernel
  exact ⟨hpass, hpass', (passThrough_sound (tabulated_documented Small.tokens)).2
    _ _ _ _ _ _ _ _ hpass hpass' rfl⟩

/-- The skew in action: a token that expired half a minute ago passes. -/
theorem passThrough_expired : ¬ ∀ (rt : Runtime) (cfg : EdgeConfig) (lib : JwtLibrary)
    (Signed : String → Json → Prop), lib.Documented Signed →
    ∀ (cache : JwksCache) (outside : Outside) (event : CloudFrontRequestEvent)
      (req : CloudFrontRequest),
      (handler rt cfg lib cache outside event).2.result = .request req →
      ∃ token header payload n, extractTokenFromCookies (req.header "cookie") = some token ∧
        lib.decomposeUnverifiedJwt token = .ok ⟨header, payload⟩ ∧
        payload.get "exp" = some (.num n) ∧ (outside.verifyNow : Rat) ≤ 1000 * n := by
  intro hclaim
  have hpass : (Small.answer 1700000030000 "acme.tenants.example.com").result =
      .request (Small.request "acme.tenants.example.com") := by decide +kernel
  obtain ⟨token, header, payload, n, hcookie, hdec, hexp, hle⟩ :=
    hclaim Small.rt Small.cfg _ _ (tabulated_documented Small.tokens) _ _ _ _ hpass
  have htoken : token = "jwt-1" := by
    have : extractTokenFromCookies
        ((Small.request "acme.tenants.example.com").header "cookie") = some "jwt-1" := by
      decide +kernel
    rw [this] at hcookie
    exact (Option.some.inj hcookie).symm
  subst htoken
  have hn : n = 1700000000 := by
    have hdec' := Except.ok.inj hdec
    cases hdec'
    cases hexp
    rfl
  subst hn
  revert hle
  decide +kernel

end SaasFoundation.Vestibulum.SharedDistribution.Edge
