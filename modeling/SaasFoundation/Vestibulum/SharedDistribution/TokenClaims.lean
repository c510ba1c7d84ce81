import SaasFoundation.Vestibulum.SharedDistribution.Triggers

/-!
# The tenant claim of an ID token

`wrapPreTokenHandler` sets and checks `custom:tenant_id` in the response
field of a V1 event. Whatever the inner handler does, a V1 event that comes
back mints a token with the claim of the row that was loaded. A V2 event
comes back just as well, but Cognito reads another field of it, which the
wrapper neither sets nor looks at.
-/

namespace SaasFoundation.Vestibulum.SharedDistribution.Triggers

open Lib

/-! ## Records -/

/-- What is kept or dropped by its name is found or not by its name. -/
theorem lookup_filter_name (record : Record) (q : String → Bool) (name : String) :
    (record.filter fun p => q p.1).lookup name = if q name then record.lookup name else none := by
  induction record with
  | nil => simp
  | cons p rest ih =>
      obtain ⟨k, v⟩ := p
      simp only [List.filter_cons]
      by_cases hk : name = k
      · subst hk
        by_cases hq : q name = true
        · rw [if_pos hq, if_pos hq, List.lookup_cons_self, List.lookup_cons_self]
        · rw [if_neg hq, if_neg hq, ih, if_neg hq]
      · have hne : (name == k) = false := beq_eq_false_iff_ne.mpr hk
        by_cases hq : q k = true
        · simp only [hq, if_true, List.lookup_cons, hne, ih]
        · rw [if_neg hq, ih, List.lookup_cons, hne]

/-- The claim of a token, after overrides and suppressions. -/
theorem lookup_apply (details : ClaimsDetails) (claims : Record) (name : String) :
    (details.apply claims).lookup name =
      if (details.claimsToSuppress.getD []).contains name then none
      else ((details.claimsToAddOrOverride.getD []).lookup name).or (claims.lookup name) := by
  rw [ClaimsDetails.apply,
    lookup_filter_name _ (fun k => !(details.claimsToSuppress.getD []).contains k)]
  by_cases hs : (details.claimsToSuppress.getD []).contains name = true
  · rw [hs, if_pos rfl]
    rfl
  · rw [if_pos (by simpa using hs), if_neg hs, override, List.lookup_append]
    rw [lookup_filter_name claims
      (fun k => !(details.claimsToAddOrOverride.getD []).any fun q => q.1 == k)]
    generalize details.claimsToAddOrOverride.getD [] = overrides
    cases hover : overrides.lookup name with
    | none =>
        have hnone : (!overrides.any fun q => q.1 == name) = true := by
          rw [List.lookup_eq_none_iff] at hover
          simp only [Bool.not_eq_true', List.any_eq_false, beq_iff_eq]
          intro q hq heq
          have := hover q hq
          rw [heq] at this
          simp at this
        rw [if_pos hnone]
        cases claims.lookup name <;> rfl
    | some v =>
        have hsome : (!overrides.any fun q => q.1 == name) = false := by
          have := List.lookup_isSome_iff.mp (by rw [hover]; rfl : (overrides.lookup name).isSome)
          obtain ⟨q, hq, heq⟩ := this
          simp only [Bool.not_eq_false', List.any_eq_true]
          exact ⟨q, hq, by rw [BEq.comm]; exact heq⟩
        rw [hsome]
        rfl

/-! ## The wrapper -/

theorem checkTenantId_ok {tenantId : String} {result event : PreTokenEvent}
    (h : checkTenantId tenantId result = .ok event) :
    event = result ∧ ∃ details, result.overrideDetails = some details ∧
      (details.claimsToAddOrOverride.getD []).lookup tenantIdClaim = some tenantId ∧
      (details.claimsToSuppress.getD []).contains tenantIdClaim = false := by
  simp only [checkTenantId] at h
  split at h
  · cases h
  · rename_i hfinal
    split at h
    · cases h
    · rename_i hsuppressed
      cases h
      refine ⟨rfl, ?_⟩
      cases hdetails : result.overrideDetails with
      | none => simp [hdetails] at hfinal
      | some details =>
          rw [hdetails] at hfinal hsuppressed
          cases hclaims : details.claimsToAddOrOverride with
          | none => simp [hclaims] at hfinal
          | some claims =>
              simp only [Option.bind_some, hclaims, ne_eq, not_not] at hfinal
              exact ⟨details, rfl, by rw [hclaims]; exact hfinal, by simpa using hsuppressed⟩

/-- A handler that returns was given a row, and what it returns has passed
the checks for it. -/
theorem wrapLoaded_ok {inner : Inner} {loaded : Except Thrown (Option ClientConfigRow)}
    {event result : PreTokenEvent} (h : wrapLoaded inner loaded event = .ok result) :
    ∃ row, loaded = .ok (some row) ∧ checkTenantId row.tenantId result = .ok result := by
  unfold wrapLoaded at h
  split at h
  · cases h
  · cases h
  · rename_i row
    split at h
    · cases h
    · obtain ⟨rfl, -⟩ := checkTenantId_ok h
      exact ⟨row, rfl, h⟩

/-- A V1 event that has passed the checks mints a token with the claim. -/
theorem mintIdToken_v1 {tenantId : String} {result : PreTokenEvent} (base : Record)
    (h : checkTenantId tenantId result = .ok result) :
    (mintIdToken .v1 base result).lookup tenantIdClaim = some tenantId := by
  obtain ⟨-, details, hdetails, hclaim, hkept⟩ := checkTenantId_ok h
  rw [mintIdToken]
  simp only [hdetails, Option.getD_some]
  rw [lookup_apply, if_neg (by rw [hkept]; simp), hclaim]
  rfl

theorem finishes_wrapPreTokenHandler {inner : Inner} {container : Nat} {event : PreTokenEvent}
    {es : List (Event Request Reply)} {out : Except Thrown PreTokenEvent} :
    (wrapPreTokenHandler inner container event).Finishes es out ↔
      ∃ loaded, (loadClientConfigByClientId container event.clientId).Finishes es loaded ∧
        wrapLoaded inner loaded event = out := by
  unfold wrapPreTokenHandler
  rw [Prog.finishes_bind]
  simp only [Prog.pure_def, Prog.finishes_ret]
  constructor
  · rintro ⟨es₁, es₂, loaded, rfl, hload, rfl, hwrap⟩
    exact ⟨loaded, by rwa [List.append_nil], hwrap⟩
  · rintro ⟨loaded, hload, hwrap⟩
    exact ⟨es, [], loaded, (List.append_nil _).symm, hload, rfl, hwrap⟩

/-- The contract for an event: whatever the inner handler does, an event
that comes back mints a token with the tenant of the row that was loaded. -/
def ContractFor (container : Nat) (event : PreTokenEvent) (base : Record) : Prop :=
  ∀ (inner : Inner) (es : List (Event Request Reply)) (result : PreTokenEvent),
    (wrapPreTokenHandler inner container event).Finishes es (.ok result) →
    ∃ row, (loadClientConfigByClientId container event.clientId).Finishes es (.ok (some row)) ∧
      (mintIdToken event.version base result).lookup tenantIdClaim = some row.tenantId

/-- An inner handler that leaves the field of V1 in order and suppresses
the claim in the field of V2. -/
def suppressInV2 : Inner := fun event row =>
  .ok { event with response := some (keepV1 row.tenantId) }
where
  keepV1 (tenantId : String) : PreTokenResponse :=
    ⟨some ⟨some [(tenantIdClaim, tenantId)], none⟩, some ⟨none, some [tenantIdClaim]⟩⟩

/-- A tenant. -/
def Small.acmeRow : ClientConfigRow :=
  ⟨"client-1", "acme", "acme", "https://acme.tenants.example.com", ["example.com"],
    "2023-11-14T22:13:20.000Z", none⟩

/-- A run of the loader that finds the row in its cache. -/
def hitRun (container : Nat) (row : ClientConfigRow) (clientId : String) :
    List (Event Request Reply) :=
  [⟨.signIn .now, (0 : Int)⟩, ⟨.cacheGet container clientId, some ⟨some row, 1⟩⟩]

theorem hitRun_finishes (container : Nat) (row : ClientConfigRow) (clientId : String) :
    (loadClientConfigByClientId container clientId).Finishes (hitRun container row clientId)
      (.ok (some row)) := by
  simp only [loadClientConfigByClientId, Prog.call_bind, Prog.finishes_ask, hitRun]
  exact ⟨_, _, rfl, _, _, rfl, by simp⟩

theorem suppressInV2_returns (event : PreTokenEvent) (row : ClientConfigRow) :
    ∃ result, wrapLoaded suppressInV2 (.ok (some row)) event = .ok result ∧
      result.response.bind PreTokenResponse.idTokenGeneration = some ⟨none, some [tenantIdClaim]⟩ := by
  let result : PreTokenEvent :=
    { presetTenantId event row.tenantId with response := some (suppressInV2.keepV1 row.tenantId) }
  refine ⟨result, ?_, rfl⟩
  show checkTenantId row.tenantId result = .ok result
  simp [checkTenantId, PreTokenEvent.overrideDetails, result, suppressInV2.keepV1]

/-- The contract holds of V1 events and of no others. -/
theorem contract_iff (container : Nat) (event : PreTokenEvent) (base : Record) :
    ContractFor container event base ↔ event.version = .v1 := by
  constructor
  · intro hcontract
    cases hversion : event.version with
    | v1 => rfl
    | v2 =>
        obtain ⟨result, hwrap, hfield⟩ := suppressInV2_returns event Small.acmeRow
        have hrun : (wrapPreTokenHandler suppressInV2 container event).Finishes
            (hitRun container Small.acmeRow event.clientId) (.ok result) :=
          finishes_wrapPreTokenHandler.mpr ⟨_, hitRun_finishes _ _ _, hwrap⟩
        obtain ⟨row, -, hclaim⟩ := hcontract _ _ _ hrun
        rw [hversion, mintIdToken] at hclaim
        simp only [hfield, Option.getD_some] at hclaim
        rw [lookup_apply, if_pos (by simp)] at hclaim
        cases hclaim
  · intro hversion inner es result hrun
    obtain ⟨loaded, hload, hwrap⟩ := finishes_wrapPreTokenHandler.mp hrun
    obtain ⟨row, rfl, hcheck⟩ := wrapLoaded_ok hwrap
    refine ⟨row, hload, ?_⟩
    rw [hversion]
    exact mintIdToken_v1 base hcheck

/-- A V2 event, and the default handler. -/
def Small.v2Event : PreTokenEvent :=
  ⟨.v2, "user-1", "client-1", [("email", "ann@example.com")], none⟩

/-- The default handler returns a V2 event, and the token has no tenant. -/
theorem contract_v2 : ¬ ∀ (inner : Inner) (container : Nat) (event : PreTokenEvent) (base : Record)
    (es : List (Event Request Reply)) (result : PreTokenEvent),
    (wrapPreTokenHandler inner container event).Finishes es (.ok result) →
    ∃ row, (loadClientConfigByClientId container event.clientId).Finishes es (.ok (some row)) ∧
      (mintIdToken event.version base result).lookup tenantIdClaim = some row.tenantId := by
  intro hclaim
  have hrun : (wrapPreTokenHandler preTokenGeneration 0 Small.v2Event).Finishes
      (hitRun 0 Small.acmeRow "client-1") (.ok (presetTenantId Small.v2Event "acme")) :=
    finishes_wrapPreTokenHandler.mpr ⟨_, hitRun_finishes _ _ _, by decide⟩
  obtain ⟨row, -, htoken⟩ := hclaim _ _ _ [("email", "ann@example.com")] _ _ hrun
  have hnone : (mintIdToken Small.v2Event.version [("email", "ann@example.com")]
      (presetTenantId Small.v2Event "acme")).lookup tenantIdClaim = none := by decide
  rw [hnone] at htoken
  cases htoken

end SaasFoundation.Vestibulum.SharedDistribution.Triggers
