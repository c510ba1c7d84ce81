import Mathlib.Logic.Relation
import SaasFoundation.Vestibulum.SharedDistribution.Cloud

/-!
# Deleting a tenant again

`deleteTenant` deletes the app client and then the row. Attempts that fail
leave the tenant as it was, without its client, or gone; never a client
without its row. From the state in between no further attempt gets on: the
client that is gone cannot be deleted, and the row is left to the
reconciler.
-/

namespace SaasFoundation.Vestibulum.SharedDistribution.DeleteRetry

open Lib Lib.Prog

/-- At most the row of this client is one of the tenant. -/
def Unique (w : Cloud) (tenantId clientId : String) : Prop :=
  ∀ k row, w.configs k = some row → row.tenantId = tenantId → k = clientId

/-- What attempts may do to the stores. -/
structure Undone (clientId : String) (w w' : Cloud) : Prop where
  otherRows : ∀ k, k ≠ clientId → w'.configs k = w.configs k
  otherClients : ∀ k, k ≠ clientId → w'.clients k = w.clients k
  row : w'.configs clientId = w.configs clientId ∨
    w'.configs clientId = none ∧ w'.clients clientId = none
  client : w'.clients clientId = w.clients clientId ∨ w'.clients clientId = none

/-- An attempt whose requests may fail, and which may break off anywhere. -/
def Attempt (users : Directory) (tenantId : String) (w w' : Cloud) : Prop :=
  ∃ pages req, req.tenantId = tenantId ∧ (deleteTenant pages req).Visits (Lossy users) w w'

/-- Any number of attempts, one after the other. -/
def Attempts (users : Directory) (tenantId : String) : Cloud → Cloud → Prop :=
  Relation.ReflTransGen (Attempt users tenantId)

variable {users : Directory} {tenantId clientId : String} {w w' : Cloud}

/-! ## What attempts leave -/

theorem Undone.refl (clientId : String) (w : Cloud) : Undone clientId w w where
  otherRows := fun _ _ => rfl
  otherClients := fun _ _ => rfl
  row := .inl rfl
  client := .inl rfl

theorem Undone.trans {v : Cloud} (h : Undone clientId w v) (h' : Undone clientId v w') :
    Undone clientId w w' where
  otherRows := fun k hk => (h'.otherRows k hk).trans (h.otherRows k hk)
  otherClients := fun k hk => (h'.otherClients k hk).trans (h.otherClients k hk)
  row := by
    rcases h'.row with hrow | hgone
    · rcases h.row with hrow' | ⟨hnone, hclient⟩
      · exact .inl (hrow.trans hrow')
      · refine .inr ⟨hrow.trans hnone, ?_⟩
        rcases h'.client with hsame | hgone
        · exact hsame.trans hclient
        · exact hgone
    · exact .inr hgone
  client := by
    rcases h'.client with hsame | hgone
    · rcases h.client with hsame' | hgone
      · exact .inl (hsame.trans hsame')
      · exact .inr (hsame.trans hgone)
    · exact .inr hgone

theorem Undone.unique (h : Undone clientId w w') (hw : Unique w tenantId clientId) :
    Unique w' tenantId clientId := by
  intro k row hrow htenant
  by_cases hk : k = clientId
  · exact hk
  · rw [h.otherRows k hk] at hrow
    exact hw k row hrow htenant

/-- The row goes after the client. -/
theorem Undone.no_orphan (h : Undone clientId w w') (hrow : w.configs clientId ≠ none)
    (hnone : w'.configs clientId = none) : w'.clients clientId = none := by
  rcases h.row with hsame | ⟨-, hclient⟩
  · exact absurd (hsame.symm.trans hnone) hrow
  · exact hclient

/-- Listing and signing out change nothing here. -/
def IsSignOut : Request → Prop
  | .listUsers _ => True
  | .adminUserGlobalSignOut _ => True
  | _ => False

theorem signOut_same {op : Request} {r : Reply op} (hop : IsSignOut op)
    (h : Lossy users w op r w') : w' = w := by
  rcases h.cases with hw | ⟨r', hr⟩
  · exact hw
  · cases op <;> first | exact hr.2 | cases hop

theorem deleteClient_undone {r : Except AwsError Unit}
    (h : Lossy users w (.deleteUserPoolClient clientId) r w') : Undone clientId w w' := by
  rcases h.cases with rfl | ⟨r', hr⟩
  · exact .refl clientId _
  · simp only [Performs] at hr
    split at hr
    · obtain ⟨-, rfl⟩ := hr
      exact ⟨fun _ _ => rfl, fun k hk => Table.erase_of_ne _ hk, .inl rfl,
        .inr (Table.erase_self _ _)⟩
    · rw [hr.2]
      exact .refl clientId _

theorem deleteClient_ok (h : Lossy users w (.deleteUserPoolClient clientId) (.ok ()) w') :
    w'.clients clientId = none := by
  have hr := h.performed (by rintro ⟨e, he⟩; cases he)
  simp only [Performs] at hr
  split at hr
  · rw [hr.2]
    exact Table.erase_self _ _
  · cases hr.1

theorem deleteRow_undone {r : Except AwsError Unit} (hclient : w.clients clientId = none)
    (h : Lossy users w (.deleteClientConfig clientId) r w') : Undone clientId w w' := by
  rcases h.cases with rfl | ⟨r', -, rfl⟩
  · exact .refl clientId _
  · exact ⟨fun k hk => Table.erase_of_ne _ hk, fun _ _ => rfl,
      .inr ⟨Table.erase_self _ _, hclient⟩, .inl rfl⟩

theorem deleteClientAndRow_always :
    (deleteClientAndRow clientId).Always (Lossy users) (Undone clientId) w := by
  intro client v hclient
  refine ⟨deleteClient_undone hclient, ?_⟩
  cases client with
  | error e => trivial
  | ok u =>
      intro row v' hrow
      refine ⟨deleteRow_undone (deleteClient_ok hclient) hrow, ?_⟩
      cases row with
      | error e => trivial
      | ok u => trivial

/-- A row that the index returns is the tenant's. -/
theorem query_unique {r : Except AwsError (Option ClientConfigRow)}
    (hw : Unique w tenantId clientId) (h : Lossy users w (.queryTenantId tenantId) r w') :
    w' = w ∧ ∀ item, r = .ok (some item) → item.clientId = clientId := by
  constructor
  · rcases h.cases with rfl | ⟨r', hr⟩
    · rfl
    · exact hr.1
  · rintro item rfl
    obtain ⟨-, hfound⟩ := h.performed (by rintro ⟨e, he⟩; cases he)
    rcases hfound with ⟨row, hrow, hconfig, htenant⟩ | ⟨hnone, -⟩
    · cases hrow
      exact hw _ _ hconfig htenant
    · cases hnone

theorem deleteTenant_always (pages : Nat) {req : DeleteTenantRequest}
    (hw : Unique w req.tenantId clientId) :
    (deleteTenant pages req).Always (Lossy users) (Undone clientId) w := by
  intro found v hfound
  obtain ⟨rfl, hitem⟩ := query_unique hw hfound
  refine ⟨.refl clientId _, ?_⟩
  cases found with
  | error e => trivial
  | ok item =>
      cases item with
      | none => trivial
      | some item =>
          obtain rfl := hitem item rfl
          dsimp only
          split
          · have hrevoke := revokeAllSessionsForClient_uses (P := IsSignOut) (fun _ => trivial)
              (fun _ => trivial) pages none
            refine (hrevoke.always (fun v op r v' hop hserve => ?_) _).bind fun result v _ => ?_
            · rw [signOut_same hop hserve]
              exact .refl _ _
            · cases result with
              | error e => trivial
              | ok u => exact deleteClientAndRow_always
          · exact deleteClientAndRow_always

theorem Attempt.undone (h : Attempt users tenantId w w') (hw : Unique w tenantId clientId) :
    Undone clientId w w' := by
  obtain ⟨pages, req, rfl, hvisits⟩ := h
  refine hvisits.invariant ?_ (Undone.refl clientId w)
  exact (deleteTenant_always pages hw).mono fun v v' hstep hv => hv.trans hstep

/-- However many attempts were made. -/
theorem Attempts.undone (h : Attempts users tenantId w w') (hw : Unique w tenantId clientId) :
    Undone clientId w w' := by
  induction h with
  | refl => exact .refl clientId w
  | tail _ hstep ih => exact ih.trans (hstep.undone (ih.unique hw))

/-! ## An attempt that reaches healthy services -/

theorem signOutAll_completes (usernames : List (Option String)) (u : Unit) :
    (signOutAll usernames).Completes (Performs users) w u w' ↔ w' = w := by
  induction usernames with
  | nil =>
      constructor
      · exact fun h => h.2
      · exact fun h => ⟨rfl, h⟩
  | cons username rest ih =>
      unfold signOutAll
      split
      · exact ih
      · split
        · exact ih
        · constructor
          · rintro ⟨r, v, ⟨-, rfl⟩, hrest⟩
            exact ih.mp hrest
          · exact fun h => ⟨.ok (), w, ⟨rfl, rfl⟩, ih.mpr h⟩

/-- The listing ends. -/
theorem revokeAll_completes {pages : Nat} {token : Option String} (h : users.left token < pages)
    {out : Except Thrown Unit} :
    (revokeAllSessionsForClient pages token).Completes (Performs users) w out w' ↔
      out = .ok () ∧ w' = w := by
  induction pages generalizing token with
  | zero => omega
  | succ pages ih =>
      have hpage : (revokeAllSessionsForClient (pages + 1) token).Completes
          (Performs users) w out w' ↔
          (do signOutAll (users.page token).usernames
              if (users.page token).paginationToken.getD "" = "" then pure (.ok ())
              else revokeAllSessionsForClient pages (users.page token).paginationToken :
            Handler (Except Thrown Unit)).Completes (Performs users) w out w' := by
        constructor
        · rintro ⟨r, v, ⟨rfl, rfl⟩, hrest⟩
          exact hrest
        · exact fun hrest => ⟨_, w, ⟨rfl, rfl⟩, hrest⟩
      rw [hpage, completes_bind]
      simp only [signOutAll_completes]
      by_cases hlast : (users.page token).paginationToken.getD "" = ""
      · simp [hlast]
      · have hends := users.ends token hlast
        simp [hlast, ih (by omega : users.left (users.page token).paginationToken < pages)]

theorem deleteClientAndRow_completes {out : Except Thrown Unit} :
    (deleteClientAndRow clientId).Completes (Performs users) w out w' ↔
      if (w.clients clientId).isSome then
        out = .ok () ∧ w' = { w with
          clients := w.clients.erase clientId, configs := w.configs.erase clientId }
      else out = .error (.aws .other) ∧ w' = w := by
  constructor
  · rintro ⟨client, v, hclient, hrest⟩
    simp only [Performs] at hclient
    split at hclient
    · rename_i hsome
      obtain ⟨rfl, rfl⟩ := hclient
      obtain ⟨row, v, ⟨rfl, rfl⟩, hret⟩ := hrest
      rw [if_pos hsome]
      exact hret
    · rename_i hnone
      obtain ⟨rfl, rfl⟩ := hclient
      rw [if_neg hnone]
      exact hrest
  · intro h
    split at h
    · rename_i hsome
      refine ⟨.ok (), { w with clients := w.clients.erase clientId }, ?_, ?_⟩
      · simp only [Performs, if_pos hsome, and_self]
      · exact ⟨.ok (), _, ⟨rfl, rfl⟩, h⟩
    · rename_i hnone
      refine ⟨.error .other, w, ?_, h⟩
      simp only [Performs, if_neg hnone, and_self]

/-- The sign-outs leave the rest as it was. -/
theorem revoked_completes {pages : Nat} {req : DeleteTenantRequest} {clientId : String}
    (hpages : users.left none < pages) {out : Except Thrown Unit} :
    (if req.revokeActiveSessions = some true then do
        let revoked ← revokeAllSessionsForClient pages none
        match revoked with
        | .error e => pure (.error e)
        | .ok () => deleteClientAndRow clientId
      else deleteClientAndRow clientId : Handler (Except Thrown Unit)).Completes
        (Performs users) w out w' ↔
      (deleteClientAndRow clientId).Completes (Performs users) w out w' := by
  by_cases hreq : req.revokeActiveSessions = some true
  · rw [if_pos hreq, completes_bind]
    simp only [revokeAll_completes hpages]
    constructor
    · rintro ⟨a, v, ⟨rfl, rfl⟩, hrest⟩
      exact hrest
    · exact fun hrest => ⟨.ok (), w, ⟨rfl, rfl⟩, hrest⟩
  · rw [if_neg hreq]

/-- With or without the sign-outs. -/
theorem deleteTenant_completes {pages : Nat} {req : DeleteTenantRequest}
    (hpages : users.left none < pages) {out : Except Thrown Unit} :
    (deleteTenant pages req).Completes (Performs users) w out w' ↔
      (∃ item, w.configs item.clientId = some item ∧ item.tenantId = req.tenantId ∧
        (deleteClientAndRow item.clientId).Completes (Performs users) w out w') ∨
      (∀ k row, w.configs k = some row → row.tenantId ≠ req.tenantId) ∧
        out = .error (tenantNotFound req.tenantId) ∧ w' = w := by
  constructor
  · rintro ⟨found, v, ⟨rfl, hfound⟩, hrest⟩
    rcases hfound with ⟨item, rfl, hconfig, htenant⟩ | ⟨rfl, hnone⟩
    · exact .inl ⟨item, hconfig, htenant, (revoked_completes hpages).mp hrest⟩
    · exact .inr ⟨hnone, hrest⟩
  · rintro (⟨item, hconfig, htenant, hrest⟩ | ⟨hnone, hret⟩)
    · exact ⟨.ok (some item), w, ⟨rfl, .inl ⟨item, rfl, hconfig, htenant⟩⟩,
        (revoked_completes hpages).mpr hrest⟩
    · exact ⟨.ok none, w, ⟨rfl, .inr ⟨rfl, hnone⟩⟩, hret⟩

/-! ## Convergence -/

/-- Neither the app client nor the row is left. -/
def Gone (clientId : String) (w : Cloud) : Prop :=
  w.clients clientId = none ∧ w.configs clientId = none

/-- The attempt ends, and leaves neither if it still finds the client or no
longer finds the row; else it fails and changes nothing. -/
structure Settles (users : Directory) (pages : Nat) (req : DeleteTenantRequest) (clientId : String)
    (w : Cloud) : Prop where
  ends : ∃ out w', (deleteTenant pages req).Completes (Performs users) w out w'
  gone_iff : ∀ out w', (deleteTenant pages req).Completes (Performs users) w out w' →
    (Gone clientId w' ↔ w.clients clientId ≠ none ∨ w.configs clientId = none)
  stuck : ∀ out w', (deleteTenant pages req).Completes (Performs users) w out w' →
    w.clients clientId = none → w.configs clientId ≠ none →
      out = .error (.aws .other) ∧ w' = w

/-- For the tenant of the one row there may still be. -/
theorem deleteTenant_unique {pages : Nat} {req : DeleteTenantRequest} {row : ClientConfigRow}
    (hw : Unique w req.tenantId clientId) (hid : row.clientId = clientId)
    (htenant : row.tenantId = req.tenantId)
    (hrow : w.configs clientId = some row ∨ w.configs clientId = none)
    (hpages : users.left none < pages) {out : Except Thrown Unit} :
    (deleteTenant pages req).Completes (Performs users) w out w' ↔
      if w.configs clientId = none then out = .error (tenantNotFound req.tenantId) ∧ w' = w
      else (deleteClientAndRow clientId).Completes (Performs users) w out w' := by
  rw [deleteTenant_completes hpages]
  rcases hrow with hsome | hnone
  · rw [if_neg (by simp [hsome])]
    constructor
    · rintro (⟨item, hconfig, heq, hrest⟩ | ⟨hno, -⟩)
      · rwa [hw _ _ hconfig heq] at hrest
      · exact absurd htenant (hno _ _ hsome)
    · intro hrest
      subst hid
      exact .inl ⟨row, hsome, htenant, hrest⟩
  · -- no other row is the tenant's
    have hno : ∀ k row, w.configs k = some row → row.tenantId ≠ req.tenantId := by
      intro k row hk heq
      rw [hw k row hk heq, hnone] at hk
      cases hk
    rw [if_pos hnone]
    constructor
    · rintro (⟨item, hconfig, heq, -⟩ | ⟨-, hret⟩)
      · exact absurd heq (hno _ _ hconfig)
      · exact hret
    · exact fun hret => .inr ⟨hno, hret⟩

theorem retry_settles {w₀ : Cloud} {row : ClientConfigRow} {req : DeleteTenantRequest} {pages : Nat}
    (hrow : w₀.configs clientId = some row) (hid : row.clientId = clientId)
    (htenant : row.tenantId = req.tenantId) (hunique : Unique w₀ req.tenantId clientId)
    (hearlier : Attempts users req.tenantId w₀ w) (hpages : users.left none < pages) :
    Settles users pages req clientId w ∧ (w.configs clientId = none → w.clients clientId = none) := by
  have hundone := hearlier.undone hunique
  have horphan : w.configs clientId = none → w.clients clientId = none :=
    hundone.no_orphan (by simp [hrow])
  have hleft : w.configs clientId = some row ∨ w.configs clientId = none := by
    rcases hundone.row with hsame | ⟨hnone, -⟩
    · exact .inl (hsame.trans hrow)
    · exact .inr hnone
  have hcompletes := fun out w' => @deleteTenant_unique _ _ w w' pages req row
    (hundone.unique hunique) hid htenant hleft hpages out
  refine ⟨⟨?_, ?_, ?_⟩, horphan⟩
  · by_cases hnone : w.configs clientId = none
    · exact ⟨_, w, (hcompletes _ _).mpr (by rw [if_pos hnone]; exact ⟨rfl, rfl⟩)⟩
    · simp only [hcompletes, if_neg hnone, deleteClientAndRow_completes]
      by_cases hclient : (w.clients clientId).isSome
      · exact ⟨.ok (), _, by rw [if_pos hclient]; exact ⟨rfl, rfl⟩⟩
      · exact ⟨.error (.aws .other), w, by rw [if_neg hclient]; exact ⟨rfl, rfl⟩⟩
  · intro out w' hlast
    rw [hcompletes] at hlast
    by_cases hnone : w.configs clientId = none
    · rw [if_pos hnone] at hlast
      rw [hlast.2]
      simp [Gone, hnone, horphan hnone]
    · rw [if_neg hnone, deleteClientAndRow_completes] at hlast
      by_cases hclient : (w.clients clientId).isSome
      · rw [if_pos hclient] at hlast
        rw [hlast.2]
        simp [Gone, Option.isSome_iff_ne_none.mp hclient]
      · rw [if_neg hclient] at hlast
        rw [hlast.2]
        simp [Gone, hnone, Option.not_isSome_iff_eq_none.mp hclient]
  · intro out w' hlast hclient hnone
    rw [hcompletes, if_neg hnone, deleteClientAndRow_completes, hclient] at hlast
    exact hlast

/-! ## A tenant that is half deleted -/

namespace Small

def row : ClientConfigRow where
  clientId := "client-1"
  subdomain := "acme"
  tenantId := "t-1"
  siteBaseUrl := "https://acme.tenants.example.com"
  allowedEmailDomains := ["__EMPTY__"]
  createdAt := "2026-01-01T00:00:00.000Z"
  updatedAt := none

def client : UserPoolClient :=
  ⟨"tenant-acme", ["ALLOW_CUSTOM_AUTH"], ["https://acme.tenants.example.com/login/callback"],
    ["https://acme.tenants.example.com/logout"]⟩

def noUsers : Directory where
  page := fun _ => ⟨[], none⟩
  left := fun _ => 0
  ends := fun _ h => absurd rfl h

def tenant : Cloud where
  now := 0
  configs := Table.empty.put "client-1" row
  reservations := Table.empty
  idempotency := Table.empty
  issuedClients := ["client-1"]
  clients := Table.empty.put "client-1" client

def halfDeleted : Cloud := { tenant with clients := tenant.clients.erase "client-1" }

def req : DeleteTenantRequest := ⟨"t-1", none⟩

theorem tenant_unique : Unique tenant "t-1" "client-1" := by
  intro k row hrow _
  rcases Table.put_some hrow with ⟨hk, -⟩ | ⟨-, hnone⟩
  · exact hk
  · cases hnone

/-- The client is deleted, the row is not. -/
theorem firstAttempt : Attempts noUsers "t-1" tenant halfDeleted := by
  refine .single ⟨1, req, rfl, ?_⟩
  refine .inr ⟨.ok (some row), tenant, .answered ⟨rfl, .inl ⟨row, rfl, rfl, rfl⟩⟩, ?_⟩
  refine .inr ⟨.ok (), halfDeleted, .answered ⟨rfl, rfl⟩, ?_⟩
  exact .inr ⟨.error .other, halfDeleted, .notExecuted ⟨.other, rfl⟩ rfl, rfl⟩

theorem halfDeleted_settles : Settles noUsers 1 req "client-1" halfDeleted ∧
    (halfDeleted.configs "client-1" = none → halfDeleted.clients "client-1" = none) :=
  @retry_settles noUsers "client-1" halfDeleted tenant row req 1 rfl rfl rfl tenant_unique
    firstAttempt (Nat.zero_lt_one)

theorem not_gone : ¬ ∀ (users : Directory) (w₀ w w' : Cloud) (clientId : String)
    (row : ClientConfigRow) (req : DeleteTenantRequest) (pages : Nat) (out : Except Thrown Unit),
    w₀.configs clientId = some row → row.clientId = clientId → row.tenantId = req.tenantId →
      Unique w₀ req.tenantId clientId → Attempts users req.tenantId w₀ w →
        users.left none < pages →
          (deleteTenant pages req).Completes (Performs users) w out w' → Gone clientId w' := by
  intro hall
  have hcompletes : (deleteTenant 1 req).Completes (Performs noUsers) halfDeleted
      (.error (.aws .other)) halfDeleted := by
    refine ⟨.ok (some row), halfDeleted, ⟨rfl, .inl ⟨row, rfl, rfl, rfl⟩⟩, ?_⟩
    exact ⟨.error .other, halfDeleted, ⟨rfl, rfl⟩, rfl, rfl⟩
  have hgone := hall noUsers tenant halfDeleted halfDeleted "client-1" row req 1 _ rfl rfl rfl
    tenant_unique firstAttempt Nat.zero_lt_one hcompletes
  exact absurd hgone.2 (by decide)

end Small

end SaasFoundation.Vestibulum.SharedDistribution.DeleteRetry
