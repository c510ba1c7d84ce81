import SaasFoundation.Vestibulum.Idp.Secrets

/-!
# Which secrets are one

A store for one pair of tenant and kind changes what is read for another
exactly when both have one name. The name is `kind/tenant` behind a common
prefix: equal kinds with tenant ids that are equal once sanitised, or a `/`
that belongs to the kind of one pair and to the tenant id of the other.
-/

namespace SaasFoundation.Vestibulum.Idp.Secrets

open Lib

/-! ## Secrets Manager -/

structure Secret where
  secretString : String
  versionId : Option String
  arn : Option String
  /-- Scheduled for deletion. -/
  deleted : Bool

/-- A secret for each name. -/
abbrev SecretsManager := Table String Secret

/-- A request that failed may have been carried out, except where the error
says why it was not. -/
def serve (m : SecretsManager) : (op : Request) → Reply op → SecretsManager → Prop
  | .createSecret name value _, .ok reply, m' =>
      m name = none ∧ m' = m.put name ⟨value, reply.versionId, reply.arn, false⟩
  | .createSecret name _ _, .error .resourceExists, m' => m name ≠ none ∧ m' = m
  | .createSecret name value _, .error _, m' => m' = m ∨ m name = none ∧
      ∃ versionId arn, m' = m.put name ⟨value, versionId, arn, false⟩
  | .putSecretValue name value, .ok reply, m' => (∃ s, m name = some s ∧ s.deleted = false) ∧
      m' = m.put name ⟨value, reply.versionId, reply.arn, false⟩
  | .putSecretValue name _, .error .resourceNotFound, m' => m name = none ∧ m' = m
  | .putSecretValue name value, .error _, m' => m' = m ∨
      (∃ s, m name = some s ∧ s.deleted = false) ∧
        ∃ versionId arn, m' = m.put name ⟨value, versionId, arn, false⟩
  | .getSecretValue name, .ok reply, m' => (∃ s, m name = some s ∧ s.deleted = false ∧
      reply = ⟨some s.secretString, s.versionId, s.arn⟩) ∧ m' = m
  | .getSecretValue name, .error .resourceNotFound, m' => m name = none ∧ m' = m
  | .getSecretValue _, .error _, m' => m' = m
  | .deleteSecret name _, .ok _, m' =>
      ∃ s, m name = some s ∧ m' = m.put name { s with deleted := true }
  | .deleteSecret name _, .error .resourceNotFound, m' => m name = none ∧ m' = m
  | .deleteSecret name _, .error _, m' => m' = m ∨
      ∃ s, m name = some s ∧ m' = m.put name { s with deleted := true }

/-- The name a request is about. -/
def Request.name : Request → String
  | .createSecret name _ _ => name
  | .putSecretValue name _ => name
  | .getSecretValue name => name
  | .deleteSecret name _ => name

/-- A request leaves everything as it is, or gives its name a secret. -/
theorem serve_cases {m m' : SecretsManager} {op : Request} {r : Reply op}
    (h : serve m op r m') : m' = m ∨ ∃ s, m' = m.put op.name s := by
  cases op with
  | createSecret n v d =>
      match r with
      | .ok reply => exact .inr ⟨_, h.2⟩
      | .error .resourceExists => exact .inl h.2
      | .error .resourceNotFound | .error .other =>
          rcases h with rfl | ⟨-, versionId, arn, rfl⟩
          · exact .inl rfl
          · exact .inr ⟨_, rfl⟩
  | putSecretValue n v =>
      match r with
      | .ok reply => exact .inr ⟨_, h.2⟩
      | .error .resourceNotFound => exact .inl h.2
      | .error .resourceExists | .error .other =>
          rcases h with rfl | ⟨-, versionId, arn, rfl⟩
          · exact .inl rfl
          · exact .inr ⟨_, rfl⟩
  | getSecretValue n =>
      match r with
      | .ok reply => exact .inl h.2
      | .error .resourceNotFound => exact .inl h.2
      | .error .resourceExists | .error .other => exact .inl h
  | deleteSecret n d =>
      match r with
      | .ok u =>
          obtain ⟨s, -, rfl⟩ := h
          exact .inr ⟨_, rfl⟩
      | .error .resourceNotFound => exact .inl h.2
      | .error .resourceExists | .error .other =>
          rcases h with rfl | ⟨s, -, rfl⟩
          · exact .inl rfl
          · exact .inr ⟨_, rfl⟩

theorem serve_frame {m m' : SecretsManager} {op : Request} {r : Reply op} {name : String}
    (h : serve m op r m') (hname : op.name ≠ name) : m' name = m name := by
  rcases serve_cases h with rfl | ⟨s, rfl⟩
  · rfl
  · exact Table.put_of_ne m s hname.symm

/-! ## Runs -/

/-- The module's pattern and the service. -/
structure State where
  lastIndex : Nat
  secrets : SecretsManager

section Runs

variable (client : IdpSecretsClient)

/-- A store for a pair, from one state to the next. -/
def Stores (s : State) (tenantId secretValue kind : String) (s' : State) : Prop :=
  s'.lastIndex = (client.store s.lastIndex tenantId secretValue kind).2 ∧
    ∃ result, (client.store s.lastIndex tenantId secretValue kind).1.Completes serve s.secrets result
      s'.secrets

/-- What `getSecretValue` may return for a pair. -/
def Returns (s : State) (tenantId kind : String) (result : Except Failure SecretReadResult) :
    Prop :=
  ∃ m, (getSecretValue client s.lastIndex tenantId kind).1.Completes serve s.secrets result m

/-- The states of all runs. Other clients of the module use its pattern
too, and leave it anywhere. -/
inductive Reachable : State → Prop
  | init (lastIndex : Nat) : Reachable ⟨lastIndex, Table.empty⟩
  | store {s s' : State} {tenantId secretValue kind : String} :
      Reachable s → Stores client s tenantId secretValue kind s' → Reachable s'
  | delete {s : State} {tenantId kind : String} {result : Except Failure Unit}
      {m : SecretsManager} : Reachable s →
      (client.delete s.lastIndex tenantId kind).1.Completes serve s.secrets result m →
      Reachable ⟨(client.delete s.lastIndex tenantId kind).2, m⟩
  | elsewhere {s : State} (lastIndex : Nat) : Reachable s → Reachable { s with lastIndex }

/-- No store for the first pair changes what is read for the second. -/
def Isolated (tenant₁ kind₁ tenant₂ kind₂ : String) : Prop :=
  ∀ s, Reachable client s → ∀ secretValue s', Stores client s tenant₁ secretValue kind₁ s' →
    ∀ result, Returns client s' tenant₂ kind₂ result ↔ Returns client s tenant₂ kind₂ result

end Runs

/-- A kind that the check lets through from the start. -/
def AcceptedKind (kind : String) : Prop := (exec (validateKind kind) 0).1 = .ok kind

instance (kind : String) : Decidable (AcceptedKind kind) :=
  inferInstanceAs (Decidable ((exec (validateKind kind) 0).1 = .ok kind))

/-- A separator of one name stands inside the kind of the other. -/
def Straddles (tenant₁ kind₁ tenant₂ kind₂ : String) : Prop :=
  ∃ between, kind₁ = kind₂ ++ "/" ++ between ∧
    replaceUnsafe tenant₂ = between ++ "/" ++ replaceUnsafe tenant₁

def Clash (tenant₁ kind₁ tenant₂ kind₂ : String) : Prop :=
  kind₁ = kind₂ ∧ replaceUnsafe tenant₁ = replaceUnsafe tenant₂ ∨
    Straddles tenant₁ kind₁ tenant₂ kind₂ ∨ Straddles tenant₂ kind₂ tenant₁ kind₁

/-! ## Names -/

theorem test_accepted {s : String} (h : (test s 0).1 = false) (n : Nat) :
    test s n = (false, 0) := by
  have hall : ∀ u ∈ Text.units s, isSafe u = true := by
    unfold test at h
    split at h
    · cases h
    · rename_i hnone
      simpa using hnone
  have hnone : ((Text.units s).drop n).findIdx? (fun u => !isSafe u) = none := by
    rw [List.findIdx?_eq_none_iff]
    intro u hu
    rw [hall u (List.mem_of_mem_drop hu)]
    rfl
  rw [test, hnone]

theorem validateKind_accepted {kind : String} (h : AcceptedKind kind) (n : Nat) :
    exec (validateKind kind) n = (.ok kind, 0) := by
  by_cases hempty : kind = ""
  · subst hempty
    exact absurd h (by decide)
  · have hsafe : (test kind 0).1 = false := by
      by_contra htest
      rw [Bool.not_eq_false] at htest
      simp [AcceptedKind, validateKind, hempty, invalid, htest] at h
    simp [validateKind, hempty, test_accepted hsafe n]

/-- The name of a pair. -/
def IdpSecretsClient.name (client : IdpSecretsClient) (tenantId kind : String) : String :=
  client.secretPrefix ++ kind ++ "/" ++ replaceUnsafe tenantId

theorem secretName_accepted (client : IdpSecretsClient) {tenantId kind : String}
    (htenant : tenantId ≠ "") (hkind : AcceptedKind kind) (n : Nat) :
    exec (client.secretName tenantId kind) n = (.ok (client.name tenantId kind), 0) := by
  simp [IdpSecretsClient.secretName, validateKind_accepted hkind, sanitiseTenantId, htenant,
    IdpSecretsClient.name, Except.map]

theorem straddles_iff {tenant₁ kind₁ tenant₂ kind₂ : String} :
    Straddles tenant₁ kind₁ tenant₂ kind₂ ↔ ∃ between, kind₁.toList = kind₂.toList ++ '/' :: between ∧
      (replaceUnsafe tenant₂).toList = between ++ '/' :: (replaceUnsafe tenant₁).toList :=
  Text.exists_between_iff rfl

/-- Two ways to read one name. -/
theorem name_eq_iff (client : IdpSecretsClient) {tenant₁ kind₁ tenant₂ kind₂ : String} :
    client.name tenant₁ kind₁ = client.name tenant₂ kind₂ ↔
      Clash tenant₁ kind₁ tenant₂ kind₂ := by
  have hlists : client.name tenant₁ kind₁ = client.name tenant₂ kind₂ ↔
      kind₁.toList ++ '/' :: (replaceUnsafe tenant₁).toList =
        kind₂.toList ++ '/' :: (replaceUnsafe tenant₂).toList := by
    rw [← String.toList_inj]
    simp [IdpSecretsClient.name]
  rw [hlists, Text.append_sep_eq_iff, Clash, straddles_iff, straddles_iff, String.toList_inj,
    String.toList_inj]

/-! ## What a store changes -/

section Isolation

variable {client : IdpSecretsClient} {tenantId secretValue kind : String}

theorem storeNamed_uses (name : String) :
    (storeNamed name tenantId secretValue kind).Uses fun op => op.name = name := by
  refine ⟨rfl, fun created => ?_⟩
  match created with
  | .ok reply => trivial
  | .error .resourceExists =>
      refine ⟨rfl, fun put => ?_⟩
      cases put <;> trivial
  | .error .resourceNotFound | .error .other => trivial

/-- A store changes nothing under another name. -/
theorem Stores.frame {s s' : State} (h : Stores client s tenantId secretValue kind s')
    (htenant : tenantId ≠ "") (hkind : AcceptedKind kind) {name : String}
    (hname : client.name tenantId kind ≠ name) : s'.secrets name = s.secrets name := by
  obtain ⟨-, result, hrun⟩ := h
  unfold IdpSecretsClient.store at hrun
  split at hrun
  · obtain ⟨-, hsame⟩ := hrun
    rw [hsame]
  · rw [afterName, secretName_accepted client htenant hkind] at hrun
    refine Prog.Completes.keeps (R := fun m m' : SecretsManager => m' name = m name) (fun _ => rfl)
      (fun u v w huv hvw => hvw.trans huv) ?_ (storeNamed_uses _) hrun
    intro m op r m' hop hserve
    exact serve_frame hserve (hop ▸ hname)

theorem returns_iff {s : State} (htenant : tenantId ≠ "") (hkind : AcceptedKind kind)
    {result : Except Failure SecretReadResult} : Returns client s tenantId kind result ↔
      ∃ reply m, serve s.secrets (.getSecretValue (client.name tenantId kind)) reply m ∧
        result = readResult tenantId (client.name tenantId kind) reply := by
  unfold Returns getSecretValue
  rw [afterName, secretName_accepted client htenant hkind]
  constructor
  · rintro ⟨m, reply, m₁, hserve, hresult, -⟩
    exact ⟨reply, m₁, hserve, hresult⟩
  · rintro ⟨reply, m, hserve, hresult⟩
    exact ⟨m, reply, m, hserve, hresult, rfl⟩

/-- A read looks at one name. -/
theorem returns_congr {s s' : State} (htenant : tenantId ≠ "") (hkind : AcceptedKind kind)
    (hsame : s'.secrets (client.name tenantId kind) = s.secrets (client.name tenantId kind))
    {result : Except Failure SecretReadResult} (h : Returns client s tenantId kind result) :
    Returns client s' tenantId kind result := by
  rw [returns_iff htenant hkind] at h ⊢
  obtain ⟨reply, m, hserve, hresult⟩ := h
  refine ⟨reply, s'.secrets, ?_, hresult⟩
  match reply with
  | .ok reply =>
      obtain ⟨⟨secret, hsecret, hreply⟩, -⟩ := hserve
      exact ⟨⟨secret, hsame.trans hsecret, hreply⟩, rfl⟩
  | .error .resourceNotFound => exact ⟨hsame.trans hserve.1, rfl⟩
  | .error .resourceExists | .error .other => rfl

theorem isolated_of_name_ne {tenant₁ kind₁ tenant₂ kind₂ : String} (ht₁ : tenant₁ ≠ "")
    (hk₁ : AcceptedKind kind₁) (ht₂ : tenant₂ ≠ "") (hk₂ : AcceptedKind kind₂)
    (hname : client.name tenant₁ kind₁ ≠ client.name tenant₂ kind₂) :
    Isolated client tenant₁ kind₁ tenant₂ kind₂ := by
  intro s _ secretValue s' hstores result
  have hframe := hstores.frame ht₁ hk₁ hname
  exact ⟨returns_congr ht₂ hk₂ hframe.symm, returns_congr ht₂ hk₂ hframe⟩

/-! ## Where names meet -/

/-- A first store creates the secret. -/
theorem stores_created {n : Nat} {m : SecretsManager} (htenant : tenantId ≠ "")
    (hkind : AcceptedKind kind) (hvalue : secretValue ≠ "")
    (hfree : m (client.name tenantId kind) = none) (versionId arn : String) :
    Stores client ⟨n, m⟩ tenantId secretValue kind
      ⟨0, m.put (client.name tenantId kind) ⟨secretValue, some versionId, some arn, false⟩⟩ := by
  unfold Stores IdpSecretsClient.store
  rw [if_neg hvalue, afterName, secretName_accepted client htenant hkind]
  exact ⟨rfl, _, .ok ⟨some arn, some versionId⟩, _, ⟨hfree, rfl⟩, rfl, rfl⟩

/-- The next one writes a new version. -/
theorem stores_again {n : Nat} {m : SecretsManager} {s : Secret} (htenant : tenantId ≠ "")
    (hkind : AcceptedKind kind) (hvalue : secretValue ≠ "")
    (hs : m (client.name tenantId kind) = some s) (hlive : s.deleted = false)
    (versionId arn : String) : Stores client ⟨n, m⟩ tenantId secretValue kind
      ⟨0, m.put (client.name tenantId kind) ⟨secretValue, some versionId, some arn, false⟩⟩ := by
  unfold Stores IdpSecretsClient.store
  rw [if_neg hvalue, afterName, secretName_accepted client htenant hkind]
  have hexists : m (client.name tenantId kind) ≠ none := by
    rw [hs]
    exact Option.some_ne_none s
  exact ⟨rfl, _, .error .resourceExists, m, ⟨hexists, rfl⟩, .ok ⟨some arn, some versionId⟩, _,
    ⟨⟨s, hs, hlive⟩, rfl⟩, rfl, rfl⟩

/-- A secret with all its parts is read as it is. -/
theorem returns_complete {s : State} (htenant : tenantId ≠ "") (hkind : AcceptedKind kind)
    {value versionId arn : String} (hvalue : value ≠ "") (hversion : versionId ≠ "") (harn : arn ≠ "")
    (hs : s.secrets (client.name tenantId kind) = some ⟨value, some versionId, some arn, false⟩)
    {r : SecretReadResult} :
    Returns client s tenantId kind (.ok r) ↔ r = ⟨value, versionId, arn⟩ := by
  rw [returns_iff htenant hkind]
  constructor
  · rintro ⟨reply, m, hserve, hresult⟩
    match reply with
    | .ok reply =>
        obtain ⟨⟨secret, hsecret, -, rfl⟩, -⟩ := hserve
        rw [hs] at hsecret
        cases hsecret
        simpa [readResult, present_some hvalue, present_some hversion, present_some harn] using
          hresult
    | .error .resourceNotFound | .error .resourceExists | .error .other => cases hresult
  · rintro rfl
    exact ⟨.ok ⟨some value, some versionId, some arn⟩, s.secrets, ⟨⟨_, hs, rfl, rfl⟩, rfl⟩,
      by simp [readResult, present_some hvalue, present_some hversion, present_some harn]⟩

theorem not_isolated_of_name_eq {tenant₁ kind₁ tenant₂ kind₂ : String} (ht₁ : tenant₁ ≠ "")
    (hk₁ : AcceptedKind kind₁) (ht₂ : tenant₂ ≠ "") (hk₂ : AcceptedKind kind₂)
    (hname : client.name tenant₁ kind₁ = client.name tenant₂ kind₂) :
    ¬ Isolated client tenant₁ kind₁ tenant₂ kind₂ := by
  intro hisolated
  -- a secret of the second pair, overwritten for the first
  have hfirst : Stores client ⟨0, Table.empty⟩ tenant₂ "old" kind₂ _ :=
    stores_created ht₂ hk₂ (by decide) rfl "v1" "arn"
  have hs := Table.put_self Table.empty (client.name tenant₂ kind₂)
    (⟨"old", some "v1", some "arn", false⟩ : Secret)
  have hsecond := stores_again (n := 0) ht₁ hk₁ (show "new" ≠ "" by decide)
    (by rw [hname]; exact hs) rfl "v2" "arn"
  rw [hname] at hsecond
  have hread := hisolated _ (.store (.init 0) hfirst) "new" _ hsecond (.ok ⟨"new", "v2", "arn"⟩)
  have harn : "arn" ≠ "" := by decide
  rw [returns_complete ht₂ hk₂ (show "new" ≠ "" by decide) (show "v2" ≠ "" by decide) harn
      (Table.put_self _ _ _),
    returns_complete ht₂ hk₂ (show "old" ≠ "" by decide) (show "v1" ≠ "" by decide) harn hs] at hread
  exact absurd (hread.mp rfl) (by decide)

/-- For all accepted pairs: a store for the first leaves what is read for
the second, and their names differ, exactly when they do not clash. -/
theorem secrets_isolated_iff (client : IdpSecretsClient) (tenant₁ kind₁ tenant₂ kind₂ : String)
    (ht₁ : tenant₁ ≠ "") (hk₁ : AcceptedKind kind₁) (ht₂ : tenant₂ ≠ "")
    (hk₂ : AcceptedKind kind₂) :
    (Isolated client tenant₁ kind₁ tenant₂ kind₂ ↔ ¬ Clash tenant₁ kind₁ tenant₂ kind₂) ∧
      ∀ n, (exec (client.secretName tenant₁ kind₁) n).1 ≠ (exec (client.secretName tenant₂ kind₂) n).1 ↔
        ¬ Clash tenant₁ kind₁ tenant₂ kind₂ := by
  rw [← name_eq_iff client]
  constructor
  · constructor
    · intro hisolated hname
      exact not_isolated_of_name_eq ht₁ hk₁ ht₂ hk₂ hname hisolated
    · exact isolated_of_name_ne ht₁ hk₁ ht₂ hk₂
  · intro n
    rw [secretName_accepted client ht₁ hk₁, secretName_accepted client ht₂ hk₂]
    simp

end Isolation

namespace Small

theorem app_accepted : ∃ lastIndex, exec (validatePrefix "/app/") lastIndex = (.ok (), 0) :=
  ⟨0, by decide +kernel⟩

def client : IdpSecretsClient := ⟨"/app/", "eu-central-1", none, app_accepted⟩

theorem secrets_isolated_iff_apart :
    Isolated client "acme" defaultKind "acme" "scim-token" ∧
      Isolated client "acme" defaultKind "globex" defaultKind := by
  constructor
  · exact (secrets_isolated_iff client "acme" defaultKind "acme" "scim-token" (by decide)
      (by decide) (by decide) (by decide)).1.mpr ((name_eq_iff client).not.mp (by decide))
  · exact (secrets_isolated_iff client "acme" defaultKind "globex" defaultKind (by decide)
      (by decide) (by decide) (by decide)).1.mpr ((name_eq_iff client).not.mp (by decide))

/-- Two ids that are sanitised alike, and a `/` that is read twice. -/
theorem secrets_isolated_shared : ¬ Isolated client "a b" defaultKind "a_b" defaultKind ∧
    ¬ Isolated client "c" "a/b" "b/c" "a" ∧ ¬ ∀ (client : IdpSecretsClient)
      (tenant₁ kind₁ tenant₂ kind₂ : String), tenant₁ ≠ "" → AcceptedKind kind₁ → tenant₂ ≠ "" →
        AcceptedKind kind₂ → (tenant₁, kind₁) ≠ (tenant₂, kind₂) →
          Isolated client tenant₁ kind₁ tenant₂ kind₂ := by
  have hspace : ¬ Isolated client "a b" defaultKind "a_b" defaultKind :=
    not_isolated_of_name_eq (by decide) (by decide) (by decide) (by decide)
      ((name_eq_iff client).mpr (.inl ⟨rfl, by decide⟩))
  have hslash : ¬ Isolated client "c" "a/b" "b/c" "a" :=
    not_isolated_of_name_eq (by decide) (by decide) (by decide) (by decide)
      ((name_eq_iff client).mpr (.inr (.inl ⟨"b", by decide, by decide⟩)))
  refine ⟨hspace, hslash, ?_⟩
  intro hall
  exact hslash (hall client "c" "a/b" "b/c" "a" (by decide) (by decide) (by decide) (by decide)
    (by decide))

end Small

end SaasFoundation.Vestibulum.Idp.Secrets
