import SaasFoundation.Lib.BigStep
import SaasFoundation.Lib.Store
import SaasFoundation.Lib.Text

/-!
# Secrets of identity providers

`IdpSecretsClient` keeps one secret for each tenant and kind under a name
made of both. The tenant id is free text: what Secrets Manager does not
allow is replaced by `_`, and `/`, which joins the parts, is let through in
both. Different pairs can therefore have one name, and then one secret.

The checks share one pattern with the `g` flag, which remembers where its
last match ended; that index is state of the module, and a check that fails
leaves it behind for the next one.
-/

namespace SaasFoundation.Vestibulum.Idp.Secrets

open Lib

/-! ## The pattern -/

inductive SdkError where
  | resourceExists
  | resourceNotFound
  | other
deriving DecidableEq, Repr

/-- A `VestibulumRuntimeError`, or what the SDK has thrown. -/
inductive Failure where
  | runtime (code message : String)
  | sdk (e : SdkError)
deriving DecidableEq, Repr

/-- Code that runs before the first await, over the `lastIndex` of
`UNSAFE_CHARS`. -/
abbrev Check := ExceptT Failure (StateM Nat)

/-- What a check says, and where it leaves the pattern. -/
def exec {α : Type} (x : Check α) (lastIndex : Nat) : Except Failure α × Nat := x.run lastIndex

section Exec

variable {α β : Type} {n : Nat}

@[simp] theorem exec_pure (a : α) : exec (pure a) n = (.ok a, n) := rfl

@[simp] theorem exec_throw (e : Failure) : exec (throw e : Check α) n = (.error e, n) := rfl

@[simp] theorem exec_set (m : Nat) : exec (set m : Check PUnit) n = (.ok ⟨⟩, m) := rfl

@[simp] theorem exec_lift (x : StateM Nat α) :
    exec (liftM x) n = (.ok (x n).1, (x n).2) := rfl

@[simp] theorem exec_bind (x : Check α) (f : α → Check β) : exec (x >>= f) n =
    match exec x n with
    | (.ok a, m) => exec (f a) m
    | (.error e, m) => (.error e, m) := by
  show (ExceptT.bindCont f (x.run n).1) (x.run n).2 = _
  unfold exec
  split
  all_goals
    rename_i h
    rw [h]
    rfl

@[simp] theorem exec_map (f : α → β) (x : Check α) :
    exec (f <$> x) n = ((exec x n).1.map f, (exec x n).2) := by
  rw [← bind_pure_comp, exec_bind]
  split
  all_goals
    rename_i h
    rw [h]
    rfl

end Exec

def isSafe (u : Nat) : Bool :=
  (65 ≤ u && u ≤ 90) || (97 ≤ u && u ≤ 122) || (48 ≤ u && u ≤ 57)
    || "/_+=.@-".toList.any fun c => c.toNat == u

/-- `UNSAFE_CHARS.test(s)`: the search starts at `lastIndex` and leaves it
after the match, or at 0. -/
def test (s : String) : StateM Nat Bool := fun lastIndex =>
  match ((Text.units s).drop lastIndex).findIdx? fun u => !isSafe u with
  | some i => (true, lastIndex + i + 1)
  | none => (false, 0)

/-- `s.replace(UNSAFE_CHARS, "_")`. -/
def replaceUnsafe (s : String) : String :=
  String.ofList ((Text.units s).map fun u => if isSafe u then Char.ofNat u else '_')

def invalid {α : Type} (code message : String) : Check α := throw (.runtime code message)

def validatePrefix (secretPrefix : String) : Check Unit := do
  if secretPrefix = "" then
    invalid "secrets_client.invalid_prefix" "secretPrefix is required and must be a non-empty string"
  if !secretPrefix.startsWith "/" then
    invalid "secrets_client.invalid_prefix"
      ("secretPrefix must start with \"/\" (got \"" ++ secretPrefix ++ "\")")
  if !secretPrefix.endsWith "/" then
    invalid "secrets_client.invalid_prefix"
      ("secretPrefix must end with \"/\" (got \"" ++ secretPrefix ++ "\")")
  if ← test secretPrefix then
    invalid "secrets_client.invalid_prefix"
      ("secretPrefix contains characters Secrets Manager does not allow (" ++ secretPrefix ++ ")")

/-- `replace` starts from the beginning, and ends there. -/
def sanitiseTenantId (tenantId : String) : Check String := do
  if tenantId = "" then
    invalid "secrets_client.invalid_tenant_id" "tenantId must be a non-empty string"
  set 0
  pure (replaceUnsafe tenantId)

def validateKind (kind : String) : Check String := do
  if kind = "" then
    invalid "secrets_client.invalid_kind" "kind must be a non-empty string"
  if ← test kind then
    invalid "secrets_client.invalid_kind"
      ("kind contains characters Secrets Manager does not allow (\"" ++ kind ++ "\")")
  pure kind

/-! ## The client -/

structure IdpSecretsClient where
  secretPrefix : String
  region : String
  accountId : Option String
  /-- The constructor has let the prefix through, wherever the pattern
  stood. -/
  accepted : ∃ lastIndex, exec (validatePrefix secretPrefix) lastIndex = (.ok (), 0)

/-- An omitted kind. -/
def defaultKind : String := "oidc-client-secret"

def recoveryDays : Nat := 7

def IdpSecretsClient.secretName (client : IdpSecretsClient) (tenantId kind : String) :
    Check String := do
  let k ← validateKind kind
  let safe ← sanitiseTenantId tenantId
  pure (client.secretPrefix ++ k ++ "/" ++ safe)

def IdpSecretsClient.arnFor (client : IdpSecretsClient) (tenantId kind : String) :
    Check String := do
  let account := client.accountId.getD ""
  if account = "" then
    invalid "secrets_client.missing_account_id"
      "arnFor() requires accountId; pass it at construction or call after store() which returns the ARN."
  let name ← client.secretName tenantId kind
  pure ("arn:aws:secretsmanager:" ++ client.region ++ ":" ++ account ++ ":secret:" ++ name)

/-! ## Requests to Secrets Manager -/

structure WriteReply where
  arn : Option String
  versionId : Option String
deriving DecidableEq, Repr

structure ReadReply where
  secretString : Option String
  versionId : Option String
  arn : Option String
deriving DecidableEq, Repr

inductive Request where
  | createSecret (name secretString description : String)
  | putSecretValue (secretId secretString : String)
  | getSecretValue (secretId : String)
  | deleteSecret (secretId : String) (recoveryWindowInDays : Nat)
deriving DecidableEq, Repr

abbrev Reply : Request → Type
  | .createSecret _ _ _ => Except SdkError WriteReply
  | .putSecretValue _ _ => Except SdkError WriteReply
  | .getSecretValue _ => Except SdkError ReadReply
  | .deleteSecret _ _ => Except SdkError Unit

abbrev Handler (α : Type) := Prog Request Reply α

abbrev request (op : Request) : Handler (Reply op) := Prog.call op

structure StoredSecret where
  arn : String
  versionId : String
deriving DecidableEq, Repr

structure SecretReadResult where
  plaintext : String
  versionId : String
  arn : String
deriving DecidableEq, Repr

def present (field : Option String) : Option String := field.filter (· ≠ "")

theorem present_some {s : String} (h : s ≠ "") : present (some s) = some s := by
  simp [present, Option.filter, h]

/-- Both fields of a write's reply, or the complaint. -/
def stored (message : String) (reply : WriteReply) : Except Failure StoredSecret :=
  match present reply.arn, present reply.versionId with
  | some arn, some versionId => .ok ⟨arn, versionId⟩
  | _, _ => .error (.runtime "secrets_client.unexpected_response" message)

/-- `store` once the name is known. -/
def storeNamed (name tenantId secretValue kind : String) :
    Handler (Except Failure StoredSecret) := do
  let created : Except SdkError WriteReply ← request (.createSecret name secretValue
    ("Vestibulum-managed " ++ kind ++ " for tenant " ++ tenantId))
  match created with
  | .ok reply => pure (stored "CreateSecret did not return ARN + VersionId" reply)
  | .error .resourceExists => do
      let put : Except SdkError WriteReply ← request (.putSecretValue name secretValue)
      match put with
      | .ok reply => pure (stored "PutSecretValue did not return ARN + VersionId" reply)
      | .error e => pure (.error (.sdk e))
  | .error e => pure (.error (.sdk e))

/-- What a read makes of the reply. -/
def readResult (tenantId name : String) (out : Except SdkError ReadReply) :
    Except Failure SecretReadResult :=
  match out with
  | .error .resourceNotFound => .error (.runtime "secrets_client.not_found"
      ("No secret found for tenant \"" ++ tenantId ++ "\" (name \"" ++ name ++ "\")"))
  | .error e => .error (.sdk e)
  | .ok out =>
      let empty (what : String) : Except Failure SecretReadResult :=
        .error (.runtime "secrets_client.empty_value" ("Secret \"" ++ name ++ "\" " ++ what))
      match present out.secretString, present out.versionId, present out.arn with
      | none, _, _ => empty "has no SecretString (binary secrets are not supported)"
      | _, none, _ => empty "returned no VersionId; cannot pin SecretRef"
      | _, _, none => empty "returned no ARN; cannot pin SecretRef"
      | some plaintext, some versionId, some arn => .ok ⟨plaintext, versionId, arn⟩

def read (tenantId name : String) : Handler (Except Failure SecretReadResult) := do
  let out : Except SdkError ReadReply ← request (.getSecretValue name)
  pure (readResult tenantId name out)

def deleteNamed (name : String) : Handler (Except Failure Unit) := do
  let deleted : Except SdkError Unit ← request (.deleteSecret name recoveryDays)
  match deleted with
  | .ok () => pure (.ok ())
  | .error .resourceNotFound => pure (.ok ())
  | .error e => pure (.error (.sdk e))

/-- The part before the first await, then the rest. -/
def afterName {α : Type} (name : Check String) (lastIndex : Nat)
    (rest : String → Handler (Except Failure α)) : Handler (Except Failure α) × Nat :=
  match exec name lastIndex with
  | (.ok name, n) => (rest name, n)
  | (.error e, n) => (pure (.error e), n)

def IdpSecretsClient.store (client : IdpSecretsClient) (lastIndex : Nat)
    (tenantId secretValue kind : String) : Handler (Except Failure StoredSecret) × Nat :=
  if secretValue = "" then
    (pure (.error (.runtime "secrets_client.invalid_value"
      "secretValue must be a non-empty string")), lastIndex)
  else afterName (client.secretName tenantId kind) lastIndex fun name =>
    storeNamed name tenantId secretValue kind

def IdpSecretsClient.delete (client : IdpSecretsClient) (lastIndex : Nat)
    (tenantId kind : String) : Handler (Except Failure Unit) × Nat :=
  afterName (client.secretName tenantId kind) lastIndex deleteNamed

def getSecretValue (client : IdpSecretsClient) (lastIndex : Nat) (tenantId kind : String) :
    Handler (Except Failure SecretReadResult) × Nat :=
  afterName (client.secretName tenantId kind) lastIndex (read tenantId)

end SaasFoundation.Vestibulum.Idp.Secrets
