import SaasFoundation.Foundation.Secrets.Resolve
import SaasFoundation.Lib.Percent
import SaasFoundation.Lib.Text

/-!
# Scaleway secrets

A secret is named by its id, or by project, path and name. The resolver goes
through the same cache as those of AWS, under a key that joins the parts of
the reference with `:`, and fetches from a URL that encodes each part.
-/

namespace SaasFoundation.Foundation.Secrets

open Lib

/-! ## References -/

structure ScalewaySecretRef where
  secretId : Option String
  name : Option String
  path : Option String
  projectId : Option String
  region : String
  revision : Option String
deriving DecidableEq, Repr

/-- An empty text counts as absent. -/
def present (v : Option String) : Option String := v.filter (· ≠ "")

/-- `/^(latest|latest_enabled|\d+)$/`. -/
def isRevision (revision : String) : Bool :=
  revision == "latest" || revision == "latest_enabled" || Text.isDigits revision.toList

/-- The message of a `ScalewaySecretRefValidationError`, or the reference. -/
def scalewaySecretRef (ref : ScalewaySecretRef) : Except String ScalewaySecretRef :=
  if ref.region = "" then .error "region is required"
  else if present ref.secretId = none ∧ present ref.name = none then
    .error "one of secretId or name is required"
  else if ref.revision.any (fun revision => !isRevision revision) then
    .error "revision must be \"latest\", \"latest_enabled\", or a version number"
  else .ok ref

namespace ScalewaySecretRef

variable (ref : ScalewaySecretRef)

def revisionOrDefault : String := ref.revision.getD "latest_enabled"

def pathOrDefault : String := ref.path.getD "/"

/-- The part of the key that says which secret it is. -/
def ident : String :=
  match present ref.secretId with
  | some secretId => "id:" ++ secretId
  | none => "name:" ++ ref.projectId.getD "" ++ ":" ++ ref.pathOrDefault ++ ":" ++
      ref.name.getD "undefined"

def cacheKey : String := "scw-secret:" ++ ref.region ++ ":" ++ ref.ident ++ ":" ++ ref.revisionOrDefault

/-- `new URLSearchParams(...)` of a lookup by name. -/
def query : String :=
  "secret_name=" ++ String.ofList (Percent.encodeForm (ref.name.getD "").toList) ++
    "&secret_path=" ++ String.ofList (Percent.encodeForm ref.pathOrDefault.toList) ++
    match present ref.projectId with
    | some projectId => "&project_id=" ++ String.ofList (Percent.encodeForm projectId.toList)
    | none => ""

def accessUrl (baseUrl : String) : String :=
  let revision := String.ofList (Percent.encodeURIComponent ref.revisionOrDefault.toList)
  let region := String.ofList (Percent.encodeURIComponent ref.region.toList)
  match present ref.secretId with
  | some secretId => baseUrl ++ "/secret-manager/v1beta1/regions/" ++ region ++ "/secrets/" ++
      String.ofList (Percent.encodeURIComponent secretId.toList) ++ "/versions/" ++ revision ++
      "/access"
  | none => baseUrl ++ "/secret-manager/v1beta1/regions/" ++ region ++
      "/secrets-by-path/versions/" ++ revision ++ "/access?" ++ ref.query

def describeRef : String :=
  match present ref.secretId with
  | some secretId => "id=" ++ secretId ++ " (" ++ ref.region ++ ")"
  | none => "name=" ++ ref.pathOrDefault ++
      (if (ref.path.getD "").endsWith "/" then "" else "/") ++ ref.name.getD "undefined" ++
      " (" ++ ref.region ++ ")"

end ScalewaySecretRef

/-! ## The resolver -/

/-- The body of a response, as far as the resolver reads it. -/
inductive Payload where
  | notJson
  /-- JSON without properties that can be read: `null`. -/
  | nothing
  /-- The `data` of it, if that is a text. -/
  | fields (data : Option String)
deriving DecidableEq, Repr

/-- What a fetch ends with after the retry policy. -/
inductive Access where
  | network
  | response (status : Nat) (payload : Payload)
deriving DecidableEq, Repr

inductive SharedRequest where
  | aws (op : Request)
  /-- `process.env.SCW_SECRET_KEY`. -/
  | environmentKey
  | access (url token : String)

abbrev SharedReply : SharedRequest → Type
  | .aws op => Reply op
  | .environmentKey => Option String
  | .access _ _ => Access

inductive SharedFailure where
  | resolve (e : SecretsResolveError)
  | validation (message : String)
  | typeError
deriving DecidableEq

inductive SharedOutput where
  | buffer (value : Nat)
  | thrown (e : SharedFailure)
  | done
deriving DecidableEq

abbrev SharedHandler (α : Type) := Prog SharedRequest SharedReply α

abbrev sharedRequest (op : SharedRequest) : SharedHandler (SharedReply op) := Prog.call op

/-- The bytes of a reply, or why there are none. -/
def scalewayBytes (ref : ScalewaySecretRef) : Access → Except SharedFailure (List UInt8)
  | .network => .error (.resolve ⟨.secretsTransientError,
      "Network failure resolving Scaleway secret " ++ ref.describeRef⟩)
  | .response status payload =>
      if status = 408 ∨ status = 429 ∨ 500 ≤ status then .error (.resolve ⟨.secretsTransientError,
        "Transient failure resolving Scaleway secret " ++ ref.describeRef⟩)
      else if status = 404 then .error (.resolve ⟨.secretsNotFoundError,
        "Scaleway secret not found: " ++ ref.describeRef⟩)
      else if status = 401 ∨ status = 403 then .error (.resolve ⟨.secretsAccessDeniedError,
        "Access denied for Scaleway secret: " ++ ref.describeRef⟩)
      else if status < 200 ∨ 300 ≤ status then .error (.resolve ⟨.secretsResolveError,
        "Failed to resolve Scaleway secret " ++ ref.describeRef ++ ": HTTP " ++ toString status⟩)
      else
        match payload with
        | .notJson => .error (.resolve ⟨.secretsResolveError,
            "Scaleway Secret Manager returned non-JSON for " ++ ref.describeRef⟩)
        | .nothing => .error .typeError
        | .fields none => .error (.resolve ⟨.secretsResolveError,
            "Scaleway Secret Manager returned no data field for " ++ ref.describeRef⟩)
        | .fields (some data) => .ok (Bytes.ofBase64 data.toList)

/-- The miss path; `secretKey` is that of the context. -/
def loadScaleway (baseUrl : String) (secretKey : Option String) (ref : ScalewaySecretRef) :
    SharedHandler SharedOutput := do
  let environment : Option String ← sharedRequest .environmentKey
  match present (secretKey.or environment) with
  | none => pure (.thrown (.resolve ⟨.secretsAccessDeniedError,
      "No Scaleway API token available for secret " ++ ref.describeRef ++
        " — set SCW_SECRET_KEY or pass context.secretKey"⟩))
  | some token => do
      let access : Access ← sharedRequest (.access (ref.accessUrl baseUrl) token)
      match scalewayBytes ref access with
      | .error e => pure (.thrown e)
      | .ok bytes => do
          let value : Nat ← sharedRequest (.aws (.store ref.cacheKey bytes))
          pure (.buffer value)

def resolveScalewaySecret (baseUrl : String) (secretKey : Option String)
    (refInput : ScalewaySecretRef) (fresh : Bool) : SharedHandler SharedOutput :=
  match scalewaySecretRef refInput with
  | .error message => pure (.thrown (.validation message))
  | .ok ref =>
      if fresh then do
        let _ ← sharedRequest (.aws (.invalidate ref.cacheKey))
        loadScaleway baseUrl secretKey ref
      else do
        let hit : Option Nat ← sharedRequest (.aws (.get ref.cacheKey))
        match hit with
        | some value => pure (.buffer value)
        | none => loadScaleway baseUrl secretKey ref

end SaasFoundation.Foundation.Secrets
