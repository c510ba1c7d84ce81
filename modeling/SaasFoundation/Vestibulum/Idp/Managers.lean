import SaasFoundation.Lib.Asks
import SaasFoundation.Vestibulum.Idp.Names
import SaasFoundation.Vestibulum.Idp.Secrets

/-!
# The identity-provider managers

`OidcIdpManager` and `SamlIdpManager` keep one Cognito provider for each
tenant, under the name that `normaliseIdpName` derives from the tenant id.
Both ask for that name with an empty map of known names.

The two classes have the same private helpers; here they are written once.
-/

namespace SaasFoundation.Vestibulum.Idp

open Lib

/-! ## Requests -/

inductive ProviderType where
  | oidc
  | saml
deriving DecidableEq, Repr

/-- What a create or an update says about a provider. -/
structure ProviderSettings where
  providerDetails : Record
  attributeMapping : Record
  idpIdentifiers : Option (List String)
deriving DecidableEq, Repr

/-- The settings of an app client that an update has to state again. -/
structure AppClient where
  supportedIdentityProviders : Option (List String)
  allowedOAuthFlows : Option (List String)
  allowedOAuthFlowsUserPoolClient : Option Bool
  allowedOAuthScopes : Option (List String)
  callbackURLs : Option (List String)
  logoutURLs : Option (List String)
  explicitAuthFlows : Option (List String)
deriving DecidableEq, Repr

inductive SamlMetadataSource where
  | url (url : String)
  | xml (xml : String)
deriving DecidableEq, Repr

/-- What the manager reads of parsed metadata; of a certificate, when it
ends. -/
structure SamlMetadata where
  isSigned : Bool
  signingCertificates : List Int
  encryptionCertificates : List Int
  validUntil : Option Int
deriving DecidableEq, Repr

inductive Failure where
  | manager (e : IdpManagerError)
  | secrets (e : Secrets.Failure)
  | samlMetadata (reason message : String)
  | secretRef (message : String)
  | sdk (e : Secrets.SdkError)
deriving DecidableEq, Repr

inductive Request where
  | secrets (op : Secrets.Request)
  /-- `new Date()`. -/
  | now
  | parseMetadata (source : SamlMetadataSource)
  | describeIdentityProvider (providerName : String)
  | createIdentityProvider (providerName : String) (providerType : ProviderType)
      (settings : ProviderSettings)
  | updateIdentityProvider (providerName : String) (settings : ProviderSettings)
  | deleteIdentityProvider (providerName : String)
  | describeUserPoolClient (clientId : String)
  | updateUserPoolClient (clientId : String) (settings : AppClient)
deriving DecidableEq, Repr

/-- A described provider comes with its last change, if that is known. -/
abbrev Reply : Request → Type
  | .secrets op => Secrets.Reply op
  | .now => Int
  | .parseMetadata _ => Except Failure SamlMetadata
  | .describeIdentityProvider _ => Except Secrets.SdkError (Option (Option Int))
  | .createIdentityProvider _ _ _ => Except Secrets.SdkError Unit
  | .updateIdentityProvider _ _ => Except Secrets.SdkError Unit
  | .deleteIdentityProvider _ => Except Secrets.SdkError Unit
  | .describeUserPoolClient _ => Except Secrets.SdkError (Option AppClient)
  | .updateUserPoolClient _ _ => Except Secrets.SdkError Unit

abbrev Handler (α : Type) := Prog Request Reply α

abbrev request (op : Request) : Prog Request Reply (Reply op) := Prog.call op

/-- A step that throws ends the call. -/
def attempt {α β : Type} (p : Handler (Except Failure α))
    (f : α → Handler (Except Failure β)) : Handler (Except Failure β) := do
  let result : Except Failure α ← p
  match result with
  | .ok a => f a
  | .error e => pure (.error e)

/-- A check before the first await. -/
def checked {α β : Type} (result : Except Failure α) (f : α → Handler (Except Failure β)) :
    Handler (Except Failure β) :=
  attempt (pure result) f

@[simp] theorem checked_ok {α β : Type} (a : α) (f : α → Handler (Except Failure β)) :
    checked (.ok a) f = f a := rfl

def sent (reply : Except Secrets.SdkError Unit) : Except Failure Unit := reply.mapError .sdk

/-! ## Checks -/

def idpIdentifierMaxCount : Nat := 50

def idpIdentifierMaxLength : Nat := 40

/-- `/^[\w\s+=.@-]+$/`. -/
def isIdpIdentifierChar (c : Char) : Bool :=
  c.isAlphanum || c == '_' || Text.isSpace c || "+=.@-".toList.contains c

def checkIdpIdentifier (id : String) : Except IdpManagerError Unit :=
  if id = "" ∨ Text.jsLength id > idpIdentifierMaxLength then
    .error ⟨.idpIdentifierInvalid, "idpIdentifiers entry must be 1-40 chars (got \"" ++ id ++ "\")"⟩
  else if !id.toList.all isIdpIdentifierChar then
    .error ⟨.idpIdentifierInvalid,
      "idpIdentifiers entry \"" ++ id ++ "\" violates Cognito's regex [\\w\\s+=.@-]+"⟩
  else .ok ()

def validateIdpIdentifiers (identifiers : Option (List String)) : Except IdpManagerError Unit :=
  match identifiers with
  | none => .ok ()
  | some identifiers =>
      if identifiers.length > idpIdentifierMaxCount then
        .error ⟨.idpIdentifierInvalid, "idpIdentifiers exceeds Cognito's 50-item cap (got " ++
          toString identifiers.length ++ ")"⟩
      else identifiers.forM checkIdpIdentifier

structure SecretRef where
  arn : String
  versionId : Option String
deriving DecidableEq, Repr

/-- `/^arn:aws:secretsmanager:[a-z0-9-]+:\d{12}:secret:[A-Za-z0-9/_+=.@-]+-[A-Za-z0-9]{6}$/`. -/
def isSecretArn (arn : String) : Bool :=
  match (arn.toList.splitOn ':').map String.ofList with
  | ["arn", "aws", "secretsmanager", region, account, "secret", name] =>
      let suffix := name.toList.reverse.take 6
      let rest := name.toList.reverse.drop 6
      region ≠ "" && region.toList.all isSlugChar
        && account.toList.length == 12 && account.toList.all Char.isDigit
        && suffix.length == 6 && suffix.all Char.isAlphanum
        && rest.head? == some '-' && 1 < rest.length && rest.all fun c => Secrets.isSafe c.toNat
  | _ => false

/-- `secretRef(arn, versionId)`. -/
def secretRef (arn versionId : String) : Except Failure SecretRef :=
  if arn = "" then .error (.secretRef "Invalid SecretRef: ARN must be non-empty")
  else if !isSecretArn arn then
    .error (.secretRef ("Invalid SecretRef: ARN must match " ++
      "arn:aws:secretsmanager:<region>:<account>:secret:<name>-<6char>"))
  else if versionId = "" then
    .error (.secretRef "Invalid SecretRef: versionId, if provided, must be non-empty")
  else if versionId.toList.any Text.isSpace then
    .error (.secretRef "Invalid SecretRef: versionId must not contain whitespace")
  else .ok ⟨arn, some versionId⟩

/-- `{ ...defaults, ...given }`. -/
def spread (defaults : Record) (given : Option Record) : Record :=
  let given := given.getD []
  defaults.map (fun (name, value) => (name, (given.lookup name).getD value)) ++
    given.filter fun (name, _) => (defaults.lookup name).isNone

/-! ## The helpers of both managers -/

/-- `none` if there is no such provider. -/
def describeExisting (providerName : String) : Handler (Except Failure (Option (Option Int))) := do
  let out : Except Secrets.SdkError (Option (Option Int)) ←
    request (.describeIdentityProvider providerName)
  match out with
  | .ok provider => pure (.ok provider)
  | .error .resourceNotFound => pure (.ok none)
  | .error e => pure (.error (.sdk e))

def updateProvider (providerName : String) (settings : ProviderSettings) :
    Handler (Except Failure Unit) := do
  let reply : Except Secrets.SdkError Unit ←
    request (.updateIdentityProvider providerName settings)
  pure (sent reply)

def createProvider (providerName : String) (providerType : ProviderType)
    (settings : ProviderSettings) : Handler (Except Failure Unit) := do
  let reply : Except Secrets.SdkError Unit ←
    request (.createIdentityProvider providerName providerType settings)
  pure (sent reply)

/-- Create or update. -/
def writeProvider (providerName : String) (providerType : ProviderType)
    (settings : ProviderSettings) : Handler (Except Failure Unit) :=
  attempt (describeExisting providerName) fun existing =>
    match existing with
    | some _ => updateProvider providerName settings
    | none => createProvider providerName providerType settings

def attachToAppClient (providerName clientId : String) : Handler (Except Failure Unit) := do
  let desc : Except Secrets.SdkError (Option AppClient) ←
    request (.describeUserPoolClient clientId)
  match desc with
  | .error e => pure (.error (.sdk e))
  | .ok none => pure (.error (.manager ⟨.notFound, "App client " ++ clientId ++ " not found"⟩))
  | .ok (some c) =>
      let current := c.supportedIdentityProviders.getD []
      if current.contains providerName then pure (.ok ())
      else do
        let reply : Except Secrets.SdkError Unit ← request (.updateUserPoolClient clientId
          { c with supportedIdentityProviders := some (current ++ [providerName]) })
        pure (sent reply)

def detachFromAppClient (providerName clientId : String) : Handler (Except Failure Unit) := do
  let desc : Except Secrets.SdkError (Option AppClient) ←
    request (.describeUserPoolClient clientId)
  match desc with
  | .error .resourceNotFound => pure (.ok ())
  | .error e => pure (.error (.sdk e))
  | .ok none => pure (.ok ())
  | .ok (some c) =>
      let current := c.supportedIdentityProviders.getD []
      if !current.contains providerName then pure (.ok ())
      else do
        let next := current.filter fun n => n ≠ providerName
        let reply : Except Secrets.SdkError Unit ← request (.updateUserPoolClient clientId
          { c with supportedIdentityProviders := some next })
        pure (sent reply)

def forEach (act : String → Handler (Except Failure Unit)) :
    List String → Handler (Except Failure Unit)
  | [] => pure (.ok ())
  | id :: ids => attempt (act id) fun _ => forEach act ids

def deleteProvider (providerName : String) : Handler (Except Failure Unit) := do
  let reply : Except Secrets.SdkError Unit ← request (.deleteIdentityProvider providerName)
  match reply with
  | .ok () => pure (.ok ())
  | .error .resourceNotFound => pure (.ok ())
  | .error e => pure (.error (.sdk e))

/-- The derived name; both managers pass `new Map()`. -/
def providerName (rt : Runtime) (tenantId : String) : Except Failure String :=
  (normaliseIdpName rt tenantId []).mapError .manager

def deleteIdp (rt : Runtime) (tenantId : String) (appClientIds : List String) :
    Handler (Except Failure Unit) :=
  checked (providerName rt tenantId) fun name =>
    attempt (forEach (detachFromAppClient name) appClientIds) fun _ => deleteProvider name

def attachIdp (rt : Runtime) (tenantId : String) (appClientIds : List String) :
    Handler (Except Failure Unit) :=
  checked (providerName rt tenantId) fun name => forEach (attachToAppClient name) appClientIds

inductive Status where
  | active
  | pending
  | error
deriving DecidableEq, Repr

/-- The part that the records of both managers share. -/
structure IdpRecord where
  tenantId : String
  cognitoIdpName : String
  status : Status
  attachedAppClientIds : List String
  lastSyncedAt : Int
deriving DecidableEq, Repr

def getIdp (rt : Runtime) (tenantId : String) : Handler (Except Failure (Option IdpRecord)) :=
  checked (providerName rt tenantId) fun name =>
    attempt (describeExisting name) fun existing =>
      match existing with
      | none => pure (.ok none)
      | some (some lastModified) => pure (.ok (some ⟨tenantId, name, .active, [], lastModified⟩))
      | some none => do
          let now : Int ← request .now
          pure (.ok (some ⟨tenantId, name, .active, [], now⟩))

/-! ## `OidcIdpManager` -/

structure OidcIdpInput where
  tenantId : String
  issuer : String
  clientId : String
  clientSecretArn : String
  scopes : Option (List String)
  attributeMapping : Option Record
  idpIdentifiers : Option (List String)

structure OidcIdpRecord extends IdpRecord where
  clientSecret : Option SecretRef
deriving DecidableEq, Repr

namespace OidcIdpManager

def defaultScopes : List String := ["openid", "email", "profile"]

def defaultAttributeMapping : Record :=
  [("email", "email"), ("email_verified", "email_verified"), ("given_name", "given_name"),
    ("family_name", "family_name"), ("name", "name")]

/-- The secret of the tenant, read through the secrets client. -/
def readSecret (secretsClient : Secrets.IdpSecretsClient) (lastIndex : Nat) (tenantId : String) :
    Handler (Except Failure Secrets.SecretReadResult) := do
  let read : Except Secrets.Failure Secrets.SecretReadResult ←
    Prog.embed .secrets
      (Secrets.getSecretValue secretsClient lastIndex tenantId Secrets.defaultKind).1
  pure (read.mapError .secrets)

def settings (input : OidcIdpInput) (plaintext : String) : ProviderSettings :=
  ⟨[("client_id", input.clientId), ("client_secret", plaintext),
      ("attributes_request_method", "GET"), ("oidc_issuer", input.issuer),
      ("authorize_scopes", " ".intercalate (input.scopes.getD defaultScopes))],
    spread defaultAttributeMapping input.attributeMapping, input.idpIdentifiers⟩

def upsert (rt : Runtime) (secretsClient : Secrets.IdpSecretsClient) (lastIndex : Nat)
    (input : OidcIdpInput) : Handler (Except Failure OidcIdpRecord) :=
  checked ((validateIdpIdentifiers input.idpIdentifiers).mapError .manager) fun _ =>
  checked (providerName rt input.tenantId) fun name =>
  attempt (readSecret secretsClient lastIndex input.tenantId) fun read =>
  attempt (writeProvider name .oidc (settings input read.plaintext)) fun _ =>
  checked (secretRef read.arn read.versionId) fun pinnedClientSecret => do
    let now : Int ← request .now
    pure (.ok ⟨⟨input.tenantId, name, .active, [], now⟩, some pinnedClientSecret⟩)

def get (rt : Runtime) (tenantId : String) : Handler (Except Failure (Option IdpRecord)) :=
  getIdp rt tenantId

def delete (rt : Runtime) (tenantId : String) (appClientIds : List String) :
    Handler (Except Failure Unit) :=
  deleteIdp rt tenantId appClientIds

def attachToAppClients (rt : Runtime) (tenantId : String) (appClientIds : List String) :
    Handler (Except Failure Unit) := attachIdp rt tenantId appClientIds

end OidcIdpManager

/-! ## `SamlIdpManager` -/

structure SamlIdpInput where
  tenantId : String
  metadata : SamlMetadataSource
  attributeMapping : Option Record
  idpIdentifiers : Option (List String)
  encryptAssertions : Option Bool
  acceptUnsignedMetadata : Option Bool

structure SamlIdpRecord extends IdpRecord where
  metadataExpiresAt : Option Int
  signingCertNotAfter : Option Int
deriving DecidableEq, Repr

namespace SamlIdpManager

def defaultAttributeMapping : Record :=
  [("email", "http://schemas.xmlsoap.org/ws/2005/05/identity/claims/emailaddress"),
    ("given_name", "http://schemas.xmlsoap.org/ws/2005/05/identity/claims/givenname"),
    ("family_name", "http://schemas.xmlsoap.org/ws/2005/05/identity/claims/surname"),
    ("name", "http://schemas.xmlsoap.org/ws/2005/05/identity/claims/name")]

def deriveEncryptedResponses (parsed : SamlMetadata) (explicit : Option Bool) : String :=
  if explicit.getD (!parsed.encryptionCertificates.isEmpty) then "true" else "false"

def earliestCertExpiry (parsed : SamlMetadata) : Option Int :=
  (parsed.signingCertificates ++ parsed.encryptionCertificates).min?

def settings (input : SamlIdpInput) (parsed : SamlMetadata) : ProviderSettings :=
  let source := match input.metadata with
    | .url url => ("MetadataURL", url)
    | .xml xml => ("MetadataFile", xml)
  ⟨[("IDPSignout", "false"), ("RequestSigningAlgorithm", "rsa-sha256"),
      ("EncryptedResponses", deriveEncryptedResponses parsed input.encryptAssertions), source],
    spread defaultAttributeMapping input.attributeMapping, input.idpIdentifiers⟩

/-- Unsigned metadata is refused by default, and so is metadata without a
signing certificate. -/
def checkMetadata (input : SamlIdpInput) (parsed : SamlMetadata) : Except Failure Unit :=
  if !parsed.isSigned && input.acceptUnsignedMetadata ≠ some true then
    .error (.samlMetadata "unsigned"
      ("Refusing to register an SAML IdP with unsigned metadata for tenant \"" ++ input.tenantId ++
        "\". Pass acceptUnsignedMetadata: true to override, and surface a warning in your admin UI " ++
        "(see doc/federation/04-saml.md § Trust on paste)."))
  else if parsed.signingCertificates.isEmpty then
    .error (.samlMetadata "no_signing_cert"
      ("SAML metadata for tenant \"" ++ input.tenantId ++ "\" contains no signing certificate"))
  else .ok ()

def upsert (rt : Runtime) (input : SamlIdpInput) : Handler (Except Failure SamlIdpRecord) :=
  checked ((validateIdpIdentifiers input.idpIdentifiers).mapError .manager) fun _ =>
  attempt (request (.parseMetadata input.metadata)) fun parsed =>
  checked (checkMetadata input parsed) fun _ =>
  checked (providerName rt input.tenantId) fun name =>
  attempt (writeProvider name .saml (settings input parsed)) fun _ => do
    let now : Int ← request .now
    pure (.ok ⟨⟨input.tenantId, name, .active, [], now⟩, parsed.validUntil,
      earliestCertExpiry parsed⟩)

def get (rt : Runtime) (tenantId : String) : Handler (Except Failure (Option IdpRecord)) :=
  getIdp rt tenantId

def delete (rt : Runtime) (tenantId : String) (appClientIds : List String) :
    Handler (Except Failure Unit) :=
  deleteIdp rt tenantId appClientIds

def attachToAppClients (rt : Runtime) (tenantId : String) (appClientIds : List String) :
    Handler (Except Failure Unit) := attachIdp rt tenantId appClientIds

end SamlIdpManager

end SaasFoundation.Vestibulum.Idp
