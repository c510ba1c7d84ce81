import SaasFoundation.Foundation.Secrets.SecretCache
import SaasFoundation.Lib.Asks
import SaasFoundation.Lib.Script

/-!
# `resolveSecret` and `resolveParameter`

Both look into the cache, fetch on a miss, and put what they have fetched
into the cache. The buffer a caller gets is the cache's own.

Any number of calls share one cache. A `set` fills the buffer of the entry
it replaces with zeros, whoever holds it: two misses for one reference that
overlap take the buffer away from the first.
-/

namespace SaasFoundation.Foundation.Secrets

open Lib

/-! ## The signature -/

structure SecretRef where
  arn : String
  versionId : Option String
deriving DecidableEq

/-- A value the SDK has thrown. -/
structure AwsError where
  name : Option String
  type : Option String
deriving DecidableEq

structure SecretValue where
  secretString : Option String
  secretBinary : Option (List UInt8)

inductive ErrorName where
  | secretsResolveError
  | secretsNotFoundError
  | secretsAccessDeniedError
  | secretsTransientError
  | parameterNotFoundError
  | parameterAccessDeniedError
deriving DecidableEq, Repr

structure SecretsResolveError where
  name : ErrorName
  message : String
deriving DecidableEq

inductive Request where
  | get (key : String)
  | invalidate (key : String)
  | clear
  /-- `GetSecretValue`, retried as the retry policy says. -/
  | getSecretValue (ref : SecretRef)
  | getParameter (name : String) (withDecryption : Bool)
  /-- `Buffer.from(bytes)` and `cache.set`. -/
  | store (key : String) (bytes : List UInt8)

abbrev Reply : Request → Type
  | .get _ => Option Nat
  | .invalidate _ => Bool
  | .clear => Unit
  | .getSecretValue _ => Except AwsError SecretValue
  | .getParameter _ _ => Except AwsError (Option String)
  | .store _ _ => Nat

inductive Output where
  | buffer (value : Nat)
  | thrown (e : SecretsResolveError)
  | done
deriving DecidableEq

abbrev Handler (α : Type) := Prog Request Reply α

/-- Make one request. -/
abbrev request (op : Request) : Handler (Reply op) := Prog.call op

/-! ## The resolvers -/

def secretCacheKey (ref : SecretRef) : String :=
  "secret:" ++ ref.arn ++ ":" ++ ref.versionId.getD "AWSCURRENT"

def parameterCacheKey (name : String) (withDecryption : Bool) : String :=
  "param:" ++ name ++ ":" ++ if withDecryption then "decrypted" else "raw"

def awsErrorName (err : AwsError) : Option String :=
  (err.name.filter (· ≠ "")).or (err.type.filter (· ≠ ""))

def classifySecretsError (err : AwsError) (ref : SecretRef) : SecretsResolveError :=
  match awsErrorName err with
  | some "ResourceNotFoundException" => ⟨.secretsNotFoundError, "Secret not found: " ++ ref.arn⟩
  | some "AccessDeniedException" | some "UnrecognizedClientException" | some "DecryptionFailure" =>
      ⟨.secretsAccessDeniedError, "Access denied for secret: " ++ ref.arn⟩
  | some "ThrottlingException" | some "InternalServiceError" | some "InternalServiceErrorException"
  | some "TimeoutError" =>
      ⟨.secretsTransientError, "Transient failure resolving secret: " ++ ref.arn⟩
  | _ => ⟨.secretsResolveError, "Failed to resolve secret: " ++ ref.arn⟩

def classifyParameterError (err : AwsError) (name : String) : SecretsResolveError :=
  match awsErrorName err with
  | some "ParameterNotFound" => ⟨.parameterNotFoundError, "Parameter not found: " ++ name⟩
  | some "AccessDeniedException" | some "UnrecognizedClientException" =>
      ⟨.parameterAccessDeniedError, "Access denied for parameter: " ++ name⟩
  | some "ThrottlingException" | some "InternalServerError" | some "TimeoutError" =>
      ⟨.secretsTransientError, "Transient failure resolving parameter: " ++ name⟩
  | _ => ⟨.secretsResolveError, "Failed to resolve parameter: " ++ name⟩

/-- The bytes of a reply, or why there are none. -/
def secretBytes (ref : SecretRef) (response : Except AwsError SecretValue) :
    Except SecretsResolveError (List UInt8) :=
  match response with
  | .error err => .error (classifySecretsError err ref)
  | .ok ⟨some text, _⟩ => .ok text.toUTF8.toList
  | .ok ⟨none, some bytes⟩ => .ok bytes
  | .ok ⟨none, none⟩ => .error ⟨.secretsResolveError,
      "Secrets Manager returned no SecretString or SecretBinary for " ++ ref.arn⟩

def parameterBytes (name : String) (response : Except AwsError (Option String)) :
    Except SecretsResolveError (List UInt8) :=
  match response with
  | .error err => .error (classifyParameterError err name)
  | .ok none => .error ⟨.parameterNotFoundError, "Parameter has no value: " ++ name⟩
  | .ok (some value) => .ok value.toUTF8.toList

/-- The miss path of both. -/
def load (key : String) (fetch : Request)
    (finish : Reply fetch → Except SecretsResolveError (List UInt8)) : Handler Output := do
  let response ← request fetch
  match finish response with
  | .error e => pure (.thrown e)
  | .ok bytes => do
      let value : Nat ← request (.store key bytes)
      pure (.buffer value)

def resolve (key : String) (fresh : Bool) (fetch : Request)
    (finish : Reply fetch → Except SecretsResolveError (List UInt8)) : Handler Output :=
  if fresh then do
    let _ ← request (.invalidate key)
    load key fetch finish
  else do
    let hit : Option Nat ← request (.get key)
    match hit with
    | some value => pure (.buffer value)
    | none => load key fetch finish

def resolveSecret (ref : SecretRef) (fresh : Bool) : Handler Output :=
  resolve (secretCacheKey ref) fresh (.getSecretValue ref) (secretBytes ref)

def resolveParameter (name : String) (withDecryption : Option Bool) (fresh : Bool) : Handler Output :=
  resolve (parameterCacheKey name (withDecryption.getD true)) fresh
    (.getParameter name (withDecryption.getD true)) (parameterBytes name)

/-! ## Calls that share a cache -/

structure World where
  cache : SecretCache
  /-- The cache's clock, which may be set back. -/
  now : ℚ
  /-- The latest time it has shown. -/
  latest : ℚ

inductive Job where
  | resolveSecret (ref : SecretRef) (fresh : Bool)
  | resolveParameter (name : String) (withDecryption : Option Bool) (fresh : Bool)
  | invalidate (key : String)
  | clear

def start : Job → Handler Output
  | .resolveSecret ref fresh => Secrets.resolveSecret ref fresh
  | .resolveParameter name withDecryption fresh =>
      Secrets.resolveParameter name withDecryption fresh
  | .invalidate key => do
      let _ ← request (.invalidate key)
      pure .done
  | .clear => do
      let _ ← request .clear
      pure .done

/-- The cache key of a call that returns a buffer. -/
def Job.key : Job → Option String
  | .resolveSecret ref _ => some (secretCacheKey ref)
  | .resolveParameter name withDecryption _ =>
      some (parameterCacheKey name (withDecryption.getD true))
  | _ => none

def serve (options : SecretCacheOptions) (w : World) : (op : Request) → Reply op → World → Prop
  | .get key, r, w' =>
      r = (w.cache.get w.now key).1 ∧ w' = { w with cache := (w.cache.get w.now key).2 }
  | .invalidate key, r, w' =>
      r = (w.cache.invalidate key).1 ∧ w' = { w with cache := (w.cache.invalidate key).2 }
  | .clear, _, w' => w' = { w with cache := w.cache.clear }
  | .store key bytes, r, w' =>
      r = (w.cache.alloc bytes).1 ∧
        w' = { w with cache := (w.cache.alloc bytes).2.set options w.now key r }
  | .getSecretValue _, _, w' => w' = w
  | .getParameter _ _, _, w' => w' = w

def World.tick (w : World) (now : ℚ) : World := { w with now := now, latest := max w.latest now }

/-- Any calls over one cache, empty at first. -/
def process (options : SecretCacheOptions) : System Request Reply World Job Output where
  start := start
  permits := fun _ _ => True
  serve := serve options
  drift := fun w w' => ∃ now, w' = w.tick now
  init := fun w => w.cache = .empty ∧ w.latest = w.now

abbrev SecretsConfig := Config Request Reply World Job Output

end SaasFoundation.Foundation.Secrets
