import Mathlib.Algebra.Order.Monoid.WithTop
import Mathlib.Algebra.Order.Ring.Rat
import SaasFoundation.Foundation.Audit.PiiFilter
import SaasFoundation.Lib.JsonSize

/-!
# The audit log

`buildEvent` of `audit-log.ts`: the input is validated, its metadata scrubbed
and cut down to size, and an id and a timestamp are minted. Of metadata that
is too large the largest properties are dropped, one after another, until the
rest fits; then the event says that they were.
-/

namespace SaasFoundation.Foundation.Audit

open Lib Lib.JsonText

variable {N : Type} [JsNumbers N]

inductive AuditSeverity where
  | info
  | warning
  | error

inductive AuditOutcome where
  | success
  | failure

inductive ProviderType where
  | oidc
  | saml

structure ActorIdp where
  providerName : String
  providerType : ProviderType

inductive AuditActor where
  | user (userSub : String) (idp : Option ActorIdp)
  | service (serviceName : String)
  | system (component : String)
  | anonymous

structure AuditResource where
  kind : String
  id : String

structure EmitInput (N : Type) where
  tenantId : Option String
  actor : AuditActor
  action : String
  resource : Option AuditResource
  outcome : AuditOutcome
  failureReason : Option String
  severity : AuditSeverity
  requestId : Option String
  traceId : Option String
  ipAddress : Option String
  userAgent : Option String
  metadata : Option (JsObject (JsonValue N))

structure AuditEvent (N : Type) extends EmitInput N where
  id : String
  timestamp : String

inductive AuditError where
  /-- `AuditEventValidationError`. -/
  | validation (message : String) (issues : List String)
  | range (message : String)

/-- An issue of a failed parse. -/
structure Issue where
  path : List String
  message : String

/-- What `buildEvent` calls: the schema, the clock's texts and the text of a
number. -/
structure Platform (N : Type) where
  toLowerCase : String → String
  /-- `EmitInputSchema.safeParse`. -/
  safeParse : EmitInput N → Except (List Issue) (EmitInput N)
  ulid : ℚ → Except String String
  /-- `new Date(ms).toISOString()`. -/
  toISOString : ℚ → Except String String
  numberText : WithTop ℚ → String

inductive OversizePolicy where
  | reject
  | truncate
  deriving DecidableEq

def defaultMetadataMaxBytes : WithTop ℚ := (32768 : ℚ)

structure AuditLogOptions where
  piiFilter : Option PiiFilter := none
  /-- Any number; `⊤` is `Infinity`. -/
  metadataMaxBytes : Option (WithTop ℚ) := none
  metadataOversizePolicy : Option OversizePolicy := none

structure AuditLog where
  piiFilter : PiiFilter
  metadataMaxBytes : WithTop ℚ
  oversizePolicy : OversizePolicy

/-- `new AuditLog(store, options)`. -/
def AuditLog.new (p : Platform N) (options : AuditLogOptions) : AuditLog where
  piiFilter := options.piiFilter.getD (.new p.toLowerCase {})
  metadataMaxBytes := options.metadataMaxBytes.getD defaultMetadataMaxBytes
  oversizePolicy := options.metadataOversizePolicy.getD .reject

/-- `size <= maxBytes`. -/
def Fits (maxBytes : WithTop ℚ) (size : Nat) : Prop := ((size : ℚ) : WithTop ℚ) ≤ maxBytes

instance (maxBytes : WithTop ℚ) (size : Nat) : Decidable (Fits maxBytes size) :=
  inferInstanceAs (Decidable (_ ≤ _))

/-- `Buffer.byteLength(JSON.stringify(metadata), "utf-8")`. -/
def encodedSize (metadata : JsObject (JsonValue N)) : Nat := jsonSize (.obj metadata.properties)

/-! ## The size of the metadata -/

structure Entry (N : Type) where
  key : String
  value : JsonValue N
  size : Nat

/-- The entries of an object, the largest first. -/
def sizedEntries (metadata : JsObject (JsonValue N)) : List (Entry N) :=
  let entries := metadata.properties.map fun q => ⟨q.1, q.2, jsonSize (.obj [q])⟩
  entries.mergeSort fun a b => decide (b.size ≤ a.size)

/-- What is left without the keys that were dropped. -/
def rebuild (entries : List (Entry N)) (dropped : List String) : JsObject (JsonValue N) :=
  entries.foldl (fun acc e => if e.key ∈ dropped then acc else acc.assign e.key e.value) .empty

/-- The loop over the entries, on those that are ahead of it. -/
def dropLargest (maxBytes : WithTop ℚ) (entries : List (Entry N)) :
    List (Entry N) → List String → List String
  | [], dropped => dropped
  | e :: ahead, dropped =>
      let current := rebuild entries dropped
      if Fits maxBytes (encodedSize current) then dropped
      else dropLargest maxBytes entries ahead (dropped ++ [e.key])

/-- The keys that are dropped in the end. -/
def AuditLog.droppedKeys (log : AuditLog) (metadata : JsObject (JsonValue N)) : List String :=
  let entries := sizedEntries metadata
  dropLargest log.metadataMaxBytes entries entries []

/-- The metadata that may be kept, and whether that is less than it was. -/
def AuditLog.enforceMetadataSize (p : Platform N) (log : AuditLog)
    (metadata : JsObject (JsonValue N)) : Except AuditError (JsObject (JsonValue N) × Bool) :=
  let size := encodedSize metadata
  let limit := p.numberText log.metadataMaxBytes
  if Fits log.metadataMaxBytes size then .ok (metadata, false)
  else
    match log.oversizePolicy with
    | .reject =>
        .error (.validation s!"AuditEvent metadata exceeds {limit} bytes (was {size})"
          [s!"metadata: encoded size {size} > {limit}"])
    | .truncate => .ok (rebuild (sizedEntries metadata) (log.droppedKeys metadata), true)

/-! ## The event -/

def truncatedMarker : String := "metadata_truncated"

/-- `metadataTruncated ? { ...metadata, metadata_truncated: true } : metadata`. -/
def withMarker (metadata : JsObject (JsonValue N)) (truncated : Bool) : JsObject (JsonValue N) :=
  if truncated then (JsObject.empty.spread metadata).define truncatedMarker (.bool true)
  else metadata

def issueText (issue : Issue) : String := ".".intercalate issue.path ++ ": " ++ issue.message

def validationError (issues : List Issue) : AuditError :=
  .validation ("AuditEvent input failed validation: " ++ "; ".intercalate (issues.map issueText))
    (issues.map issueText)

/-- Scrubbed and cut down to size; `none` if there is no metadata. -/
def AuditLog.metadataOf (p : Platform N) (log : AuditLog) (validated : EmitInput N) :
    Except AuditError (Option (JsObject (JsonValue N))) :=
  match validated.metadata with
  | none => .ok none
  | some metadata =>
      let scrubbed := log.piiFilter.apply p.toLowerCase metadata
      (log.enforceMetadataSize p scrubbed).map fun sizeCheck =>
        some (withMarker sizeCheck.1 sizeCheck.2)

def AuditLog.buildEvent (p : Platform N) (log : AuditLog) (nowMs : ℚ) (input : EmitInput N) :
    Except AuditError (AuditEvent N) := do
  let validated ← (p.safeParse input).mapError validationError
  let metadata ← log.metadataOf p validated
  let id ← (p.ulid nowMs).mapError .range
  let timestamp ← (p.toISOString nowMs).mapError .range
  return { validated with id, timestamp, metadata }

end SaasFoundation.Foundation.Audit
