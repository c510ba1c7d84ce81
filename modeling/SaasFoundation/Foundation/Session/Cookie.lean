import Mathlib.Data.Rat.Defs
import Mathlib.Algebra.Order.Ring.Rat
import SaasFoundation.Lib.Aead
import SaasFoundation.Lib.Bytes
import SaasFoundation.Lib.Text

/-!
# Session cookies

`crypto.ts` and the class `SessionCookie` of `cookie.ts`. A payload is
encrypted under the primary secret; a token is opened under the primary secret
or, while secrets are rotated, under the fallback. The keys are derived at
their first use and kept.
-/

namespace SaasFoundation.Foundation.Session

open Lib Lib.Bytes Lib.Text Lib.Aead

/-- What a call rejects with. -/
inductive Thrown where
  | sealError (message : String) (cause : Option Thrown)
  | other (message : String)

/-- `webcrypto.subtle`: PBKDF2 from the bytes of a secret and of a salt, and
AES-GCM. -/
structure Subtle (Key : Type) extends Cipher Thrown Key where
  deriveKey : List UInt8 → List UInt8 → Nat → Except Thrown Key

variable {Key : Type}

/-! ## `crypto.ts` -/

def ivLengthBytes : Nat := 12

/-- What `getRandomValues` fills in. -/
structure Iv where
  bytes : List UInt8
  length_eq : bytes.length = ivLengthBytes

def Crypto.seal (subtle : Subtle Key) (iv : Iv) (payload : List UInt8) (key : Key) :
    Except Thrown (List Char) := do
  let ciphertext ← subtle.encrypt key iv.bytes payload
  let envelope := iv.bytes ++ ciphertext
  return toBase64 envelope

def Crypto.unseal (subtle : Subtle Key) (token : List Char) (key : Key) : Option (List UInt8) :=
  let envelope := ofBase64 token
  if envelope.length ≤ ivLengthBytes then none
  else
    let iv := envelope.take ivLengthBytes
    let ciphertext := envelope.drop ivLengthBytes
    match subtle.decrypt key iv ciphertext with
    | .ok plaintext => some plaintext
    | .error _ => none

/-! ## `key-derivation.ts` -/

def defaultPbkdf2Iterations : Nat := 600000

def deriveKey (subtle : Subtle Key) (secret salt : List Char) (iterations : Nat) :
    Except Thrown Key :=
  subtle.deriveKey (ofText secret) (ofText salt) iterations

/-! ## `cookie.ts` -/

def minSecretLength : Nat := 32

def minSaltLength : Nat := 16

structure SessionCookieConfig where
  primarySecret : List Char
  fallbackSecret : Option (List Char)
  salt : List Char
  iterations : Option ℚ

structure SessionCookieConfigError where
  message : String

/-- An instance; the promises of its keys are those of a settled derivation. -/
structure SessionCookie (Key : Type) where
  primarySecret : List Char
  fallbackSecret : Option (List Char)
  salt : List Char
  iterations : Nat
  primaryKeyPromise : Option (Except Thrown Key)
  fallbackKeyPromise : Option (Except Thrown Key)

def tooShort (text : List Char) (bound : Nat) : Bool :=
  jsLength (String.ofList text) < bound

/-- An iteration count that the constructor refuses. -/
def badIterations (n : ℚ) : Bool := n.den ≠ 1 || n < defaultPbkdf2Iterations

/-- `new SessionCookie(config)`. -/
def SessionCookie.new (config : SessionCookieConfig) :
    Except SessionCookieConfigError (SessionCookie Key) :=
  if tooShort config.primarySecret minSecretLength then
    .error ⟨s!"primarySecret must be a string of at least {minSecretLength} characters"⟩
  else if tooShort config.salt minSaltLength then
    .error ⟨s!"salt must be a string of at least {minSaltLength} characters"⟩
  else if config.fallbackSecret.any (tooShort · minSecretLength) then
    .error ⟨s!"fallbackSecret, if provided, must be a string of at least {minSecretLength} characters"⟩
  else if config.iterations.any badIterations then
    .error ⟨s!"iterations must be an integer ≥ {defaultPbkdf2Iterations} (OWASP 2023 minimum)"⟩
  else
    .ok {
      primarySecret := config.primarySecret
      fallbackSecret := config.fallbackSecret
      salt := config.salt
      iterations := (config.iterations.map (·.num.toNat)).getD defaultPbkdf2Iterations
      primaryKeyPromise := none
      fallbackKeyPromise := none
    }

def SessionCookie.getPrimaryKey (subtle : Subtle Key) (c : SessionCookie Key) :
    Except Thrown Key × SessionCookie Key :=
  match c.primaryKeyPromise with
  | some promise => (promise, c)
  | none =>
      let promise := deriveKey subtle c.primarySecret c.salt c.iterations
      (promise, { c with primaryKeyPromise := some promise })

/-- There is no key without a fallback secret. -/
def SessionCookie.getFallbackKey (subtle : Subtle Key) (c : SessionCookie Key) :
    Option (Except Thrown Key) × SessionCookie Key :=
  match c.fallbackSecret with
  | none => (none, c)
  | some fallbackSecret =>
      match c.fallbackKeyPromise with
      | some promise => (some promise, c)
      | none =>
          let promise := deriveKey subtle fallbackSecret c.salt c.iterations
          (some promise, { c with fallbackKeyPromise := some promise })

/-- Every error but a `SealError` becomes the cause of one. -/
def asSealError : Thrown → Thrown
  | .sealError message cause => .sealError message cause
  | err => .sealError "Failed to seal session payload" (some err)

def SessionCookie.seal (subtle : Subtle Key) (c : SessionCookie Key) (iv : Iv)
    (payload : List Char) :
    Except Thrown (List Char) × SessionCookie Key :=
  let (promise, c) := c.getPrimaryKey subtle
  let sent := do
    let key ← promise
    Crypto.seal subtle iv (ofText payload) key
  (sent.mapError asSealError, c)

def SessionCookie.unseal (subtle : Subtle Key) (c : SessionCookie Key) (token : List Char) :
    Except Thrown (Option (List Char)) × SessionCookie Key :=
  match c.getPrimaryKey subtle with
  | (.error err, c) => (.error err, c)
  | (.ok primaryKey, c) =>
      match Crypto.unseal subtle token primaryKey with
      | some primaryResult => (.ok (some (decodeText primaryResult)), c)
      | none =>
          if c.fallbackSecret.isNone then (.ok none, c)
          else
            match c.getFallbackKey subtle with
            | (none, c) => (.ok none, c)
            | (some (.error err), c) => (.error err, c)
            | (some (.ok fallbackKey), c) =>
                match Crypto.unseal subtle token fallbackKey with
                | none => (.ok none, c)
                | some fallbackResult => (.ok (some (decodeText fallbackResult)), c)

end SaasFoundation.Foundation.Session
