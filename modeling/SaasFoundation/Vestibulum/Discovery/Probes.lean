import SaasFoundation.Lib.Prog
import SaasFoundation.Vestibulum.Discovery.PrivateIp

/-!
# `oidc-probe.ts` and `saml-metadata.ts`

Two functions fetch a document from a URL that an administrator has given.
Both look the host up, check every address and hand the first one to the
transport. The resolver and the transport are outside.
-/

namespace SaasFoundation.Vestibulum.Discovery

open Lib Lib.Text

/-! ## What Node gives -/

/-- A parsed URL. -/
structure Url where
  protocol : String
  username : String
  password : String
  hostname : String
  /-- `url.toString()`. -/
  href : String
deriving DecidableEq

inductive Family where
  | v4
  | v6
deriving DecidableEq, Repr

structure Node where
  /-- `new URL(text)`; none is an exception. -/
  parseUrl : String → Option Url
  /-- `isIP(text)`; none is 0. -/
  isIP : String → Option Family

/-! ## Errors -/

inductive Reason where
  | urlTooLong
  | unreachable
  | notHttps
  | urlHasCredentials
  | ssrfBlockedDestination
  | timeout
  | redirectBlocked
  | tooLarge
  | invalidXml
deriving DecidableEq, Repr

inductive DiscoveryError where
  | typed (reason : Reason) (message : String)
  /-- An error of the runtime that is passed on. -/
  | raised (message : String)
deriving DecidableEq, Repr

/-! ## The network -/

inductive FetchError where
  | aborted
  | failed (message : String)

/-- The chunks of the body as they are read. -/
structure Response where
  status : Nat
  body : Option (List (Except String (List Nat)))

def Response.redirects (response : Response) : Bool :=
  decide (300 ≤ response.status) && decide (response.status < 400)

def Response.isOk (response : Response) : Bool :=
  decide (200 ≤ response.status) && decide (response.status < 300)

/-- What a `fetch` has done: the addresses the transport has looked up by
itself, those it has connected to, and the response. -/
structure Exchange where
  looked : List String
  connections : List String
  response : Except FetchError Response

inductive Request where
  | resolve (hostname : String)
  /-- `fetch(url, { redirect: "manual", dispatcher })`; the dispatcher is
  bound to an address. -/
  | fetch (url hostname : String) (pin : Option (String × Family))

abbrev Reply : Request → Type
  | .resolve _ => Option (List String)
  | .fetch _ _ _ => Exchange

abbrev Handler (α : Type) := Prog Request Reply α

abbrev DiscoveryEvent := Event Request Reply

/-! ## What the two functions share -/

/-- `hostname.replace(/^\[|\]$/g, "")`. -/
def unbracketed (hostname : String) : String :=
  let front := if hostname.toList.head? = some '[' then hostname.toList.tail else hostname.toList
  String.ofList (if front.getLast? = some ']' then front.dropLast else front)

/-- Check the URL, look its host up, choose the address and fetch. -/
def fetcher {α : Type} (checkUrl : Except DiscoveryError Url)
    (choose : String → Option (List String) → Except DiscoveryError (Option (String × Family)))
    (target : Url → String) (finish : Url → Exchange → Except DiscoveryError α) :
    Handler (Except DiscoveryError α) :=
  match checkUrl with
  | .error e => .ret (.error e)
  | .ok url => .ask (.resolve (unbracketed url.hostname)) fun answer =>
      match choose (unbracketed url.hostname) answer with
      | .error e => .ret (.error e)
      | .ok pin => .ask (.fetch (target url) (unbracketed url.hostname) pin) fun exchange =>
          .ret (finish url exchange)

inductive Body where
  | whole (bytes : List Nat)
  | tooLarge
  | failed (message : String)

/-- Read chunks until there are more bytes than allowed. -/
def readBody (maxBytes : Nat) (bytes : List Nat) : List (Except String (List Nat)) → Body
  | [] => .whole bytes
  | .error message :: _ => .failed message
  | .ok chunk :: chunks =>
      if maxBytes < (bytes ++ chunk).length then .tooLarge
      else readBody maxBytes (bytes ++ chunk) chunks

section Functions

variable (node : Node) {α : Type}

/-! ## `probeOidcIssuer` -/

def maxIssuerUrlLength : Nat := 2048

def maxBodyBytes : Nat := 1024 * 1024

def oidcUrl (issuerUrl : String) : Except DiscoveryError Url :=
  if maxIssuerUrlLength < jsLength issuerUrl then
    .error (.typed .urlTooLong "issuerUrl exceeds maximum length of 2048 characters")
  else match node.parseUrl issuerUrl with
    | none => .error (.typed .unreachable "issuerUrl is not a valid absolute URL")
    | some url =>
        if url.protocol ≠ "https:" then
          .error (.typed .notHttps "issuerUrl must use https://")
        else if url.username ≠ "" ∨ url.password ≠ "" then
          .error (.typed .urlHasCredentials "issuerUrl must not include user:pass@ credentials")
        else .ok url

/-- The address that the probe is pinned to. -/
def oidcPin (hostname : String) (answer : Option (List String)) :
    Except DiscoveryError (Option (String × Family)) :=
  let unresolved : DiscoveryError :=
    .typed .unreachable ("Could not resolve issuerUrl hostname \"" ++ hostname ++ "\"")
  match answer with
  | none => .error unresolved
  | some [] => .error unresolved
  | some (validatedIp :: rest) =>
      match (validatedIp :: rest).find? isPrivateAddress with
      | some addr => .error (.typed .ssrfBlockedDestination
          ("issuerUrl resolves to a non-public address (" ++ addr ++ ")"))
      | none =>
          if validatedIp = "" then
            .error (.typed .unreachable "DNS resolution returned no addresses")
          else match node.isIP validatedIp with
            | none => .error (.typed .unreachable
                ("Resolver returned a non-IP address for \"" ++ hostname ++ "\""))
            | some validatedFamily => .ok (some (validatedIp, validatedFamily))

def baseHref (url : Url) : String :=
  if url.href.toList.getLast? = some '/' then url.href else url.href ++ "/"

/-- The rest of the probe: `validate` reads the document. -/
def runProbe (validate : String → List Nat → Except DiscoveryError α) (url : Url)
    (exchange : Exchange) : Except DiscoveryError α :=
  match exchange.response with
  | .error .aborted => .error (.typed .timeout "Probe timed out after 5000ms")
  | .error (.failed message) =>
      .error (.typed .unreachable ("Could not reach issuer (" ++ message ++ ")"))
  | .ok response =>
      if response.redirects then
        .error (.typed .redirectBlocked ("Issuer returned HTTP " ++ toString response.status ++
          "; redirects are not followed"))
      else if !response.isOk then
        .error (.typed .unreachable ("Issuer returned HTTP " ++ toString response.status))
      else match response.body with
        | none => .error (.typed .unreachable "Issuer returned an empty response body")
        | some chunks =>
            match readBody maxBodyBytes [] chunks with
            | .tooLarge => .error (.typed .tooLarge "Issuer response exceeded 1048576 bytes")
            | .failed message => .error (.typed .unreachable
                ("Failed reading issuer response: " ++ message))
            | .whole bytes => validate (baseHref url) bytes

def probeOidcIssuer (validate : String → List Nat → Except DiscoveryError α)
    (issuerUrl : String) : Handler (Except DiscoveryError α) :=
  fetcher (oidcUrl node issuerUrl) (oidcPin node)
    (fun url => baseHref url ++ ".well-known/openid-configuration") (runProbe validate)

/-! ## `fetchMetadataXml` -/

def maxUrlLength : Nat := 2048

def samlUrl (url : String) : Except DiscoveryError Url :=
  if maxUrlLength < jsLength url then
    .error (.typed .ssrfBlockedDestination "Metadata URL exceeds 2048 chars.")
  else match node.parseUrl url with
    | none => .error (.typed .ssrfBlockedDestination "Metadata URL is not a valid absolute URL.")
    | some parsed =>
        if parsed.protocol ≠ "https:" then
          .error (.typed .ssrfBlockedDestination "Metadata URL must use https://.")
        else if parsed.username ≠ "" ∨ parsed.password ≠ "" then
          .error (.typed .ssrfBlockedDestination "Metadata URL must not include credentials.")
        else .ok parsed

/-- The checks of the two kinds of addresses. -/
def refusedAddress (addr : String) : Bool :=
  if addr.toList.contains ':' then isPrivateIPv6 addr.toList else isPrivateIPv4 addr.toList

/-- The address that the fetch is pinned to. An address that Node does not
take for one is not pinned. -/
def samlPin (hostname : String) (answer : Option (List String)) :
    Except DiscoveryError (Option (String × Family)) :=
  match answer with
  | none => .error (.typed .ssrfBlockedDestination ("Could not resolve " ++ hostname ++ "."))
  | some [] => .error (.typed .ssrfBlockedDestination ("No DNS records for " ++ hostname ++ "."))
  | some (validatedIp :: rest) =>
      match (validatedIp :: rest).find? refusedAddress with
      | some addr => .error (.typed .ssrfBlockedDestination
          ("Metadata URL resolves to a refused address (" ++ addr ++ ")."))
      | none =>
          if validatedIp = "" then
            .error (.typed .unreachable "DNS resolution returned no addresses")
          else .ok ((node.isIP validatedIp).map fun validatedFamily =>
            (validatedIp, validatedFamily))

/-- `decode` is the text decoder and the XML parser. -/
def readMetadata (maxBytes timeoutMs : Nat) (decode : List Nat → Except DiscoveryError α)
    (exchange : Exchange) : Except DiscoveryError α :=
  match exchange.response with
  | .error .aborted => .error (.typed .ssrfBlockedDestination
      ("Metadata fetch timed out after " ++ toString timeoutMs ++ " ms."))
  | .error (.failed message) =>
      .error (.typed .ssrfBlockedDestination ("Metadata fetch failed: " ++ message))
  | .ok response =>
      if response.redirects then
        .error (.typed .redirectBlocked ("Metadata URL returned HTTP " ++
          toString response.status ++ "; redirects are not followed."))
      else if !response.isOk then
        .error (.typed .invalidXml ("Metadata URL returned HTTP " ++ toString response.status ++
          "."))
      else match response.body with
        | none => .error (.typed .invalidXml "Metadata response had no body.")
        | some chunks =>
            match readBody maxBytes [] chunks with
            | .tooLarge => .error (.typed .tooLarge
                ("Metadata body exceeded " ++ toString maxBytes ++ " bytes."))
            | .failed message => .error (.raised message)
            | .whole bytes => decode bytes

def fetchMetadataXml (maxBytes timeoutMs : Nat) (decode : List Nat → Except DiscoveryError α)
    (url : String) : Handler (Except DiscoveryError α) :=
  fetcher (samlUrl node url) (samlPin node) Url.href
    (fun _ => readMetadata maxBytes timeoutMs decode)

end Functions

end SaasFoundation.Vestibulum.Discovery
