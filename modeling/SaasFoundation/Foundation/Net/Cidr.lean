import SaasFoundation.Lib.Addresses

/-!
# CIDR membership

`cidr.ts`, `rfc6890.ts` and the two predicates of `derive.ts`: parsers of
addresses by bit arithmetic, the tables of reserved blocks, and whether an
address lies in one. A text is a list of characters. An address that a
parser refuses is in no block.
-/

namespace SaasFoundation.Foundation.Net

open Lib Lib.Text Lib.Addresses

/-! ## Numbers -/

/-- `Number(text)` of a text of hexadecimal digits, where that is a whole
number: `1e2` and `0b11` are numbers too. -/
def toWhole (text : List Char) : Option Nat :=
  let digits := text.takeWhile Char.isDigit
  match text with
  | [] => some 0
  | '0' :: b :: bits =>
      if (b == 'b' || b == 'B') && !bits.isEmpty && bits.all (fun c => c == '0' || c == '1') then
        some (bits.foldl (fun n c => 2 * n + (c.toNat - 48)) 0)
      else decimal digits (text.dropWhile Char.isDigit)
  | _ => decimal digits (text.dropWhile Char.isDigit)
where
  decimal (digits rest : List Char) : Option Nat :=
    match rest with
    | [] => some (digitsValue digits)
    | e :: power =>
        if (e == 'e' || e == 'E') && !digits.isEmpty && isDigits power then
          some (digitsValue digits * 10 ^ digitsValue power)
        else none

/-- A number that fits a byte. -/
def toByte (text : List Char) : Option Nat := (toWhole text).filter fun n => decide (n ≤ 255)

/-! ## IPv4 -/

def parseOctet (result : Nat) (part : List Char) : Option Nat :=
  if !isDigits part then none
  -- leading zeros are octal to some
  else if decide (1 < part.length) && part.head? == some '0' then none
  else if 255 < digitsValue part then none
  else some ((result <<< 8 ||| digitsValue part) % 2 ^ 32)

def parseIPv4 (s : List Char) : Option Nat :=
  let parts := s.splitOn '.'
  if parts.length ≠ 4 then none else parts.foldlM parseOctet 0

def ipv4InCidr (ip networkInt prefixLen : Nat) : Bool :=
  if prefixLen = 0 then true
  else if prefixLen = 32 then ip == networkInt
  else
    let mask := ((2 ^ 32 - 1) <<< (32 - prefixLen)) % 2 ^ 32
    (ip &&& mask) == (networkInt &&& mask)

/-- The network and the length of its prefix. -/
def cutCidr (cidr : List Char) : Option (List Char × Nat) :=
  if cidr.contains '/' then
    (toWhole ((cidr.dropWhile (· != '/')).drop 1)).map fun prefixLen =>
      (cidr.takeWhile (· != '/'), prefixLen)
  else none

def isIPv4InCidr (ip cidr : List Char) : Bool :=
  match cutCidr cidr with
  | none => false
  | some (networkStr, prefixLen) =>
      if 32 < prefixLen then false
      else match parseIPv4 ip, parseIPv4 networkStr with
        | some ipInt, some networkInt => ipv4InCidr ipInt networkInt prefixLen
        | _, _ => false

/-! ## IPv6 -/

/-- The text before and after the first `::`. -/
def cutPair : List Char → Option (List Char × List Char)
  | ':' :: ':' :: after => some ([], after)
  | c :: cs => (cutPair cs).map fun cut => (c :: cut.1, cut.2)
  | [] => none

/-- The bytes of a dotted last group. -/
def ipv4Bytes (lastGroup : List Char) : Option (List Nat) :=
  let ipv4Parts := lastGroup.splitOn '.'
  if ipv4Parts.length ≠ 4 then none else ipv4Parts.mapM toByte

def writeGroup (hexStr : List Char) : Option (List Nat) :=
  if decide (1 ≤ hexStr.length) && decide (hexStr.length ≤ 4) && hexStr.all isHex then
    let val := hexValue hexStr
    some [(val >>> 8) &&& 0xff, val &&& 0xff]
  else none

/-- The groups before and after the `::`, and the bytes of the dotted quad. -/
def assemble (compressed : Bool) (hi lo : List (List Char)) (quad : Option (List Nat)) :
    Option (List Nat) := do
  let ipv4GroupCount : Nat := if quad.isSome then 2 else 0
  let fillerCount : ℤ := if compressed then 8 - hi.length - lo.length - ipv4GroupCount else 0
  if fillerCount < 0 then none
  else if !compressed && hi.length + ipv4GroupCount != 8 then none
  else
    let high ← hi.mapM writeGroup
    let low ← lo.mapM writeGroup
    let bytes := high.flatten ++ List.replicate (2 * fillerCount.toNat) 0 ++ low.flatten ++
      quad.getD []
    if bytes.length ≠ 16 then none else some bytes

/-- Without the last group, which is dotted. -/
def dropQuad (hi lo : List (List Char)) : List (List Char) × List (List Char) :=
  if lo.getLast?.any (·.contains '.') then (hi, lo.dropLast)
  else if hi.getLast?.any (·.contains '.') then (hi.dropLast, lo)
  else (hi, lo)

def parseGroups (compressed : Bool) (hi lo : List (List Char)) : Option (List Nat) :=
  match (hi ++ lo).getLast? with
  | some lastGroup =>
      if lastGroup.contains '.' then
        (ipv4Bytes lastGroup).bind fun quad =>
          assemble compressed (dropQuad hi lo).1 (dropQuad hi lo).2 (some quad)
      else assemble compressed hi lo none
  | none => assemble compressed hi lo none

def parseIPv6 (s : List Char) : Option (List Nat) :=
  let addr := s.takeWhile (· != '%')
  match cutPair addr with
  | none => parseGroups false (addr.splitOn ':') []
  | some (before, after) =>
      parseGroups true ((before.splitOn ':').filter (· ≠ [])) ((after.splitOn ':').filter (· ≠ []))

def ipv6InCidr (ipBytes networkBytes : List Nat) (prefixLen : Nat) : Bool :=
  if prefixLen = 0 then true
  else
    let fullBytes := prefixLen / 8
    let remainingBits := prefixLen % 8
    ((List.range fullBytes).all fun i => ipBytes.getD i 0 == networkBytes.getD i 0) &&
      (decide (remainingBits = 0) ||
        let mask := 0xff &&& (0xff <<< (8 - remainingBits))
        (ipBytes.getD fullBytes 0 &&& mask) == (networkBytes.getD fullBytes 0 &&& mask))

def isIPv6InCidr (ip cidr : List Char) : Bool :=
  match cutCidr cidr with
  | none => false
  | some (networkStr, prefixLen) =>
      if 128 < prefixLen then false
      else match parseIPv6 ip, parseIPv6 networkStr with
        | some ipBytes, some networkBytes => ipv6InCidr ipBytes networkBytes prefixLen
        | _, _ => false

/-! ## Reserved blocks -/

/-- `RFC6890_IPV4_RESERVED`. -/
def rfc6890Ipv4Reserved : List String :=
  ["0.0.0.0/8", "10.0.0.0/8", "100.64.0.0/10", "127.0.0.0/8", "169.254.0.0/16", "172.16.0.0/12",
    "192.0.0.0/24", "192.0.2.0/24", "192.168.0.0/16", "198.18.0.0/15", "198.51.100.0/24",
    "203.0.113.0/24", "224.0.0.0/4", "240.0.0.0/4", "255.255.255.255/32"]

/-- `RFC6890_IPV6_RESERVED`. -/
def rfc6890Ipv6Reserved : List String :=
  ["::1/128", "::/128", "::ffff:0:0/96", "::/96", "100::/64", "2001::/23", "2001::/32",
    "2001:2::/48", "2001:db8::/32", "2002::/16", "fc00::/7", "fe80::/10", "ff00::/8"]

/-- `25[0-5]|2[0-4]\d|1\d\d|[1-9]?\d`. -/
def matchesOctet : List Char → Bool
  | [c] => c.isDigit
  | [b, c] => b.isDigit && b != '0' && c.isDigit
  | [a, b, c] =>
      a == '1' && b.isDigit && c.isDigit
        || a == '2' && decide ('0' ≤ b) && decide (b ≤ '4') && c.isDigit
        || a == '2' && b == '5' && decide ('0' ≤ c) && decide (c ≤ '5')
  | _ => false

/-- `IPV4_RE`. -/
def matchesIPv4 (s : List Char) : Bool :=
  let parts := s.splitOn '.'
  parts.length == 4 && parts.all matchesOctet

/-- `IPV6_BODY_RE`: `/^[0-9a-fA-F:.]+$/`. -/
def matchesIPv6Body (s : List Char) : Bool :=
  !s.isEmpty && s.all fun c => isHex c || c == ':' || c == '.'

def isIpShape (s : List Char) : Bool :=
  if s.isEmpty || decide (64 < jsLength (String.ofList s)) then false
  else if matchesIPv4 s then true
  else if !s.contains ':' then false
  else matchesIPv6Body (s.takeWhile (· != '%'))

/-- `ip.replace(/%.*$/, "")`: the dot stops at the end of a line. -/
def dropZone : List Char → List Char
  | [] => []
  | c :: cs =>
      if c == '%' && cs.all (fun d => !(['\n', '\r', '\u2028', '\u2029'].contains d)) then []
      else c :: dropZone cs

def isReservedIp (ip : List Char) : Bool :=
  if ip.isEmpty then false
  else if matchesIPv4 ip then rfc6890Ipv4Reserved.any fun cidr => isIPv4InCidr ip cidr.toList
  else if ip.contains ':' && matchesIPv6Body (dropZone ip) then
    rfc6890Ipv6Reserved.any fun cidr => isIPv6InCidr ip cidr.toList
  else false

end SaasFoundation.Foundation.Net
