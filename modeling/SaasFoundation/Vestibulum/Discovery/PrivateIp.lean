import SaasFoundation.Foundation.Net.Cidr

/-!
# `private-ip.ts`

Which addresses the discovery calls may connect to. The reserved blocks are
those of foundation; what is no address at all is to be refused as well.
-/

namespace SaasFoundation.Vestibulum.Discovery

open Lib Lib.Text Lib.Addresses Foundation.Net

/-! ## `expandIPv6` -/

/-- `[0-9]{1,3}(\.[0-9]{1,3}){3}`. -/
def isDotted (s : List Char) : Bool :=
  let parts := s.splitOn '.'
  parts.length == 4 && parts.all fun part => isDigits part && decide (part.length ≤ 3)

/-- What the pattern finds at the end of the text, at the first place where
it can, and what stands before. -/
def v4Match : List Char → Option (List Char × List Char)
  | [] => none
  | c :: cs =>
      if isDotted (c :: cs) then some ([], c :: cs)
      else (v4Match cs).map fun found => (c :: found.1, found.2)

/-- `work.replace(/:$/, "")`. -/
def dropColon (work : List Char) : List Char :=
  if work.getLast? = some ':' then work.dropLast else work

/-- `work.split("::")`. -/
def splitPair : List Char → List (List Char)
  | ':' :: ':' :: cs => [] :: splitPair cs
  | c :: cs => (splitPair cs).modifyHead (c :: ·)
  | [] => [[]]

/-- `part.split(":")`, and nothing for an empty part. -/
def splitColon (part : List Char) : List (List Char) :=
  if part = [] then [] else part.splitOn ':'

/-- `/^[0-9a-f]{0,4}$/`; an empty segment is read as zero. -/
def readSegment (s : List Char) : Option Nat :=
  if decide (s.length ≤ 4) && s.all (fun c => isHex c && !c.isUpper) then some (hexValue s)
  else none

/-- The segments of the text, with the two of an embedded IPv4 address. -/
def expandParts (work : List Char) (v4Tail : List Nat) : Option (List Nat) :=
  let parts := splitPair work
  if 2 < parts.length then none
  else
    let head := splitColon (parts.getD 0 [])
    let tail := splitColon (parts.getD 1 [])
    let missing : ℤ := 8 - (head.length + tail.length + v4Tail.length)
    if (if parts.length = 2 then missing < 0 else missing ≠ 0) then none
    else
      let fill := if parts.length = 2 then List.replicate missing.toNat ['0'] else []
      (((head ++ fill ++ tail).mapM readSegment).map (· ++ v4Tail)).filter
        fun out => out.length == 8

def expandIPv6 (ip : List Char) : Option (List Nat) :=
  match v4Match ip with
  | none => expandParts ip []
  | some (before, matched) =>
      let o := (matched.splitOn '.').map digitsValue
      if o.any fun x => decide (255 < x) then none
      else expandParts (dropColon before)
        [o.getD 0 0 <<< 8 ||| o.getD 1 0, o.getD 2 0 <<< 8 ||| o.getD 3 0]

/-! ## The classifier -/

def isPrivateIPv4 (ip : List Char) : Bool :=
  if !isIpShape ip then true
  else if ip.contains ':' then true
  else if isReservedIp ip then true
  else
    let octets := ip.splitOn '.'
    octets[0]? == some "192".toList && octets[1]? == some "0".toList

/-- `${(hi >> 8) & 0xff}.${hi & 0xff}.${(lo >> 8) & 0xff}.${lo & 0xff}`. -/
def dotted (hi lo : Nat) : List Char :=
  join '.' ([hi >>> 8 &&& 0xff, hi &&& 0xff, lo >>> 8 &&& 0xff, lo &&& 0xff].map (Nat.toDigits 10))

/-- The text before the zone, in lower case. -/
def stripped (ip : List Char) : List Char := (ip.takeWhile (· != '%')).map Char.toLower

/-- The words in front of an embedded IPv4 address. -/
def mappedWords : List Nat := [0, 0, 0, 0, 0, 0xffff]

def isPrivateIPv6 (ip : List Char) : Bool :=
  if !ip.contains ':' then true
  else if !isIpShape ip then true
  else match expandIPv6 (stripped ip) with
    | none => true
    | some segs =>
        if segs.take 6 = mappedWords then isPrivateIPv4 (dotted (segs.getD 6 0) (segs.getD 7 0))
        else isReservedIp (stripped ip)

def isPrivateAddress (address : String) : Bool :=
  if address.toList.contains ':' then isPrivateIPv6 address.toList
  else isPrivateIPv4 address.toList

end SaasFoundation.Vestibulum.Discovery
