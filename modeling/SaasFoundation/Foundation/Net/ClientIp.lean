import SaasFoundation.Foundation.Net.Reserved

/-!
# The client's address

`trustedClientIp` of `derive.ts`: the trust mode selects a candidate from the
request, the shape check and the reserved blocks decide whether it is
returned. A text with a colon passes the shape check whether it is an address
or not, and what the parser refuses lies in no block.
-/

namespace SaasFoundation.Foundation.Net

open Lib Lib.Text Lib.Addresses

inductive TrustedProxyMode
  | none
  | alb
  | cloudflare
  deriving DecidableEq, Repr

/-- What the derivation reads of a request. -/
structure Request where
  cfConnectingIp : Option (List Char)
  xForwardedFor : Option (List Char)
  remoteAddress : Option (List Char)

def remoteAddrFromRequest (request : Request) : Option (List Char) :=
  request.remoteAddress.filter fun candidate => decide (0 < candidate.length)

/-- The candidate that the trust mode selects. -/
def candidateOf (request : Request) : TrustedProxyMode → Option (List Char)
  | .cloudflare => request.cfConnectingIp.map trim
  | .alb =>
      -- ALB appends the immediate client to the right end of XFF
      request.xForwardedFor.bind fun xff =>
        (((xff.splitOn ',').map trim).filter fun p => !p.isEmpty).getLast?
  | .none => remoteAddrFromRequest request

def unknown : List Char := "unknown".toList

def trustedClientIp (request : Request) (mode : TrustedProxyMode) : List Char :=
  match candidateOf request mode with
  | none => unknown
  | some candidate =>
      if !isIpShape candidate then unknown
      else if isReservedIp candidate then unknown
      else candidate

/-- A client address that may be the key of a rate limit. -/
def WellFormedIp (ip : List Char) : Prop :=
  ip = unknown ∨
    (∃ bytes, DottedQuad ip bytes ∧ ¬ Reserved4 bytes) ∨
    ∃ words, Scoped ip words ∧ ¬ Reserved6 words

/-- What passes the shape check is a dotted quad or has a colon. -/
theorem shape_cases {ip : List Char} (h : isIpShape ip = true) :
    matchesIPv4 ip = true ∨ ':' ∈ ip := by
  unfold isIpShape at h
  split at h
  · cases h
  · split at h
    · exact .inl ‹_›
    · split at h
      · cases h
      · rename_i hcolon
        exact .inr (by simpa using hcolon)

/-- A dotted quad outside the table is free. -/
theorem free_quad {ip : List Char} (hmatches : matchesIPv4 ip = true)
    (hfree : isReservedIp ip = false) : WellFormedIp ip := by
  have hquad := dottedQuad_of_matches hmatches
  refine .inr (.inl ⟨_, hquad, fun hreserved => ?_⟩)
  rw [isReservedIp_quad hmatches hquad hreserved] at hfree
  cases hfree

theorem free_scoped {ip : List Char} {words : List Nat} (h : Scoped ip words)
    (hfree : isReservedIp ip = false) : WellFormedIp ip := by
  refine .inr (.inr ⟨words, h, fun hreserved => ?_⟩)
  rw [isReservedIp_scoped h hreserved] at hfree
  cases hfree

/-- A well-formed key with a colon is the text of an IPv6 address. -/
theorem WellFormedIp.scoped {ip : List Char} (h : WellFormedIp ip) (hcolon : ':' ∈ ip) :
    ∃ words, Scoped ip words := by
  rcases h with rfl | ⟨bytes, hquad, -⟩ | ⟨words, hread, -⟩
  · exact absurd hcolon (by decide)
  · exact absurd hcolon (hquad.not_mem (by decide) (by decide))
  · exact ⟨words, hread⟩

/-- The key is well formed unless the candidate has a colon, passes both
checks and is not the text of an IPv6 address. -/
theorem trustedClientIp_wellFormed_iff (request : Request) (mode : TrustedProxyMode) :
    WellFormedIp (trustedClientIp request mode) ↔
      ∀ candidate, candidateOf request mode = some candidate → ':' ∈ candidate →
        isIpShape candidate = true → isReservedIp candidate = false →
        ∃ words, Scoped candidate words := by
  unfold trustedClientIp
  cases hselected : candidateOf request mode with
  | none =>
      constructor
      · rintro - candidate hnone
        cases hnone
      · intro _
        exact .inl rfl
  | some ip =>
      simp only [Option.some.injEq, forall_eq']
      by_cases hshape : isIpShape ip = true
      · by_cases hreserved : isReservedIp ip = true
        · simp only [hshape, hreserved, Bool.not_true, Bool.false_eq_true, if_false, if_true]
          constructor
          · rintro - - - hfree
            cases hfree
          · intro _
            exact .inl rfl
        · rw [Bool.not_eq_true] at hreserved
          simp only [hshape, hreserved, Bool.not_true, Bool.false_eq_true, if_false]
          constructor
          · intro hwell hcolon _ _
            exact hwell.scoped hcolon
          · intro hcandidate
            rcases shape_cases hshape with hmatches | hcolon
            · exact free_quad hmatches hreserved
            · obtain ⟨words, hread⟩ := hcandidate hcolon trivial trivial
              exact free_scoped hread hreserved
      · rw [Bool.not_eq_true] at hshape
        simp only [hshape, Bool.not_false, if_true]
        constructor
        · rintro - - hpass
          cases hpass
        · intro _
          exact .inl rfl

/-- A request with one header. -/
def spoofed (header : String) : Request :=
  { cfConnectingIp := some header.toList, xForwardedFor := none, remoteAddress := none }

/-- Two words with a colon are a key, and so is an address with a fragment of
SQL behind a `%`. -/
theorem junk_is_key :
    ¬ WellFormedIp (trustedClientIp (spoofed "dead:beef") .cloudflare) ∧
      ¬ WellFormedIp (trustedClientIp (spoofed "2600::1%; DROP TABLE users") .cloudflare) := by
  have hwords : trustedClientIp (spoofed "dead:beef") .cloudflare = "dead:beef".toList := by
    decide +kernel
  have hfragment : trustedClientIp (spoofed "2600::1%; DROP TABLE users") .cloudflare =
      "2600::1%; DROP TABLE users".toList := by decide +kernel
  rw [hwords, hfragment]
  constructor
  · intro hwell
    obtain ⟨words, hread⟩ := hwell.scoped (by decide)
    have hparse := parseIPv6_address hread.address
    have hrefused : parseIPv6 "dead:beef".toList = none := by decide +kernel
    rw [hrefused] at hparse
    cases hparse
  · intro hwell
    obtain ⟨words, hread⟩ := hwell.scoped (by decide)
    have hspace := hread.no_space ' ' (by decide)
    cases hspace

end SaasFoundation.Foundation.Net
