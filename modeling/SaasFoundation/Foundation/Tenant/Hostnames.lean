import SaasFoundation.Foundation.Tenant.TenantId
import SaasFoundation.Lib.LowerCase
import SaasFoundation.Lib.Prog

/-!
# Tenants by host name

`subdomain.ts` and `custom-domain.ts`. Both resolvers lower-case the host
name, take off a dot at its end and then a port, in this order: a dot in
front of a port is not at the end and stays.
-/

namespace SaasFoundation.Foundation.Tenant

open Lib Lib.Text

/-- What may stand behind a host. -/
def IsMark (c : Char) : Prop := c = '.' ∨ c = ':' ∨ c.isDigit = true

/-- `toLowerCase`. Dots, colons and digits have no case, and no other
character becomes one of them or vanishes; behind a text they do not change
how it is lower-cased. -/
structure LowerCase where
  apply : List Char → List Char
  marks : ∀ s t, (∀ c ∈ t, IsMark c) → apply (s ++ t) = apply s ++ t
  colon : ∀ s, ':' ∈ apply s → ':' ∈ s
  last : ∀ s, (apply s).getLast? = some '.' → s.getLast? = some '.'

/-- `host.replace(/\.$/, "")`. -/
def dropDot (host : List Char) : List Char :=
  if host.getLast? = some '.' then host.dropLast else host

/-- `host.replace(/:\d+$/, "")`. -/
def dropPort : List Char → List Char
  | [] => []
  | c :: cs => if c == ':' && isDigits cs then [] else c :: dropPort cs

def normalized (toLowerCase : LowerCase) (hostname : List Char) : List Char :=
  dropPort (dropDot (toLowerCase.apply hostname))

/-! ## `SubdomainTenantResolver` -/

structure SubdomainTenantResolverOptions where
  baseDomain : List Char
  reservedLabels : Option (List (List Char)) := none

def defaultReservedLabels : List (List Char) := ["www".toList]

structure SubdomainTenantResolver where
  baseDomain : List Char
  reservedLabels : List (List Char)

def SubdomainTenantResolver.new (toLowerCase : LowerCase)
    (options : SubdomainTenantResolverOptions) : Except String SubdomainTenantResolver :=
  if options.baseDomain.length = 0 then
    .error "SubdomainTenantResolver: baseDomain must be non-empty"
  else .ok ⟨toLowerCase.apply options.baseDomain,
    (options.reservedLabels.getD defaultReservedLabels).map toLowerCase.apply⟩

def SubdomainTenantResolver.resolveSync (toLowerCase : LowerCase)
    (resolver : SubdomainTenantResolver) (hostname : List Char) : Option String :=
  let host := normalized toLowerCase hostname
  if host = resolver.baseDomain then none
  else
    let suffix := '.' :: resolver.baseDomain
    if !suffix.isSuffixOf host then none
    else
      let candidate := host.take (host.length - suffix.length)
      if candidate.length = 0 then none
      else if (candidate.splitOn '.').headD [] ∈ resolver.reservedLabels then none
      else (tenantId (String.ofList candidate)).toOption

/-! ## `CustomDomainTenantResolver` -/

inductive LookupRequest where
  | lookup (hostname : String)

/-- The lookup may be rejected. -/
abbrev LookupReply : LookupRequest → Type
  | .lookup _ => Except String (Option String)

structure TenantResolverError where
  message : String
  hostname : String
  cause : String

namespace CustomDomainTenantResolver

def resolve (toLowerCase : LowerCase) (hostname : List Char) :
    Prog LookupRequest LookupReply (Except TenantResolverError (Option String)) :=
  let host := normalized toLowerCase hostname
  if host.length = 0 then pure (.ok none)
  else do
    let result ← Prog.call (.lookup (String.ofList host))
    match result with
    | .error cause => pure (.error
        ⟨"custom-domain lookup failed for " ++ String.ofList host, String.ofList host, cause⟩)
    | .ok none => pure (.ok none)
    | .ok (some result) =>
        if isTenantId result then pure (.ok (some result))
        else pure (.ok (tenantId result).toOption)

end CustomDomainTenantResolver

/-- What the lookup is called with, if it is called. -/
def lookedUp {α : Type} : Prog LookupRequest LookupReply α → Option String
  | .ret _ => none
  | .ask (.lookup hostname) _ => some hostname

/-! ## What is taken off -/

section Normalize

variable {host port : List Char} {toLowerCase : LowerCase}

theorem dropDot_of_last (h : host.getLast? ≠ some '.') : dropDot host = host := if_neg h

theorem dropDot_dot (host : List Char) : dropDot (host ++ ['.']) = host := by
  simp [dropDot]

theorem dropPort_free (h : ':' ∉ host) : dropPort host = host := by
  induction host with
  | nil => rfl
  | cons c cs ih =>
      rw [List.mem_cons, not_or] at h
      have hc : (c == ':') = false := beq_eq_false_iff_ne.mpr (Ne.symm h.1)
      rw [dropPort, hc, Bool.false_and, if_neg (by simp), ih h.2]

theorem dropPort_port (hhost : ':' ∉ host) (hport : isDigits port = true) :
    dropPort (host ++ ':' :: port) = host := by
  induction host with
  | nil => simp [dropPort, hport]
  | cons c cs ih =>
      rw [List.mem_cons, not_or] at hhost
      have hc : (c == ':') = false := beq_eq_false_iff_ne.mpr (Ne.symm hhost.1)
      rw [List.cons_append, dropPort, hc, Bool.false_and, if_neg (by simp), ih hhost.2]

/-- A port ends in a digit. -/
theorem getLast_port (hport : isDigits port = true) :
    (host ++ ':' :: port).getLast? ≠ some '.' := by
  unfold isDigits at hport
  rw [Bool.and_eq_true, List.all_eq_true] at hport
  obtain ⟨hne, hdigits⟩ := hport
  intro hlast
  have hne' : port ≠ [] := by
    rintro rfl
    cases hne
  rw [show host ++ ':' :: port = (host ++ [':']) ++ port by simp,
    List.getLast?_append_of_ne_nil _ hne'] at hlast
  exact absurd (hdigits '.' (List.mem_of_getLast? hlast)) (by decide)

theorem marks_port (hport : isDigits port = true) : ∀ c ∈ ':' :: port, IsMark c := by
  unfold isDigits at hport
  rw [Bool.and_eq_true, List.all_eq_true] at hport
  intro c hc
  rcases List.mem_cons.mp hc with rfl | hc
  · exact .inr (.inl rfl)
  · exact .inr (.inr (hport.2 c hc))

end Normalize

/-- A dot at the end, and no more. -/
inductive OptionalDot : List Char → Prop
  | absent : OptionalDot []
  | dot : OptionalDot ['.']

inductive OptionalPort : List Char → Prop
  | absent : OptionalPort []
  | port {digits : List Char} : isDigits digits = true → OptionalPort (':' :: digits)

section Spellings

variable {toLowerCase : LowerCase} {host spelt dot port : List Char}

theorem normalized_plain (hcolon : ':' ∉ host) (hlast : host.getLast? ≠ some '.') :
    normalized toLowerCase host = toLowerCase.apply host := by
  rw [normalized, dropDot_of_last (mt (toLowerCase.last host) hlast),
    dropPort_free (mt (toLowerCase.colon host) hcolon)]

/-- A dot or a port is taken off; of both together, the port. -/
theorem normalized_spelt (hcolon : ':' ∉ host) (hlast : host.getLast? ≠ some '.')
    (hcase : toLowerCase.apply spelt = toLowerCase.apply host) (hdot : OptionalDot dot)
    (hport : OptionalPort port) :
    normalized toLowerCase (spelt ++ dot ++ port) =
      toLowerCase.apply host ++ if port = [] then [] else dot := by
  have hfree : ':' ∉ toLowerCase.apply host := mt (toLowerCase.colon host) hcolon
  have hend : (toLowerCase.apply host).getLast? ≠ some '.' := mt (toLowerCase.last host) hlast
  have hmark : ∀ c ∈ dot, IsMark c := by
    cases hdot with
    | absent => simp
    | dot => simp [IsMark]
  cases hport with
  | absent =>
      rw [List.append_nil, normalized, toLowerCase.marks _ _ hmark, hcase, if_pos rfl,
        List.append_nil]
      cases hdot with
      | absent => rw [List.append_nil, dropDot_of_last hend, dropPort_free hfree]
      | dot => rw [dropDot_dot, dropPort_free hfree]
  | port hdigits =>
      have hfree' : ':' ∉ toLowerCase.apply host ++ dot := by
        rw [List.mem_append, not_or]
        refine ⟨hfree, ?_⟩
        cases hdot <;> simp
      rw [normalized, toLowerCase.marks _ _ (marks_port hdigits), toLowerCase.marks _ _ hmark,
        hcase, dropDot_of_last (getLast_port hdigits), dropPort_port hfree' hdigits,
        if_neg (by simp)]

end Spellings

open CustomDomainTenantResolver

theorem resolveSync_normalized {toLowerCase : LowerCase} {resolver : SubdomainTenantResolver}
    {a b : List Char} (h : normalized toLowerCase a = normalized toLowerCase b) :
    resolver.resolveSync toLowerCase a = resolver.resolveSync toLowerCase b := by
  unfold SubdomainTenantResolver.resolveSync
  rw [h]

/-- The key of the lookup is the normalized host, unless nothing is left. -/
theorem lookedUp_resolve (toLowerCase : LowerCase) (hostname : List Char) :
    lookedUp (resolve toLowerCase hostname) =
      if normalized toLowerCase hostname = [] then none
      else some (String.ofList (normalized toLowerCase hostname)) := by
  unfold resolve
  by_cases hempty : normalized toLowerCase hostname = []
  · rw [hempty]
    rfl
  · rw [if_neg hempty]
    simp only [List.length_eq_zero_iff, if_neg hempty]
    rfl

/-- Both resolvers take every spelling of a host for the host itself, but for
those with a dot in front of a port. -/
theorem host_normalized_iff (toLowerCase : LowerCase) (resolver : SubdomainTenantResolver)
    {host spelt dot port : List Char} (hcolon : ':' ∉ host) (hlast : host.getLast? ≠ some '.')
    (hcase : toLowerCase.apply spelt = toLowerCase.apply host) (hdot : OptionalDot dot)
    (hport : OptionalPort port) :
    (resolver.resolveSync toLowerCase (spelt ++ dot ++ port) =
        resolver.resolveSync toLowerCase host ∧
      lookedUp (resolve toLowerCase (spelt ++ dot ++ port)) =
        lookedUp (resolve toLowerCase host)) ↔ ¬ (dot ≠ [] ∧ port ≠ []) := by
  have hplain : normalized toLowerCase host = toLowerCase.apply host :=
    normalized_plain hcolon hlast
  have hspelt := normalized_spelt hcolon hlast hcase hdot hport
  constructor
  · rintro ⟨-, hkey⟩ ⟨hdot', hport'⟩
    rw [if_neg hport'] at hspelt
    rw [lookedUp_resolve, lookedUp_resolve, hspelt, hplain, if_neg (by simp [hdot'])] at hkey
    split at hkey
    · cases hkey
    · have hsame := String.ofList_injective (Option.some.inj hkey)
      exact hdot' (List.append_right_eq_self.mp hsame)
  · intro hboth
    have hsame : normalized toLowerCase (spelt ++ dot ++ port) = normalized toLowerCase host := by
      rw [hspelt, hplain]
      by_cases hport' : port = []
      · rw [if_pos hport', List.append_nil]
      · have hdot' : dot = [] := by
          by_contra hdot'
          exact hboth ⟨hdot', hport'⟩
        rw [if_neg hport', hdot', List.append_nil]
    exact ⟨resolveSync_normalized hsame, by rw [lookedUp_resolve, lookedUp_resolve, hsame]⟩

namespace Small

/-- On ASCII text. -/
def toLowerCase : LowerCase where
  apply := List.map Char.toLower
  marks := by
    intro s t ht
    rw [List.map_append]
    congr 1
    refine (List.map_congr_left fun c hc => ?_).trans (List.map_id _)
    rcases ht c hc with rfl | rfl | hdigit
    · rfl
    · rfl
    · have hrange := isDigit_toNat hdigit
      rcases toLower_cases c with ⟨hlow, -, -⟩ | ⟨-, hsame⟩
      · omega
      · exact hsame
  colon := by
    intro s h
    obtain ⟨c, hc, hcolon⟩ := List.mem_map.mp h
    have hsymbol := CaseTable.toLower_symbol (c := c) (by rw [hcolon]; decide)
    rwa [← hcolon, hsymbol]
  last := by
    intro s h
    rw [List.getLast?_map] at h
    obtain ⟨c, hc, hdot⟩ := Option.map_eq_some_iff.mp h
    have hsymbol := CaseTable.toLower_symbol (c := c) (by rw [hdot]; decide)
    rw [hc, ← hdot, hsymbol]

def resolver : SubdomainTenantResolver := ⟨"myapp.com".toList, defaultReservedLabels⟩

theorem host_normalized_port :
    resolver.resolveSync toLowerCase "ACME.myapp.com:443".toList = some "acme" ∧
      lookedUp (resolve toLowerCase "ACME.myapp.com:443".toList) =
        lookedUp (resolve toLowerCase "acme.myapp.com".toList) := by
  obtain ⟨htenant, hkey⟩ := (@host_normalized_iff toLowerCase resolver "acme.myapp.com".toList
    "ACME.myapp.com".toList [] ":443".toList (by decide) (by decide) (by decide) .absent
    (.port (by decide))).mpr (by decide)
  exact ⟨htenant.trans (by decide), hkey⟩

/-- `acme.myapp.com.:443` is of no tenant, and is looked up with the dot. -/
theorem dot_before_port : ¬ ∀ (resolver : SubdomainTenantResolver)
    (host spelt dot port : List Char), ':' ∉ host → host.getLast? ≠ some '.' →
      toLowerCase.apply spelt = toLowerCase.apply host → OptionalDot dot → OptionalPort port →
        resolver.resolveSync toLowerCase (spelt ++ dot ++ port) =
            resolver.resolveSync toLowerCase host ∧
          lookedUp (resolve toLowerCase (spelt ++ dot ++ port)) =
            lookedUp (resolve toLowerCase host) := by
  intro hclaim
  have hsame := hclaim resolver "acme.myapp.com".toList "acme.myapp.com".toList ['.']
    ":443".toList (by decide) (by decide) rfl .dot (.port (by decide))
  exact absurd hsame.1 (by decide)

end Small

end SaasFoundation.Foundation.Tenant
