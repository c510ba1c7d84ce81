import SaasFoundation.Lib.Url
import SaasFoundation.Vestibulum.SharedDistribution.TenantLabel

/-!
# Where the login redirect leads

The label is taken from what stands before the first colon of the `Host`
header; the `Location` of the redirect repeats the whole header. What
follows the colon decides whether the tenant's host is still the host of
the URL.
-/

namespace SaasFoundation.Vestibulum.SharedDistribution.LoginRedirect

open Lib Lib.Url Edge TenantLabel

/-! ## The target -/

/-- The `Location` of an answer. -/
def location (a : Answer) : Option String :=
  match a.result with
  | .request _ => none
  | .response res => do
      let entries ← res.headers.lookup "location"
      let entry ← entries.head?
      some entry.value

/-- What a client makes of the text of a host: percent encoding and
international names. For a client that does neither it is `some`. -/
abbrev HostReader := List Char → Option (List Char)

/-- The tenant's host, up to ASCII case and a trailing dot. -/
def Home (read : HostReader) (parent label host : List Char) : Prop :=
  ∃ name, read host = some name ∧
    stripTrailingDot (name.map Char.toLower) = label ++ '.' :: stripTrailingDot parent

/-- The redirect leads to the tenant's own host. -/
def LeadsHome (read : HostReader) (cfg : EdgeConfig) (req : CloudFrontRequest)
    (label : String) : Prop :=
  ∃ loc authority, location (loginRedirect req label) = some loc ∧
    parseHttps loc.toList = some authority ∧
      Home read cfg.tenantParent.toList label.toList authority.host

/-- A name of DNS, in lower case. -/
def IsDomainName (name : List Char) : Prop :=
  ∀ c ∈ name, (97 ≤ c.toNat ∧ c.toNat ≤ 122) ∨ (48 ≤ c.toNat ∧ c.toNat ≤ 57) ∨ c = '-' ∨ c = '.'

/-! ## What follows the part that was checked -/

/-- The rest of the authority: from the first colon to what ends it. -/
def restOfAuthority (host : List Char) : List Char :=
  ((host.dropWhile (· ≠ ':')).filter fun c => !isRemoved c).takeWhile fun c => !endsAuthority c

/-- Without an `@` in the rest, the checked part is the host and the rest a
port; otherwise what follows the last `@` is host and port. -/
inductive Harmless (read : HostReader) (parent label host : List Char) : Prop
  | portOnly : '@' ∉ restOfAuthority host → Home read parent label (withoutPort host) →
      (∀ port, restOfAuthority host = ':' :: port → (parsePort port).isSome) →
      Harmless read parent label host
  | afterUserinfo {userinfo rest : List Char} {authority : Authority} :
      restOfAuthority host = userinfo ++ '@' :: rest → '@' ∉ rest →
      parseHostPort none rest = some authority → Home read parent label authority.host →
      Harmless read parent label host

variable {rt : Runtime} {T : CaseTable} {read : HostReader} {cfg : EdgeConfig} {host label : String}

/-! ## The checked part -/

/-- A character that means nothing to the grammar of the authority. -/
structure Plain (c : Char) : Prop where
  kept : isRemoved c = false
  inside : endsAuthority c = false
  noAt : c ≠ '@'
  noPort : c ≠ ':' ∧ c ≠ '[' ∧ c ≠ ']'

theorem plain_of_code {c : Char} (h : 128 ≤ c.toNat ∨ (97 ≤ c.toNat ∧ c.toNat ≤ 122) ∨
    (65 ≤ c.toNat ∧ c.toNat ≤ 90) ∨ (45 ≤ c.toNat ∧ c.toNat ≤ 46) ∨
      (48 ≤ c.toNat ∧ c.toNat ≤ 57)) : Plain c := by
  have hne : ∀ d : Char, d.toNat ≠ c.toNat → c ≠ d := by
    rintro d hd rfl
    exact hd rfl
  constructor
  · simp only [isRemoved, Bool.or_eq_false_iff, beq_eq_false_iff_ne]
    exact ⟨⟨hne '\t' (by simp; omega), hne '\n' (by simp; omega)⟩, hne '\r' (by simp; omega)⟩
  · simp only [endsAuthority, isSlash, Bool.or_eq_false_iff, beq_eq_false_iff_ne]
    exact ⟨⟨⟨hne '/' (by simp; omega), hne '\\' (by simp; omega)⟩, hne '?' (by simp; omega)⟩,
      hne '#' (by simp; omega)⟩
  · exact hne '@' (by simp; omega)
  · exact ⟨hne ':' (by simp; omega), hne '[' (by simp; omega), hne ']' (by simp; omega)⟩

/-- Whatever is accepted consists of characters that mean nothing to the
grammar. -/
theorem checked_plain (hT : T.Lowers (lower rt)) (hparent : IsDomainName cfg.tenantParent.toList)
    (h : extractTenantSubdomain rt cfg host = some label) :
    ∀ c ∈ withoutPort host.toList, Plain c := by
  obtain ⟨hpattern, hhost⟩ := extract_tenantHost hT h
  intro c hc
  apply plain_of_code
  by_cases hascii : c.toNat < 128
  · have hlow : IsDomainName [c.toLower] := by
      intro d hd
      rw [List.mem_singleton.mp hd]
      rcases mem_stripTrailingDot (hT.ascii_mem hc hascii) with hone | hdot
      · rcases mem_stripTrailingDot hone with htwo | hdot
        · rw [hhost, List.mem_append, List.mem_cons] at htwo
          rcases htwo with hlabel | hdot | hmem
          · rcases pattern_chars hpattern _ hlabel with hcode | hcode | hdash
            · exact .inl hcode
            · exact .inr (.inl hcode)
            · exact .inr (.inr (.inl hdash))
          · exact .inr (.inr (.inr hdot))
          · exact hparent _ (mem_of_stripTrailingDot hmem)
        · exact .inr (.inr (.inr hdot))
      · exact .inr (.inr (.inr hdot))
    have hcode : ∀ d : Char, d = '-' ∨ d = '.' → 45 ≤ d.toNat ∧ d.toNat ≤ 46 := by
      rintro d (rfl | rfl)
      · decide
      · decide
    have hclass := hlow c.toLower List.mem_cons_self
    rcases Text.toLower_cases c with ⟨hlo, hhi, -⟩ | ⟨-, hsame⟩
    · exact .inr (.inr (.inl ⟨hlo, hhi⟩))
    · rw [hsame] at hclass
      rcases hclass with hletter | hdigit | hmark
      · exact .inr (.inl hletter)
      · exact .inr (.inr (.inr (.inr hdigit)))
      · exact .inr (.inr (.inr (.inl (hcode c hmark))))
  · exact .inl (by omega)

theorem checked_ne_nil (hT : T.Lowers (lower rt))
    (h : extractTenantSubdomain rt cfg host = some label) : withoutPort host.toList ≠ [] := by
  intro hnil
  have hhost := (extract_tenantHost hT h).2
  rw [hnil, hT.nil] at hhost
  simp [stripTrailingDot] at hhost

theorem restOfAuthority_cases (s : List Char) :
    restOfAuthority s = [] ∨ ∃ port, restOfAuthority s = ':' :: port := by
  unfold restOfAuthority
  cases hrest : s.dropWhile (· ≠ ':') with
  | nil => exact .inl rfl
  | cons c tail =>
      have hcolon : c = ':' := by
        have := List.head?_dropWhile_not (fun c => decide (c ≠ ':')) s
        rw [hrest] at this
        simpa using this
      subst hcolon
      rw [List.filter_cons_of_pos (by decide), List.takeWhile_cons_of_pos (by decide)]
      exact .inr ⟨_, rfl⟩

/-- The authority that a client reads. -/
theorem parse_location (hplain : ∀ c ∈ withoutPort host.toList, Plain c)
    (hne : withoutPort host.toList ≠ []) :
    parseHttps ("https://" ++ host ++ "/login").toList =
      parseAuthority (withoutPort host.toList ++ restOfAuthority host.toList) := by
  have hhost : host.toList = withoutPort host.toList ++ host.toList.dropWhile (· ≠ ':') :=
    List.takeWhile_append_dropWhile.symm
  have hkept : (withoutPort host.toList).filter (fun c => !isRemoved c) =
      withoutPort host.toList := by
    rw [List.filter_eq_self]
    intro c hc
    rw [(hplain c hc).kept]
    rfl
  have hinside : ∀ s, (withoutPort host.toList ++ s).takeWhile (fun c => !endsAuthority c) =
      withoutPort host.toList ++ s.takeWhile fun c => !endsAuthority c := by
    intro s
    apply List.takeWhile_append_of_pos
    intro c hc
    rw [(hplain c hc).inside]
    rfl
  have hclean : clean ("https://" ++ host ++ "/login").toList = "https://".toList ++
      (withoutPort host.toList ++
        ((host.toList.dropWhile (· ≠ ':')).filter fun c => !isRemoved c) ++ "/login".toList) := by
    have htext : ("https://" ++ host ++ "/login").toList =
        'h' :: (("ttps://".toList ++ host.toList ++ "/logi".toList) ++ ['n']) := by
      simp
    rw [htext, clean_eq_filter (by decide) (by decide), ← htext]
    rw [String.toList_append, String.toList_append, List.filter_append, List.filter_append]
    conv_lhs => rw [hhost, List.filter_append, hkept]
    rw [List.append_assoc]
    rfl
  have hslash : ∀ s, (withoutPort host.toList ++ s).dropWhile isSlash =
      withoutPort host.toList ++ s := by
    intro s
    cases hchecked : withoutPort host.toList with
    | nil => exact absurd hchecked hne
    | cons c rest =>
        have hc := (hplain c (by simp [hchecked])).inside
        simp only [endsAuthority, Bool.or_eq_false_iff] at hc
        rw [List.cons_append, List.dropWhile_cons_of_neg (by simp [hc.1.1])]
  unfold parseHttps
  simp only [hclean]
  rw [if_pos (by rfl)]
  have hdrop : ∀ s : List Char, (("https://".toList ++ s).drop 6).dropWhile isSlash =
      s.dropWhile isSlash := by
    intro s
    rfl
  rw [hdrop, List.append_assoc, hslash, hinside]
  rw [show "/login".toList = '/' :: "login".toList from rfl, takeWhile_append_stop (by decide)]
  rfl

/-! ## Where it leads -/

/-- The header is repeated as it came. -/
theorem location_loginRedirect {req : CloudFrontRequest} (hreq : req.host = some host) :
    location (loginRedirect req label) = some ("https://" ++ host ++ "/login") := by
  simp [location, loginRedirect, hreq]

/-- The host that a client reads, without and with user information. -/
theorem host_of_parse (hplain : ∀ c ∈ withoutPort host.toList, Plain c)
    (hne : withoutPort host.toList ≠ []) {name : List Char} :
    (parseAuthority (withoutPort host.toList ++ restOfAuthority host.toList)).map Authority.host =
        some name ↔
      ('@' ∉ restOfAuthority host.toList ∧ name = withoutPort host.toList ∧
        ∀ port, restOfAuthority host.toList = ':' :: port → (parsePort port).isSome) ∨
      ∃ userinfo rest, restOfAuthority host.toList = userinfo ++ '@' :: rest ∧ '@' ∉ rest ∧
        (parseHostPort none rest).map Authority.host = some name := by
  have hnoAt : '@' ∉ withoutPort host.toList := fun hat => (hplain _ hat).noAt rfl
  have hports : ∀ c ∈ withoutPort host.toList, c ≠ ':' ∧ c ≠ '[' ∧ c ≠ ']' :=
    fun c hc => (hplain c hc).noPort
  by_cases hat : '@' ∈ restOfAuthority host.toList
  · obtain ⟨⟨userinfo, rest⟩, hsplit⟩ : ∃ p, splitLast '@' (restOfAuthority host.toList) = some p :=
      Option.ne_none_iff_exists'.mp fun hnone => splitLast_eq_none.mp hnone hat
    obtain ⟨hrest, hlast⟩ := splitLast_eq_some.mp hsplit
    have hwhole : splitLast '@' (withoutPort host.toList ++ restOfAuthority host.toList) =
        some (withoutPort host.toList ++ userinfo, rest) :=
      splitLast_eq_some.mpr ⟨by rw [hrest, List.append_assoc], hlast⟩
    have hhost : (parseAuthority (withoutPort host.toList ++
        restOfAuthority host.toList)).map Authority.host =
          (parseHostPort none rest).map Authority.host := by
      rw [parseAuthority, hwhole]
      simp only [parseHostPort_userinfo, Option.map_map]
      rfl
    rw [hhost]
    constructor
    · intro hname
      exact .inr ⟨userinfo, rest, hrest, hlast, hname⟩
    · rintro (⟨hnot, -⟩ | ⟨userinfo', rest', hrest', hlast', hname⟩)
      · exact absurd hat hnot
      · -- the last `@` stands in one place
        have hsame := splitLast_eq_some.mpr ⟨hrest', hlast'⟩
        rw [hsplit] at hsame
        cases hsame
        exact hname
  · have hwhole : splitLast '@' (withoutPort host.toList ++ restOfAuthority host.toList) = none :=
      splitLast_eq_none.mpr fun hmem => (List.mem_append.mp hmem).elim hnoAt hat
    have hright : ¬ ∃ userinfo rest, restOfAuthority host.toList = userinfo ++ '@' :: rest ∧
        '@' ∉ rest ∧ (parseHostPort none rest).map Authority.host = some name := by
      rintro ⟨userinfo, rest, hrest, -⟩
      rw [hrest] at hat
      simp at hat
    simp only [hright, or_false, hat, not_false_eq_true, true_and]
    rw [parseAuthority, hwhole]
    rcases restOfAuthority_cases host.toList with hrest | ⟨port, hrest⟩
    · have hparse := (@parseHostPort_plain [] _ none hne hports).1
      rw [hrest, List.append_nil]
      simp only [hparse, Option.map_some, Option.some.injEq]
      constructor
      · rintro rfl
        exact ⟨rfl, fun port hport => absurd hport (by simp)⟩
      · rintro ⟨rfl, -⟩
        rfl
    · have hparse := (@parseHostPort_plain port _ none hne hports).2
      rw [hrest]
      simp only [hparse, Option.map_map, Option.map_eq_some_iff, Function.comp_apply]
      constructor
      · rintro ⟨number, hnumber, rfl⟩
        refine ⟨rfl, fun port' hport => ?_⟩
        obtain ⟨-, rfl⟩ := List.cons.inj hport
        rw [hnumber]
        rfl
      · rintro ⟨rfl, hport⟩
        obtain ⟨number, hnumber⟩ := Option.isSome_iff_exists.mp (hport port rfl)
        exact ⟨number, hnumber, rfl⟩

theorem leads_home_iff (hT : T.Lowers (lower rt)) (hparent : IsDomainName cfg.tenantParent.toList)
    (h : extractTenantSubdomain rt cfg host = some label) {req : CloudFrontRequest}
    (hreq : req.host = some host) :
    LeadsHome read cfg req label ↔
      Harmless read cfg.tenantParent.toList label.toList host.toList := by
  have hplain := checked_plain hT hparent h
  have hne := checked_ne_nil hT h
  unfold LeadsHome
  rw [location_loginRedirect hreq]
  simp only [Option.some.injEq]
  have hread := fun name => @host_of_parse host hplain hne name
  constructor
  · rintro ⟨loc, authority, rfl, hparse, hhome⟩
    rw [parse_location hplain hne] at hparse
    rcases (hread authority.host).mp (by rw [hparse]; rfl) with
      ⟨hat, hname, hport⟩ | ⟨userinfo, rest, hrest, hlast, hname⟩
    · exact .portOnly hat (hname ▸ hhome) hport
    · obtain ⟨after, hafter, hsame⟩ := Option.map_eq_some_iff.mp hname
      exact .afterUserinfo hrest hlast hafter (hsame ▸ hhome)
  · intro hharmless
    have hname : ∃ name, (parseAuthority (withoutPort host.toList ++
        restOfAuthority host.toList)).map Authority.host = some name ∧
          Home read cfg.tenantParent.toList label.toList name := by
      cases hharmless with
      | portOnly hat hhome hport =>
          exact ⟨_, (hread _).mpr (.inl ⟨hat, rfl, hport⟩), hhome⟩
      | afterUserinfo hrest hlast hafter hhome =>
          exact ⟨_, (hread _).mpr (.inr ⟨_, _, hrest, hlast, by rw [hafter]; rfl⟩), hhome⟩
    obtain ⟨name, hname, hhome⟩ := hname
    obtain ⟨authority, hparse, rfl⟩ := Option.map_eq_some_iff.mp hname
    exact ⟨_, authority, rfl, by rw [parse_location hplain hne, hparse], hhome⟩

/-! ## A port and a login to somewhere else -/

namespace Small

open TenantLabel.Small

def viewer (host : String) : CloudFrontRequest where
  headers := some [("host", [⟨some "Host", host⟩])]
  uri := some "/"
  method := some "GET"
  querystring := none

theorem domainName : IsDomainName TenantLabel.Small.cfg.tenantParent.toList := by
  unfold IsDomainName
  decide

theorem home_port :
    LeadsHome some TenantLabel.Small.cfg (viewer "ACME.tenants.example.com.:443") "acme" := by
  refine (@leads_home_iff _ _ _ _ "ACME.tenants.example.com.:443" _ ascii_lowers domainName ?_ _
    rfl).mpr ?_
  · decide
  · refine .portOnly (by decide) ⟨_, rfl, by decide⟩ ?_
    intro port hport
    obtain rfl : port = "443".toList := (List.cons.inj hport).2.symm
    decide

theorem away : ¬ ∀ (rt : Runtime) (T : CaseTable) (cfg : EdgeConfig) (req : CloudFrontRequest)
    (host label : String), T.Lowers (lower rt) → IsDomainName cfg.tenantParent.toList →
      req.host = some host → extractTenantSubdomain rt cfg host = some label →
        LeadsHome some cfg req label := by
  intro hall
  obtain ⟨loc, authority, hloc, hparse, name, hname, hhome⟩ :=
    hall ascii _ TenantLabel.Small.cfg (viewer "acme.tenants.example.com:x@evil.com") _ "acme"
      ascii_lowers domainName rfl (by decide)
  obtain rfl : "https://acme.tenants.example.com:x@evil.com/login" = loc := Option.some.inj hloc
  have hevil : parseHttps "https://acme.tenants.example.com:x@evil.com/login".toList =
      some ⟨some "acme.tenants.example.com:x".toList, "evil.com".toList, none⟩ := by
    decide
  rw [hevil] at hparse
  cases hparse
  cases hname
  revert hhome
  decide

end Small

end SaasFoundation.Vestibulum.SharedDistribution.LoginRedirect
