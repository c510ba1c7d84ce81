import Mathlib.Data.List.TakeWhile
import SaasFoundation.Lib.LowerCase
import SaasFoundation.Vestibulum.SharedDistribution.Edge

/-!
# The tenant label of a host

The edge normalises the host and then calls the shared helper, which
normalises it again. What either accepts is said of the part of the host
before its first colon, lower-cased.
-/

namespace SaasFoundation.Vestibulum.SharedDistribution.TenantLabel

open Lib Edge

variable {s v parent label : List Char}

/-! ## Labels and dots -/

theorem pattern_chars (h : defaultTenantPattern label = true) : ∀ c ∈ label,
    (97 ≤ c.toNat ∧ c.toNat ≤ 122) ∨ (48 ≤ c.toNat ∧ c.toNat ≤ 57) ∨ c = '-' := by
  have hlower : ∀ c : Char, 'a' ≤ c ∧ c ≤ 'z' → 97 ≤ c.toNat ∧ c.toNat ≤ 122 := by
    intro c hc
    exact hc
  have hdigit : ∀ c : Char, c.isDigit = true → 48 ≤ c.toNat ∧ c.toNat ≤ 57 :=
    fun c => Text.isDigit_toNat
  cases label with
  | nil => simp
  | cons first rest =>
      simp only [defaultTenantPattern, Bool.and_eq_true, decide_eq_true_eq, List.all_eq_true,
        Bool.or_eq_true, beq_iff_eq] at h
      obtain ⟨⟨⟨hfirst, -⟩, hrest⟩, hlast⟩ := h
      intro c hc
      rcases List.mem_cons.mp hc with rfl | hc
      · exact .inl (hlower c hfirst)
      · rcases List.eq_nil_or_concat rest with rfl | ⟨init, last, rfl⟩
        · cases hc
        · rw [List.concat_eq_append] at hc hrest hlast
          rw [List.dropLast_concat] at hrest
          rw [List.getLast?_concat, Option.any_some, Bool.or_eq_true, decide_eq_true_eq] at hlast
          rw [List.mem_append, List.mem_singleton] at hc
          rcases hc with hc | rfl
          · rcases hrest c hc with (halpha | hnum) | hdash
            · exact .inl (hlower c halpha)
            · exact .inr (.inl (hdigit c hnum))
            · exact .inr (.inr hdash)
          · rcases hlast with halpha | hnum
            · exact .inl (hlower c halpha)
            · exact .inr (.inl (hdigit c hnum))

theorem pattern_no_dot (h : defaultTenantPattern label = true) : '.' ∉ label := by
  intro hdot
  rcases pattern_chars h '.' hdot with ⟨hlo, -⟩ | ⟨hlo, -⟩ | hdash
  · exact absurd hlo (by decide)
  · exact absurd hlo (by decide)
  · exact absurd hdash (by decide)

theorem pattern_ne_nil (h : defaultTenantPattern label = true) : label ≠ [] := by
  rintro rfl
  cases h

theorem stripTrailingDot_concat_dot (s : List Char) : stripTrailingDot (s ++ ['.']) = s := by
  simp [stripTrailingDot]

theorem stripTrailingDot_concat (s : List Char) {c : Char} (hc : c ≠ '.') :
    stripTrailingDot (s ++ [c]) = s ++ [c] := by
  simp [stripTrailingDot, hc]

theorem mem_of_stripTrailingDot {c : Char} (h : c ∈ stripTrailingDot s) : c ∈ s := by
  unfold stripTrailingDot at h
  split at h
  · exact List.mem_of_mem_dropLast h
  · exact h

/-- Stripping a dot forgets nothing else. -/
theorem mem_stripTrailingDot {c : Char} {s : List Char} (hc : c ∈ s) :
    c ∈ stripTrailingDot s ∨ c = '.' := by
  unfold stripTrailingDot
  split
  · rename_i hdot
    obtain ⟨init, rfl⟩ := List.getLast?_eq_some_iff.mp hdot
    rw [List.dropLast_concat]
    rcases List.mem_append.mp hc with hc | hc
    · exact .inl hc
    · exact .inr (List.mem_singleton.mp hc)
  · exact .inl hc

/-- Stripping twice makes a difference only where there are two dots. -/
theorem stripTrailingDot_twice (s : List Char) :
    stripTrailingDot (stripTrailingDot s) = stripTrailingDot s ∨ ∃ v, s = v ++ ['.', '.'] := by
  rcases List.eq_nil_or_concat s with rfl | ⟨init, c, rfl⟩
  · exact .inl rfl
  · rw [List.concat_eq_append]
    by_cases hc : c = '.'
    · subst hc
      rw [stripTrailingDot_concat_dot]
      rcases List.eq_nil_or_concat init with rfl | ⟨v, d, rfl⟩
      · exact .inl rfl
      · rw [List.concat_eq_append]
        by_cases hd : d = '.'
        · subst hd
          exact .inr ⟨v, by simp⟩
        · exact .inl (stripTrailingDot_concat v hd)
    · rw [stripTrailingDot_concat _ hc]
      exact .inl (stripTrailingDot_concat _ hc)

theorem colon_not_mem_withoutPort (s : List Char) : ':' ∉ withoutPort s := by
  intro h
  have := List.mem_takeWhile_imp h
  simp at this

theorem withoutPort_eq_self (h : ':' ∉ s) : withoutPort s = s := by
  rw [withoutPort, List.takeWhile_eq_self_iff]
  intro c hc
  simp only [decide_eq_true_eq]
  rintro rfl
  exact h hc

/-! ## What is accepted -/

/-- The host of this tenant under the parent. -/
def TenantHost (parent label host : List Char) : Prop :=
  defaultTenantPattern label = true ∧ host = label ++ '.' :: parent

variable {rt : Runtime} {T : CaseTable}

theorem extractShared_some (hT : T.Lowers (lower rt)) {host : List Char} :
    extractTenantSubdomainShared rt host parent = some label ↔
      TenantHost (stripTrailingDot parent) label (stripTrailingDot (lower rt (withoutPort host))) := by
  unfold extractTenantSubdomainShared
  by_cases hnil : host = []
  · subst hnil
    have hempty : stripTrailingDot (lower rt (withoutPort [])) = [] := by
      rw [withoutPort, List.takeWhile_nil, hT.nil]
      rfl
    rw [if_pos rfl, hempty]
    simp [TenantHost]
  · rw [if_neg hnil]
    simp only [Option.ite_none_left_eq_some, not_not]
    constructor
    · rintro ⟨⟨front, hfront⟩, hne, hdot, hsome⟩
      rw [← hfront, List.length_append, Nat.add_sub_cancel, List.take_left'] at hsome
      · rw [Option.ite_none_right_eq_some, Option.some.injEq] at hsome
        obtain ⟨hpattern, rfl⟩ := hsome
        exact ⟨hpattern, hfront.symm⟩
      · rfl
    · rintro ⟨hpattern, hhost⟩
      rw [hhost]
      have htake : (label ++ '.' :: stripTrailingDot parent).take
          ((label ++ '.' :: stripTrailingDot parent).length -
            ('.' :: stripTrailingDot parent).length) = label := by
        rw [List.length_append, Nat.add_sub_cancel, List.take_left' rfl]
      rw [htake]
      exact ⟨List.suffix_append _ _, pattern_ne_nil hpattern, pattern_no_dot hpattern,
        by rw [if_pos hpattern]⟩

/-- Normalising twice is stripping twice. -/
theorem extractShared_normalized (hT : T.Lowers (lower rt)) {host : List Char} :
    extractTenantSubdomainShared rt (normalizeHost rt host) parent = some label ↔
      TenantHost (stripTrailingDot parent) label
        (stripTrailingDot (stripTrailingDot (lower rt (withoutPort host)))) := by
  have hnormal : ∀ c ∈ normalizeHost rt host, c ∈ lower rt (withoutPort host) :=
    fun c hc => mem_of_stripTrailingDot hc
  have hport : withoutPort (normalizeHost rt host) = normalizeHost rt host := by
    apply withoutPort_eq_self
    intro hcolon
    exact colon_not_mem_withoutPort host
      (hT.symbol_mem (hnormal ':' hcolon) (by decide) (by decide))
  have hlower : lower rt (normalizeHost rt host) = normalizeHost rt host := hT.eq_self hnormal
  rw [extractShared_some hT, hport, hlower]
  rfl

/-- Whatever the pattern of the bundle, a label is that of a tenant's host. -/
theorem extract_tenantHost (hT : T.Lowers (lower rt)) {cfg : EdgeConfig} {host text : String}
    (h : extractTenantSubdomain rt cfg host = some text) :
    TenantHost (stripTrailingDot cfg.tenantParent.toList) text.toList
      (stripTrailingDot (stripTrailingDot (lower rt (withoutPort host.toList)))) := by
  simp only [extractTenantSubdomain, Option.bind_eq_bind, Option.bind_eq_some_iff,
    Option.ite_none_right_eq_some, Option.some.injEq] at h
  obtain ⟨label, hlabel, -, rfl⟩ := h
  rw [String.toList_ofList]
  exact (extractShared_normalized hT).mp hlabel

theorem extract_some (hT : T.Lowers (lower rt)) {cfg : EdgeConfig}
    (hpattern : cfg.tenantPattern = defaultTenantPattern) {host : String} :
    extractTenantSubdomain rt cfg host = some (String.ofList label) ↔
      TenantHost (stripTrailingDot cfg.tenantParent.toList) label
        (stripTrailingDot (stripTrailingDot (lower rt (withoutPort host.toList)))) := by
  constructor
  · intro h
    have := extract_tenantHost hT h
    rwa [String.toList_ofList] at this
  · intro h
    have hlabel := (extractShared_normalized hT).mpr h
    simp [extractTenantSubdomain, hlabel, hpattern, h.1]

/-! ## The two implementations and the accepted hosts -/

/-- The edge and the shared helper agree, and return the label of exactly
the hosts that are the tenant's up to ASCII case and a trailing dot. -/
structure Exact (rt : Runtime) (cfg : EdgeConfig) (host : String) : Prop where
  agree : extractTenantSubdomain rt cfg host =
    (extractTenantSubdomainShared rt host.toList cfg.tenantParent.toList).map String.ofList
  accepts : ∀ label, extractTenantSubdomainShared rt host.toList cfg.tenantParent.toList =
    some label ↔ TenantHost (stripTrailingDot cfg.tenantParent.toList) label
      (stripTrailingDot ((withoutPort host.toList).map Char.toLower))

/-- No second trailing dot and no letter outside ASCII makes a tenant's host
of what stands before the port. -/
structure Plain (rt : Runtime) (parent : List Char) (host : String) : Prop where
  dots : ∀ v, lower rt (withoutPort host.toList) = v ++ ['.', '.'] → ∀ label,
    ¬ TenantHost parent label v ∧ ¬ TenantHost parent label (v ++ ['.'])
  ascii : ∀ label, TenantHost parent label
    (stripTrailingDot (lower rt (withoutPort host.toList))) →
      lower rt (withoutPort host.toList) = (withoutPort host.toList).map Char.toLower

/-- A host that is the tenant's up to ASCII case is lower-cased as ASCII. -/
theorem lower_of_ascii (hT : T.Lowers (lower rt)) (hparent : lower rt parent = parent)
    (h : TenantHost (stripTrailingDot parent) label (stripTrailingDot (s.map Char.toLower))) :
    lower rt s = s.map Char.toLower := by
  apply hT.eq_map
  intro c hc
  by_cases hascii : c.toNat < 128
  · exact T.ascii c hascii
  · -- such a character comes from the parent, which is lower-case
    have hself := CaseTable.toLower_of_not_ascii hascii
    have hmem : c ∈ s.map Char.toLower := List.mem_map.mpr ⟨c, hc, hself⟩
    have hstripped : c ∈ stripTrailingDot (s.map Char.toLower) := by
      rcases mem_stripTrailingDot hmem with hkept | rfl
      · exact hkept
      · exact absurd (by decide) hascii
    rw [h.2, List.mem_append, List.mem_cons] at hstripped
    rw [hself]
    rcases hstripped with hlabel | rfl | hmem
    · rcases pattern_chars h.1 c hlabel with ⟨-, hhi⟩ | ⟨-, hhi⟩ | rfl
      · omega
      · omega
      · exact absurd (by decide) hascii
    · exact absurd (by decide) hascii
    · have hlow : c ∈ lower rt parent := by
        rw [hparent]
        exact mem_of_stripTrailingDot hmem
      exact hT.fixed hlow

/-- The same host is not one tenant's with and without a dot. -/
theorem not_tenantHost_dot (h : TenantHost parent label v) :
    ¬ TenantHost parent label (v ++ ['.']) := by
  intro h'
  have heq : v ++ ['.'] = v := h'.2.trans h.2.symm
  simp at heq

theorem exact_iff (hT : T.Lowers (lower rt)) {cfg : EdgeConfig}
    (hpattern : cfg.tenantPattern = defaultTenantPattern)
    (hparent : lower rt cfg.tenantParent.toList = cfg.tenantParent.toList) (host : String) :
    Exact rt cfg host ↔ Plain rt (stripTrailingDot cfg.tenantParent.toList) host := by
  have hedge : ∀ label, extractTenantSubdomain rt cfg host = some (String.ofList label) ↔
      TenantHost (stripTrailingDot cfg.tenantParent.toList) label
        (stripTrailingDot (stripTrailingDot (lower rt (withoutPort host.toList)))) :=
    fun _ => extract_some hT hpattern
  have hshared : ∀ label,
      extractTenantSubdomainShared rt host.toList cfg.tenantParent.toList = some label ↔
        TenantHost (stripTrailingDot cfg.tenantParent.toList) label
          (stripTrailingDot (lower rt (withoutPort host.toList))) :=
    fun _ => extractShared_some hT
  constructor
  · intro hexact
    constructor
    · intro v hdots label
      have hone : stripTrailingDot (lower rt (withoutPort host.toList)) = v ++ ['.'] := by
        rw [hdots, show v ++ ['.', '.'] = (v ++ ['.']) ++ ['.'] by simp]
        exact stripTrailingDot_concat_dot _
      have hedge := hedge label
      have hshared := hshared label
      rw [hone, stripTrailingDot_concat_dot, hexact.agree] at hedge
      rw [hone] at hshared
      -- both would return the label, or neither
      have hboth : TenantHost (stripTrailingDot cfg.tenantParent.toList) label (v ++ ['.']) ↔
          TenantHost (stripTrailingDot cfg.tenantParent.toList) label v := by
        rw [← hedge, ← hshared, Option.map_eq_some_iff]
        constructor
        · intro h
          exact ⟨label, h, rfl⟩
        · rintro ⟨label', h, heq⟩
          rwa [← String.ofList_inj.mp heq]
      exact ⟨fun h => not_tenantHost_dot h (hboth.mpr h),
        fun h => not_tenantHost_dot (hboth.mp h) h⟩
    · intro label hlabel
      exact lower_of_ascii hT hparent ((hexact.accepts label).mp ((hshared label).mpr hlabel))
  · intro hplain
    constructor
    · have hsame : ∀ label, TenantHost (stripTrailingDot cfg.tenantParent.toList) label
          (stripTrailingDot (stripTrailingDot (lower rt (withoutPort host.toList)))) ↔
          TenantHost (stripTrailingDot cfg.tenantParent.toList) label
            (stripTrailingDot (lower rt (withoutPort host.toList))) := by
        intro label
        rcases stripTrailingDot_twice (lower rt (withoutPort host.toList)) with heq | ⟨v, hdots⟩
        · rw [heq]
        · obtain ⟨hnone, hnone'⟩ := hplain.dots v hdots label
          rw [hdots, show v ++ ['.', '.'] = (v ++ ['.']) ++ ['.'] by simp,
            stripTrailingDot_concat_dot, stripTrailingDot_concat_dot]
          exact ⟨fun h => absurd h hnone, fun h => absurd h hnone'⟩
      apply Option.ext
      intro text
      have htext := hedge text.toList
      rw [String.ofList_toList] at htext
      rw [htext, hsame, ← hshared, Option.map_eq_some_iff]
      constructor
      · intro h
        exact ⟨text.toList, h, String.ofList_toList⟩
      · rintro ⟨label, h, rfl⟩
        rwa [String.toList_ofList]
    · intro label
      rw [hshared]
      constructor
      · intro h
        rwa [← hplain.ascii label h]
      · intro h
        rwa [lower_of_ascii hT hparent h]

/-! ## Two dots -/

namespace Small

def ascii : Runtime := .tabulated [] [] (fun _ => none) sha_nil hmac_nil

theorem ascii_lowers : CaseTable.asciiTable.Lowers (lower ascii) := by
  have hlower : lower ascii = List.map Char.toLower := by
    funext s
    simp [lower, ascii, Runtime.tabulated]
  rw [hlower]
  exact CaseTable.asciiTable_lowers

def cfg : EdgeConfig where
  tenantParent := "tenants.example.com"
  tenantPattern := defaultTenantPattern
  poolIssuer := "https://cognito-idp.eu-central-1.amazonaws.com/pool"
  jwksUrl := "https://cognito-idp.eu-central-1.amazonaws.com/pool/.well-known/jwks.json"
  jwksTtlMs := 900000

theorem exact_port : Exact ascii cfg "ACME.tenants.example.com.:443" := by
  refine (exact_iff ascii_lowers rfl (by decide) _).mpr ⟨?_, ?_⟩
  · intro v hdots
    have hlast : (lower ascii (withoutPort "ACME.tenants.example.com.:443".toList)).reverse.take 2 =
        ['.', '.'] := by
      rw [hdots]
      simp
    exact absurd hlast (by decide)
  · intro _ _
    decide

theorem two_dots : ¬ ∀ (rt : Runtime) (T : CaseTable) (cfg : EdgeConfig) (host : String),
    T.Lowers (lower rt) → cfg.tenantPattern = defaultTenantPattern →
      lower rt cfg.tenantParent.toList = cfg.tenantParent.toList → Exact rt cfg host := by
  intro hall
  have hagree := (hall ascii _ cfg "acme.tenants.example.com.." ascii_lowers rfl (by decide)).agree
  revert hagree
  decide

end Small

end SaasFoundation.Vestibulum.SharedDistribution.TenantLabel
