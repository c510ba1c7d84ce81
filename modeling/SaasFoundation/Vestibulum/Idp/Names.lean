import SaasFoundation.Vestibulum.Runtime

/-!
# Provider names

`normaliseIdpName` makes a Cognito provider name out of a tenant id: lower
case, every run of other characters a single `-`, at most 25 characters. It
is lossy, and has a guard against a name that belongs to another tenant.
-/

namespace SaasFoundation.Vestibulum.Idp

open Lib

inductive IdpManagerReason where
  | nameCollision
  | nameTooLong
  | notFound
  | idpIdentifierInvalid
deriving DecidableEq, Repr

/-- An `IdpManagerError`. -/
structure IdpManagerError where
  reason : IdpManagerReason
  message : String
deriving DecidableEq, Repr

def namePrefix : String := "tenant-"

def maxSlug : Nat := 25

def maxTotal : Nat := 32

/-- `s.replace(/[p]+/g, "-")`. `inRun` says that the run has its `-`
already. -/
def replaceRuns (p : Char → Bool) : (inRun : Bool) → List Char → List Char
  | _, [] => []
  | inRun, c :: cs =>
      if p c then if inRun then replaceRuns p true cs else '-' :: replaceRuns p true cs
      else c :: replaceRuns p false cs

def isSlugChar (c : Char) : Bool :=
  (97 ≤ c.toNat && c.toNat ≤ 122) || (48 ≤ c.toNat && c.toNat ≤ 57) || c == '-'

def stripTrailing (s : List Char) : List Char := (s.reverse.dropWhile (· == '-')).reverse

/-- The 32-bit FNV-1a hash of the code units, in hexadecimal. -/
def hashSlug (input : String) : List Char :=
  let hash := (Text.units input).foldl (fun hash u => (hash ^^^ u.toUInt32) * 0x01000193)
    (0x811c9dc5 : UInt32)
  Nat.toDigits 16 hash.toNat

def fallbackSlug (tenantId : String) : List Char := ('x' :: hashSlug tenantId).take maxSlug

/-- An empty slug is replaced by a hash. -/
def orFallback (tenantId : String) (slug : List Char) : List Char :=
  if slug.isEmpty then fallbackSlug tenantId else slug

/-- The tenant id in the characters of a slug. -/
def dashed (rt : Runtime) (tenantId : String) : List Char :=
  let replaced := replaceRuns (fun c => !isSlugChar c) false (rt.toLowerCase tenantId).toList
  let collapsed := replaceRuns (· == '-') false replaced
  stripTrailing (collapsed.dropWhile (· == '-'))

/-- What stands after the prefix. -/
def slugOf (rt : Runtime) (tenantId : String) : List Char :=
  orFallback tenantId (stripTrailing ((orFallback tenantId (dashed rt tenantId)).take maxSlug))

/-- The candidate for a tenant's name. -/
def idpName (rt : Runtime) (tenantId : String) : String :=
  namePrefix ++ String.ofList (slugOf rt tenantId)

/-- The first other tenant whose stored name is the candidate. -/
def collision (tenantId candidate : String) (existingNames : List (String × String)) :
    Option String :=
  (existingNames.find? fun (otherTenantId, storedName) =>
    otherTenantId != tenantId && storedName == candidate).map Prod.fst

def normaliseIdpName (rt : Runtime) (tenantId : String) (existingNames : List (String × String)) :
    Except IdpManagerError String :=
  let candidate := idpName rt tenantId
  if Text.jsLength candidate > maxTotal then
    .error ⟨.nameTooLong,
      "Derived ProviderName \"" ++ candidate ++ "\" exceeds Cognito's 32-character limit"⟩
  else
    match collision tenantId candidate existingNames with
    | some otherTenantId => .error ⟨.nameCollision, "Derived ProviderName \"" ++ candidate ++
        "\" collides with the IdP already registered for tenant \"" ++ otherTenantId ++ "\". " ++
        "The first 25 normalised characters of the two tenant IDs are identical; " ++
        "pick a more distinctive tenant identifier or rename the existing one."⟩
    | none => .ok candidate

/-! ## The shape of a name -/

theorem isSlugChar_basic {c : Char} (h : isSlugChar c = true) : c.toNat < 0x10000 := by
  simp only [isSlugChar, Bool.or_eq_true, Bool.and_eq_true, decide_eq_true_eq, beq_iff_eq] at h
  rcases h with (⟨-, h⟩ | ⟨-, h⟩) | rfl
  · omega
  · omega
  · decide

theorem mem_replaceRuns {p : Char → Bool} {inRun : Bool} {s : List Char} {c : Char}
    (h : c ∈ replaceRuns p inRun s) : c = '-' ∨ c ∈ s ∧ p c = false := by
  induction s generalizing inRun with
  | nil => cases h
  | cons d ds ih =>
      have hrest : ∀ {b}, c ∈ replaceRuns p b ds → c = '-' ∨ c ∈ d :: ds ∧ p c = false := by
        intro b hmem
        rcases ih hmem with rfl | ⟨hin, hp⟩
        · exact .inl rfl
        · exact .inr ⟨List.mem_cons_of_mem _ hin, hp⟩
      unfold replaceRuns at h
      split at h
      · split at h
        · exact hrest h
        · rcases List.mem_cons.mp h with rfl | h
          · exact .inl rfl
          · exact hrest h
      · rename_i hp
        rcases List.mem_cons.mp h with rfl | h
        · exact .inr ⟨List.mem_cons_self, Bool.not_eq_true _ ▸ hp⟩
        · exact hrest h

theorem stripTrailing_isPrefix (s : List Char) : stripTrailing s <+: s := by
  have h := List.dropWhile_suffix (fun c => c == '-') (l := s.reverse)
  rwa [← List.reverse_prefix, List.reverse_reverse] at h

theorem stripTrailing_last (s : List Char) : (stripTrailing s).getLast? ≠ some '-' := by
  intro h
  rw [stripTrailing, List.getLast?_reverse] at h
  have hhead := List.head?_dropWhile_not (fun c => c == '-') s.reverse
  rw [h] at hhead
  exact absurd hhead (by decide)

theorem toDigits_isSlugChar (n : Nat) :
    ∀ c ∈ Nat.toDigits 16 n, isSlugChar c = true ∧ c ≠ '-' := by
  have hdigit : ∀ d, d < 16 → isSlugChar d.digitChar = true ∧ d.digitChar ≠ '-' := by decide
  induction n using Nat.strongRecOn with
  | ind n ih =>
      intro c hc
      rw [Nat.toDigits_eq_if (by decide)] at hc
      split at hc
      · rename_i hlt
        rw [List.mem_singleton.mp hc]
        exact hdigit n hlt
      · rcases List.mem_append.mp hc with hc | hc
        · exact ih (n / 16) (by omega) c hc
        · rw [List.mem_singleton.mp hc]
          exact hdigit (n % 16) (by omega)

theorem fallbackSlug_chars (tenantId : String) :
    ∀ c ∈ fallbackSlug tenantId, isSlugChar c = true ∧ c ≠ '-' := by
  intro c hc
  rcases List.mem_cons.mp (List.mem_of_mem_take hc) with rfl | hc
  · decide
  · exact toDigits_isSlugChar _ c hc

/-- Letters, digits and `-`, with no `-` at either end. -/
structure IsSlug (slug : List Char) : Prop where
  nonempty : slug ≠ []
  chars : ∀ c ∈ slug, isSlugChar c = true
  first : slug.head? ≠ some '-'
  last : slug.getLast? ≠ some '-'

theorem fallbackSlug_isSlug (tenantId : String) : IsSlug (fallbackSlug tenantId) where
  nonempty := fun h => nomatch h
  chars := fun c hc => (fallbackSlug_chars tenantId c hc).1
  first := fun h => (fallbackSlug_chars tenantId '-' (List.mem_of_head? h)).2 rfl
  last := fun h => (fallbackSlug_chars tenantId '-' (List.mem_of_getLast? h)).2 rfl

/-- What is not empty already is kept. -/
theorem orFallback_isSlug {tenantId : String} {slug : List Char}
    (h : slug ≠ [] → IsSlug slug) : IsSlug (orFallback tenantId slug) := by
  cases slug with
  | nil => exact fallbackSlug_isSlug tenantId
  | cons c cs => exact h (List.cons_ne_nil c cs)

theorem stripTrailing_isSlug {s : List Char} (hchars : ∀ c ∈ s, isSlugChar c = true)
    (hfirst : s.head? ≠ some '-') (h : stripTrailing s ≠ []) : IsSlug (stripTrailing s) where
  nonempty := h
  chars := fun c hc => hchars c ((stripTrailing_isPrefix s).subset hc)
  first := by
    obtain ⟨rest, hs⟩ := stripTrailing_isPrefix s
    cases hstrip : stripTrailing s with
    | nil => exact absurd hstrip h
    | cons c cs =>
        rw [← hs, hstrip] at hfirst
        exact hfirst
  last := stripTrailing_last s

theorem dashed_isSlug {rt : Runtime} {tenantId : String} (h : dashed rt tenantId ≠ []) :
    IsSlug (dashed rt tenantId) := by
  apply stripTrailing_isSlug _ _ h
  · intro c hc
    rcases mem_replaceRuns ((List.dropWhile_sublist _).mem hc) with rfl | ⟨hc, -⟩
    · decide
    · rcases mem_replaceRuns hc with rfl | ⟨-, hslug⟩
      · decide
      · simpa using hslug
  · intro hhead
    have hdash := List.head?_dropWhile_not (fun c => c == '-')
      (replaceRuns (· == '-') false
        (replaceRuns (fun c => !isSlugChar c) false (rt.toLowerCase tenantId).toList))
    rw [hhead] at hdash
    exact absurd hdash (by decide)

theorem slugOf_isSlug (rt : Runtime) (tenantId : String) : IsSlug (slugOf rt tenantId) := by
  have hslug : IsSlug (orFallback tenantId (dashed rt tenantId)) := orFallback_isSlug dashed_isSlug
  apply orFallback_isSlug
  apply stripTrailing_isSlug
  · exact fun c hc => hslug.chars c (List.mem_of_mem_take hc)
  · rw [List.head?_take, if_neg (by decide)]
    exact hslug.first

theorem slugOf_length_le (rt : Runtime) (tenantId : String) :
    (slugOf rt tenantId).length ≤ maxSlug := by
  have hfallback : (fallbackSlug tenantId).length ≤ maxSlug := List.length_take_le _ _
  have hstrip : ∀ s : List Char, (stripTrailing (s.take maxSlug)).length ≤ maxSlug := fun s =>
    Nat.le_trans (stripTrailing_isPrefix _).length_le (List.length_take_le _ _)
  have horFallback : ∀ s : List Char, s.length ≤ maxSlug →
      (orFallback tenantId s).length ≤ maxSlug := by
    intro s hs
    cases s with
    | nil => exact hfallback
    | cons c cs => exact hs
  exact horFallback _ (hstrip _)

theorem idpName_eq (rt : Runtime) (tenantId : String) :
    idpName rt tenantId = "tenant-" ++ String.ofList (slugOf rt tenantId) := rfl

theorem idpName_length_le (rt : Runtime) (tenantId : String) :
    Text.jsLength (idpName rt tenantId) ≤ maxTotal := by
  have hname : idpName rt tenantId = String.ofList (namePrefix.toList ++ slugOf rt tenantId) := by
    apply String.toList_injective
    simp [idpName]
  rw [hname, Text.jsLength_basic, List.length_append]
  · have hslug := slugOf_length_le rt tenantId
    have hprefix : namePrefix.toList.length = 7 := by decide
    unfold maxSlug at hslug
    unfold maxTotal
    omega
  · intro c hc
    rcases List.mem_append.mp hc with hc | hc
    · have hbasic : ∀ c ∈ namePrefix.toList, c.toNat < 0x10000 := by decide
      exact hbasic c hc
    · exact isSlugChar_basic ((slugOf_isSlug rt tenantId).chars c hc)

/-- A name that another tenant has is refused, and nothing else is. -/
theorem normaliseIdpName_cases (rt : Runtime) (tenantId : String)
    (existingNames : List (String × String)) :
    (∃ e, normaliseIdpName rt tenantId existingNames = .error e ∧ e.reason = .nameCollision ∧
      ∃ p ∈ existingNames, p.1 ≠ tenantId ∧ p.2 = idpName rt tenantId) ∨
    normaliseIdpName rt tenantId existingNames = .ok (idpName rt tenantId) ∧
      ∀ p ∈ existingNames, p.1 ≠ tenantId → p.2 ≠ idpName rt tenantId := by
  have hlength := idpName_length_le rt tenantId
  simp only [normaliseIdpName]
  rw [if_neg (by omega)]
  cases hcollision : collision tenantId (idpName rt tenantId) existingNames with
  | some otherTenantId =>
      obtain ⟨p, hp, -⟩ := Option.map_eq_some_iff.mp hcollision
      have hother := List.find?_some hp
      rw [Bool.and_eq_true, bne_iff_ne, beq_iff_eq] at hother
      exact .inl ⟨_, rfl, rfl, p, List.mem_of_find?_eq_some hp, hother⟩
  | none =>
      refine .inr ⟨rfl, fun p hp hother hsame => ?_⟩
      rw [collision, Option.map_eq_none_iff, List.find?_eq_none] at hcollision
      exact hcollision p hp (by simp [hother, hsame])

theorem normaliseIdpName_new (rt : Runtime) (tenantId : String) :
    normaliseIdpName rt tenantId [] = .ok (idpName rt tenantId) := by
  rcases normaliseIdpName_cases rt tenantId [] with ⟨e, -, -, p, hp, -⟩ | ⟨hname, -⟩
  · cases hp
  · exact hname

theorem idpName_inj {rt : Runtime} {tenant₁ tenant₂ : String} :
    idpName rt tenant₁ = idpName rt tenant₂ ↔ slugOf rt tenant₁ = slugOf rt tenant₂ := by
  rw [← String.toList_inj]
  simp [idpName]

/-- With the known names at hand, no tenant gets the name of another. -/
theorem normaliseIdpName_guarded {rt : Runtime} {tenantId name : String}
    {existingNames : List (String × String)}
    (h : normaliseIdpName rt tenantId existingNames = .ok name) :
    name = idpName rt tenantId ∧ ∀ p ∈ existingNames, p.1 ≠ tenantId → p.2 ≠ name := by
  rcases normaliseIdpName_cases rt tenantId existingNames with ⟨e, herror, -⟩ | ⟨hname, hfree⟩
  · rw [h] at herror
    cases herror
  · rw [h, Except.ok.injEq] at hname
    exact ⟨hname, hname ▸ hfree⟩

-- from here on the name is known by its lemmas
attribute [irreducible] normaliseIdpName idpName

end SaasFoundation.Vestibulum.Idp
