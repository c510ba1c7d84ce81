import SaasFoundation.Foundation.Secrets.Scaleway

/-!
# Cache keys

The keys of all resolvers live in one cache. A key is the parts of a
reference joined with `:`, and the parts of a Scaleway reference may have a
`:` of their own; two references can therefore be read off one key.
-/

namespace SaasFoundation.Foundation.Secrets

open Lib

/-! ## References -/

def isRegionChar (c : Char) : Bool := c.isLower || c.isDigit || c == '-'

def isNameChar (c : Char) : Bool := c.isAlphanum || "/_+=.@-".toList.contains c

/-- `/^arn:aws:secretsmanager:[a-z0-9-]+:\d{12}:secret:[A-Za-z0-9/_+=.@-]+-[A-Za-z0-9]{6}$/`,
by the parts between the colons, of which no class has one. -/
def matchesArnPattern (arn : String) : Bool :=
  match arn.toList.splitOn ':' with
  | [arn, aws, service, region, account, resource, name] =>
      let suffix := name.reverse.take 6
      let rest := name.reverse.drop 6
      arn == "arn".toList && aws == "aws".toList && service == "secretsmanager".toList
        && !region.isEmpty && region.all isRegionChar
        && account.length == 12 && account.all Char.isDigit
        && resource == "secret".toList
        && suffix.length == 6 && suffix.all Char.isAlphanum
        && rest.head? == some '-' && 1 < rest.length && rest.all isNameChar
  | _ => false

/-- The reason against an ARN. -/
def validateArn (arn : String) : Option String :=
  if arn = "" then some "ARN must be non-empty"
  else if !matchesArnPattern arn then
    some "ARN must match arn:aws:secretsmanager:<region>:<account>:secret:<name>-<6char>"
  else none

def validateVersionId (versionId : String) : Option String :=
  if versionId = "" then some "versionId, if provided, must be non-empty"
  else if versionId.toList.any Text.isSpace then some "versionId must not contain whitespace"
  else none

/-- The message of a `SecretRefValidationError`, or the reference. -/
def secretRef (arn : String) (versionId : Option String) : Except String SecretRef :=
  match validateArn arn with
  | some reason => .error ("Invalid SecretRef: " ++ reason)
  | none =>
      match versionId.bind validateVersionId with
      | some reason => .error ("Invalid SecretRef: " ++ reason)
      | none => .ok ⟨arn, versionId⟩

/-- A reference that its constructor has let through. -/
inductive Reference where
  | secret (ref : SecretRef) (accepted : secretRef ref.arn ref.versionId = .ok ref)
  | parameter (name : String) (withDecryption : Bool)
  | scaleway (ref : ScalewaySecretRef) (accepted : scalewaySecretRef ref = .ok ref)

/-- What the provider is asked. -/
inductive ProviderRequest where
  | getSecretValue (secretId : String) (versionId : Option String)
  | getParameter (name : String) (withDecryption : Bool)
  | access (url : String)
deriving DecidableEq

def Reference.key : Reference → String
  | .secret ref _ => secretCacheKey ref
  | .parameter name withDecryption => parameterCacheKey name withDecryption
  | .scaleway ref _ => ref.cacheKey

def Reference.request (baseUrl : String) : Reference → ProviderRequest
  | .secret ref _ => .getSecretValue ref.arn ref.versionId
  | .parameter name withDecryption => .getParameter name withDecryption
  | .scaleway ref _ => .access (ref.accessUrl baseUrl)

/-! ## Which keys are one -/

/-- `front:back` can be read with its first part cut off earlier, as
`front':back'`. -/
def Shifted (front back front' back' : String) : Prop :=
  ∃ between, front = front' ++ ":" ++ between ∧ back' = between ++ ":" ++ back

/-- The parts are told apart by a `:` that belongs to one of them. -/
def Misread (front back front' back' : String) : Prop :=
  Shifted front back front' back' ∨ Shifted front' back' front back

namespace ScalewaySecretRef

/-- A `:` inside of the region or the id, or inside of the project, the path
or the name. -/
def Confused (r s : ScalewaySecretRef) : Prop :=
  r.revisionOrDefault = s.revisionOrDefault ∧
    (Misread r.region r.ident s.region s.ident ∨
      r.region = s.region ∧ present r.secretId = none ∧ present s.secretId = none ∧
        (Misread (r.projectId.getD "") (r.pathOrDefault ++ ":" ++ r.name.getD "undefined")
            (s.projectId.getD "") (s.pathOrDefault ++ ":" ++ s.name.getD "undefined") ∨
          r.projectId.getD "" = s.projectId.getD "" ∧
            Misread r.pathOrDefault (r.name.getD "undefined") s.pathOrDefault
              (s.name.getD "undefined")))

end ScalewaySecretRef

/-- Two references that share a key although they are not the same. -/
def Reference.Confused : Reference → Reference → Prop
  | .secret r _, .secret s _ => r.arn = s.arn ∧
      (r.versionId = none ∧ s.versionId = some "AWSCURRENT" ∨
        r.versionId = some "AWSCURRENT" ∧ s.versionId = none)
  | .scaleway r _, .scaleway s _ => r.Confused s
  | _, _ => False

/-! ## Texts with a separator -/

section Texts

variable {a b c d : String}

theorem colon_eq_iff : a ++ ":" ++ b = c ++ ":" ++ d ↔
    a.toList ++ ':' :: b.toList = c.toList ++ ':' :: d.toList := by
  rw [← String.toList_inj]
  simp

theorem shifted_iff : Shifted a b c d ↔ ∃ between : List Char,
    a.toList = c.toList ++ ':' :: between ∧ d.toList = between ++ ':' :: b.toList :=
  Text.exists_between_iff rfl

/-- Two ways to read one text. -/
theorem append_colon_eq_iff : a ++ ":" ++ b = c ++ ":" ++ d ↔
    a = c ∧ b = d ∨ Misread a b c d := by
  rw [colon_eq_iff, Text.append_sep_eq_iff, Misread, shifted_iff, shifted_iff, String.toList_inj,
    String.toList_inj]

theorem Misread.append (h : Misread a b c d) : a ++ ":" ++ b = c ++ ":" ++ d :=
  append_colon_eq_iff.mpr (.inr h)

/-- Where the parts are cut differently, the first ones differ. -/
theorem Misread.ne (h : Misread a b c d) : a ≠ c := by
  rintro rfl
  have hlength : ∀ between : List Char, a.toList ≠ a.toList ++ ':' :: between := by
    intro between hsame
    have := congrArg List.length hsame
    simp at this
  rcases h with h | h
  · obtain ⟨between, hfront, -⟩ := shifted_iff.mp h
    exact hlength between hfront
  · obtain ⟨between, hfront, -⟩ := shifted_iff.mp h
    exact hlength between hfront

/-- A last part without a colon can be read back. -/
theorem append_colon_last (hb : ':' ∉ b.toList) (hd : ':' ∉ d.toList) :
    a ++ ":" ++ b = c ++ ":" ++ d ↔ a = c ∧ b = d := by
  constructor
  · intro h
    obtain ⟨hac, hbd⟩ := Text.append_sep_inj (colon_eq_iff.mp h) hb hd
    exact ⟨String.toList_inj.mp hac, String.toList_inj.mp hbd⟩
  · rintro ⟨rfl, rfl⟩
    rfl

end Texts

/-! ## Keys of AWS -/

theorem matchesArnPattern_length {arn : String} (h : matchesArnPattern arn = true) :
    (arn.toList.splitOn ':').length = 7 := by
  unfold matchesArnPattern at h
  split at h
  · rename_i hparts
    rw [hparts]
    rfl
  · cases h

/-- An ARN is no longer one with a part more. -/
theorem not_shifted_arn {arn arn' version version' : String} (h : matchesArnPattern arn = true)
    (h' : matchesArnPattern arn' = true) : ¬ Shifted arn version arn' version' := by
  intro hshifted
  obtain ⟨between, hfront, -⟩ := shifted_iff.mp hshifted
  have hlength := matchesArnPattern_length h
  rw [hfront, List.splitOn_append_cons_self, List.length_append, matchesArnPattern_length h'] at hlength
  have hrest : between.splitOn ':' ≠ [] := List.splitOn_ne_nil _ _
  exact hrest (List.length_eq_zero_iff.mp (by omega))

theorem accepted_arn {ref : SecretRef} (h : secretRef ref.arn ref.versionId = .ok ref) :
    matchesArnPattern ref.arn = true := by
  unfold secretRef validateArn at h
  split at h
  · cases h
  · rename_i hvalid
    split at hvalid
    · cases hvalid
    · split at hvalid
      · cases hvalid
      · rename_i hpattern
        simpa using hpattern

theorem secretCacheKey_eq_iff {r s : SecretRef} (hr : secretRef r.arn r.versionId = .ok r)
    (hs : secretRef s.arn s.versionId = .ok s) : secretCacheKey r = secretCacheKey s ↔
      r.arn = s.arn ∧ r.versionId.getD "AWSCURRENT" = s.versionId.getD "AWSCURRENT" := by
  have hfront : secretCacheKey r = secretCacheKey s ↔
      r.arn ++ ":" ++ r.versionId.getD "AWSCURRENT" =
        s.arn ++ ":" ++ s.versionId.getD "AWSCURRENT" := by
    rw [← String.toList_inj, ← String.toList_inj]
    simp [secretCacheKey]
  rw [hfront, append_colon_eq_iff, or_iff_left]
  rintro (h | h)
  · exact not_shifted_arn (accepted_arn hr) (accepted_arn hs) h
  · exact not_shifted_arn (accepted_arn hs) (accepted_arn hr) h

/-- The default is the only version that is read twice. -/
theorem version_eq_iff {v w : Option String} :
    v.getD "AWSCURRENT" = w.getD "AWSCURRENT" ↔
      v = w ∨ v = none ∧ w = some "AWSCURRENT" ∨ v = some "AWSCURRENT" ∧ w = none := by
  cases v with
  | none =>
      cases w with
      | none => simp
      | some w => simp [eq_comm]
  | some v =>
      cases w with
      | none => simp
      | some w => simp

theorem parameterCacheKey_eq_iff {name name' : String} {decrypted decrypted' : Bool} :
    parameterCacheKey name decrypted = parameterCacheKey name' decrypted' ↔
      name = name' ∧ decrypted = decrypted' := by
  have hfront : parameterCacheKey name decrypted = parameterCacheKey name' decrypted' ↔
      name ++ ":" ++ (if decrypted then "decrypted" else "raw") =
        name' ++ ":" ++ (if decrypted' then "decrypted" else "raw") := by
    rw [← String.toList_inj, ← String.toList_inj]
    simp [parameterCacheKey]
  have hlast : ∀ decrypted : Bool, ':' ∉ (if decrypted then "decrypted" else "raw").toList := by
    decide
  have hinj : ∀ d d' : Bool, (if d then "decrypted" else "raw") = (if d' then "decrypted" else "raw") ↔
      d = d' := by decide
  rw [hfront, append_colon_last (hlast _) (hlast _), hinj]

/-! ## Keys of Scaleway -/

namespace ScalewaySecretRef

variable {r s : ScalewaySecretRef} {baseUrl : String}

theorem accepted_iff : scalewaySecretRef r = .ok r ↔ r.region ≠ "" ∧
    (present r.secretId ≠ none ∨ present r.name ≠ none) ∧
      ∀ revision, r.revision = some revision → isRevision revision = true := by
  unfold scalewaySecretRef
  by_cases hregion : r.region = ""
  · simp [hregion]
  · by_cases hnamed : present r.secretId = none ∧ present r.name = none
    · simp [hregion, hnamed]
    · have hnamed' : present r.secretId ≠ none ∨ present r.name ≠ none := by tauto
      cases hrevision : r.revision with
      | none => simp [hregion, hnamed, hnamed']
      | some revision => simp [hregion, hnamed, hnamed']

theorem isRevision_no_colon {revision : String} (h : isRevision revision = true) :
    ':' ∉ revision.toList := by
  intro hcolon
  simp only [isRevision, Bool.or_eq_true, beq_iff_eq] at h
  rcases h with (rfl | rfl) | h
  · exact absurd hcolon (by decide)
  · exact absurd hcolon (by decide)
  · simp only [Text.isDigits, Bool.and_eq_true, List.all_eq_true] at h
    exact absurd (h.2 _ hcolon) (by decide)

theorem accepted_revision (h : scalewaySecretRef r = .ok r) :
    ':' ∉ r.revisionOrDefault.toList := by
  have hvalid := (accepted_iff.mp h).2.2
  unfold revisionOrDefault
  cases hrevision : r.revision with
  | none => decide
  | some revision => exact isRevision_no_colon (hvalid revision hrevision)

theorem accepted_name (h : scalewaySecretRef r = .ok r) (hid : present r.secretId = none) :
    ∃ name, r.name = some name := by
  rcases (accepted_iff.mp h).2.1 with hne | hne
  · exact absurd hid hne
  · cases hname : r.name with
    | none => simp [hname, present] at hne
    | some name => exact ⟨name, rfl⟩

theorem cacheKey_eq_iff (hr : scalewaySecretRef r = .ok r) (hs : scalewaySecretRef s = .ok s) :
    r.cacheKey = s.cacheKey ↔ r.revisionOrDefault = s.revisionOrDefault ∧
      (r.region = s.region ∧ r.ident = s.ident ∨ Misread r.region r.ident s.region s.ident) := by
  have hfront : r.cacheKey = s.cacheKey ↔
      r.region ++ ":" ++ r.ident ++ ":" ++ r.revisionOrDefault =
        s.region ++ ":" ++ s.ident ++ ":" ++ s.revisionOrDefault := by
    rw [← String.toList_inj, ← String.toList_inj]
    simp [cacheKey]
  rw [hfront, append_colon_last (accepted_revision hr) (accepted_revision hs),
    append_colon_eq_iff, and_comm]

/-- An id is no name. -/
theorem ident_eq_iff : r.ident = s.ident ↔ present r.secretId = present s.secretId ∧
    (present r.secretId = none →
      r.projectId.getD "" ++ ":" ++ (r.pathOrDefault ++ ":" ++ r.name.getD "undefined") =
        s.projectId.getD "" ++ ":" ++ (s.pathOrDefault ++ ":" ++ s.name.getD "undefined")) := by
  rw [← String.toList_inj]
  unfold ident
  cases hr : present r.secretId with
  | none =>
      cases hs : present s.secretId with
      | none =>
          rw [← String.toList_inj]
          simp
      | some secretId' => simp
  | some secretId =>
      cases hs : present s.secretId with
      | none => simp
      | some secretId' => simp [String.toList_inj]

/-- The parts that a request is made of. -/
structure Same (r s : ScalewaySecretRef) : Prop where
  revision : r.revisionOrDefault = s.revisionOrDefault
  region : r.region = s.region
  secretId : present r.secretId = present s.secretId
  parts : present r.secretId = none → r.projectId.getD "" = s.projectId.getD "" ∧
    r.pathOrDefault = s.pathOrDefault ∧ r.name.getD "undefined" = s.name.getD "undefined"

theorem cacheKey_eq_cases (hr : scalewaySecretRef r = .ok r) (hs : scalewaySecretRef s = .ok s) :
    r.cacheKey = s.cacheKey ↔ Same r s ∨ r.Confused s := by
  rw [cacheKey_eq_iff hr hs]
  constructor
  · rintro ⟨hrevision, ⟨hregion, hident⟩ | hmisread⟩
    · obtain ⟨hid, hparts⟩ := ident_eq_iff.mp hident
      cases hr : present r.secretId with
      | some secretId =>
          left
          exact ⟨hrevision, hregion, hid, fun hnone => absurd (hr.symm.trans hnone) (by simp)⟩
      | none =>
          have hsid : present s.secretId = none := hid.symm.trans hr
          rcases append_colon_eq_iff.mp (hparts hr) with ⟨hproject, hrest⟩ | hmisread
          · rcases append_colon_eq_iff.mp hrest with ⟨hpath, hname⟩ | hmisread
            · exact .inl ⟨hrevision, hregion, hid, fun _ => ⟨hproject, hpath, hname⟩⟩
            · exact .inr ⟨hrevision, .inr ⟨hregion, hr, hsid, .inr ⟨hproject, hmisread⟩⟩⟩
          · exact .inr ⟨hrevision, .inr ⟨hregion, hr, hsid, .inl hmisread⟩⟩
    · exact .inr ⟨hrevision, .inl hmisread⟩
  · rintro (h | ⟨hrevision, hmisread | ⟨hregion, hrid, hsid, hparts⟩⟩)
    · refine ⟨h.revision, .inl ⟨h.region, ident_eq_iff.mpr ⟨h.secretId, fun hnone => ?_⟩⟩⟩
      obtain ⟨hproject, hpath, hname⟩ := h.parts hnone
      rw [hproject, hpath, hname]
    · exact ⟨hrevision, .inr hmisread⟩
    · refine ⟨hrevision, .inl ⟨hregion, ident_eq_iff.mpr ⟨hrid.trans hsid.symm, fun _ => ?_⟩⟩⟩
      rcases hparts with hmisread | ⟨hproject, hmisread⟩
      · exact hmisread.append
      · rw [hproject, hmisread.append]

/-! ## URLs -/

theorem present_eq {v w : Option String} (h : v.getD "" = w.getD "") : present v = present w := by
  have hfilter : ∀ v : Option String, present v = (some (v.getD "")).filter (· ≠ "") := by
    intro v
    cases v with
    | none => rfl
    | some s => rfl
  rw [hfilter v, hfilter w, h]

theorem Same.accessUrl (h : Same r s) (hr : scalewaySecretRef r = .ok r)
    (hs : scalewaySecretRef s = .ok s) : r.accessUrl baseUrl = s.accessUrl baseUrl := by
  unfold ScalewaySecretRef.accessUrl
  rw [h.revision, h.region, ← h.secretId]
  cases hid : present r.secretId with
  | some secretId => rfl
  | none =>
      obtain ⟨hproject, hpath, hname⟩ := h.parts hid
      obtain ⟨name, hrname⟩ := accepted_name hr hid
      obtain ⟨name', hsname⟩ := accepted_name hs (h.secretId.symm.trans hid)
      rw [hrname, hsname, Option.getD_some, Option.getD_some] at hname
      have hquery : r.query = s.query := by
        rw [query, query, hrname, hsname, hname, hpath, present_eq hproject]
      simp only [hquery]

/-- The region ends at the first slash behind the fixed part. -/
theorem accessUrl_region (r : ScalewaySecretRef) (baseUrl : String) : ∃ rest,
    (r.accessUrl baseUrl).toList = (baseUrl ++ "/secret-manager/v1beta1/regions/").toList ++
      (Percent.encodeURIComponent r.region.toList ++ '/' :: rest) := by
  unfold ScalewaySecretRef.accessUrl
  cases present r.secretId with
  | some secretId => exact ⟨_, by simp; rfl⟩
  | none => exact ⟨_, by simp; rfl⟩

theorem region_of_accessUrl (h : r.accessUrl baseUrl = s.accessUrl baseUrl) :
    r.region = s.region := by
  obtain ⟨rest, hr⟩ := accessUrl_region r baseUrl
  obtain ⟨rest', hs⟩ := accessUrl_region s baseUrl
  rw [h, hs] at hr
  have hslash : ∀ region : String, ∀ c ∈ Percent.encodeURIComponent region.toList, ¬ c = '/' := by
    rintro region c hc rfl
    exact Percent.slash_not_mem_encodeURIComponent _ hc
  obtain ⟨hsame, -⟩ := Text.append_first_sep_inj (S := fun c => c = '/')
    (List.append_cancel_left hr) rfl rfl (hslash s.region) (hslash r.region)
  exact String.toList_inj.mp (Percent.encodeURIComponent_inj hsame).symm

/-- What follows the path in a query. -/
def projectParam (ref : ScalewaySecretRef) : List Char :=
  match present ref.projectId with
  | some projectId => '&' :: "project_id=".toList ++ Percent.encodeForm projectId.toList
  | none => []

theorem query_toList (r : ScalewaySecretRef) : r.query.toList =
    "secret_name=".toList ++ (Percent.encodeForm (r.name.getD "").toList ++
      '&' :: ("secret_path=".toList ++ (Percent.encodeForm r.pathOrDefault.toList ++
        r.projectParam))) := by
  unfold query projectParam
  cases present r.projectId with
  | some projectId => simp
  | none => simp

theorem present_some_getD {v : Option String} {s : String} (h : present v = some s) :
    v.getD "" = s := by
  cases v with
  | none => cases h
  | some t => exact (Option.filter_eq_some_iff.mp h).1 |> Option.some.inj

theorem present_none_getD {v : Option String} (h : present v = none) : v.getD "" = "" := by
  cases v with
  | none => rfl
  | some t => simpa [present, Option.filter] using h

theorem form_ne_ampersand (text : List Char) : ∀ c ∈ Percent.encodeForm text, ¬ c = '&' := by
  rintro c hc rfl
  exact Percent.ampersand_not_mem_encodeForm _ hc

/-- The path ends where the project begins, if there is one. -/
theorem path_append_inj {path path' : List Char}
    (h : Percent.encodeForm path ++ r.projectParam = Percent.encodeForm path' ++ s.projectParam) :
    path = path' ∧ r.projectId.getD "" = s.projectId.getD "" := by
  unfold projectParam at h
  cases hr : present r.projectId with
  | none =>
      cases hs : present s.projectId with
      | none =>
          rw [hr, hs, List.append_nil, List.append_nil] at h
          exact ⟨Percent.encodeForm_inj h, by rw [present_none_getD hr, present_none_getD hs]⟩
      | some projectId' =>
          rw [hr, hs, List.append_nil] at h
          have hmem : '&' ∈ Percent.encodeForm path := by
            rw [h]
            simp
          exact absurd hmem (Percent.ampersand_not_mem_encodeForm _)
  | some projectId =>
      cases hs : present s.projectId with
      | none =>
          rw [hr, hs, List.append_nil] at h
          have hmem : '&' ∈ Percent.encodeForm path' := by
            rw [← h]
            simp
          exact absurd hmem (Percent.ampersand_not_mem_encodeForm _)
      | some projectId' =>
          rw [hr, hs] at h
          obtain ⟨hpath, -, hproject⟩ := Text.append_first_sep_inj (S := fun c => c = '&') h rfl rfl
            (form_ne_ampersand _) (form_ne_ampersand _)
          rw [present_some_getD hr, present_some_getD hs]
          exact ⟨Percent.encodeForm_inj hpath,
            String.toList_inj.mp (Percent.encodeForm_inj (List.append_cancel_left hproject))⟩

/-- A query can be read back. -/
theorem query_inj (h : r.query = s.query) :
    r.projectId.getD "" = s.projectId.getD "" ∧ r.pathOrDefault = s.pathOrDefault := by
  have hlists := String.toList_inj.mpr h
  rw [query_toList, query_toList] at hlists
  obtain ⟨-, -, hrest⟩ := Text.append_first_sep_inj (S := fun c => c = '&')
    (List.append_cancel_left hlists) rfl rfl
    (form_ne_ampersand _) (form_ne_ampersand _)
  obtain ⟨hpath, hproject⟩ := path_append_inj (List.append_cancel_left hrest)
  exact ⟨hproject, String.toList_inj.mp hpath⟩

theorem query_of_accessUrl (h : r.accessUrl baseUrl = s.accessUrl baseUrl)
    (hrevision : r.revisionOrDefault = s.revisionOrDefault) (hregion : r.region = s.region)
    (hr : present r.secretId = none) (hs : present s.secretId = none) : r.query = s.query := by
  unfold ScalewaySecretRef.accessUrl at h
  rw [hr, hs, hrevision, hregion, ← String.toList_inj] at h
  simp only [String.toList_append] at h
  exact String.toList_inj.mp (List.append_cancel_left h)

/-- Whatever is misread is a part of the URL. -/
theorem Confused.accessUrl (h : r.Confused s) : r.accessUrl baseUrl ≠ s.accessUrl baseUrl := by
  obtain ⟨hrevision, hmisread | ⟨hregion, hr, hs, hparts⟩⟩ := h
  · exact fun hsame => hmisread.ne (region_of_accessUrl hsame)
  · intro hsame
    obtain ⟨hproject, hpath⟩ := query_inj (query_of_accessUrl hsame hrevision hregion hr hs)
    rcases hparts with hmisread | ⟨-, hmisread⟩
    · exact hmisread.ne hproject
    · exact hmisread.ne hpath

end ScalewaySecretRef

/-! ## All keys -/

namespace Reference

variable {r s : Reference} {baseUrl : String}

theorem secretCacheKey_ne_parameter (ref : SecretRef) (name : String) (decrypted : Bool) :
    secretCacheKey ref ≠ parameterCacheKey name decrypted := by
  rw [ne_eq, ← String.toList_inj]
  simp [secretCacheKey, parameterCacheKey]

theorem secretCacheKey_ne_scaleway (ref : SecretRef) (ref' : ScalewaySecretRef) :
    secretCacheKey ref ≠ ref'.cacheKey := by
  rw [ne_eq, ← String.toList_inj]
  simp [secretCacheKey, ScalewaySecretRef.cacheKey]

theorem parameterCacheKey_ne_scaleway (name : String) (decrypted : Bool)
    (ref : ScalewaySecretRef) : parameterCacheKey name decrypted ≠ ref.cacheKey := by
  rw [ne_eq, ← String.toList_inj]
  simp [parameterCacheKey, ScalewaySecretRef.cacheKey]

/-- References that share a key ask for the same, or are confused. -/
theorem of_key_eq (baseUrl : String) (h : r.key = s.key) : r.request baseUrl = s.request baseUrl ∨ r.Confused s := by
  cases r with
  | secret r hr =>
      cases s with
      | secret s hs =>
          obtain ⟨harn, hversion⟩ := (secretCacheKey_eq_iff hr hs).mp h
          rcases version_eq_iff.mp hversion with hsame | hconfused
          · exact .inl (by rw [request, request, harn, hsame])
          · exact .inr ⟨harn, hconfused⟩
      | parameter name decrypted => exact absurd h (secretCacheKey_ne_parameter _ _ _)
      | scaleway s _ => exact absurd h (secretCacheKey_ne_scaleway _ _)
  | parameter name decrypted =>
      cases s with
      | secret s _ => exact absurd h.symm (secretCacheKey_ne_parameter _ _ _)
      | parameter name' decrypted' =>
          obtain ⟨rfl, rfl⟩ := parameterCacheKey_eq_iff.mp h
          exact .inl rfl
      | scaleway s _ => exact absurd h (parameterCacheKey_ne_scaleway _ _ _)
  | scaleway r hr =>
      cases s with
      | secret s _ => exact absurd h.symm (secretCacheKey_ne_scaleway _ _)
      | parameter name decrypted => exact absurd h.symm (parameterCacheKey_ne_scaleway _ _ _)
      | scaleway s hs =>
          rcases (ScalewaySecretRef.cacheKey_eq_cases hr hs).mp h with hsame | hconfused
          · exact .inl (by rw [request, request, hsame.accessUrl hr hs])
          · exact .inr hconfused

theorem Confused.key (h : r.Confused s) : r.key = s.key := by
  cases r with
  | secret r hr =>
      cases s with
      | secret s hs =>
          exact (secretCacheKey_eq_iff hr hs).mpr ⟨h.1, version_eq_iff.mpr (.inr h.2)⟩
      | parameter _ _ => exact h.elim
      | scaleway _ _ => exact h.elim
  | parameter _ _ => exact h.elim
  | scaleway r hr =>
      cases s with
      | secret _ _ => exact h.elim
      | parameter _ _ => exact h.elim
      | scaleway s hs => exact (ScalewaySecretRef.cacheKey_eq_cases hr hs).mpr (.inr h)

theorem Confused.request (h : r.Confused s) : r.request baseUrl ≠ s.request baseUrl := by
  cases r with
  | secret r _ =>
      cases s with
      | secret s _ =>
          intro hsame
          obtain ⟨-, hversion⟩ := ProviderRequest.getSecretValue.inj hsame
          rcases h.2 with ⟨hr, hs⟩ | ⟨hr, hs⟩
          · rw [hr, hs] at hversion
            cases hversion
          · rw [hr, hs] at hversion
            cases hversion
      | parameter _ _ => exact h.elim
      | scaleway _ _ => exact h.elim
  | parameter _ _ => exact h.elim
  | scaleway r _ =>
      cases s with
      | secret _ _ => exact h.elim
      | parameter _ _ => exact h.elim
      | scaleway s _ =>
          intro hsame
          exact ScalewaySecretRef.Confused.accessUrl h (ProviderRequest.access.inj hsame)

/-- Different requests have different keys exactly for references that are
not confused. -/
theorem keys_apart_iff (baseUrl : String) (r s : Reference) :
    (r.request baseUrl ≠ s.request baseUrl → r.key ≠ s.key) ↔ ¬ r.Confused s := by
  constructor
  · intro hapart hconfused
    exact hapart hconfused.request hconfused.key
  · intro hclear hrequest hkey
    rcases of_key_eq baseUrl hkey with hsame | hconfused
    · exact hrequest hsame
    · exact hclear hconfused

end Reference

end SaasFoundation.Foundation.Secrets
