import SaasFoundation.Vestibulum.Idp.SecretIsolation

/-!
# What the checks of secret names remember

The checks share one pattern, and `test` starts where the last match ended.
A refusal for a forbidden character leaves the pattern behind it, and the
next text is searched from there on only.
-/

namespace SaasFoundation.Vestibulum.Idp.Secrets

open Lib

/-! ## What the checks are for -/

/-- `[A-Za-z0-9/_+=.@-]`. -/
def IsAllowed (c : Char) : Prop := c.isAlphanum = true ∨ c ∈ "/_+=.@-".toList

instance (c : Char) : Decidable (IsAllowed c) :=
  inferInstanceAs (Decidable (c.isAlphanum = true ∨ c ∈ "/_+=.@-".toList))

def Allowed (s : String) : Prop := ∀ c ∈ s.toList, IsAllowed c

instance (s : String) : Decidable (Allowed s) :=
  inferInstanceAs (Decidable (∀ c ∈ s.toList, IsAllowed c))

structure WellFormedKind (kind : String) : Prop where
  nonempty : kind ≠ ""
  allowed : Allowed kind

structure WellFormedPrefix (secretPrefix : String) : Prop where
  nonempty : secretPrefix ≠ ""
  starts : secretPrefix.startsWith "/" = true
  ends : secretPrefix.endsWith "/" = true
  allowed : Allowed secretPrefix

/-- The checks, with the pattern at `lastIndex`. -/
def AcceptsKind (lastIndex : Nat) (kind : String) : Prop :=
  (exec (validateKind kind) lastIndex).1 = .ok kind

def AcceptsPrefix (lastIndex : Nat) (secretPrefix : String) : Prop :=
  (exec (validatePrefix secretPrefix) lastIndex).1 = .ok ()

/-- From here the checks say of every text what they should. -/
structure Forgetful (lastIndex : Nat) : Prop where
  kind : ∀ s, AcceptsKind lastIndex s ↔ WellFormedKind s
  secretPrefix : ∀ s, AcceptsPrefix lastIndex s ↔ WellFormedPrefix s

/-! ## The pattern -/

theorem isSafe_toNat {c : Char} : isSafe c.toNat = true ↔ IsAllowed c := by
  have hmarks : ("/_+=.@-".toList.any fun m => m.toNat == c.toNat) = true ↔ c ∈ "/_+=.@-".toList := by
    rw [List.any_eq_true]
    constructor
    · rintro ⟨m, hm, hsame⟩
      rwa [← Char.toNat_inj.mp (beq_iff_eq.mp hsame)]
    · intro hc
      exact ⟨c, hc, beq_self_eq_true _⟩
  rw [isSafe, Bool.or_eq_true, hmarks, IsAllowed, Text.isAlphanum_iff]
  simp only [Bool.or_eq_true, Bool.and_eq_true, decide_eq_true_eq, or_assoc]

theorem isSafe_lt {u : Nat} (h : isSafe u = true) : u < 123 := by
  have hmarks : ∀ m ∈ "/_+=.@-".toList, m.toNat < 123 := by decide
  simp only [isSafe, Bool.or_eq_true, Bool.and_eq_true, decide_eq_true_eq, List.any_eq_true,
    beq_iff_eq] at h
  rcases h with ((⟨-, h⟩ | ⟨-, h⟩) | ⟨-, h⟩) | ⟨m, hm, rfl⟩
  · omega
  · omega
  · omega
  · exact hmarks m hm

/-- The surrogates of the other planes are forbidden, as are their
characters. -/
theorem isSafe_units {s : String} : (∀ u ∈ Text.units s, isSafe u = true) ↔ Allowed s := by
  rw [Text.units, List.forall_mem_flatMap]
  apply forall₂_congr
  intro c _
  by_cases hbasic : c.toNat < 0x10000
  · simp only [if_pos hbasic, List.forall_mem_singleton]
    exact isSafe_toNat
  · have hforbidden : ¬ IsAllowed c := by
      rw [← isSafe_toNat]
      intro hsafe
      exact hbasic (Nat.lt_trans (isSafe_lt hsafe) (by decide))
    simp only [if_neg hbasic, hforbidden, iff_false]
    intro hall
    have hsurrogate := isSafe_lt (hall _ List.mem_cons_self)
    omega

theorem test_eq_false {s : String} {n : Nat} :
    (test s n).1 = false ↔ ∀ u ∈ (Text.units s).drop n, isSafe u = true := by
  have hfound : (test s n).1 = ((Text.units s).drop n).any fun u => !isSafe u := by
    rw [← List.findIdx?_isSome, test]
    split
    · rename_i i hi
      rw [hi]
      rfl
    · rename_i hnone
      rw [hnone]
      rfl
  rw [hfound]
  simp

/-- Nothing was found: the pattern is where it was at first. -/
theorem test_snd {s : String} {n : Nat} : (test s n).2 = 0 ↔ (test s n).1 = false := by
  unfold test
  split
  · simp
  · simp

theorem test_allowed {s : String} : (test s 0).1 = false ↔ Allowed s := by
  rw [test_eq_false, List.drop_zero, isSafe_units]

/-! ## The checks -/

theorem acceptsKind_iff {n : Nat} {kind : String} :
    AcceptsKind n kind ↔ kind ≠ "" ∧ (test kind n).1 = false := by
  by_cases hempty : kind = ""
  · simp [AcceptsKind, validateKind, hempty, invalid]
  · cases htest : (test kind n).1 with
    | true => simp [AcceptsKind, validateKind, hempty, invalid, htest]
    | false => simp [AcceptsKind, validateKind, hempty, htest]

theorem validateKind_snd {n : Nat} {kind : String} :
    (exec (validateKind kind) n).2 = if kind = "" then n else (test kind n).2 := by
  by_cases hempty : kind = ""
  · simp [validateKind, hempty, invalid]
  · cases htest : (test kind n).1 with
    | true => simp [validateKind, hempty, invalid, htest]
    | false => simp [validateKind, hempty, htest]

theorem validateKind_ok {n m : Nat} {kind k : String}
    (h : exec (validateKind kind) n = (.ok k, m)) : m = 0 := by
  by_cases hempty : kind = ""
  · simp [validateKind, hempty, invalid] at h
  · cases htest : (test kind n).1 with
    | true => simp [validateKind, hempty, invalid, htest] at h
    | false =>
        have hsnd : (exec (validateKind kind) n).2 = _ := validateKind_snd
        rw [h, if_neg hempty, test_snd.mpr htest] at hsnd
        exact hsnd

/-- The texts that get as far as the pattern. -/
def Delimited (secretPrefix : String) : Prop :=
  secretPrefix ≠ "" ∧ secretPrefix.startsWith "/" = true ∧ secretPrefix.endsWith "/" = true

instance (secretPrefix : String) : Decidable (Delimited secretPrefix) :=
  inferInstanceAs (Decidable (_ ∧ _ ∧ _))

theorem validatePrefix_undelimited {n : Nat} {secretPrefix : String}
    (h : ¬ Delimited secretPrefix) : ∃ e, exec (validatePrefix secretPrefix) n = (.error e, n) := by
  by_cases hempty : secretPrefix = ""
  · simp [validatePrefix, hempty, invalid]
  · by_cases hstarts : secretPrefix.startsWith "/" = true
    · by_cases hends : secretPrefix.endsWith "/" = true
      · exact absurd ⟨hempty, hstarts, hends⟩ h
      · simp [validatePrefix, hempty, hstarts, hends, invalid]
    · simp [validatePrefix, hempty, hstarts, invalid]

theorem validatePrefix_found {n : Nat} {secretPrefix : String} (h : Delimited secretPrefix)
    (htest : (test secretPrefix n).1 = true) :
    ∃ e, exec (validatePrefix secretPrefix) n = (.error e, (test secretPrefix n).2) := by
  obtain ⟨hempty, hstarts, hends⟩ := h
  simp [validatePrefix, hempty, hstarts, hends, htest, invalid]

theorem validatePrefix_clean {n : Nat} {secretPrefix : String} (h : Delimited secretPrefix)
    (htest : (test secretPrefix n).1 = false) :
    exec (validatePrefix secretPrefix) n = (.ok (), 0) := by
  obtain ⟨hempty, hstarts, hends⟩ := h
  simp [validatePrefix, hempty, hstarts, hends, htest, test_snd.mpr htest]

theorem acceptsPrefix_iff {n : Nat} {secretPrefix : String} :
    AcceptsPrefix n secretPrefix ↔ Delimited secretPrefix ∧ (test secretPrefix n).1 = false := by
  by_cases hdelimited : Delimited secretPrefix
  · cases htest : (test secretPrefix n).1 with
    | true =>
        obtain ⟨e, he⟩ := validatePrefix_found hdelimited htest
        simp [AcceptsPrefix, he]
    | false => simp [AcceptsPrefix, validatePrefix_clean hdelimited htest, hdelimited]
  · obtain ⟨e, he⟩ := validatePrefix_undelimited (n := n) hdelimited
    simp [AcceptsPrefix, he, hdelimited]

theorem validatePrefix_snd {n : Nat} {secretPrefix : String} :
    (exec (validatePrefix secretPrefix) n).2 =
      if Delimited secretPrefix then (test secretPrefix n).2 else n := by
  by_cases hdelimited : Delimited secretPrefix
  · rw [if_pos hdelimited]
    cases htest : (test secretPrefix n).1 with
    | true =>
        obtain ⟨e, he⟩ := validatePrefix_found hdelimited htest
        rw [he]
    | false => rw [validatePrefix_clean hdelimited htest, test_snd.mpr htest]
  · obtain ⟨e, he⟩ := validatePrefix_undelimited (n := n) hdelimited
    rw [if_neg hdelimited, he]

/-- Where the pattern stands matters for one kind of text only: its
forbidden characters are all behind. -/
def Overlooked (n : Nat) (s : String) : Prop :=
  ¬ Allowed s ∧ ∀ u ∈ (Text.units s).drop n, isSafe u = true

theorem test_right {n : Nat} {s : String} :
    ((test s n).1 = false ↔ Allowed s) ↔ ¬ Overlooked n s := by
  rw [test_eq_false, ← isSafe_units, Overlooked, ← isSafe_units]
  have hdrop : (∀ u ∈ Text.units s, isSafe u = true) →
      ∀ u ∈ (Text.units s).drop n, isSafe u = true := fun h u hu => h u (List.mem_of_mem_drop hu)
  tauto

theorem acceptsKind_right {n : Nat} {kind : String} :
    (AcceptsKind n kind ↔ WellFormedKind kind) ↔ ¬ Overlooked n kind := by
  rw [← test_right, acceptsKind_iff]
  have hwell : WellFormedKind kind ↔ kind ≠ "" ∧ Allowed kind :=
    ⟨fun h => ⟨h.nonempty, h.allowed⟩, fun h => ⟨h.1, h.2⟩⟩
  rw [hwell]
  by_cases hempty : kind = ""
  · subst hempty
    simp [test_eq_false, Text.units, Allowed]
  · simp [hempty]

theorem acceptsPrefix_right {n : Nat} {secretPrefix : String} :
    (AcceptsPrefix n secretPrefix ↔ WellFormedPrefix secretPrefix) ↔
      (Delimited secretPrefix → ¬ Overlooked n secretPrefix) := by
  rw [← test_right, acceptsPrefix_iff]
  have hwell : WellFormedPrefix secretPrefix ↔ Delimited secretPrefix ∧ Allowed secretPrefix :=
    ⟨fun h => ⟨⟨h.nonempty, h.starts, h.ends⟩, h.allowed⟩,
      fun h => ⟨h.1.1, h.1.2.1, h.1.2.2, h.2⟩⟩
  rw [hwell]
  by_cases hdelimited : Delimited secretPrefix
  · simp [hdelimited]
  · simp [hdelimited]

/-- The checks say what they should exactly while the pattern is where it
was at first. -/
theorem forgetful_iff {n : Nat} : Forgetful n ↔ n = 0 := by
  constructor
  · intro h
    by_contra hn
    have hoverlooked : Overlooked n " " := by
      refine ⟨by decide, ?_⟩
      have hbehind : (Text.units " ").drop n = [] := List.drop_eq_nil_of_le (by
        show 1 ≤ n
        omega)
      rw [hbehind]
      intro u hu
      cases hu
    exact acceptsKind_right.mp (h.kind " ") hoverlooked
  · rintro rfl
    have hseen : ∀ s, ¬ Overlooked 0 s := by
      intro s hs
      exact hs.1 (isSafe_units.mp (by simpa using hs.2))
    exact ⟨fun s => acceptsKind_right.mpr (hseen s), fun s => acceptsPrefix_right.mpr fun _ => hseen s⟩

/-! ## Calls of one process -/

structure IdpSecretsClientProps where
  region : Option String
  secretPrefix : String
  accountId : Option String
deriving DecidableEq, Repr

theorem validatePrefix_ok {n m : Nat} {secretPrefix : String}
    (h : exec (validatePrefix secretPrefix) n = (.ok (), m)) :
    exec (validatePrefix secretPrefix) n = (.ok (), 0) := by
  have haccepts : AcceptsPrefix n secretPrefix := by rw [AcceptsPrefix, h]
  obtain ⟨hdelimited, htest⟩ := acceptsPrefix_iff.mp haccepts
  exact validatePrefix_clean hdelimited htest

/-- `new IdpSecretsClient(props)`, under an `AWS_REGION`. -/
def construct (environment : Option String) (props : IdpSecretsClientProps) (lastIndex : Nat) :
    Except Failure IdpSecretsClient × Nat :=
  match h : exec (validatePrefix props.secretPrefix) lastIndex with
  | (.ok (), n) =>
      (.ok ⟨props.secretPrefix, (props.region.or environment).getD "us-east-1", props.accountId,
        lastIndex, validatePrefix_ok h⟩, n)
  | (.error e, n) => (.error e, n)

inductive Call where
  | construct (environment : Option String) (props : IdpSecretsClientProps)
  | secretName (client : IdpSecretsClient) (tenantId kind : String)
  | arnFor (client : IdpSecretsClient) (tenantId kind : String)
  | store (client : IdpSecretsClient) (tenantId secretValue kind : String)
  | delete (client : IdpSecretsClient) (tenantId kind : String)
  | getSecretValue (client : IdpSecretsClient) (tenantId kind : String)

/-- Where a call leaves the pattern. -/
def Call.next (lastIndex : Nat) : Call → Nat
  | .construct environment props => (Secrets.construct environment props lastIndex).2
  | .secretName client tenantId kind => (exec (client.secretName tenantId kind) lastIndex).2
  | .arnFor client tenantId kind => (exec (client.arnFor tenantId kind) lastIndex).2
  | .store client tenantId secretValue kind =>
      (client.store lastIndex tenantId secretValue kind).2
  | .delete client tenantId kind => (client.delete lastIndex tenantId kind).2
  | .getSecretValue client tenantId kind =>
      (Secrets.getSecretValue client lastIndex tenantId kind).2

/-- The indices of a process, from the first on. -/
def indices (calls : List Call) : List Nat := calls.scanl Call.next 0

/-- The text that a call hands to the pattern, if it gets that far. -/
def Call.tested : Call → Option String
  | .construct _ props => if Delimited props.secretPrefix then some props.secretPrefix else none
  | .secretName _ _ kind | .delete _ _ kind | .getSecretValue _ _ kind =>
      if kind = "" then none else some kind
  | .arnFor client _ kind =>
      if client.accountId.getD "" = "" ∨ kind = "" then none else some kind
  | .store _ _ secretValue kind => if secretValue = "" ∨ kind = "" then none else some kind

/-- It hands over no forbidden character. -/
def Call.Clean (call : Call) : Prop := ∀ s ∈ call.tested, Allowed s

section Calls

variable {n : Nat} {client : IdpSecretsClient} {tenantId kind : String}

/-- After an accepted kind the index is 0, whatever else a call does. -/
theorem secretName_snd : (exec (client.secretName tenantId kind) n).2 =
    if kind = "" then n else (test kind n).2 := by
  rw [← validateKind_snd, IdpSecretsClient.secretName, exec_bind]
  split
  · rename_i k m hkind
    have hm : m = 0 := validateKind_ok hkind
    rw [hkind, hm]
    by_cases htenant : tenantId = ""
    · simp [sanitiseTenantId, htenant, invalid]
    · simp [sanitiseTenantId, htenant]
  · rename_i e m hkind
    rw [hkind]

theorem arnFor_snd : (exec (client.arnFor tenantId kind) n).2 =
    if client.accountId.getD "" = "" then n else (exec (client.secretName tenantId kind) n).2 := by
  by_cases haccount : client.accountId.getD "" = ""
  · simp [IdpSecretsClient.arnFor, haccount, invalid]
  · rw [if_neg haccount, IdpSecretsClient.arnFor]
    simp only [haccount, if_false, exec_bind, exec_pure]
    split
    · rename_i h
      rw [h]
    · rename_i h
      rw [h]

theorem afterName_snd {α : Type} {name : Check String} {rest : String → Handler (Except Failure α)} :
    (afterName name n rest).2 = (exec name n).2 := by
  unfold afterName
  split
  · rename_i h
    rw [h]
  · rename_i h
    rw [h]

theorem construct_snd {environment : Option String} {props : IdpSecretsClientProps} :
    (construct environment props n).2 = (exec (validatePrefix props.secretPrefix) n).2 := by
  unfold construct
  split
  · rename_i h
    exact congrArg Prod.snd h.symm
  · rename_i h
    exact congrArg Prod.snd h.symm

theorem next_eq (call : Call) : call.next n =
    match call.tested with
    | none => n
    | some s => (test s n).2 := by
  cases call with
  | construct environment props =>
      rw [Call.next, construct_snd, validatePrefix_snd, Call.tested]
      split
      · rfl
      · rfl
  | secretName client tenantId kind =>
      rw [Call.next, secretName_snd, Call.tested]
      split
      · rfl
      · rfl
  | arnFor client tenantId kind =>
      rw [Call.next, arnFor_snd, secretName_snd, Call.tested]
      by_cases haccount : client.accountId.getD "" = ""
      · simp [haccount]
      · by_cases hempty : kind = ""
        · simp [hempty]
        · simp [haccount, hempty]
  | store client tenantId secretValue kind =>
      rw [Call.next, IdpSecretsClient.store, Call.tested]
      by_cases hvalue : secretValue = ""
      · simp [hvalue]
      · rw [if_neg hvalue, afterName_snd, secretName_snd]
        by_cases hempty : kind = ""
        · simp [hempty]
        · simp [hvalue, hempty]
  | delete client tenantId kind =>
      rw [Call.next, IdpSecretsClient.delete, afterName_snd, secretName_snd, Call.tested]
      split
      · rfl
      · rfl
  | getSecretValue client tenantId kind =>
      rw [Call.next, Secrets.getSecretValue, afterName_snd, secretName_snd, Call.tested]
      split
      · rfl
      · rfl

theorem next_zero {call : Call} : call.next 0 = 0 ↔ call.Clean := by
  rw [next_eq, Call.Clean]
  cases call.tested with
  | none => simp
  | some s => simp [test_snd, test_allowed]

end Calls

/-- The checks forget the history exactly if no call of it hands a
forbidden character to the pattern. -/
theorem checks_forget_iff (calls : List Call) :
    ((∀ n ∈ indices calls, Forgetful n) ↔ ∀ call ∈ calls, call.Clean) ∧
      ∀ n s, ((AcceptsKind n s ↔ WellFormedKind s) ↔ ¬ Overlooked n s) ∧
        ((AcceptsPrefix n s ↔ WellFormedPrefix s) ↔ (Delimited s → ¬ Overlooked n s)) := by
  refine ⟨?_, fun n s => ⟨acceptsKind_right, acceptsPrefix_right⟩⟩
  simp only [forgetful_iff, indices]
  induction calls with
  | nil => simp
  | cons call calls ih =>
      rw [List.scanl_cons, List.forall_mem_cons, List.forall_mem_cons]
      constructor
      · rintro ⟨-, hrest⟩
        have hfirst : call.next 0 = 0 := hrest _ (by
          cases calls with
          | nil => simp
          | cons _ _ => simp)
        rw [hfirst] at hrest
        exact ⟨next_zero.mp hfirst, ih.mp hrest⟩
      · rintro ⟨hfirst, hrest⟩
        rw [next_zero.mpr hfirst]
        exact ⟨rfl, ih.mpr hrest⟩

namespace Small

/-- The space of the refused kind is at index 4; after it the pattern
overlooks that of the next one. -/
theorem refusal_remembered :
    indices [.construct none ⟨none, "/app/", none⟩, .secretName client "acme" "oidc secret"] =
        [0, 0, 5] ∧
      (exec (client.secretName "acme" "a b") 5).1 = .ok "/app/a b/acme" ∧
      ¬ ∀ calls, ∀ n ∈ indices calls, Forgetful n := by
  have hindices : indices [.construct none ⟨none, "/app/", none⟩,
      .secretName client "acme" "oidc secret"] = [0, 0, 5] := by decide +kernel
  refine ⟨hindices, by decide +kernel, ?_⟩
  intro hall
  have hfive : Forgetful 5 := hall _ 5 (by rw [hindices]; simp)
  exact absurd (forgetful_iff.mp hfive) (by decide)

end Small

end SaasFoundation.Vestibulum.Idp.Secrets
