import SaasFoundation.Vestibulum.SignIn.Create

/-!
# `VerifyAuthChallengeResponse`

The redeeming trigger. The answer is compared with the session's own hash
before any store is touched; then the row is read, checked and deleted
under the condition that it still exists, and in `admin-only` mode the
allow-list has the last word.
-/

namespace SaasFoundation.Vestibulum.SignIn

open Lib Lib.Text

/-- The trigger event, as far as it is read. The earlier rounds and the
answer come from outside as JSON. -/
structure VerifyAuthChallengeEvent where
  userPoolId : String
  userName : String
  privateChallengeParameters : Record
  challengeAnswer : Option Json
  session : List Json

/-- Closed set of failure reasons. -/
inductive FailReason where
  | quarantined | priorFailure | emptyAnswer | badAnswer | hashMismatch | noSuchToken
  | codeMismatch | emailMismatch | expired | alreadyConsumed | deleteError | ineligible
  | allowListDown | dependencyError
deriving DecidableEq, Repr

inductive VerifyResult where
  | correct
  | failed (reason : FailReason)
deriving DecidableEq, Repr

def VerifyResult.answerCorrect : VerifyResult → Bool
  | .correct => true
  | .failed _ => false

/-- An earlier round of the session that was answered wrongly. -/
def isFailedRound (entry : Json) : Bool :=
  match entry.get "challengeResult" with
  | some (.bool false) => true
  | _ => false

/-! ## Before the store -/

/-- An answer that fits the session it was given in. -/
structure AcceptedAnswer where
  form : AnswerForm
  submittedHash : String
  /-- The session's token hash, whichever form was typed. -/
  rowKey : String

/-- The session's own hash for the form that was typed. -/
def expectedHash (params : Record) : AnswerForm → Option String
  | .token => params.lookup "token_hash"
  | .code => params.lookup "code_hash"

/-- Quarantine, earlier failures, the answer's shape, and the comparison
with the session's own hash for that form. -/
def checkAnswer (rt : Runtime) (ev : VerifyAuthChallengeEvent) :
    Except FailReason AcceptedAnswer :=
  let params := ev.privateChallengeParameters
  if params.lookup "quarantined" = some "true" then .error .quarantined
  else if ev.session.any isFailedRound then .error .priorFailure
  else
    match Json.asString ev.challengeAnswer with
    | none => .error .emptyAnswer
    | some submitted =>
        if jsLength submitted = 0 then .error .emptyAnswer
        else if jsLength submitted > maxAnswerLength then .error .badAnswer
        else
          match classifyAnswer submitted with
          | none => .error .badAnswer
          | some form =>
              let submittedHash := rt.sha256Hex submitted
              if !constantTimeHashEqual (expectedHash params form) (some submittedHash) then
                .error .hashMismatch
              else
                match params.lookup "token_hash" with
                | none => .error .hashMismatch
                | some rowKey => .ok ⟨form, submittedHash, rowKey⟩

/-! ## The row -/

/-- The HMAC the session's address should have; empty without key or
address. -/
def expectedEmailHmac (rt : Runtime) (email : Option String) (hmacKey : String) : String :=
  match email with
  | none => ""
  | some email => if hmacKey = "" ∨ email = "" then "" else hmacEmail rt email hmacKey

/-- The code's own hash and the address cross-check. `none` passes. -/
def checkRow (rt : Runtime) (ev : VerifyAuthChallengeEvent) (hmacKey : String)
    (a : AcceptedAnswer) (row : TokenRow) : Except Thrown (Option FailReason) :=
  if a.form = .code && !constantTimeHashEqual row.codeHash (some a.submittedHash) then
    .ok (some .codeMismatch)
  else
    let stored := row.emailHmac.getD ""
    let expected := expectedEmailHmac rt (ev.privateChallengeParameters.lookup "email") hmacKey
    if jsLength stored = 0 || jsLength expected = 0 || jsLength stored ≠ jsLength expected then
      .ok (some .emailMismatch)
    else
      match timingSafeEqual (fromHex stored.toList) (fromHex expected.toList) with
      | none => .error .rangeError
      | some true => .ok none
      | some false => .ok (some .emailMismatch)

/-- A row without an expiry is expired. -/
def isExpired (row : TokenRow) (nowMs : Int) : Bool :=
  match row.expiresAt with
  | none => true
  | some expiresAt => decide (nowMs ≥ expiresAt * 1000)

/-! ## The handler -/

/-- The last word of the allow-list. -/
def recheckEligibility (env : ProcessEnv) (ev : VerifyAuthChallengeEvent)
    (enrollment : Enrollment) : Handler VerifyResult :=
  match enrollment with
  | .selfSignup => pure .correct
  | .adminOnly => do
      let poolId := (env RuntimeEnv.cognitoUserPoolId).getD ev.userPoolId
      let reply : Except SdkError AllowListResult ← request (.allowListGet poolId ev.userName)
      match reply with
      | .error _ => pure (.failed .allowListDown)
      | .ok .unavailable => pure (.failed .allowListDown)
      | .ok (.value e) =>
          if eligible e then pure .correct else pure (.failed .ineligible)

/-- Expiry, the conditional delete that consumes the row, eligibility. -/
def consume (env : ProcessEnv) (ev : VerifyAuthChallengeEvent) (enrollment : Enrollment)
    (rowKey : String) (row : TokenRow) : Handler VerifyResult := do
  let nowMs ← request .now
  if isExpired row nowMs then pure (.failed .expired)
  else
    let reply : Except SdkError Unit ← request (.deleteToken rowKey)
    match reply with
    | .ok () => recheckEligibility env ev enrollment
    | .error .conditionalCheckFailed => pure (.failed .alreadyConsumed)
    | .error _ => pure (.failed .deleteError)

/-- The part behind the comparison: read the row, check it, consume it. -/
def redeem (rt : Runtime) (env : ProcessEnv) (ev : VerifyAuthChallengeEvent)
    (enrollment : Enrollment) (hmacKey : String) (a : AcceptedAnswer) :
    Handler (Except Thrown VerifyResult) := do
  let lookup : Except SdkError (Option TokenRow) ← request (.getToken a.rowKey)
  match lookup with
  | .error _ => pure (.ok (.failed .dependencyError))
  | .ok none => pure (.ok (.failed .noSuchToken))
  | .ok (some row) =>
      match checkRow rt ev hmacKey a row with
      | .error thrown => pure (.error thrown)
      | .ok (some reason) => pure (.ok (.failed reason))
      | .ok none => do
          let result ← consume env ev enrollment a.rowKey row
          pure (.ok result)

def verifyAuthChallenge (rt : Runtime) (env : ProcessEnv) (ev : VerifyAuthChallengeEvent) :
    Handler (Except Thrown VerifyResult) :=
  match parseEnrollment (env RuntimeEnv.enrollment) with
  | none => pure (.error .authenticationFailed)
  | some enrollment => do
      let reply : Except SdkError String ← request .resolveEmailHmacKey
      match reply with
      | .error _ => pure (.ok (.failed .dependencyError))
      | .ok hmacKey =>
          match checkAnswer rt ev with
          | .error reason => pure (.ok (.failed reason))
          | .ok a =>
              match env.nonEmpty RuntimeEnv.tokenTableName with
              | none => pure (.error .authenticationFailed)
              | some _ => redeem rt env ev enrollment hmacKey a

/-! ## What a correct answer means -/

section Runs

variable {rt : Runtime} {env : ProcessEnv} {ev : VerifyAuthChallengeEvent}
  {es : List (Event Request Reply)}

/-- The requests of the trigger. -/
def Request.ofVerify : Request → Prop
  | .now => True
  | .resolveEmailHmacKey => True
  | .getToken _ => True
  | .deleteToken _ => True
  | .allowListGet _ _ => True
  | _ => False

/-- What the comparison has established once it lets an answer through. -/
structure Fits (rt : Runtime) (ev : VerifyAuthChallengeEvent) (submitted : String)
    (a : AcceptedAnswer) : Prop where
  notQuarantined : ev.privateChallengeParameters.lookup "quarantined" ≠ some "true"
  noFailure : ∀ entry ∈ ev.session, isFailedRound entry = false
  answer : Json.asString ev.challengeAnswer = some submitted
  form : classifyAnswer submitted = some a.form
  submittedHash : a.submittedHash = rt.sha256Hex submitted
  rowKey : ev.privateChallengeParameters.lookup "token_hash" = some a.rowKey
  hash : constantTimeHashEqual (expectedHash ev.privateChallengeParameters a.form)
    (some (rt.sha256Hex submitted)) = true

theorem checkAnswer_ok {a : AcceptedAnswer} (h : checkAnswer rt ev = .ok a) :
    ∃ submitted, Fits rt ev submitted a := by
  unfold checkAnswer at h
  simp only at h
  split at h
  · cases h
  rename_i hquarantined
  split at h
  · cases h
  rename_i hsession
  split at h
  · cases h
  rename_i submitted hanswer
  split at h
  · cases h
  split at h
  · cases h
  split at h
  · cases h
  rename_i form hform
  split at h
  · cases h
  rename_i hhash
  split at h
  · cases h
  rename_i rowKey hrow
  cases h
  exact ⟨submitted, hquarantined, by simpa using hsession, hanswer, hform, rfl, hrow,
    by simpa using hhash⟩

/-- The requests of a session's `Verify`: the only row they name is the
session's own. -/
def Request.ofSession (params : Record) : Request → Prop
  | .now => True
  | .resolveEmailHmacKey => True
  | .allowListGet _ _ => True
  | .getToken k => params.lookup "token_hash" = some k
  | .deleteToken k => params.lookup "token_hash" = some k
  | _ => False

theorem consume_ofSession {enrollment : Enrollment} {rowKey : String} {row : TokenRow}
    (hrow : ev.privateChallengeParameters.lookup "token_hash" = some rowKey) :
    (consume env ev enrollment rowKey row).Uses
      (Request.ofSession ev.privateChallengeParameters) := by
  simp only [consume, Prog.call_bind, Prog.uses_ask]
  refine ⟨trivial, fun nowMs => ?_⟩
  split
  · trivial
  simp only [Prog.uses_ask]
  refine ⟨hrow, fun reply => ?_⟩
  split
  · unfold recheckEligibility
    split
    · trivial
    · simp only [Prog.call_bind, Prog.uses_ask]
      refine ⟨trivial, fun answer => ?_⟩
      split
      · trivial
      · trivial
      · split <;> trivial
  · trivial
  · trivial

theorem verifyAuthChallenge_ofSession :
    (verifyAuthChallenge rt env ev).Uses (Request.ofSession ev.privateChallengeParameters) := by
  unfold verifyAuthChallenge
  split
  · trivial
  simp only [Prog.call_bind, Prog.uses_ask]
  refine ⟨trivial, fun reply => ?_⟩
  split
  · trivial
  split
  · trivial
  rename_i a ha
  obtain ⟨submitted, hfits⟩ := checkAnswer_ok ha
  split
  · trivial
  simp only [redeem, Prog.call_bind, Prog.uses_ask]
  refine ⟨hfits.rowKey, fun lookup => ?_⟩
  split
  · trivial
  · trivial
  split
  · trivial
  · trivial
  · exact (consume_ofSession hfits.rowKey).bind fun _ => trivial

theorem verifyAuthChallenge_uses : (verifyAuthChallenge rt env ev).Uses Request.ofVerify := by
  refine verifyAuthChallenge_ofSession.mono fun op h => ?_
  cases op <;> trivial

/-- A row that passes holds the HMAC of the session's address, and, for the
code form, the hash of the code. -/
theorem checkRow_none {key : String} {a : AcceptedAnswer} {row : TokenRow}
    (h : checkRow rt ev key a row = .ok none) :
    (a.form = .code → constantTimeHashEqual row.codeHash (some a.submittedHash) = true) ∧
    ∃ email, ev.privateChallengeParameters.lookup "email" = some email ∧ key ≠ "" ∧
      fromHex (row.emailHmac.getD "").toList = fromHex (hmacEmail rt email key).toList := by
  unfold checkRow at h
  simp only at h
  split at h
  · cases h
  rename_i hcode
  split at h
  · cases h
  rename_i hlen
  simp only [Bool.or_eq_true, decide_eq_true_eq, not_or] at hlen
  obtain ⟨⟨-, hne⟩, -⟩ := hlen
  split at h
  · cases h
  · rename_i heq
    refine ⟨fun hform => by simpa [hform] using hcode, ?_⟩
    unfold expectedEmailHmac at hne heq
    cases hemail : ev.privateChallengeParameters.lookup "email" with
    | none => simp [hemail, jsLength] at hne
    | some email =>
        simp only [hemail] at hne heq
        split at hne
        · simp [jsLength] at hne
        · rename_i hkey
          rw [if_neg hkey] at heq
          rw [not_or] at hkey
          refine ⟨email, rfl, hkey.1, ?_⟩
          simp only [timingSafeEqual, Option.ite_none_right_eq_some, Option.some.injEq,
            beq_iff_eq] at heq
          exact heq.2
  · cases h

/-- A run that ends in a correct answer. -/
structure RedeemRun (rt : Runtime) (env : ProcessEnv) (ev : VerifyAuthChallengeEvent)
    (es : List (Event Request Reply)) where
  enrollment : Enrollment
  key : String
  submitted : String
  accepted : AcceptedAnswer
  row : TokenRow
  nowMs : Int
  tail : List (Event Request Reply)
  enrolled : parseEnrollment (env RuntimeEnv.enrollment) = some enrollment
  fits : Fits rt ev submitted accepted
  passes : checkRow rt ev key accepted row = .ok none
  fresh : isExpired row nowMs = false
  es_eq : es = ⟨.resolveEmailHmacKey, .ok key⟩ ::
    ⟨.getToken accepted.rowKey, .ok (some row)⟩ :: ⟨.now, nowMs⟩ ::
    ⟨.deleteToken accepted.rowKey, .ok ()⟩ :: tail
  rechecks : (recheckEligibility env ev enrollment).Finishes tail .correct

theorem RedeemRun.mem_of_eq (r : RedeemRun rt env ev es) {e : Event Request Reply}
    (he : e ∈ ⟨.resolveEmailHmacKey, .ok r.key⟩ ::
      ⟨.getToken r.accepted.rowKey, .ok (some r.row)⟩ :: ⟨.now, r.nowMs⟩ ::
      ⟨.deleteToken r.accepted.rowKey, .ok ()⟩ :: r.tail) : e ∈ es :=
  (congrArg (e ∈ ·) r.es_eq).mpr he

theorem finishes_verifyAuthChallenge_correct
    (h : (verifyAuthChallenge rt env ev).Finishes es (.ok .correct)) :
    Nonempty (RedeemRun rt env ev es) := by
  unfold verifyAuthChallenge at h
  split at h
  · simp at h
  rename_i enrollment henr
  simp only [Prog.call_bind, Prog.finishes_ask] at h
  obtain ⟨reply, fs, rfl, h⟩ := h
  split at h
  · simp at h
  rename_i key
  split at h
  · simp at h
  rename_i a ha
  split at h
  · simp at h
  obtain ⟨submitted, hfits⟩ := checkAnswer_ok ha
  simp only [redeem, Prog.call_bind, Prog.finishes_ask] at h
  obtain ⟨lookup, gs, rfl, h⟩ := h
  split at h
  · simp at h
  · simp at h
  rename_i row
  split at h
  · simp at h
  · simp at h
  rename_i hrow
  obtain ⟨hs, ts, result, rfl, hcons, h⟩ := Prog.finishes_bind.mp h
  simp only [Prog.pure_def, Prog.finishes_ret, Except.ok.injEq] at h
  obtain ⟨rfl, rfl⟩ := h
  simp only [consume, Prog.call_bind, Prog.finishes_ask] at hcons
  obtain ⟨nowMs, is, rfl, hcons⟩ := hcons
  split at hcons
  · simp at hcons
  rename_i hexp
  simp only [Prog.finishes_ask] at hcons
  obtain ⟨deleted, js, rfl, hcons⟩ := hcons
  split at hcons
  · exact ⟨{ enrollment := enrollment, key := key, submitted := submitted, accepted := a,
             row := row, nowMs := nowMs, tail := js, enrolled := henr, fits := hfits,
             passes := hrow, fresh := by simpa using hexp, es_eq := by simp,
             rechecks := hcons }⟩
  · simp at hcons
  · simp at hcons

/-- In `admin-only` mode a correct answer has been let through by the
allow-list. -/
theorem finishes_recheckEligibility {enrollment : Enrollment}
    (h : (recheckEligibility env ev enrollment).Finishes es .correct) :
    enrollment = .adminOnly → ∃ e, e.active = true ∧
      ⟨.allowListGet ((env RuntimeEnv.cognitoUserPoolId).getD ev.userPoolId) ev.userName,
        .ok (.value (some e))⟩ ∈ es := by
  intro henr
  subst henr
  simp only [recheckEligibility, Prog.call_bind, Prog.finishes_ask] at h
  obtain ⟨reply, fs, rfl, h⟩ := h
  split at h
  · simp at h
  · simp at h
  · rename_i e
    split at h
    · rename_i helig
      cases e with
      | none => cases helig
      | some e => exact ⟨e, helig, List.mem_cons_self⟩
    · simp at h

end Runs

end SaasFoundation.Vestibulum.SignIn
