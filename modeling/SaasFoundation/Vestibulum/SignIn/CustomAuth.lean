import SaasFoundation.Vestibulum.SignIn.World

/-!
# The `CUSTOM_AUTH` flow

`DefineAuthChallenge` and the protocol Cognito drives the three triggers by:
`Define` looks at the rounds so far and names a challenge, issues tokens or
fails; a challenge is created, answered and verified, and the verdict is one
more round. The flow is followed request by request, so that it can also
stop anywhere.
-/

namespace SaasFoundation.Vestibulum.SignIn

open Lib

/-! ## `DefineAuthChallenge` -/

/-- The `response` of the event; what the trigger does not set stays. -/
structure DefineResponse where
  challengeName : Option String
  issueTokens : Option Bool
  failAuthentication : Option Bool
deriving DecidableEq, Repr

/-- A `CUSTOM_CHALLENGE` round answered correctly. -/
def answeredCorrectly (only : Json) : Bool :=
  match only.get "challengeName", only.get "challengeResult" with
  | some (.str name), some (.bool result) => name == "CUSTOM_CHALLENGE" && result
  | _, _ => false

/-- The handler. The session is whatever Cognito sends. -/
def defineAuthChallenge (session : Option Json) (response : DefineResponse) : DefineResponse :=
  match session with
  | some (.arr []) => ⟨some "CUSTOM_CHALLENGE", some false, some false⟩
  | some (.arr [only]) =>
      if answeredCorrectly only then
        { response with issueTokens := some true, failAuthentication := some false }
      else { response with issueTokens := some false, failAuthentication := some true }
  | _ => { response with issueTokens := some false, failAuthentication := some true }

/-- The history is exactly one `CUSTOM_CHALLENGE` round, answered true. -/
def AnsweredOnce (session : Option Json) : Prop :=
  ∃ round, session = some (.arr [round]) ∧
    round.get "challengeName" = some (.str "CUSTOM_CHALLENGE") ∧
    round.get "challengeResult" = some (.bool true)

theorem answeredCorrectly_iff {round : Json} :
    answeredCorrectly round = true ↔
      round.get "challengeName" = some (.str "CUSTOM_CHALLENGE") ∧
        round.get "challengeResult" = some (.bool true) := by
  unfold answeredCorrectly
  constructor
  · intro h
    split at h
    · rename_i name result hname hresult
      simp only [Bool.and_eq_true, beq_iff_eq] at h
      rw [hname, hresult, h.1, h.2]
      exact ⟨rfl, rfl⟩
    · cases h
  · rintro ⟨hname, hresult⟩
    rw [hname, hresult]
    rfl

/-- Tokens are issued for one history only. -/
theorem defineAuthChallenge_issueTokens (session : Option Json) (response : DefineResponse) :
    (defineAuthChallenge session response).issueTokens = some true ↔ AnsweredOnce session := by
  unfold defineAuthChallenge
  split
  · simp [AnsweredOnce]
  · rename_i only
    have hiff : AnsweredOnce (some (.arr [only])) ↔ answeredCorrectly only = true := by
      rw [answeredCorrectly_iff]
      constructor
      · rintro ⟨round, heq, h⟩
        cases heq
        exact h
      · intro h
        exact ⟨only, rfl, h⟩
    rw [hiff]
    split <;> simp_all
  · rename_i hone
    constructor
    · intro h
      cases h
    · rintro ⟨round, rfl, -⟩
      exact absurd rfl (hone round)

/-! ## The protocol -/

/-- What Cognito does with the answer of `Define`. -/
inductive Decision where
  | issueTokens
  | fail
  | challenge
deriving DecidableEq, Repr

def decision (r : DefineResponse) : Decision :=
  if r.issueTokens = some true then .issueTokens
  else if r.failAuthentication = some true then .fail
  else if r.challengeName = some "CUSTOM_CHALLENGE" then .challenge
  else .fail

/-- `Define` on the rounds so far, with a fresh response. -/
def define (history : List Json) : Decision :=
  decision (defineAuthChallenge (some (.arr history)) ⟨none, none, none⟩)

/-- The round a verdict adds to the history. -/
def round (result : VerifyResult) : Json :=
  .obj [("challengeName", .str "CUSTOM_CHALLENGE"),
    ("challengeResult", .bool result.answerCorrect), ("challengeMetadata", .str "MAGIC_LINK")]

inductive Phase where
  | defining
  | creating (ev : CreateAuthChallengeEvent) (es : List (Event Request Reply))
      (prog : Handler (Except Thrown ChallengeResponse))
  | waiting (params : Record)
  | verifying (prog : Handler (Except Thrown VerifyResult))
  | tokens
  | failed

/-- One sign-in attempt, with a count of what has been invoked and of the
mails asked for. -/
structure Flow where
  phase : Phase
  history : List Json
  creates : Nat
  verifies : Nat
  mails : Nat

namespace Flow

/-- A flow as `Define` first sees it. -/
def init (history : List Json) : Flow := ⟨.defining, history, 0, 0, 0⟩

inductive Step (rt : Runtime) (createEnv verifyEnv : ProcessEnv) : Flow → Flow → Prop
  | challenge {f : Flow} (ev : CreateAuthChallengeEvent) :
      f.phase = .defining → define f.history = .challenge →
      Step rt createEnv verifyEnv f { f with
        phase := .creating ev [] (createAuthChallenge rt createEnv ev)
        creates := f.creates + 1 }
  | issueTokens {f : Flow} : f.phase = .defining → define f.history = .issueTokens →
      Step rt createEnv verifyEnv f { f with phase := .tokens }
  | fail {f : Flow} : f.phase = .defining → define f.history = .fail →
      Step rt createEnv verifyEnv f { f with phase := .failed }
  | createAsks {f : Flow} {ev : CreateAuthChallengeEvent} {es : List (Event Request Reply)}
      {op : Request} {k : Reply op → Handler (Except Thrown ChallengeResponse)} (r : Reply op) :
      f.phase = .creating ev es (.ask op k) →
      Step rt createEnv verifyEnv f { f with
        phase := .creating ev (es ++ [⟨op, r⟩]) (k r)
        mails := f.mails + if op.isMail then 1 else 0 }
  | created {f : Flow} {ev : CreateAuthChallengeEvent} {es : List (Event Request Reply)}
      {out : ChallengeResponse} : f.phase = .creating ev es (.ret (.ok out)) →
      Step rt createEnv verifyEnv f { f with phase := .waiting out.privateChallengeParameters }
  | createThrows {f : Flow} {ev : CreateAuthChallengeEvent} {es : List (Event Request Reply)}
      {thrown : Thrown} : f.phase = .creating ev es (.ret (.error thrown)) →
      Step rt createEnv verifyEnv f { f with phase := .failed }
  | answer {f : Flow} (ev : VerifyAuthChallengeEvent) :
      f.phase = .waiting ev.privateChallengeParameters → ev.session = f.history →
      Step rt createEnv verifyEnv f { f with
        phase := .verifying (verifyAuthChallenge rt verifyEnv ev)
        verifies := f.verifies + 1 }
  | verifyAsks {f : Flow} {op : Request} {k : Reply op → Handler (Except Thrown VerifyResult)}
      (r : Reply op) : f.phase = .verifying (.ask op k) →
      Step rt createEnv verifyEnv f { f with phase := .verifying (k r) }
  | verified {f : Flow} {result : VerifyResult} :
      f.phase = .verifying (.ret (.ok result)) →
      Step rt createEnv verifyEnv f { f with
        phase := .defining
        history := f.history ++ [round result] }
  | verifyThrows {f : Flow} {thrown : Thrown} :
      f.phase = .verifying (.ret (.error thrown)) →
      Step rt createEnv verifyEnv f { f with phase := .failed }

inductive Reachable (rt : Runtime) (createEnv verifyEnv : ProcessEnv) (history : List Json) :
    Flow → Prop
  | init : Reachable rt createEnv verifyEnv history (init history)
  | step {f g : Flow} : Reachable rt createEnv verifyEnv history f →
      Step rt createEnv verifyEnv f g → Reachable rt createEnv verifyEnv history g

end Flow

/-! ## What `Define` decides -/

theorem define_issueTokens (history : List Json) :
    define history = .issueTokens ↔ AnsweredOnce (some (.arr history)) := by
  rw [← defineAuthChallenge_issueTokens (some (.arr history)) ⟨none, none, none⟩]
  unfold define decision
  split
  · rename_i h
    exact ⟨fun _ => h, fun _ => rfl⟩
  · rename_i h
    refine ⟨fun hd => ?_, fun hd => absurd hd h⟩
    split at hd
    · cases hd
    · split at hd <;> cases hd

/-- A challenge is named for the empty history only. -/
theorem define_challenge {history : List Json} (h : define history = .challenge) :
    history = [] := by
  match history with
  | [] => rfl
  | [only] =>
      unfold define defineAuthChallenge at h
      simp only at h
      split at h <;> simp [decision] at h
  | first :: second :: rest => simp [define, defineAuthChallenge, decision] at h

/-! ## Mails of a `Create` -/

theorem create_mails_le {rt : Runtime} {env : ProcessEnv} {ev : CreateAuthChallengeEvent}
    {es : List (Event Request Reply)} {prog : Handler (Except Thrown ChallengeResponse)}
    (h : (createAuthChallenge rt env ev).Runs es prog) :
    es.countP (fun e => e.op.isMail) ≤ 1 := by
  obtain ⟨fs, r, hrun⟩ := h.completes
  suffices hall : (es ++ fs).countP (fun e => e.op.isMail) ≤ 1 by
    rw [List.countP_append] at hall
    omega
  cases r with
  | error thrown =>
      rw [List.countP_eq_zero.mpr]
      · omega
      · intro e he hop
        rcases (finishes_createAuthChallenge_error hrun).2 e he with hnow | ⟨ms, hsleep⟩
        · rw [hnow] at hop
          cases hop
        · rw [hsleep] at hop
          cases hop
  | ok out =>
      obtain ⟨r⟩ := finishes_createAuthChallenge hrun
      exact r.countP_isMail_le

/-! ## The whole flow -/

namespace Flow

variable {rt : Runtime} {createEnv verifyEnv : ProcessEnv} {f g : Flow}

/-- Where a flow that began with no rounds can stand: before the one
challenge, in it, or behind it. -/
def Inv (rt : Runtime) (createEnv : ProcessEnv) (f : Flow) : Prop :=
  match f.phase with
  | .defining => (f.history = [] ∧ f.creates = 0 ∧ f.verifies = 0 ∧ f.mails = 0) ∨
      ((∃ result, f.history = [round result]) ∧ f.creates = 1 ∧ f.verifies = 1 ∧ f.mails ≤ 1)
  | .creating ev es prog => f.history = [] ∧ f.creates = 1 ∧ f.verifies = 0 ∧
      f.mails = es.countP (fun e => e.op.isMail) ∧
      (createAuthChallenge rt createEnv ev).Runs es prog
  | .waiting _ => f.history = [] ∧ f.creates = 1 ∧ f.verifies = 0 ∧ f.mails ≤ 1
  | .verifying _ => f.history = [] ∧ f.creates = 1 ∧ f.verifies = 1 ∧ f.mails ≤ 1
  | .tokens => f.creates = 1 ∧ f.verifies = 1 ∧ f.mails ≤ 1
  | .failed => f.creates ≤ 1 ∧ f.verifies ≤ 1 ∧ f.mails ≤ 1

theorem Inv.bounds (h : Inv rt createEnv f) :
    f.creates ≤ 1 ∧ f.verifies ≤ 1 ∧ f.mails ≤ 1 := by
  unfold Inv at h
  split at h
  · rcases h with ⟨-, hc, hv, hm⟩ | ⟨-, hc, hv, hm⟩ <;> omega
  · obtain ⟨-, hc, hv, hm, hrun⟩ := h
    have := create_mails_le hrun
    omega
  · omega
  · omega
  · omega
  · exact h

theorem inv_init : Inv rt createEnv (Flow.init []) := .inl ⟨rfl, rfl, rfl, rfl⟩

/-- Every step keeps the invariant: a second challenge would need an empty
history, and the first round ends that. -/
theorem inv_step (hinv : Inv rt createEnv f) (h : Step rt createEnv verifyEnv f g) :
    Inv rt createEnv g := by
  have hbounds := hinv.bounds
  unfold Inv at hinv
  cases h with
  | challenge ev hphase hdef =>
      rw [hphase] at hinv
      have hnil := define_challenge hdef
      rcases hinv with ⟨-, hc, hv, hm⟩ | ⟨⟨result, hone⟩, -⟩
      · exact ⟨hnil, by simp [hc], hv, by simpa using hm, rfl⟩
      · rw [hnil] at hone
        cases hone
  | issueTokens hphase hdef =>
      rw [hphase] at hinv
      rcases hinv with ⟨hnil, -⟩ | ⟨-, hc, hv, hm⟩
      · rw [define_issueTokens, hnil] at hdef
        obtain ⟨_, heq, -⟩ := hdef
        cases heq
      · exact ⟨hc, hv, hm⟩
  | fail hphase hdef => exact hbounds
  | createAsks r hphase =>
      rw [hphase] at hinv
      obtain ⟨hnil, hc, hv, hm, hrun⟩ := hinv
      refine ⟨hnil, hc, hv, ?_, hrun.snoc r⟩
      rw [List.countP_append, List.countP_singleton, ← hm]
  | created hphase =>
      rw [hphase] at hinv
      obtain ⟨hnil, hc, hv, -⟩ := hinv
      exact ⟨hnil, hc, hv, hbounds.2.2⟩
  | createThrows hphase => exact hbounds
  | answer ev hphase hsession =>
      rw [hphase] at hinv
      obtain ⟨hnil, hc, hv, hm⟩ := hinv
      exact ⟨hnil, hc, by simp [hv], hm⟩
  | verifyAsks r hphase =>
      rw [hphase] at hinv
      exact hinv
  | @verified result hphase =>
      rw [hphase] at hinv
      obtain ⟨hnil, hc, hv, hm⟩ := hinv
      exact .inr ⟨⟨result, by simp [hnil]⟩, hc, hv, hm⟩
  | verifyThrows hphase => exact hbounds

theorem Reachable.inv (h : Reachable rt createEnv verifyEnv [] f) : Inv rt createEnv f := by
  induction h with
  | init => exact inv_init
  | step _ hs ih => exact inv_step ih hs

/-- Tokens stand for the history they were issued on. -/
theorem Reachable.tokens {history : List Json}
    (h : Reachable rt createEnv verifyEnv history f) (hphase : f.phase = .tokens) :
    AnsweredOnce (some (.arr f.history)) := by
  induction h with
  | init => cases hphase
  | step _ hs ih =>
      cases hs with
      | issueTokens _ hdef => exact (define_issueTokens _).mp hdef
      | _ => cases hphase

end Flow

/-- **The whole `CUSTOM_AUTH` run.** Whatever is presented to `Define`,
tokens are issued exactly for one `CUSTOM_CHALLENGE` round answered true,
also along every flow; and in a flow that begins with no rounds `Create` and
`Verify` are each invoked at most once and at most one mail is asked for. -/
theorem customAuth_run (rt : Runtime) (createEnv verifyEnv : ProcessEnv) :
    (∀ (session : Option Json) (response : DefineResponse),
      (defineAuthChallenge session response).issueTokens = some true ↔ AnsweredOnce session) ∧
    (∀ (history : List Json) (f g : Flow), Flow.Reachable rt createEnv verifyEnv history f →
      f.phase = .defining → Flow.Step rt createEnv verifyEnv f g →
      (g.phase = .tokens ↔ AnsweredOnce (some (.arr f.history)))) ∧
    (∀ (history : List Json) (f : Flow), Flow.Reachable rt createEnv verifyEnv history f →
      f.phase = .tokens → AnsweredOnce (some (.arr f.history))) ∧
    (∀ f : Flow, Flow.Reachable rt createEnv verifyEnv [] f →
      f.creates ≤ 1 ∧ f.verifies ≤ 1 ∧ f.mails ≤ 1) := by
  refine ⟨defineAuthChallenge_issueTokens, ?_, ?_, ?_⟩
  · intro history f g _ hphase hstep
    rw [← define_issueTokens]
    cases hstep with
    | issueTokens _ hdef => exact ⟨fun _ => hdef, fun _ => rfl⟩
    | challenge ev _ hdef =>
        rw [hdef]
        exact ⟨fun h => (nomatch h), fun h => (nomatch h)⟩
    | fail _ hdef =>
        rw [hdef]
        exact ⟨fun h => (nomatch h), fun h => (nomatch h)⟩
    | createAsks r h => exact absurd (hphase.symm.trans h) (by simp)
    | created h => exact absurd (hphase.symm.trans h) (by simp)
    | createThrows h => exact absurd (hphase.symm.trans h) (by simp)
    | answer ev h => exact absurd (hphase.symm.trans h) (by simp)
    | verifyAsks r h => exact absurd (hphase.symm.trans h) (by simp)
    | verified h => exact absurd (hphase.symm.trans h) (by simp)
    | verifyThrows h => exact absurd (hphase.symm.trans h) (by simp)
  · intro history f h hphase
    exact h.tokens hphase
  · intro f h
    exact h.inv.bounds

/-- A flow that has begun its challenge, and one that is back with a
correct answer. -/
theorem customAuth_run_small :
    (∃ f, Flow.Reachable Small.rt Small.env Small.env [] f ∧ f.creates = 1 ∧ f.mails ≤ 1) ∧
    (∃ f, Flow.Reachable Small.rt Small.env Small.env [round .correct] f ∧ f.phase = .tokens ∧
      AnsweredOnce (some (.arr f.history))) := by
  obtain ⟨-, -, htokens, hbounds⟩ := customAuth_run Small.rt Small.env Small.env
  constructor
  · have hstep : Flow.Step Small.rt Small.env Small.env (Flow.init []) _ :=
      .challenge Small.createEvent rfl (by decide)
    have hreach := Flow.Reachable.init.step hstep
    exact ⟨_, hreach, rfl, (hbounds _ hreach).2.2⟩
  · have hstep : Flow.Step Small.rt Small.env Small.env (Flow.init [round .correct]) _ :=
      .issueTokens rfl (by decide)
    have hreach := Flow.Reachable.init.step hstep
    exact ⟨_, hreach, rfl, htokens _ _ hreach rfl⟩

end SaasFoundation.Vestibulum.SignIn
