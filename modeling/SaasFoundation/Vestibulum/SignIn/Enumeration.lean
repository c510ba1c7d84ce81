import SaasFoundation.Vestibulum.SignIn.World

/-!
# Nothing to enumerate

What an outsider sees of a login, and what Cognito hands on of a challenge,
does not depend on who was asked for: two runs that got past the same
checks give the same answer, whatever the allow-list, the limiters, Cognito
and the stores said in either.
-/

namespace SaasFoundation.Vestibulum.SignIn

open Lib

section Observables

variable {rt : Runtime} {env : ProcessEnv} {portInjected : Bool}

/-- The secret of a login is the one it draws. -/
theorem LoginRun.secret_eq {plan : LoginPlan} {es : List (Event Request Reply)}
    {out : FunctionUrlResult} (r : LoginRun rt plan es out) {secret : String}
    (h : ⟨.newBindingSecret, secret⟩ ∈ es) : secret = r.secret := by
  have hmem := (congrArg (_ ∈ ·) r.es_eq).mp h
  simp only [List.mem_cons, List.mem_append, reduceCtorEq, Event.mk.injEq, false_and, false_or,
    true_and, heq_eq_eq] at hmem
  rcases hmem with heq | htry | htail
  · exact heq
  · exact absurd ((attempt_uses _).finishes r.attempts _ htry) id
  · rcases r.floor _ htail with hop | ⟨ms, hop⟩ <;> cases hop

/-- A login that passes the checks answers with its secret and the
deployment's lifetime, and nothing else. -/
theorem login_response {ev : FunctionUrlEvent} {plan : LoginPlan}
    (hchecks : loginChecks rt env portInjected ev = .ok plan)
    {es : List (Event Request Reply)} {out : FunctionUrlResult}
    (h : (authLogin rt env portInjected ev).Finishes es out) {secret : String}
    (hsecret : ⟨.newBindingSecret, secret⟩ ∈ es) : out = accepted secret plan.cfg.ttlMinutes := by
  rcases finishes_authLogin h with ⟨herr, -⟩ | ⟨plan', hplan', ⟨r⟩⟩
  · rw [hchecks] at herr
    cases herr
  · rw [hchecks] at hplan'
    cases hplan'
    rw [r.secret_eq hsecret]
    exact r.out_eq

/-- Every challenge has the same public parameters, the same metadata and
the same private keys. -/
theorem challenge_shape {ev : CreateAuthChallengeEvent} {es : List (Event Request Reply)}
    {out : ChallengeResponse}
    (h : (createAuthChallenge rt env ev).Finishes es (.ok out)) :
    out.publicChallengeParameters = PUBLIC_CHALLENGE_PARAMETERS ∧
      out.challengeMetadata = "MAGIC_LINK" ∧
      out.privateChallengeParameters.map Prod.fst =
        ["email", "token_hash", "code_hash", "quarantined"] := by
  obtain ⟨r⟩ := finishes_createAuthChallenge h
  have ho := r.outcome
  generalize es.filter (fun e => e.op.isIssue) = l at ho
  generalize r.cfg = cfg, r.now = now, r.token = token, r.code = code, r.gathered = g at ho
  cases ho <;> exact ⟨rfl, rfl, rfl⟩

end Observables

/-- **Enumeration resistance.** Two logins that pass the checks of one
deployment and draw one secret get one response; two challenges of one
deployment look alike from outside. -/
theorem signin_request_indistinguishable (rt : Runtime) (env : ProcessEnv)
    (portInjected : Bool) :
    (∀ (ev₁ ev₂ : FunctionUrlEvent) (plan₁ plan₂ : LoginPlan),
      loginChecks rt env portInjected ev₁ = .ok plan₁ →
      loginChecks rt env portInjected ev₂ = .ok plan₂ →
      ∀ (es₁ es₂ : List (Event Request Reply)) (out₁ out₂ : FunctionUrlResult) (secret : String),
        (authLogin rt env portInjected ev₁).Finishes es₁ out₁ →
        (authLogin rt env portInjected ev₂).Finishes es₂ out₂ →
        ⟨.newBindingSecret, secret⟩ ∈ es₁ → ⟨.newBindingSecret, secret⟩ ∈ es₂ →
        out₁ = out₂) ∧
    (∀ (ev₁ ev₂ : CreateAuthChallengeEvent) (es₁ es₂ : List (Event Request Reply))
      (out₁ out₂ : ChallengeResponse),
        (createAuthChallenge rt env ev₁).Finishes es₁ (.ok out₁) →
        (createAuthChallenge rt env ev₂).Finishes es₂ (.ok out₂) →
        out₁.publicChallengeParameters = out₂.publicChallengeParameters ∧
        out₁.challengeMetadata = out₂.challengeMetadata ∧
        out₁.privateChallengeParameters.map Prod.fst =
          out₂.privateChallengeParameters.map Prod.fst) := by
  constructor
  · intro ev₁ ev₂ plan₁ plan₂ hchecks₁ hchecks₂ es₁ es₂ out₁ out₂ secret hrun₁ hrun₂ hs₁ hs₂
    have hcfg : plan₁.cfg = plan₂.cfg :=
      Option.some.inj ((loginChecks_ok hchecks₁).1.symm.trans (loginChecks_ok hchecks₂).1)
    rw [login_response hchecks₁ hrun₁ hs₁, login_response hchecks₂ hrun₂ hs₂, hcfg]
  · intro ev₁ ev₂ es₁ es₂ out₁ out₂ hrun₁ hrun₂
    obtain ⟨hpub₁, hmeta₁, hkeys₁⟩ := challenge_shape hrun₁
    obtain ⟨hpub₂, hmeta₂, hkeys₂⟩ := challenge_shape hrun₂
    exact ⟨hpub₁.trans hpub₂.symm, hmeta₁.trans hmeta₂.symm, hkeys₁.trans hkeys₂.symm⟩

/-- An outside that lets nobody in and stores nothing. -/
def Small.refusing : (op : Request) → Reply op
  | .updateCounter _ => .error .conditionalCheckFailed
  | .putBinding _ => .error .other
  | op => Small.outside Small.world op

theorem drawsSecret_eq_some {e : Event Request Reply} {b : String}
    (h : drawsSecret e = some b) : e = ⟨.newBindingSecret, b⟩ := by
  unfold drawsSecret at h
  split at h
  · cases h
    rfl
  · cases h

/-- A member who is let in and a stranger who is not get one response. -/
theorem signin_request_indistinguishable_stranger :
    ((authLogin Small.rt Small.env false (Small.loginEvent Small.loginBody)).play
      (Small.outside Small.world)).2 =
    ((authLogin Small.rt Small.env false (Small.loginEvent Small.strangerBody)).play
      Small.refusing).2 := by
  have hplan : ∀ body ∈ [Small.loginBody, Small.strangerBody],
      (loginChecks Small.rt Small.env false (Small.loginEvent body)).isOk = true := by
    decide +kernel
  have hchecks : ∀ body ∈ [Small.loginBody, Small.strangerBody], ∃ plan,
      loginChecks Small.rt Small.env false (Small.loginEvent body) = .ok plan := by
    intro body hbody
    have hok := hplan body hbody
    cases hcase : loginChecks Small.rt Small.env false (Small.loginEvent body) with
    | ok plan => exact ⟨plan, rfl⟩
    | error response =>
        rw [hcase] at hok
        cases hok
  obtain ⟨plan₁, hplan₁⟩ := hchecks Small.loginBody (by simp)
  obtain ⟨plan₂, hplan₂⟩ := hchecks Small.strangerBody (by simp)
  have hmem : ∀ es : List (Event Request Reply),
      es.any (fun e => drawsSecret e == some Small.secret) = true →
        ⟨.newBindingSecret, Small.secret⟩ ∈ es := by
    intro es hes
    obtain ⟨e, he, hdraw⟩ := List.any_eq_true.mp hes
    exact drawsSecret_eq_some (beq_iff_eq.mp hdraw) ▸ he
  exact (signin_request_indistinguishable Small.rt Small.env false).1 _ _ plan₁ plan₂ hplan₁ hplan₂
    _ _ _ _ Small.secret (Prog.play_finishes _ _) (Prog.play_finishes _ _)
    (hmem _ (by decide +kernel)) (hmem _ (by decide +kernel))

end SaasFoundation.Vestibulum.SignIn
