import SaasFoundation.Vestibulum.SignIn.SingleUse

/-!
# What a correct answer proves

`Create` and `Verify` meet only in the private parameters and in a row. A
`Verify` that succeeds is traced back through both: the parameters come
from a `Create` that mailed, the row under their token hash is the one that
`Create` wrote, and the answer hashes to what was mailed. The other way
round, a `Create` that mailed nothing leaves a challenge no answer opens.
-/

namespace SaasFoundation.Vestibulum.SignIn

open Lib Lib.Text

variable {D : Deployment} {c : SignInConfig}

/-! ## Where the parameters come from -/

theorem issuedParameters_mono {ts us : List SignInThread} {params : Record}
    (hp : System.Progress ts us) (h : issuedParameters ts params = true) :
    issuedParameters us params = true := by
  unfold issuedParameters at h ⊢
  obtain ⟨t, ht, hmatch⟩ := List.any_eq_true.mp h
  obtain ⟨i, hi⟩ := List.mem_iff_getElem?.mp ht
  obtain ⟨⟨job, prog⟩, hu, hjob, hret⟩ := hp i t hi
  refine List.any_eq_true.mpr ⟨_, List.mem_of_getElem? hu, ?_⟩
  split at hmatch
  · rename_i ev response hj hprog
    simp only at hjob hret
    rw [hjob, hj, hret _ hprog]
    exact hmatch
  · cases hmatch

/-- The private parameters of a `Verify` were returned by some `Create`. -/
theorem verify_parameters (h : (signIn D).Reachable c) {i : Nat}
    {ev : VerifyAuthChallengeEvent} {prog : Handler Output}
    (ht : c.threads[i]? = some ⟨.verify ev, prog⟩) :
    ∃ (j : Nat) (cev : CreateAuthChallengeEvent) (out : ChallengeResponse),
      c.threads[j]? = some ⟨.create cev, .ret (.challenge (.ok out))⟩ ∧
      ev.privateChallengeParameters = out.privateChallengeParameters := by
  have hperm := h.permitted (fun ts us job hp hjob => by
    cases job with
    | verify ev => exact issuedParameters_mono hp hjob
    | _ => rfl) _ (List.mem_of_getElem? ht)
  obtain ⟨t, hmem, hmatch⟩ := List.any_eq_true.mp hperm
  obtain ⟨j, hj⟩ := List.mem_iff_getElem?.mp hmem
  obtain ⟨job, p⟩ := t
  split at hmatch
  · rename_i cev out hjob hprog
    simp only at hjob hprog
    subst hjob hprog
    exact ⟨j, cev, out, hj, (beq_iff_eq.mp hmatch).symm⟩
  · cases hmatch

/-! ## The two kinds of challenge -/

section Outcomes

variable {rt : Runtime} {cfg : CreateConfig} {ev : CreateAuthChallengeEvent} {now : Int}
  {token code : String} {g : Gathered} {es : List (Event Request Reply)}
  {out : ChallengeResponse}

/-- Only a challenge whose mail went out is not marked unanswerable. -/
theorem IssueOutcome.answerable (ho : IssueOutcome rt cfg ev now token code g es out)
    (hq : out.privateChallengeParameters.lookup "quarantined" ≠ some "true") :
    ∃ email key, Ready rt ev g email key ∧
      es = [⟨.putToken (issuedRow rt cfg now email key token code), .ok ()⟩,
        ⟨.sendEmail (magicLinkEmail cfg email token code), .ok ()⟩] ∧
      out = challenge email (rt.sha256Hex token) (rt.sha256Hex code) "false" := by
  cases ho with
  | suppressed email t => exact absurd rfl hq
  | unsent hready t => exact absurd rfl hq
  | sendFailed hready t x => exact absurd rfl hq
  | sent hready => exact ⟨_, _, hready, rfl, rfl⟩

/-- A challenge whose mail did not go out is marked unanswerable. -/
theorem IssueOutcome.unanswerable (ho : IssueOutcome rt cfg ev now token code g es out)
    (hmail : ∀ m, (⟨.sendEmail m, .ok ()⟩ : Event Request Reply) ∉ es) :
    out.privateChallengeParameters.lookup "quarantined" = some "true" := by
  cases ho with
  | suppressed email t => rfl
  | unsent hready t => rfl
  | sendFailed hready t x => rfl
  | sent hready => exact absurd (List.mem_cons_of_mem _ List.mem_cons_self) (hmail _)

end Outcomes

/-- What `event.response.answerCorrect` holds in the end: it is `false`
from the start, also where the handler throws. -/
def answerCorrect : Except Thrown VerifyResult → Bool
  | .ok result => result.answerCorrect
  | .error _ => false

/-- No answer opens a challenge that is marked unanswerable. -/
theorem finishes_verify_quarantined {rt : Runtime} {env : ProcessEnv}
    {ev : VerifyAuthChallengeEvent} {es : List (Event Request Reply)}
    {r : Except Thrown VerifyResult}
    (hq : ev.privateChallengeParameters.lookup "quarantined" = some "true")
    (h : (verifyAuthChallenge rt env ev).Finishes es r) :
    answerCorrect r = false ∧
      (parseEnrollment (env RuntimeEnv.enrollment) ≠ none → ∃ reason, r = .ok (.failed reason)) := by
  have hanswer : checkAnswer rt ev = .error .quarantined := by
    simp [checkAnswer, hq]
  unfold verifyAuthChallenge at h
  split at h
  · rename_i hnone
    simp only [Prog.pure_def, Prog.finishes_ret] at h
    obtain ⟨-, rfl⟩ := h
    exact ⟨rfl, fun hne => absurd hnone hne⟩
  · simp only [Prog.call_bind, Prog.finishes_ask, hanswer] at h
    obtain ⟨reply, fs, -, h⟩ := h
    split at h <;> simp only [Prog.pure_def, Prog.finishes_ret] at h <;> obtain ⟨-, rfl⟩ := h
    · exact ⟨rfl, fun _ => ⟨_, rfl⟩⟩
    · exact ⟨rfl, fun _ => ⟨_, rfl⟩⟩

/-! ## The challenge behind a correct answer -/

/-- A challenge that was mailed: the `Create` that returned its private
parameters, with its run. -/
structure MailedChallenge (D : Deployment) (c : SignInConfig) (params : Record) where
  creator : Nat
  ev : CreateAuthChallengeEvent
  out : ChallengeResponse
  run : IssueRun D.rt D.createEnv ev (localLog c.log creator) out
  email : String
  key : String
  returned : c.threads[creator]? = some ⟨.create ev, .ret (.challenge (.ok out))⟩
  params_eq : params = privateParameters email (D.rt.sha256Hex run.token)
    (D.rt.sha256Hex run.code) "false"
  ready : Ready D.rt ev run.gathered email key
  stored : ⟨.putToken (issuedRow D.rt run.cfg run.now email key run.token run.code), .ok ()⟩ ∈
    localLog c.log creator
  mailed : ⟨.sendEmail (magicLinkEmail run.cfg email run.token run.code), .ok ()⟩ ∈
    localLog c.log creator

/-- The finished run behind a thread that returned a challenge. -/
theorem challenge_run (h : (signIn D).Reachable c) {j : Nat} {cev : CreateAuthChallengeEvent}
    {out : ChallengeResponse}
    (ht : c.threads[j]? = some ⟨.create cev, .ret (.challenge (.ok out))⟩) :
    Nonempty (IssueRun D.rt D.createEnv cev (localLog c.log j) out) := by
  obtain ⟨r, hr, hrun⟩ := finishes_start (thread_finishes h ht)
  cases hr
  exact finishes_createAuthChallenge hrun

theorem mailedChallenge_of_verify (h : (signIn D).Reachable c) {i : Nat}
    {ev : VerifyAuthChallengeEvent} {prog : Handler Output}
    (ht : c.threads[i]? = some ⟨.verify ev, prog⟩)
    (hq : ev.privateChallengeParameters.lookup "quarantined" ≠ some "true") :
    Nonempty (MailedChallenge D c ev.privateChallengeParameters) := by
  obtain ⟨j, cev, out, hj, hparams⟩ := verify_parameters h ht
  obtain ⟨r⟩ := challenge_run h hj
  rw [hparams] at hq
  obtain ⟨email, key, hready, hfilter, hout⟩ := r.outcome.answerable hq
  have hmem : ∀ e ∈ (localLog c.log j).filter (fun e => e.op.isIssue), e ∈ localLog c.log j :=
    fun e he => (List.mem_filter.mp he).1
  rw [hfilter] at hmem
  refine ⟨⟨j, cev, out, r, email, key, hj, ?_, hready, hmem _ (by simp), hmem _ (by simp)⟩⟩
  exact hparams.trans (congrArg ChallengeResponse.privateChallengeParameters hout)

namespace MailedChallenge

variable {params : Record}

theorem lookup_token (m : MailedChallenge D c params) :
    params.lookup "token_hash" = some (D.rt.sha256Hex m.run.token) :=
  congrArg (List.lookup "token_hash") m.params_eq

theorem lookup_code (m : MailedChallenge D c params) :
    params.lookup "code_hash" = some (D.rt.sha256Hex m.run.code) :=
  congrArg (List.lookup "code_hash") m.params_eq

theorem lookup_email (m : MailedChallenge D c params) : params.lookup "email" = some m.email :=
  congrArg (List.lookup "email") m.params_eq

/-- The strings hashed in a run: the tokens and codes drawn, and the
answers submitted. -/
def hashedTexts (c : SignInConfig) : Set String :=
  tokensDrawn c ∪ { s | ∃ e ∈ c.log, e.ev = ⟨.newSigninCode, s⟩ } ∪
    { s | ∃ t ∈ c.threads, ∃ ev, t.job = .verify ev ∧ Json.asString ev.challengeAnswer = some s }

theorem token_mem_hashed (m : MailedChallenge D c params) : m.run.token ∈ hashedTexts c := by
  have hmem : ⟨.randomToken, m.run.token⟩ ∈ localLog c.log m.creator :=
    (congrArg (_ ∈ ·) m.run.es_eq).mpr (by simp)
  obtain ⟨e, he, -, hev⟩ := mem_localLog.mp hmem
  exact .inl (.inl ⟨e, he, by rw [hev]; rfl⟩)

theorem code_mem_hashed (m : MailedChallenge D c params) : m.run.code ∈ hashedTexts c := by
  have hmem : ⟨.newSigninCode, m.run.code⟩ ∈ localLog c.log m.creator :=
    (congrArg (_ ∈ ·) m.run.es_eq).mpr (by simp)
  obtain ⟨e, he, -, hev⟩ := mem_localLog.mp hmem
  exact .inl (.inr ⟨e, he, hev⟩)

/-- The key of the challenge is the deployment's. -/
theorem key_eq (h : (signIn D).Reachable c) (m : MailedChallenge D c params) :
    m.key = D.emailHmacKey := by
  have hread := m.run.resolved m.ready.key
  exact resolved_eq h ((congrArg (_ ∈ ·) m.run.es_eq).mpr (by simp [hread]))

/-- Whatever row stands under the challenge's token hash is the row its
`Create` wrote. -/
theorem row_eq (h : (signIn D).Reachable c)
    (hinj : Set.InjOn D.rt.sha256Hex (tokensDrawn c)) (m : MailedChallenge D c params)
    {e : Entry Request Reply World} (he : e ∈ c.log) {row : TokenRow}
    (hrow : e.pre.tokens (D.rt.sha256Hex m.run.token) = some row) :
    row = issuedRow D.rt m.run.cfg m.run.now m.email m.key m.run.token m.run.code := by
  obtain ⟨hk, e', he', hop'⟩ := row_writer h he hrow
  obtain ⟨e'', he'', htid, hev''⟩ := mem_localLog.mp m.stored
  obtain ⟨w'⟩ := put_writer h he' hop'
  obtain ⟨w''⟩ := put_writer h he'' (by rw [hev''])
  have hsame : e'.tid = m.creator := (w'.unique h hinj w'' hk).trans htid
  -- both puts are in the one run of that `Create`, which issues one row
  have hmem : e'.ev ∈ (localLog c.log m.creator).filter (fun e => e.op.isIssue) :=
    List.mem_filter.mpr ⟨hsame ▸ Entry.mem_localLog he', by rw [hop']; rfl⟩
  obtain ⟨email, key, hready, rfl⟩ := m.run.outcome.put_eq hmem hop'
  have hemail := hready.recipient.symm.trans m.ready.recipient
  have hkey := hready.key.symm.trans m.ready.key
  rw [Option.some.inj hemail, Option.some.inj hkey]

end MailedChallenge

/-- Everything a correct answer to the mailed challenge `m` establishes. -/
structure SoundAnswer (D : Deployment) (c : SignInConfig) (i : Nat)
    (ev : VerifyAuthChallengeEvent)
    (m : MailedChallenge D c ev.privateChallengeParameters) : Prop where
  /-- The answer is the session's own token or its own eight-digit code. -/
  answer : Json.asString ev.challengeAnswer = some m.run.token ∨
    Json.asString ev.challengeAnswer = some m.run.code ∧ m.run.code.toList.length = 8 ∧
      ∀ ch ∈ m.run.code.toList, ch.isDigit = true
  /-- The row consumed carries the HMAC of the session's address. -/
  row : ∃ row, Consumes c i row ∧
    ev.privateChallengeParameters.lookup "email" = some m.email ∧
    row.emailHmac = some (hmacEmail D.rt m.email D.emailHmacKey)
  ttl : 3 ≤ m.run.cfg.ttlMinutes ∧ m.run.cfg.ttlMinutes ≤ 15
  /-- The one clock `Verify` read is before the expiry of the link. -/
  clock : ∃ nowMs, (∀ t, ⟨.now, t⟩ ∈ localLog c.log i ↔ t = nowMs) ∧
    nowMs < (m.run.now / 1000 + m.run.cfg.ttlMinutes * 60) * 1000
  eligible : parseEnrollment (D.verifyEnv RuntimeEnv.enrollment) = some .adminOnly →
    ∃ e, e.active = true ∧
      ⟨.allowListGet ((D.verifyEnv RuntimeEnv.cognitoUserPoolId).getD ev.userPoolId) ev.userName,
        .ok (.value (some e))⟩ ∈ localLog c.log i

theorem createConfig_ttl {env : ProcessEnv} {cfg : CreateConfig}
    (h : createConfig env = some cfg) : 3 ≤ cfg.ttlMinutes ∧ cfg.ttlMinutes ≤ 15 := by
  simp only [createConfig, Option.bind_eq_bind, Option.bind_eq_some_iff,
    Option.ite_none_left_eq_some, Option.some.injEq] at h
  obtain ⟨_, _, _, _, _, _, _, _, ttl, httl, _, _, _, rfl⟩ := h
  exact parseTokenTtlMinutes_range httl

theorem classifyAnswer_code {s : String} (h : classifyAnswer s = some .code) :
    s.toList.length = 8 ∧ ∀ ch ∈ s.toList, ch.isDigit = true := by
  simp only [classifyAnswer] at h
  split at h
  · cases h
  · split at h
    · rename_i hcode
      exact ⟨hcode.1, by simpa using hcode.2⟩
    · cases h

/-- The clock is read once in a run that succeeds. -/
theorem RedeemRun.now_iff {rt : Runtime} {env : ProcessEnv} {ev : VerifyAuthChallengeEvent}
    {es : List (Event Request Reply)} (r : RedeemRun rt env ev es) (t : Int) :
    ⟨.now, t⟩ ∈ es ↔ t = r.nowMs := by
  have htail : (⟨.now, t⟩ : Event Request Reply) ∉ r.tail := by
    intro hmem
    have hrun := r.rechecks
    unfold recheckEligibility at hrun
    split at hrun
    · simp only [Prog.pure_def, Prog.finishes_ret] at hrun
      rw [hrun.1] at hmem
      cases hmem
    · simp only [Prog.call_bind, Prog.finishes_ask] at hrun
      obtain ⟨reply, fs, heq, hrun⟩ := hrun
      rw [heq] at hmem
      have hnil : fs = [] := by
        split at hrun
        · simpa using (Prog.finishes_ret.mp hrun).1
        · simpa using (Prog.finishes_ret.mp hrun).1
        · split at hrun <;> exact (Prog.finishes_ret.mp hrun).1
      rw [hnil] at hmem
      simp at hmem
  constructor
  · intro hmem
    have hlist := (congrArg (_ ∈ ·) r.es_eq).mp hmem
    simpa [htail] using hlist
  · rintro rfl
    exact r.mem_of_eq (by simp)

theorem AnswersCorrectly.sound (h : (signIn D).Reachable c)
    (hinj : Set.InjOn D.rt.sha256Hex (MailedChallenge.hashedTexts c)) {i : Nat}
    {ev : VerifyAuthChallengeEvent} (hi : AnswersCorrectly c i ev) :
    ∃ m : MailedChallenge D c ev.privateChallengeParameters, SoundAnswer D c i ev m := by
  obtain ⟨r⟩ := hi.run h
  obtain ⟨m⟩ := mailedChallenge_of_verify h hi r.fits.notQuarantined
  have htokens : Set.InjOn D.rt.sha256Hex (tokensDrawn c) :=
    hinj.mono fun t ht => .inl (.inl ht)
  have hsubmitted : r.submitted ∈ MailedChallenge.hashedTexts c :=
    .inr ⟨_, List.mem_of_getElem? hi, ev, rfl, r.fits.answer⟩
  have hkey : r.accepted.rowKey = D.rt.sha256Hex m.run.token :=
    Option.some.inj (r.fits.rowKey.symm.trans m.lookup_token)
  obtain ⟨row, hcons, -, hrowKey⟩ := hi.consumes h
  have hrowEq : row = issuedRow D.rt m.run.cfg m.run.now m.email m.key m.run.token m.run.code := by
    obtain ⟨e, he, -, -, hpre, -⟩ := hcons
    rw [Option.some.inj (hrowKey.symm.trans m.lookup_token)] at hpre
    exact m.row_eq h htokens he hpre
  refine ⟨m, ?_, ⟨row, hcons, m.lookup_email, ?_⟩, createConfig_ttl m.run.config, ⟨r.nowMs, r.now_iff, ?_⟩, ?_⟩
  · -- the comparison was on digests, so the texts agree
    have hhash := r.fits.hash
    cases hform : r.accepted.form with
    | token =>
        rw [hform, expectedHash, m.lookup_token, constantTimeHashEqual_digest (D.rt.sha256Hex_digest _)
          (D.rt.sha256Hex_digest _)] at hhash
        rw [r.fits.answer, hinj m.token_mem_hashed hsubmitted hhash]
        exact .inl rfl
    | code =>
        rw [hform, expectedHash, m.lookup_code, constantTimeHashEqual_digest (D.rt.sha256Hex_digest _)
          (D.rt.sha256Hex_digest _)] at hhash
        have heq := hinj m.code_mem_hashed hsubmitted hhash
        refine .inr ⟨by rw [r.fits.answer, heq], ?_⟩
        rw [heq]
        exact classifyAnswer_code (hform ▸ r.fits.form)
  · rw [hrowEq, ← m.key_eq h]
    rfl
  · -- the row whose expiry was checked is that row too
    have hmem : ⟨.getToken r.accepted.rowKey, .ok (some r.row)⟩ ∈ localLog c.log i :=
      r.mem_of_eq (by simp)
    obtain ⟨e, he, -, hev⟩ := mem_localLog.mp hmem
    have hserve := h.served e he
    rw [hev] at hserve
    have hread : e.pre.tokens r.accepted.rowKey = some r.row := (hserve.1 _ rfl).symm
    rw [hkey] at hread
    have hfresh := r.fresh
    rw [m.row_eq h htokens he hread] at hfresh
    simpa [isExpired, issuedRow] using hfresh
  · intro hadmin
    have henr : r.enrollment = .adminOnly := Option.some.inj (r.enrolled.symm.trans hadmin)
    obtain ⟨e, hactive, hmem⟩ := finishes_recheckEligibility r.rechecks henr
    exact ⟨e, hactive, r.mem_of_eq (by simp [hmem])⟩

/-- **Soundness of `answerCorrect`.** A `Verify` sets it only for a
challenge that was mailed, for its own token or code, in time, and in
`admin-only` mode for an eligible user; and of a challenge that was not
mailed no `Verify` sets it, whatever the answer. -/
theorem answerCorrect_sound (h : (signIn D).Reachable c)
    (hinj : Set.InjOn D.rt.sha256Hex (MailedChallenge.hashedTexts c)) :
    (∀ i ev, AnswersCorrectly c i ev →
      ∃ m : MailedChallenge D c ev.privateChallengeParameters, SoundAnswer D c i ev m) ∧
    (∀ (j : Nat) (cev : CreateAuthChallengeEvent) (out : ChallengeResponse),
      c.threads[j]? = some ⟨.create cev, .ret (.challenge (.ok out))⟩ →
      (∀ mail, ⟨.sendEmail mail, .ok ()⟩ ∉ localLog c.log j) →
      ∀ ev : VerifyAuthChallengeEvent,
        ev.privateChallengeParameters = out.privateChallengeParameters →
        ∀ es r, (verifyAuthChallenge D.rt D.verifyEnv ev).Finishes es r →
          answerCorrect r = false ∧
          (parseEnrollment (D.verifyEnv RuntimeEnv.enrollment) ≠ none →
            ∃ reason, r = .ok (.failed reason))) := by
  refine ⟨fun i ev hi => hi.sound h hinj, ?_⟩
  intro j cev out hj hmail ev hparams es r hrun
  obtain ⟨run⟩ := challenge_run h hj
  refine finishes_verify_quarantined ?_ hrun
  rw [hparams]
  exact run.outcome.unanswerable fun m hm => hmail m (List.mem_filter.mp hm).1

/-- The strings hashed in a run, as a list. -/
def hashedList (c : SignInConfig) : List String :=
  drawnList c ++
    c.log.filterMap (fun e => match e.ev with
      | ⟨.newSigninCode, s⟩ => some s
      | _ => none) ++
    c.threads.filterMap (fun t => match t.job with
      | .verify ev => Json.asString ev.challengeAnswer
      | _ => none)

theorem hashedTexts_subset (c : SignInConfig) :
    MailedChallenge.hashedTexts c ⊆ { s | s ∈ hashedList c } := by
  rintro s ((hs | ⟨e, he, hev⟩) | ⟨t, ht, ev, hjob, hanswer⟩) <;>
    simp only [hashedList, Set.mem_ofPred_eq, List.mem_append, List.mem_filterMap]
  · rw [tokensDrawn_eq] at hs
    exact .inl (.inl hs)
  · exact .inl (.inr ⟨e, he, by rw [hev]⟩)
  · exact .inr ⟨t, ht, by rw [hjob]; exact hanswer⟩

theorem answerCorrect_sound_race : ∃ c : SignInConfig, (signIn Small.deployment).Reachable c ∧
    Set.InjOn Small.rt.sha256Hex (MailedChallenge.hashedTexts c) ∧
    ∃ ev, AnswersCorrectly c 1 ev ∧
      ∃ m : MailedChallenge Small.deployment c ev.privateChallengeParameters,
        SoundAnswer Small.deployment c 1 ev m := by
  obtain ⟨c, hc, hend⟩ := (interpreter Small.deployment).exists_reachable Small.world_init
    Small.race (fun c => (c.threads[1]?).any SignInThread.isCorrect &&
      (hashedList c == [Small.token, Small.code, Small.code, Small.token])) (by decide +kernel)
  simp only [Bool.and_eq_true, beq_iff_eq] at hend
  obtain ⟨ev, hev⟩ := SignInThread.isCorrect_iff hend.1
  have hinj : Set.InjOn Small.rt.sha256Hex (MailedChallenge.hashedTexts c) := by
    refine Set.InjOn.mono (hashedTexts_subset c) ?_
    rw [hend.2]
    have hlist : ∀ a ∈ [Small.token, Small.code, Small.code, Small.token],
        ∀ b ∈ [Small.token, Small.code, Small.code, Small.token],
          Small.rt.sha256Hex a = Small.rt.sha256Hex b → a = b := by decide +kernel
    exact fun a ha b hb => hlist a ha b hb
  exact ⟨c, hc, hinj, ev, hev, (answerCorrect_sound hc hinj).1 1 ev hev⟩

end SaasFoundation.Vestibulum.SignIn
