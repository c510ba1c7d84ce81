import SaasFoundation.Vestibulum.SignIn.Limits

/-!
# `CreateAuthChallenge`

The issuing trigger, stage by stage: the deployment configuration, the
reads and writes every caller causes, the decision, and the store-then-send
of a real issue. No dependency error leaves the handler; only a broken
configuration throws, before anything is asked.
-/

namespace SaasFoundation.Vestibulum.SignIn

open Lib Lib.Text

/-- The trigger event, as far as it is read. -/
structure CreateAuthChallengeEvent where
  userPoolId : String
  userName : String
  userAttributes : Record

/-- The `response` of the event, as the trigger fills it in. -/
structure ChallengeResponse where
  publicChallengeParameters : Record
  privateChallengeParameters : Record
  challengeMetadata : String
deriving DecidableEq, Repr

def PUBLIC_CHALLENGE_PARAMETERS : Record := [("challenge", "MAGIC_LINK")]

/-! ## Configuration -/

structure CreateConfig where
  denylistTable : Option String
  fromAddress : String
  domain : String
  configurationSetName : Option String
  ttlMinutes : Int
  enrollment : Enrollment
  sendsPerWindow : Option Int
  sendsPerDay : Int

/-- `TOKEN_SENDS_PER_DAY`: the default when unset, 0 when malformed. -/
def parseSendsPerDay (raw : Option String) : Int :=
  match raw with
  | none => defaultSendsPerDay
  | some s =>
      if s = "" then defaultSendsPerDay
      else if isDigits s.toList then (digitsValue s.toList : Int)
      else 0

/-- The environment of the trigger; `none` is the generic error every
caller gets from a broken deployment. -/
def createConfig (env : ProcessEnv) : Option CreateConfig := do
  let _ ← env.nonEmpty RuntimeEnv.tokenTableName
  let _ ← env.nonEmpty RuntimeEnv.rateLimitTableName
  let fromAddress ← env.nonEmpty RuntimeEnv.sesFrom
  let domain ← env.nonEmpty RuntimeEnv.domain
  let ttlMinutes ← parseTokenTtlMinutes (env RuntimeEnv.tokenTtlMinutes)
  let enrollment ← parseEnrollment (env RuntimeEnv.enrollment)
  let sendsPerWindow := match env RuntimeEnv.tokenSendsPerWindow with
    | none => some defaultSendsPerWindow
    | some s => parseInt s.toList
  let sendsPerDay := parseSendsPerDay (env RuntimeEnv.tokenSendsPerDay)
  let cfg : CreateConfig :=
    { denylistTable := env.nonEmpty RuntimeEnv.denylistTableName
      fromAddress := fromAddress
      domain := domain
      configurationSetName := env.nonEmpty RuntimeEnv.sesConfigurationSet
      ttlMinutes := ttlMinutes
      enrollment := enrollment
      sendsPerWindow := sendsPerWindow
      sendsPerDay := sendsPerDay }
  if sendsPerDay < 1 then none else some cfg

/-! ## The reads and writes of every caller -/

/-- What stage 1 settles; `none` is a dependency that failed. -/
structure Gathered where
  hmacKey : Option String
  denylisted : Option Bool
  allowedByCap : Option Bool
  allowedByDay : Option Bool
  /-- Not asked in `self-signup` mode. -/
  eligibility : Option (Option (Option Eligibility))

def settled {α : Type} : Except SdkError α → Option α
  | .ok a => some a
  | .error _ => none

/-- The email-HMAC key; an empty key is no key. -/
def resolveHmacKey : Handler (Option String) := do
  let reply : Except SdkError String ← request .resolveEmailHmacKey
  match reply with
  | .ok key => pure (if key = "" then none else some key)
  | .error _ => pure none

/-- `isDenylisted`: an unset table fails without asking. -/
def isDenylisted (rt : Runtime) (table : Option String) (email hmacKey : String) :
    Handler (Except SdkError Bool) :=
  match table with
  | none => pure (.error .other)
  | some _ => request (.getDenylist (hmacEmail rt email hmacKey))

/-- The allow-list read of `admin-only` mode. -/
def readEligibility (env : ProcessEnv) (cfg : CreateConfig) (ev : CreateAuthChallengeEvent) :
    Handler (Option (Option (Option Eligibility))) :=
  match cfg.enrollment with
  | .selfSignup => pure none
  | .adminOnly => do
      let poolId := (env RuntimeEnv.cognitoUserPoolId).getD ev.userPoolId
      let reply : Except SdkError AllowListResult ← request (.allowListGet poolId ev.userName)
      match reply with
      | .ok (.value e) => pure (some (some e))
      | .ok .unavailable => pure (some none)
      | .error _ => pure (some none)

/-- The store reads and writes keyed on the address, under the key if there
is one: denylist, window counter, daily counter, in this order. -/
def readStores (rt : Runtime) (cfg : CreateConfig) (subjectKey : String) (now : Int)
    (hmacKey : Option String) : Handler (Option Bool × Option Bool × Option Bool) :=
  match hmacKey with
  | none => pure (none, none, none)
  | some key => do
      let denylisted ← isDenylisted rt cfg.denylistTable subjectKey key
      let allowedByCap ← tryConsumeRateLimit rt subjectKey key cfg.sendsPerWindow now
      let allowedByDay ← tryConsumeDailyCap rt subjectKey key cfg.sendsPerDay now
      pure (settled denylisted, settled allowedByCap, settled allowedByDay)

def gather (rt : Runtime) (env : ProcessEnv) (cfg : CreateConfig)
    (ev : CreateAuthChallengeEvent) (subjectKey : String) (now : Int) : Handler Gathered := do
  let hmacKey ← resolveHmacKey
  let (denylisted, allowedByCap, allowedByDay) ← readStores rt cfg subjectKey now hmacKey
  let eligibility ← readEligibility env cfg ev
  pure ⟨hmacKey, denylisted, allowedByCap, allowedByDay, eligibility⟩

/-! ## The decision -/

/-- Why the challenge must be unanswerable, if it must. -/
def suppressionReason (isPhantom quarantined : Bool) (g : Gathered) :
    Option SuppressionReason :=
  if isPhantom then some .unknownUser
  else
    match g.eligibility with
    | some none => some .allowListDown
    | some (some none) => some .unknownUser
    | some (some (some e)) =>
        if !eligible (some e) then some .ineligible else afterEligibility
    | none => afterEligibility
where
  afterEligibility : Option SuppressionReason :=
    if quarantined then some .quarantined
    else if g.hmacKey = none then some .dependencyError
    else
      match g.denylisted, g.allowedByCap, g.allowedByDay with
      | none, _, _ => some .denylistDown
      | some true, _, _ => some .denylisted
      | some false, none, _ => some .dependencyError
      | some false, some false, _ => some .rateLimited
      | some false, some true, none => some .dependencyError
      | some false, some true, some false => some .dailyCap
      | some false, some true, some true => none

/-! ## The two responses -/

/-- The private parameters of either response: same keys, same shapes. -/
def privateParameters (email tokenHash codeHash quarantined : String) : Record :=
  [("email", email), ("token_hash", tokenHash), ("code_hash", codeHash),
    ("quarantined", quarantined)]

def challenge (email tokenHash codeHash quarantined : String) : ChallengeResponse where
  publicChallengeParameters := PUBLIC_CHALLENGE_PARAMETERS
  privateChallengeParameters := privateParameters email tokenHash codeHash quarantined
  challengeMetadata := "MAGIC_LINK"

/-- `unanswerableChallenge`: hashes of values nobody holds. -/
def unanswerableChallenge (rt : Runtime) (reason : SuppressionReason)
    (email generatedCode : String) : Handler ChallengeResponse := do
  let token ← request .randomToken
  let _ ← request (.emitSigninMetric (.signInSuppressed reason))
  pure (challenge email (rt.sha256Hex token) (rt.sha256Hex generatedCode) "true")

/-! ## The mail -/

def buildMagicLinkUrl (domain token : String) : String :=
  "https://" ++ domain ++ "/login/callback#token=" ++ token

/-- `sendMagicLinkEmail`: both bodies carry the fragment link and the code. -/
def magicLinkEmail (cfg : CreateConfig) (toAddress token code : String) : Mail :=
  let url := buildMagicLinkUrl cfg.domain token
  let expires := "This link expires in " ++ toString cfg.ttlMinutes
    ++ " minutes and can be used only once. The code expires with it."
  { source := cfg.fromAddress
    configurationSetName := cfg.configurationSetName
    toAddress := toAddress
    subject := "Your sign-in link"
    textBody := "\n".intercalate
      ["Sign in by opening this link in the same browser you started in.", "", url, "",
        "Opened it somewhere else? Go back to the browser where you asked for this "
          ++ "link and enter this code there instead:", "", code, "",
        "Never share this code with anyone. Nobody from us will ever ask you for it.", "",
        expires, "If you did not request this, you can ignore this message."]
    htmlBody := "\n".intercalate
      ["<!doctype html>", "<html><body style=\"font-family: system-ui, sans-serif;\">",
        "<p>Sign in by opening this link in the same browser you started in.</p>",
        "<p><a href=\"" ++ url ++ "\">" ++ url ++ "</a></p>",
        "<p>Opened it somewhere else? Go back to the browser where you asked for this "
          ++ "link and enter this code there instead:</p>",
        "<p style=\"font-size: 1.5em; letter-spacing: 0.15em;\"><strong>" ++ code
          ++ "</strong></p>",
        "<p>Never share this code with anyone. Nobody from us will ever ask you for it.</p>",
        "<p>" ++ expires ++ "</p>",
        "<p>If you did not request this, you can ignore this message.</p>",
        "</body></html>"] }

/-! ## The handler -/

/-- The row a real issue stores: only digests, and the expiry `Verify`
compares with the clock. -/
def issuedRow (rt : Runtime) (cfg : CreateConfig) (now : Int) (email key token code : String) :
    TokenRow where
  tokenHash := rt.sha256Hex token
  codeHash := some (rt.sha256Hex code)
  emailHmac := some (hmacEmail rt email key)
  createdAt := some (now / 1000)
  expiresAt := some (now / 1000 + cfg.ttlMinutes * 60)

/-- Stage 3: store the hashes, then send. A failure of either leaves an
unanswerable challenge. -/
def storeAndSend (rt : Runtime) (cfg : CreateConfig) (now : Int)
    (email key token code : String) : Handler ChallengeResponse := do
  let stored : Except SdkError Unit ←
    request (.putToken (issuedRow rt cfg now email key token code))
  match stored with
  | .error _ => unanswerableChallenge rt .dependencyError email code
  | .ok () =>
      let sent : Except SdkError Unit ←
        request (.sendEmail (magicLinkEmail cfg email token code))
      match sent with
      | .error _ => unanswerableChallenge rt .dependencyError email code
      | .ok () => pure (challenge email (rt.sha256Hex token) (rt.sha256Hex code) "false")

/-- The address the attributes give, normalised; a phantom has none. -/
def recipient (rt : Runtime) (ev : CreateAuthChallengeEvent) : Option String :=
  match ev.userAttributes.lookup "email" with
  | none => none
  | some raw => if raw = "" then none else normalizeEmail rt raw

/-- What follows the reads: suppress or issue. -/
def decideAndIssue (rt : Runtime) (cfg : CreateConfig) (ev : CreateAuthChallengeEvent)
    (now : Int) (token code : String) (g : Gathered) : Handler ChallengeResponse :=
  let email := recipient rt ev
  let quarantined := ev.userAttributes.lookup "custom:email_quarantined" == some "true"
  match suppressionReason email.isNone quarantined g, email, g.hmacKey with
  | none, some address, some key => storeAndSend rt cfg now address key token code
  | reason, _, _ =>
      unanswerableChallenge rt (reason.getD .dependencyError) (email.getD ev.userName) code

/-- `issue` under a configuration that parsed. -/
def issueWith (rt : Runtime) (env : ProcessEnv) (cfg : CreateConfig)
    (ev : CreateAuthChallengeEvent) : Handler ChallengeResponse := do
  let now ← request .now
  let token ← request .randomToken
  let code ← request .newSigninCode
  -- the phantom's counters are keyed on the username Cognito made up
  let subjectKey := (recipient rt ev).getD ev.userName
  let g ← gather rt env cfg ev subjectKey now
  decideAndIssue rt cfg ev now token code g

def issue (rt : Runtime) (env : ProcessEnv) (ev : CreateAuthChallengeEvent) :
    Handler (Except Thrown ChallengeResponse) :=
  match createConfig env with
  | none => pure (.error .authenticationFailed)
  | some cfg => do
      let response ← issueWith rt env cfg ev
      pure (.ok response)

def createAuthChallenge (rt : Runtime) (env : ProcessEnv) (ev : CreateAuthChallengeEvent) :
    Handler (Except Thrown ChallengeResponse) :=
  withFloor (parseMs (env RuntimeEnv.createFloorMs) defaultCreateFloorMs) (issue rt env ev)

/-! ## What a run of the trigger looks like -/

section Runs

variable {rt : Runtime} {env : ProcessEnv} {cfg : CreateConfig}
  {ev : CreateAuthChallengeEvent} {es : List (Event Request Reply)}

theorem finishes_unanswerableChallenge {reason : SuppressionReason} {email code : String}
    {out : ChallengeResponse}
    (h : (unanswerableChallenge rt reason email code).Finishes es out) :
    ∃ token, es = [⟨.randomToken, token⟩, ⟨.emitSigninMetric (.signInSuppressed reason), ()⟩] ∧
      out = challenge email (rt.sha256Hex token) (rt.sha256Hex code) "true" := by
  simp only [unanswerableChallenge, Prog.call_bind, Prog.finishes_ask, Prog.pure_def,
    Prog.finishes_ret] at h
  obtain ⟨token, _, rfl, _, _, rfl, rfl, rfl⟩ := h
  exact ⟨token, rfl, rfl⟩

/-- Only a run that stored the row and sent the mail ends in an answerable
challenge. -/
theorem finishes_storeAndSend {now : Int} {email key token code : String}
    {out : ChallengeResponse}
    (h : (storeAndSend rt cfg now email key token code).Finishes es out) :
    ∃ stored rest, es = ⟨.putToken (issuedRow rt cfg now email key token code), stored⟩ :: rest ∧
      ((stored = .ok () ∧
          rest = [⟨.sendEmail (magicLinkEmail cfg email token code), .ok ()⟩] ∧
          out = challenge email (rt.sha256Hex token) (rt.sha256Hex code) "false") ∨
        ∃ t m sent, out = challenge email (rt.sha256Hex t) (rt.sha256Hex code) "true" ∧
          rest = sent ++ [⟨.randomToken, t⟩, ⟨.emitSigninMetric m, ()⟩] ∧
          (sent = [] ∨ stored = .ok () ∧ ∃ e,
            sent = [⟨.sendEmail (magicLinkEmail cfg email token code), .error e⟩])) := by
  simp only [storeAndSend, Prog.call_bind, Prog.finishes_ask] at h
  obtain ⟨stored, rest, rfl, hrest⟩ := h
  refine ⟨stored, rest, rfl, ?_⟩
  cases stored with
  | error e =>
      obtain ⟨t, rfl, rfl⟩ := finishes_unanswerableChallenge hrest
      exact .inr ⟨t, _, [], rfl, rfl, .inl rfl⟩
  | ok u =>
      simp only [Prog.finishes_ask] at hrest
      obtain ⟨sent, rest, rfl, hsent⟩ := hrest
      cases sent with
      | error e =>
          obtain ⟨t, rfl, rfl⟩ := finishes_unanswerableChallenge hsent
          exact .inr ⟨t, _, [_], rfl, rfl, .inr ⟨rfl, e, rfl⟩⟩
      | ok u =>
          simp only [Prog.pure_def, Prog.finishes_ret] at hsent
          obtain ⟨rfl, rfl⟩ := hsent
          exact .inl ⟨rfl, rfl, rfl⟩

/-- The requests of stage 1. -/
def Request.isRead : Request → Prop
  | .resolveEmailHmacKey => True
  | .getDenylist _ => True
  | .updateCounter _ => True
  | .allowListGet _ _ => True
  | _ => False

theorem consumeCounter_uses (u : CounterUpdate) :
    (consumeCounter u).Uses Request.isRead := by
  simp only [consumeCounter, Prog.call_bind, Prog.uses_ask]
  refine ⟨trivial, fun reply => ?_⟩
  split <;> trivial

theorem isDenylisted_uses (table : Option String) (email key : String) :
    (isDenylisted rt table email key).Uses Request.isRead := by
  cases table with
  | none => trivial
  | some _ => exact ⟨trivial, fun _ => trivial⟩

theorem tryConsumeDailyCap_uses (address key : String) (limit now : Int) :
    (tryConsumeDailyCap rt address key limit now).Uses Request.isRead := by
  unfold tryConsumeDailyCap
  split
  · trivial
  · exact consumeCounter_uses _

theorem readStores_uses (subjectKey : String) (now : Int) (hmacKey : Option String) :
    (readStores rt cfg subjectKey now hmacKey).Uses Request.isRead := by
  cases hmacKey with
  | none => trivial
  | some key =>
      refine (isDenylisted_uses _ _ _).bind fun _ => ?_
      refine (consumeCounter_uses _).bind fun _ => ?_
      exact (tryConsumeDailyCap_uses _ _ _ _).bind fun _ => trivial

theorem gather_uses (subjectKey : String) (now : Int) :
    (gather rt env cfg ev subjectKey now).Uses Request.isRead := by
  have hkey : resolveHmacKey.Uses Request.isRead := by
    refine ⟨trivial, fun reply => ?_⟩
    cases reply <;> trivial
  have helig : (readEligibility env cfg ev).Uses Request.isRead := by
    unfold readEligibility
    split
    · trivial
    · simp only [Prog.call_bind, Prog.uses_ask]
      refine ⟨trivial, fun reply => ?_⟩
      split <;> trivial
  exact hkey.bind fun _ => (readStores_uses _ _ _).bind fun _ => helig.bind fun _ => trivial

/-- The requests of the trigger. -/
def Request.ofCreate : Request → Prop
  | .now => True
  | .sleep _ => True
  | .randomToken => True
  | .newSigninCode => True
  | .putToken _ => True
  | .sendEmail _ => True
  | .emitSigninMetric _ => True
  | op => op.isRead

theorem storeAndSend_uses (now : Int) (email key token code : String) :
    (storeAndSend rt cfg now email key token code).Uses Request.ofCreate := by
  have hun : ∀ reason, (unanswerableChallenge rt reason email code).Uses Request.ofCreate :=
    fun _ => ⟨trivial, fun _ => ⟨trivial, fun _ => trivial⟩⟩
  refine ⟨trivial, fun stored => ?_⟩
  cases stored with
  | error e => exact hun _
  | ok u =>
      refine ⟨trivial, fun sent => ?_⟩
      cases sent with
      | error e => exact hun _
      | ok u => trivial

theorem createAuthChallenge_uses : (createAuthChallenge rt env ev).Uses Request.ofCreate := by
  refine withFloor_uses ?_ trivial fun _ => trivial
  unfold issue
  split
  · trivial
  refine Prog.Uses.bind ?_ fun _ => trivial
  refine ⟨trivial, fun now => ⟨trivial, fun token => ⟨trivial, fun code => ?_⟩⟩⟩
  refine ((gather_uses _ _).mono ?_).bind fun g => ?_
  · intro op hop
    cases op <;> trivial
  · simp only [decideAndIssue]
    split
    · exact storeAndSend_uses _ _ _ _ _
    · exact ⟨trivial, fun _ => ⟨trivial, fun _ => trivial⟩⟩

/-- What the store stage tells, and what it asked: the two counters of the
address at the clock that was read, each allowed only by an update that
went through. -/
theorem finishes_readStores {subjectKey key : String} {now : Int}
    {deny cap byDay : Option Bool}
    (h : (readStores rt cfg subjectKey now (some key)).Finishes es (deny, cap, byDay)) :
    (∀ u reply, ⟨.updateCounter u, reply⟩ ∈ es →
      u = rateLimitUpdate rt subjectKey key cfg.sendsPerWindow now ∨
      ∃ date, utcDate now = some date ∧
        u = dailyCapUpdate rt subjectKey key date cfg.sendsPerDay now) ∧
    (cap = some true →
      ⟨.updateCounter (rateLimitUpdate rt subjectKey key cfg.sendsPerWindow now), .ok ()⟩ ∈ es) ∧
    (byDay = some true → ∃ date, utcDate now = some date ∧
      ⟨.updateCounter (dailyCapUpdate rt subjectKey key date cfg.sendsPerDay now), .ok ()⟩ ∈ es) := by
  obtain ⟨es₁, fs, d, rfl, hdeny, h⟩ := Prog.finishes_bind.mp h
  obtain ⟨es₂, gs, c, rfl, hcap, h⟩ := Prog.finishes_bind.mp h
  obtain ⟨es₃, hs, b, rfl, hday, h⟩ := Prog.finishes_bind.mp h
  simp only [Prog.pure_def, Prog.finishes_ret, Prod.mk.injEq] at h
  obtain ⟨rfl, -, rfl, rfl⟩ := h
  obtain ⟨capReply, rfl, hcapOk⟩ := finishes_consumeCounter hcap
  have hdenyOnly : ∀ u reply, (⟨.updateCounter u, reply⟩ : Event Request Reply) ∉ es₁ := by
    intro u reply hmem
    cases htable : cfg.denylistTable with
    | none =>
        simp only [isDenylisted, htable, Prog.pure_def, Prog.finishes_ret] at hdeny
        rw [hdeny.1] at hmem
        cases hmem
    | some t =>
        simp only [isDenylisted, htable, Prog.call, Prog.finishes_ask, Prog.finishes_ret] at hdeny
        obtain ⟨_, _, rfl, rfl, _⟩ := hdeny
        simp at hmem
  have hdaySpec : (∀ u reply, (⟨.updateCounter u, reply⟩ : Event Request Reply) ∈ es₃ →
        ∃ date, utcDate now = some date ∧
          u = dailyCapUpdate rt subjectKey key date cfg.sendsPerDay now) ∧
      (b = .ok true → ∃ date, utcDate now = some date ∧ (⟨.updateCounter
        (dailyCapUpdate rt subjectKey key date cfg.sendsPerDay now), .ok ()⟩ :
          Event Request Reply) ∈ es₃) := by
    cases hdate : utcDate now with
    | none =>
        simp only [tryConsumeDailyCap, hdate, Prog.pure_def, Prog.finishes_ret] at hday
        obtain ⟨rfl, rfl⟩ := hday
        simp
    | some date =>
        simp only [tryConsumeDailyCap, hdate] at hday
        obtain ⟨dayReply, rfl, hdayOk⟩ := finishes_consumeCounter hday
        refine ⟨fun u reply hmem => ⟨date, rfl, ?_⟩, fun hb => ⟨date, rfl, ?_⟩⟩
        · have := congrArg Event.op (List.mem_singleton.mp hmem)
          exact Request.updateCounter.inj this
        · rw [hdayOk hb]
          exact List.mem_singleton.mpr rfl
  refine ⟨fun u reply hmem => ?_, fun hc => ?_, fun hb => ?_⟩
  · simp only [List.append_nil, List.mem_append] at hmem
    rcases hmem with hmem | hmem | hmem
    · exact absurd hmem (hdenyOnly u reply)
    · have := congrArg Event.op (List.mem_singleton.mp hmem)
      exact .inl (Request.updateCounter.inj this)
    · exact .inr (hdaySpec.1 u reply hmem)
  · have : c = .ok true := by
      cases c <;> simp_all [settled]
    rw [hcapOk this]
    simp
  · have : b = .ok true := by
      cases b <;> simp_all [settled]
    obtain ⟨date, hdate, hmem⟩ := hdaySpec.2 this
    exact ⟨date, hdate, by simp [hmem]⟩

/-- An address is known not to be denylisted only by a read that said so. -/
theorem readStores_denylisted {subjectKey key : String} {now : Int} {cap byDay : Option Bool}
    (h : (readStores rt cfg subjectKey now (some key)).Finishes es (some false, cap, byDay)) :
    ⟨.getDenylist (hmacEmail rt subjectKey key), .ok false⟩ ∈ es := by
  obtain ⟨es₁, fs, d, rfl, hdeny, h⟩ := Prog.finishes_bind.mp h
  obtain ⟨es₂, gs, _, rfl, -, h⟩ := Prog.finishes_bind.mp h
  obtain ⟨es₃, hs, _, rfl, -, h⟩ := Prog.finishes_bind.mp h
  simp only [Prog.pure_def, Prog.finishes_ret, Prod.mk.injEq] at h
  have hd : d = .ok false := by
    cases d with
    | error e => cases h.2.1
    | ok b => exact congrArg _ (Option.some.inj h.2.1)
  subst hd
  unfold isDenylisted at hdeny
  split at hdeny
  · simp only [Prog.pure_def, Prog.finishes_ret] at hdeny
    cases hdeny.2
  · simp only [Prog.call, Prog.finishes_ask, Prog.finishes_ret] at hdeny
    obtain ⟨r, _, rfl, rfl, rfl⟩ := hdeny
    exact List.mem_append_left _ List.mem_cons_self

/-- The key a reply of Secrets Manager gives. -/
def usableKey : Except SdkError String → Option String
  | .ok key => if key = "" then none else some key
  | .error _ => none

theorem usableKey_some {reply : Except SdkError String} {key : String}
    (h : usableKey reply = some key) : reply = .ok key := by
  cases reply with
  | error e => cases h
  | ok key' =>
      simp only [usableKey, Option.ite_none_left_eq_some, Option.some.injEq] at h
      rw [h.2]

/-- Stage 1 in order: the key, the stores under it, the allow-list. -/
theorem finishes_gather {subjectKey : String} {now : Int} {g : Gathered}
    (h : (gather rt env cfg ev subjectKey now).Finishes es g) :
    ∃ reply part elig, es = ⟨.resolveEmailHmacKey, reply⟩ :: (part ++ elig) ∧
      g.hmacKey = usableKey reply ∧
      (readStores rt cfg subjectKey now g.hmacKey).Finishes part
        (g.denylisted, g.allowedByCap, g.allowedByDay) ∧
      ∀ e ∈ elig, ∃ pool subject, e.op = .allowListGet pool subject := by
  obtain ⟨es₁, fs, hmacKey, rfl, hkey, h⟩ := Prog.finishes_bind.mp h
  obtain ⟨part, gs, ⟨denylisted, allowedByCap, allowedByDay⟩, rfl, hstores, h⟩ :=
    Prog.finishes_bind.mp h
  obtain ⟨elig, hs, eligibility, rfl, helig, h⟩ := Prog.finishes_bind.mp h
  simp only [Prog.pure_def, Prog.finishes_ret] at h
  obtain ⟨rfl, rfl⟩ := h
  have hfirst : ∃ reply, es₁ = [⟨.resolveEmailHmacKey, reply⟩] ∧ hmacKey = usableKey reply := by
    simp only [resolveHmacKey, Prog.call_bind, Prog.finishes_ask] at hkey
    obtain ⟨reply, _, rfl, hkey⟩ := hkey
    refine ⟨reply, ?_⟩
    cases reply with
    | ok key =>
        simp only [Prog.pure_def, Prog.finishes_ret] at hkey
        exact ⟨by rw [hkey.1], hkey.2.symm⟩
    | error e =>
        simp only [Prog.pure_def, Prog.finishes_ret] at hkey
        exact ⟨by rw [hkey.1], hkey.2.symm⟩
  obtain ⟨reply, rfl, rfl⟩ := hfirst
  refine ⟨reply, part, elig, by simp, rfl, hstores, ?_⟩
  intro e he
  have huses : (readEligibility env cfg ev).Uses fun op => ∃ pool subject, op = .allowListGet pool subject := by
    unfold readEligibility
    split
    · trivial
    · simp only [Prog.call_bind, Prog.uses_ask]
      refine ⟨⟨_, _, rfl⟩, fun reply => ?_⟩
      split <;> trivial
  exact huses.finishes helig e he

/-- A run of the trigger that does not throw, cut at its stages. -/
structure IssueRun (rt : Runtime) (env : ProcessEnv) (ev : CreateAuthChallengeEvent)
    (es : List (Event Request Reply)) (out : ChallengeResponse) where
  cfg : CreateConfig
  start : Int
  now : Int
  token : String
  code : String
  gathered : Gathered
  reads : List (Event Request Reply)
  rest : List (Event Request Reply)
  tail : List (Event Request Reply)
  config : createConfig env = some cfg
  es_eq : es = ⟨.now, start⟩ :: ⟨.now, now⟩ :: ⟨.randomToken, token⟩ ::
    ⟨.newSigninCode, code⟩ :: (reads ++ (rest ++ tail))
  gathers : (gather rt env cfg ev ((recipient rt ev).getD ev.userName) now).Finishes
    reads gathered
  decides : (decideAndIssue rt cfg ev now token code gathered).Finishes rest out
  floor : ∀ e ∈ tail, e.op = .now ∨ ∃ ms, e.op = .sleep ms

theorem finishes_createAuthChallenge {out : ChallengeResponse}
    (h : (createAuthChallenge rt env ev).Finishes es (.ok out)) :
    Nonempty (IssueRun rt env ev es out) := by
  obtain ⟨start, es₁, tail, rfl, hissue, htail⟩ := finishes_withFloor h
  unfold issue at hissue
  cases hcfg : createConfig env with
  | none =>
      simp only [hcfg, Prog.pure_def, Prog.finishes_ret] at hissue
      cases hissue.2
  | some cfg =>
      simp only [hcfg] at hissue
      obtain ⟨es₂, es₃, response, rfl, hwith, hpure⟩ := Prog.finishes_bind.mp hissue
      simp only [Prog.pure_def, Prog.finishes_ret, Except.ok.injEq] at hpure
      obtain ⟨rfl, rfl⟩ := hpure
      simp only [issueWith, Prog.call_bind, Prog.finishes_ask] at hwith
      obtain ⟨now, _, rfl, token, _, rfl, code, _, rfl, hrest⟩ := hwith
      obtain ⟨reads, rest, g, rfl, hgather, hdecide⟩ := Prog.finishes_bind.mp hrest
      exact ⟨{ cfg := cfg, start := start, now := now, token := token, code := code,
               gathered := g, reads := reads, rest := rest, tail := tail, config := hcfg,
               es_eq := by simp, gathers := hgather, decides := hdecide, floor := htail }⟩

/-- A trigger that throws has asked for nothing but the clock. -/
theorem finishes_createAuthChallenge_error {thrown : Thrown}
    (h : (createAuthChallenge rt env ev).Finishes es (.error thrown)) :
    createConfig env = none ∧ ∀ e ∈ es, e.op = .now ∨ ∃ ms, e.op = .sleep ms := by
  obtain ⟨start, es₁, tail, rfl, hissue, htail⟩ := finishes_withFloor h
  unfold issue at hissue
  cases hcfg : createConfig env with
  | none =>
      simp only [hcfg, Prog.pure_def, Prog.finishes_ret] at hissue
      obtain ⟨rfl, -⟩ := hissue
      refine ⟨rfl, fun e he => ?_⟩
      rcases List.mem_cons.mp he with rfl | he
      · exact .inl rfl
      · exact htail e he
  | some cfg =>
      simp only [hcfg] at hissue
      obtain ⟨es₂, es₃, response, rfl, -, hpure⟩ := Prog.finishes_bind.mp hissue
      simp only [Prog.pure_def, Prog.finishes_ret] at hpure
      cases hpure.2

/-- What a challenge that is let through knows: the recipient, the key,
both counters and both marks. -/
theorem suppressionReason_none {isPhantom quarantined : Bool} {g : Gathered}
    (h : suppressionReason isPhantom quarantined g = none) :
    isPhantom = false ∧ (∃ key, g.hmacKey = some key) ∧ g.allowedByCap = some true ∧
      g.allowedByDay = some true ∧ quarantined = false ∧ g.denylisted = some false := by
  have hafter : suppressionReason.afterEligibility quarantined g = none →
      (∃ key, g.hmacKey = some key) ∧ g.allowedByCap = some true ∧
        g.allowedByDay = some true ∧ quarantined = false ∧ g.denylisted = some false := by
    intro ha
    unfold suppressionReason.afterEligibility at ha
    split at ha
    · cases ha
    · rename_i hquarantined
      split at ha
      · cases ha
      · rename_i hkey
        obtain ⟨key, hkey⟩ := Option.ne_none_iff_exists'.mp hkey
        split at ha <;> first
          | exact ⟨⟨key, hkey⟩, by assumption, by assumption, by simpa using hquarantined,
              by assumption⟩
          | cases ha
  unfold suppressionReason at h
  split at h
  · cases h
  · rename_i hph
    refine ⟨by simpa using hph, hafter ?_⟩
    split at h
    · cases h
    · cases h
    · split at h
      · cases h
      · exact h
    · exact h

/-- The two ends of a run: a challenge for a stored row and a mail that was
sent, or one that is marked unanswerable. -/
theorem finishes_decideAndIssue {now : Int} {token code : String} {g : Gathered}
    {out : ChallengeResponse}
    (h : (decideAndIssue rt cfg ev now token code g).Finishes es out) :
    (∃ email key, recipient rt ev = some email ∧ g.hmacKey = some key ∧
      g.allowedByCap = some true ∧ g.allowedByDay = some true ∧
      (storeAndSend rt cfg now email key token code).Finishes es out) ∨
    (∃ reason email t, out = challenge email (rt.sha256Hex t) (rt.sha256Hex code) "true" ∧
      es = [⟨.randomToken, t⟩, ⟨.emitSigninMetric (.signInSuppressed reason), ()⟩]) := by
  unfold decideAndIssue at h
  simp only at h
  split at h
  · rename_i address key hreason hemail hkey
    obtain ⟨-, -, hcap, hday, -⟩ := suppressionReason_none hreason
    exact .inl ⟨address, key, hemail, hkey, hcap, hday, h⟩
  · obtain ⟨t, rfl, rfl⟩ := finishes_unanswerableChallenge h
    exact .inr ⟨_, _, t, rfl, rfl⟩

/-- The last stage counts nothing. -/
theorem decideAndIssue_uncounted {now : Int} {token code : String} {g : Gathered}
    {out : ChallengeResponse}
    (h : (decideAndIssue rt cfg ev now token code g).Finishes es out) :
    ∀ e ∈ es, ∀ u, e.op ≠ .updateCounter u := by
  intro e he u hop
  have hmem : e.op ∈ es.map Event.op := List.mem_map_of_mem he
  rcases finishes_decideAndIssue h with ⟨email, key, -, -, -, -, hs⟩ | ⟨reason, email, t, -, rfl⟩
  · obtain ⟨stored, rest, rfl, hcase⟩ := finishes_storeAndSend hs
    rcases hcase with ⟨-, rfl, -⟩ | ⟨t, m, sent, -, rfl, rfl | ⟨-, x, rfl⟩⟩ <;>
      simp [hop] at hmem
  · simp [hop] at hmem

end Runs

/-! ## What follows for the requests of a run -/

/-- The requests by which a challenge becomes real. -/
def Request.isIssue : Request → Bool
  | .putToken _ => true
  | .sendEmail _ => true
  | _ => false

def Request.isPut : Request → Bool
  | .putToken _ => true
  | _ => false

def Request.isMail : Request → Bool
  | .sendEmail _ => true
  | _ => false

/-- What has to be there for a row to be stored: a recipient, a key, and
both counters' leave. -/
structure Ready (rt : Runtime) (ev : CreateAuthChallengeEvent) (g : Gathered)
    (email key : String) : Prop where
  recipient : recipient rt ev = some email
  key : g.hmacKey = some key
  byCap : g.allowedByCap = some true
  byDay : g.allowedByDay = some true

/-- The ways a run can end: the rows and mails it asked for, and the
response it gave. -/
inductive IssueOutcome (rt : Runtime) (cfg : CreateConfig) (ev : CreateAuthChallengeEvent)
    (now : Int) (token code : String) (g : Gathered) :
    List (Event Request Reply) → ChallengeResponse → Prop
  | suppressed (email t : String) :
      IssueOutcome rt cfg ev now token code g []
        (challenge email (rt.sha256Hex t) (rt.sha256Hex code) "true")
  | unsent {email key : String} {stored : Except SdkError Unit} (hready : Ready rt ev g email key)
      (t : String) :
      IssueOutcome rt cfg ev now token code g
        [⟨.putToken (issuedRow rt cfg now email key token code), stored⟩]
        (challenge email (rt.sha256Hex t) (rt.sha256Hex code) "true")
  | sendFailed {email key : String} (hready : Ready rt ev g email key) (t : String)
      (x : SdkError) :
      IssueOutcome rt cfg ev now token code g
        [⟨.putToken (issuedRow rt cfg now email key token code), .ok ()⟩,
          ⟨.sendEmail (magicLinkEmail cfg email token code), .error x⟩]
        (challenge email (rt.sha256Hex t) (rt.sha256Hex code) "true")
  | sent {email key : String} (hready : Ready rt ev g email key) :
      IssueOutcome rt cfg ev now token code g
        [⟨.putToken (issuedRow rt cfg now email key token code), .ok ()⟩,
          ⟨.sendEmail (magicLinkEmail cfg email token code), .ok ()⟩]
        (challenge email (rt.sha256Hex token) (rt.sha256Hex code) "false")

theorem issueOutcome_of_finishes {rt : Runtime} {cfg : CreateConfig}
    {ev : CreateAuthChallengeEvent} {now : Int} {token code : String} {g : Gathered}
    {es : List (Event Request Reply)} {out : ChallengeResponse}
    (h : (decideAndIssue rt cfg ev now token code g).Finishes es out) :
    IssueOutcome rt cfg ev now token code g (es.filter (fun e => e.op.isIssue)) out := by
  rcases finishes_decideAndIssue h with ⟨email, key, hemail, hkey, hcap, hday, hs⟩ |
    ⟨reason, email, t, rfl, rfl⟩
  · have hready : Ready rt ev g email key := ⟨hemail, hkey, hcap, hday⟩
    obtain ⟨stored, rest, rfl, hcase⟩ := finishes_storeAndSend hs
    rcases hcase with ⟨rfl, rfl, rfl⟩ | ⟨t, m, sent, rfl, rfl, rfl | ⟨rfl, x, rfl⟩⟩
    · exact .sent hready
    · exact .unsent hready t
    · exact .sendFailed hready t x
  · exact .suppressed email t

theorem IssueOutcome.countP_isPut_le {rt : Runtime} {cfg : CreateConfig}
    {ev : CreateAuthChallengeEvent} {now : Int} {token code : String} {g : Gathered}
    {es : List (Event Request Reply)} {out : ChallengeResponse}
    (ho : IssueOutcome rt cfg ev now token code g es out) :
    es.countP (fun e => e.op.isPut) ≤ 1 := by
  cases ho <;> simp [Request.isPut]

theorem IssueOutcome.countP_isMail_le {rt : Runtime} {cfg : CreateConfig}
    {ev : CreateAuthChallengeEvent} {now : Int} {token code : String} {g : Gathered}
    {es : List (Event Request Reply)} {out : ChallengeResponse}
    (ho : IssueOutcome rt cfg ev now token code g es out) :
    es.countP (fun e => e.op.isMail) ≤ 1 := by
  cases ho <;> simp [Request.isMail]

/-- Requests by which a challenge becomes real are counted among those. -/
theorem countP_issued {p : Request → Bool} (hp : ∀ op, p op = true → op.isIssue = true)
    (es : List (Event Request Reply)) :
    es.countP (fun e => p e.op) = (es.filter (fun e => e.op.isIssue)).countP (fun e => p e.op) := by
  rw [List.countP_filter]
  apply List.countP_congr
  intro e _
  simp only [Bool.and_eq_true, iff_self_and]
  exact hp e.op

namespace IssueRun

variable {rt : Runtime} {env : ProcessEnv} {ev : CreateAuthChallengeEvent}
  {es : List (Event Request Reply)} {out : ChallengeResponse}

/-- Rows and mails come from the last stage only. -/
theorem filter_isIssue (r : IssueRun rt env ev es out) :
    es.filter (fun e => e.op.isIssue) = r.rest.filter (fun e => e.op.isIssue) := by
  have hreads : r.reads.filter (fun e => e.op.isIssue) = [] := by
    rw [List.filter_eq_nil_iff]
    intro e he
    have hread := (gather_uses _ _).finishes r.gathers e he
    cases hop : e.op <;> simp [hop, Request.isRead, Request.isIssue] at hread ⊢
  have htail : r.tail.filter (fun e => e.op.isIssue) = [] := by
    rw [List.filter_eq_nil_iff]
    intro e he
    rcases r.floor e he with hop | ⟨ms, hop⟩ <;> simp [hop, Request.isIssue]
  refine (congrArg (List.filter _) r.es_eq).trans ?_
  rw [List.filter_cons_of_neg (by simp [Request.isIssue]),
    List.filter_cons_of_neg (by simp [Request.isIssue]),
    List.filter_cons_of_neg (by simp [Request.isIssue]),
    List.filter_cons_of_neg (by simp [Request.isIssue]), List.filter_append,
    List.filter_append, hreads, htail, List.nil_append, List.append_nil]

/-- How the last stage ended, by the rows and mails it asked for. -/
theorem outcome (r : IssueRun rt env ev es out) :
    IssueOutcome rt r.cfg ev r.now r.token r.code r.gathered
      (es.filter (fun e => e.op.isIssue)) out := by
  rw [r.filter_isIssue]
  exact issueOutcome_of_finishes r.decides

/-- At most one row is put. -/
theorem countP_isPut_le (r : IssueRun rt env ev es out) :
    es.countP (fun e => e.op.isPut) ≤ 1 := by
  have hp : ∀ op : Request, op.isPut = true → op.isIssue = true := by
    intro op hop
    cases op <;> first | rfl | cases hop
  rw [countP_issued hp]
  exact r.outcome.countP_isPut_le

/-- At most one mail is sent. -/
theorem countP_isMail_le (r : IssueRun rt env ev es out) :
    es.countP (fun e => e.op.isMail) ≤ 1 := by
  have hp : ∀ op : Request, op.isMail = true → op.isIssue = true := by
    intro op hop
    cases op <;> first | rfl | cases hop
  rw [countP_issued hp]
  exact r.outcome.countP_isMail_le

/-- What comes before the last stage has happened once something was
issued, in the part of the run that has been seen as well. -/
theorem mem_of_issued {fs : List (Event Request Reply)} (r : IssueRun rt env ev (es ++ fs) out)
    {e : Event Request Reply} (he : e ∈ es) (hop : e.op.isIssue = true) {x : Event Request Reply}
    (hx : x ∈ ⟨.now, r.start⟩ :: ⟨.now, r.now⟩ :: ⟨.randomToken, r.token⟩ ::
      ⟨.newSigninCode, r.code⟩ :: r.reads) : x ∈ es := by
  refine Prog.mem_of_prefix r.es_eq he ?_ hx
  intro hmem
  simp only [List.mem_cons] at hmem
  rcases hmem with rfl | rfl | rfl | rfl | hread
  · cases hop
  · cases hop
  · cases hop
  · cases hop
  · have hisRead := (gather_uses _ _).finishes r.gathers e hread
    cases hreq : e.op <;> simp [hreq, Request.isRead, Request.isIssue] at hisRead hop

/-- The key of the run is one Secrets Manager gave. -/
theorem resolved (r : IssueRun rt env ev es out) {key : String}
    (hkey : r.gathered.hmacKey = some key) : ⟨.resolveEmailHmacKey, .ok key⟩ ∈ r.reads := by
  obtain ⟨reply, part, elig, hreads, hgk, -⟩ := finishes_gather r.gathers
  rw [hkey] at hgk
  rw [hreads, usableKey_some hgk.symm]
  exact List.mem_cons_self

/-- A run that is ready to store has been counted by both counters. -/
theorem consumed (r : IssueRun rt env ev es out) {email key : String}
    (hready : Ready rt ev r.gathered email key) :
    ⟨.updateCounter (rateLimitUpdate rt email key r.cfg.sendsPerWindow r.now), .ok ()⟩ ∈ r.reads ∧
    ∃ date, utcDate r.now = some date ∧
      ⟨.updateCounter (dailyCapUpdate rt email key date r.cfg.sendsPerDay r.now), .ok ()⟩ ∈
        r.reads := by
  obtain ⟨reply, part, elig, hreads, -, hstores, -⟩ := finishes_gather r.gathers
  rw [hready.key, hready.recipient] at hstores
  obtain ⟨-, hcap, hday⟩ := finishes_readStores hstores
  have hpart : ∀ x ∈ part, x ∈ r.reads := by
    intro x hx
    rw [hreads]
    exact List.mem_cons_of_mem _ (List.mem_append_left _ hx)
  obtain ⟨date, hdate, hmem⟩ := hday hready.byDay
  exact ⟨hpart _ (hcap hready.byCap), date, hdate, hpart _ hmem⟩

/-- Every counter a run updates is one of the two of its subject, under the
key and at the clock of the run; and the clock and the key came first. -/
theorem update_eq {fs : List (Event Request Reply)} (r : IssueRun rt env ev (es ++ fs) out)
    {e : Event Request Reply} (he : e ∈ es) {u : CounterUpdate} (hop : e.op = .updateCounter u) :
    ∃ key, ⟨.resolveEmailHmacKey, .ok key⟩ ∈ es ∧
      (u = rateLimitUpdate rt ((recipient rt ev).getD ev.userName) key r.cfg.sendsPerWindow r.now ∨
        ∃ date, utcDate r.now = some date ∧
          u = dailyCapUpdate rt ((recipient rt ev).getD ev.userName) key date r.cfg.sendsPerDay
            r.now) := by
  obtain ⟨reply, part, elig, hreads, hgk, hstores, helig⟩ := finishes_gather r.gathers
  have hpart : e ∈ part := by
    have hall := (congrArg (e ∈ ·) r.es_eq).mp (List.mem_append_left fs he)
    simp only [hreads, List.cons_append, List.mem_cons, List.mem_append] at hall
    rcases hall with rfl | rfl | rfl | rfl | rfl | (hpart | hmem) | hmem | hmem
    · cases hop
    · cases hop
    · cases hop
    · cases hop
    · cases hop
    · exact hpart
    · obtain ⟨_, _, h⟩ := helig e hmem
      rw [h] at hop
      cases hop
    · exact absurd hop (decideAndIssue_uncounted r.decides e hmem u)
    · rcases r.floor e hmem with h | ⟨ms, h⟩ <;> rw [h] at hop <;> cases hop
  cases hkey : r.gathered.hmacKey with
  | none =>
      rw [hkey] at hstores
      simp only [readStores, Prog.pure_def, Prog.finishes_ret] at hstores
      rw [hstores.1] at hpart
      cases hpart
  | some key =>
      rw [hkey] at hstores hgk
      refine ⟨key, ?_, ?_⟩
      · -- the key was resolved right before the counters
        rw [usableKey_some hgk.symm] at hreads
        have hes : es ++ fs = [⟨.now, r.start⟩, ⟨.now, r.now⟩, ⟨.randomToken, r.token⟩,
            ⟨.newSigninCode, r.code⟩, ⟨.resolveEmailHmacKey, .ok key⟩] ++
            (part ++ elig ++ (r.rest ++ r.tail)) := by
          refine r.es_eq.trans ?_
          rw [hreads]
          simp
        apply Prog.mem_of_prefix hes he
        · intro hmem
          have hops := List.mem_map_of_mem (f := Event.op) hmem
          simp [hop] at hops
        · simp
      · obtain ⟨op, reply'⟩ := e
        simp only at hop
        subst hop
        exact (finishes_readStores hstores).1 u reply' hpart

end IssueRun

end SaasFoundation.Vestibulum.SignIn
