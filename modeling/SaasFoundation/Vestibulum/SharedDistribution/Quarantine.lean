import SaasFoundation.Vestibulum.SharedDistribution.AllowList

/-!
# Quarantine

The bounce handler leaves one of two marks: an attribute on the user the
address belongs to, or a row of the denylist. The single-tenant trigger
looks for both before it sends; the shared one reads the denylist only. So
a mark silences its address in every run that starts no shared sign-in for
a user who carries the attribute.
-/

namespace SaasFoundation.Vestibulum.SharedDistribution.Triggers

open Lib

/-! ## What a mail is sent after -/

/-- The single-tenant trigger, over its own requests: no mail before both
marks were looked for. -/
def SingleChecks (rt : Runtime) (ev : SignIn.CreateAuthChallengeEvent)
    (past : List (Event SignIn.Request SignIn.Reply)) : SignIn.Request → Prop
  | .sendEmail mail => SignIn.recipient rt ev = some mail.toAddress ∧
      ev.userAttributes.lookup quarantinedAttribute ≠ some "true" ∧
      ∃ key, ⟨.resolveEmailHmacKey, .ok key⟩ ∈ past ∧
        ⟨.getDenylist (hmacEmail rt mail.toAddress key), .ok false⟩ ∈ past
  | _ => True

section SingleTenant

variable {rt : Runtime} {env : ProcessEnv} {ev : SignIn.CreateAuthChallengeEvent}
  {past : List (Event SignIn.Request SignIn.Reply)}

theorem recipient_some {email : String} (h : SignIn.recipient rt ev = some email) :
    ∃ raw, ev.userAttributes.lookup "email" = some raw ∧ normalizeEmail rt raw = some email := by
  unfold SignIn.recipient at h
  split at h
  · cases h
  · rename_i raw hraw
    split at h
    · cases h
    · exact ⟨raw, hraw, h⟩

theorem singleChecks_unanswerable (reason : SignIn.SuppressionReason) (email code : String) :
    Prog.Asks (SingleChecks rt ev) past (SignIn.unanswerableChallenge rt reason email code) :=
  ⟨trivial, fun _ => ⟨trivial, fun _ => trivial⟩⟩

theorem singleChecks_storeAndSend {cfg : SignIn.CreateConfig} {now : Int}
    {email key token code : String} (hto : SignIn.recipient rt ev = some email)
    (hfree : ev.userAttributes.lookup quarantinedAttribute ≠ some "true")
    (hkey : ⟨.resolveEmailHmacKey, .ok key⟩ ∈ past)
    (hdeny : ⟨.getDenylist (hmacEmail rt email key), .ok false⟩ ∈ past) :
    Prog.Asks (SingleChecks rt ev) past (SignIn.storeAndSend rt cfg now email key token code) := by
  refine ⟨trivial, fun stored => ?_⟩
  cases stored with
  | error e => exact singleChecks_unanswerable _ _ _
  | ok u =>
      refine ⟨⟨hto, hfree, key, List.mem_append_left _ hkey, List.mem_append_left _ hdeny⟩, ?_⟩
      intro sent
      cases sent with
      | error e => exact singleChecks_unanswerable _ _ _
      | ok u => trivial

theorem singleChecks_decideAndIssue {cfg : SignIn.CreateConfig} {now : Int}
    {token code : String} {g : SignIn.Gathered} {es : List (Event SignIn.Request SignIn.Reply)}
    (hgather : (SignIn.gather rt env cfg ev ((SignIn.recipient rt ev).getD ev.userName) now).Finishes
      es g) :
    Prog.Asks (SingleChecks rt ev) (past ++ es)
      (SignIn.decideAndIssue rt cfg ev now token code g) := by
  simp only [SignIn.decideAndIssue]
  split
  · rename_i address key hreason hto hkey
    obtain ⟨-, -, -, -, hfree, hdenied⟩ := SignIn.suppressionReason_none hreason
    obtain ⟨reply, part, elig, rfl, hreply, hstores, -⟩ := SignIn.finishes_gather hgather
    rw [hkey] at hreply hstores
    rw [hdenied, hto, Option.getD_some] at hstores
    apply singleChecks_storeAndSend hto (by simpa [quarantinedAttribute] using hfree)
    · rw [SignIn.usableKey_some hreply.symm]
      exact List.mem_append_right _ List.mem_cons_self
    · have := SignIn.readStores_denylisted hstores
      simp [this]
  · exact singleChecks_unanswerable _ _ _

theorem createAuthChallenge_singleChecks :
    Prog.Asks (SingleChecks rt ev) past (SignIn.createAuthChallenge rt env ev) := by
  simp only [SignIn.createAuthChallenge, SignIn.withFloor, Prog.call_bind, Prog.asks_ask]
  refine ⟨trivial, fun start => Prog.Asks.bind ?_ fun es result _ => ⟨trivial, fun finish => ?_⟩⟩
  · unfold SignIn.issue
    split
    · trivial
    · rename_i cfg _
      refine Prog.Asks.bind ?_ fun _ _ _ => trivial
      simp only [SignIn.issueWith, Prog.call_bind, Prog.asks_ask]
      refine ⟨trivial, fun now => ⟨trivial, fun token => ⟨trivial, fun code => ?_⟩⟩⟩
      refine Prog.Asks.bind ?_ fun es g hgather => singleChecks_decideAndIssue hgather
      refine (SignIn.gather_uses _ _).asks fun past op hop => ?_
      cases op <;> trivial
  · simp only
    split
    · exact ⟨trivial, fun _ => trivial⟩
    · trivial

end SingleTenant

/-- Whose address a mail is sent to, and that the attribute was looked for
where it is. -/
def SendsTo (D : Deployment) (job : Job) (past : List (Event Request Reply)) (toAddress : String) :
    Prop :=
  (∃ container userName clientId attributes, job = .signIn container userName clientId ∧
    ⟨.userAttributes userName, some attributes⟩ ∈ past ∧
    attributes.lookup "email" = some toAddress) ∨
  ∃ userPoolId userName attributes raw, job = .singleCreate userPoolId userName ∧
    ⟨.userAttributes userName, some attributes⟩ ∈ past ∧
    attributes.lookup "email" = some raw ∧ normalizeEmail D.rt raw = some toAddress ∧
    attributes.lookup quarantinedAttribute ≠ some "true"

/-- A mail is sent after the denylist was read for its address. -/
def Checks (D : Deployment) (job : Job) (past : List (Event Request Reply)) : Request → Prop
  | .signIn (.sendEmail mail) => SendsTo D job past mail.toAddress ∧
      ∃ key, ⟨.signIn .resolveEmailHmacKey, .ok key⟩ ∈ past ∧
        ⟨.signIn (.getDenylist (hmacEmail D.rt mail.toAddress key)), .ok false⟩ ∈ past
  | _ => True

/-- A request that sends nothing. -/
def Request.isSilent : Request → Prop
  | .signIn (.sendEmail _) => False
  | _ => True

section Flows

variable {D : Deployment} {job : Job} {past : List (Event Request Reply)} {container : Nat}
  {clientId : String}

theorem Request.isSilent.checks {op : Request} (h : op.isSilent) : Checks D job past op := by
  cases op with
  | signIn op =>
      cases op with
      | sendEmail mail => cases h
      | _ => trivial
  | _ => trivial

theorem load_silent : (loadClientConfigByClientId container clientId).Uses Request.isSilent := by
  have hmiss : ∀ now, (loadAndCache container clientId now).Uses Request.isSilent := by
    intro now
    simp only [loadAndCache, Prog.call_bind, Prog.uses_ask]
    refine ⟨trivial, fun resp => ?_⟩
    split <;> exact ⟨trivial, fun _ => trivial⟩
  simp only [loadClientConfigByClientId, Prog.call_bind, Prog.uses_ask]
  refine ⟨trivial, fun now => ⟨trivial, fun entry => ?_⟩⟩
  split
  · split
    · trivial
    · exact hmiss now
  · exact hmiss now

theorem SendsTo.mono {fs : List (Event Request Reply)} {toAddress : String}
    (h : SendsTo D job past toAddress) : SendsTo D job (past ++ fs) toAddress := by
  rcases h with ⟨container, userName, clientId, attributes, hjob, hread, hemail⟩ |
    ⟨userPoolId, userName, attributes, raw, hjob, hread, hraw⟩
  · exact .inl ⟨container, userName, clientId, attributes, hjob, List.mem_append_left _ hread,
      hemail⟩
  · exact .inr ⟨userPoolId, userName, attributes, raw, hjob, List.mem_append_left _ hread, hraw⟩

theorem checks_storeAndSend {cfg : CreateConfig} {siteBaseUrl : String} {now : Int}
    {email hmacKey : String} (hto : SendsTo D job past email)
    (hkey : ⟨.signIn .resolveEmailHmacKey, .ok hmacKey⟩ ∈ past)
    (hdeny : ⟨.signIn (.getDenylist (hmacEmail D.rt email hmacKey)), .ok false⟩ ∈ past) :
    Prog.Asks (Checks D job) past (storeAndSend D.rt cfg siteBaseUrl now email hmacKey) := by
  simp only [storeAndSend, Prog.call_bind, Prog.asks_ask]
  refine ⟨trivial, fun token => ⟨trivial, fun stored => ?_⟩⟩
  split
  · trivial
  · simp only [Prog.asks_ask]
    refine ⟨⟨hto.mono.mono, hmacKey, ?_, ?_⟩, fun sent => ?_⟩
    · simp [hkey]
    · show _ ∈ _
      simp [magicLinkEmail, hdeny]
    · split <;> trivial

theorem checks_checkAndSend {cfg : CreateConfig} {siteBaseUrl : String} {now : Int}
    {email hmacKey : String} (hto : SendsTo D job past email)
    (hkey : ⟨.signIn .resolveEmailHmacKey, .ok hmacKey⟩ ∈ past) :
    Prog.Asks (Checks D job) past (checkAndSend D.rt cfg siteBaseUrl now email hmacKey) := by
  unfold checkAndSend
  split
  · trivial
  · simp only [Prog.call_bind, Prog.asks_ask]
    refine ⟨trivial, fun denylisted => ?_⟩
    split
    · trivial
    · trivial
    · trivial
    · -- the limit asks for counters only
      have hlimit : (singleTenant (SignIn.tryConsumeRateLimit D.rt email hmacKey cfg.sendsPerWindow
          now)).Uses Request.isSilent := by
        refine ⟨trivial, fun reply => ?_⟩
        rcases reply with e | u
        · cases e <;> trivial
        · trivial
      refine (hlimit.asks fun _ _ hop => hop.checks).bind fun es allowed _ => ?_
      split
      · trivial
      · trivial
      · exact checks_storeAndSend hto.mono.mono (by simp [hkey]) (by simp)

theorem checks_createAuthChallenge {event : CreateAuthChallengeEvent}
    (hto : ∀ email, event.userAttributes.lookup "email" = some email → SendsTo D job past email) :
    Prog.Asks (Checks D job) past (createAuthChallenge D.rt D.sharedEnv container event) := by
  refine (load_silent.asks fun _ _ hop => hop.checks).bind fun es loaded _ => ?_
  split
  · trivial
  · trivial
  · simp only
    split
    · trivial
    · rename_i hempty
      split
      · trivial
      · simp only [Prog.call_bind, Prog.asks_ask]
        refine ⟨trivial, fun now => ⟨trivial, fun key => ?_⟩⟩
        split
        · trivial
        · cases hemail : event.userAttributes.lookup "email" with
          | none =>
              rw [hemail] at hempty
              exact absurd rfl hempty
          | some email => exact checks_checkAndSend (hto email hemail).mono.mono.mono (by simp)

theorem checks_signInFlow {userName : String} :
    Prog.Asks (Checks D (.signIn container userName clientId)) []
      (signInFlow D container userName clientId) := by
  simp only [signInFlow, Prog.call_bind, Prog.asks_ask]
  refine ⟨trivial, fun attributes => ?_⟩
  cases attributes with
  | none => trivial
  | some attributes =>
      have hto : ∀ email, attributes.lookup "email" = some email →
          SendsTo D (.signIn container userName clientId)
            ([] ++ [⟨.userAttributes userName, some attributes⟩]) email := by
        intro email hemail
        exact .inl ⟨container, userName, clientId, attributes, rfl, List.mem_cons_self, hemail⟩
      refine (checks_createAuthChallenge hto).bind fun es issued _ => ?_
      cases issued with
      | error e => trivial
      | ok response =>
          simp only [Prog.call_bind, Prog.asks_ask]
          refine ⟨trivial, fun correct => ?_⟩
          split
          · have htoken : (tokenFlow D container userName clientId attributes).Uses
                Request.isSilent := by
              refine Prog.Uses.bind (load_silent.bind fun _ => trivial) fun result => ?_
              split
              · trivial
              · exact ⟨trivial, fun _ => trivial⟩
            exact htoken.asks fun _ _ hop => hop.checks
          · trivial

theorem checks_singleFlow {userPoolId userName : String} :
    Prog.Asks (Checks D (.singleCreate userPoolId userName)) []
      (singleFlow D userPoolId userName) := by
  simp only [singleFlow, Prog.call_bind, Prog.asks_ask]
  refine ⟨trivial, fun attributes => Prog.Asks.bind ?_ fun _ _ _ => trivial⟩
  have hsingle := @createAuthChallenge_singleChecks D.rt D.singleEnv
    ⟨userPoolId, userName, attributes.getD []⟩ []
  have hembed := @Prog.Asks.embed _ _ _ _ Request.signIn (Checks D (.singleCreate userPoolId userName))
    [⟨.userAttributes userName, attributes⟩] [] _ (hsingle.mono ?_)
  · simpa [singleTenant] using hembed
  · intro past op hop
    cases op with
    | sendEmail mail =>
        obtain ⟨hto, hfree, key, hkey, hdeny⟩ := hop
        refine ⟨.inr ?_, key, List.mem_append_right _ (List.mem_map_of_mem hkey),
          List.mem_append_right _ (List.mem_map_of_mem hdeny)⟩
        obtain ⟨raw, hraw, hnormal⟩ := recipient_some hto
        cases attributes with
        | none => cases hraw
        | some attributes =>
            exact ⟨userPoolId, userName, attributes, raw, rfl, List.mem_cons_self, hraw, hnormal,
              hfree⟩
    | _ => trivial

theorem start_checks (job : Job) : Prog.Asks (Checks D job) [] (start D job) := by
  cases job with
  | signUp container userName email clientId =>
      have huses : (signUpFlow D container userName email clientId).Uses Request.isSilent := by
        refine Prog.Uses.bind ?_ fun allowed => ?_
        · refine load_silent.bind fun loaded => ?_
          split
          · trivial
          · trivial
          · simp only
            split <;> trivial
        · split
          · trivial
          · exact ⟨trivial, fun _ => trivial⟩
      exact huses.asks fun _ _ hop => hop.checks
  | signIn container userName clientId => exact checks_signInFlow
  | singleCreate userPoolId userName => exact checks_singleFlow
  | bounce event =>
      have huses : (bounceFlow D event).Uses Request.ofBounce :=
        (bounceHandler_uses _ _ _).bind fun _ => trivial
      refine huses.asks fun past op hop => ?_
      cases op with
      | signIn op =>
          cases op with
          | sendEmail mail => cases hop
          | _ => trivial
      | _ => trivial

end Flows

/-! ## Addresses belong to users -/

section Addresses

variable {D : Deployment} {c : PoolConfig}

theorem Change.aliases {w w' : World} {op : Request} (h : Change D w op w') {k u : String}
    (hk : w.aliases k = some u) : w'.aliases k = some u := by
  cases h with
  | createUser _ hunused => exact Table.put_keeps _ hunused hk
  | _ => exact hk

theorem drift_aliases {w w' : World} {m : Move} (h : drift w w' m) : w'.aliases = w.aliases := by
  cases m with
  | putConfig row =>
      obtain ⟨-, rfl⟩ := h
      rfl
  | deleteConfig clientId =>
      have hworld : w' = w.setConfigs (w.configs.erase clientId) := h
      rw [hworld, World.setConfigs]
  | removeDenylist k => rw [show w' = _ from h]
  | setAttribute userName name value =>
      obtain ⟨-, user, -, rfl⟩ := h
      rfl

/-- An address that belonged to a user still does. -/
theorem aliases_kept (h : (pool D).Reachable c) : ∀ e ∈ c.log, ∀ k u, e.pre.aliases k = some u →
    c.world.aliases k = some u := by
  induction h with
  | init _ => simp
  | @step c d _ hs ih =>
      cases hs with
      | spawn _ => exact ih
      | @request i job op k r w _ hserve =>
          intro e he key u hkey
          apply (serve_change hserve).aliases
          rcases List.mem_append.mp he with he | he
          · exact ih e he key u hkey
          · rw [List.mem_singleton.mp he] at hkey
            exact hkey
      | drift hd =>
          obtain ⟨m, hm⟩ := hd
          simp only [drift_aliases hm]
          exact ih

theorem drift_users {w w' : World} {m : Move} (h : drift w w' m) {u : String} {user : PoolUser}
    (huser : w'.users u = some user) : ∃ old, w.users u = some old ∧ SameUser old user := by
  cases m with
  | putConfig row =>
      obtain ⟨-, rfl⟩ := h
      exact ⟨user, huser, .refl user⟩
  | deleteConfig _ | removeDenylist _ =>
      rw [show w' = _ from h] at huser
      exact ⟨user, huser, .refl user⟩
  | setAttribute userName name value =>
      obtain ⟨hname, old, hold, rfl⟩ := h
      rcases Table.put_some huser with ⟨rfl, rfl⟩ | ⟨-, huser⟩
      · exact ⟨old, hold, .set _ _ hname⟩
      · exact ⟨user, huser, .refl user⟩

/-- The address of a user leads to the user. -/
theorem aliases_index (h : (pool D).Reachable c) : ∀ u user email, c.world.users u = some user →
    user.attributes.lookup "email" = some email →
    c.world.aliases (D.rt.toLowerCase email) = some u := by
  induction h with
  | init hw =>
      intro u user email huser
      rw [hw.2.2.2.1] at huser
      cases huser
  | @step c d _ hs ih =>
      cases hs with
      | spawn _ => exact ih
      | @request i job op k r w _ hserve =>
          intro u user email huser hemail
          have hchange := serve_change hserve
          rcases hchange.users huser with ⟨old, hold, -, hsame⟩ | ⟨address, rfl, haddress⟩
          · rw [hsame] at hemail
            exact hchange.aliases (ih u old email hold hemail)
          · rw [haddress] at hemail
            cases hemail
            obtain ⟨-, -, rfl⟩ := hserve
            exact Table.put_self _ _ _
      | drift hd =>
          obtain ⟨m, hm⟩ := hd
          intro u user email huser hemail
          obtain ⟨old, hold, -, hsame⟩ := drift_users hm huser
          rw [hsame] at hemail
          simp only [drift_aliases hm]
          exact ih u old email hold hemail

end Addresses

/-! ## Marks -/

/-- What the bounce handler leaves for an address. -/
inductive Mark where
  | user (userName : String)
  | row (emailHmac : String)

def Mark.Present (w : World) : Mark → Prop
  | .user u => ∃ user, w.users u = some user ∧
      user.attributes.lookup quarantinedAttribute = some "true"
  | .row k => (w.denylist k).isSome = true

/-- The entry left the mark for the address. -/
def Makes (D : Deployment) (email : String) (m : Entry Request Reply World) : Mark → Prop
  | .user u => m.ev = ⟨.quarantineUser email, .ok ()⟩ ∧
      m.pre.aliases (D.rt.toLowerCase email) = some u
  | .row k => k = hmacEmail D.rt email D.emailHmacKey ∧
      ∃ quarantinedAt expiresAt, m.ev = ⟨.putDenylist k quarantinedAt expiresAt, .ok ()⟩

/-- The quarantine as it is meant: a bounce handler that returns has marked
every address it was told of, and no invocation that starts after a mark
was left sends mail to the address while the mark is there. -/
structure QuarantineHonoured (D : Deployment) (c : PoolConfig) : Prop where
  marked : ∀ (j : Nat) event, c.threads[j]? = some ⟨.bounce event, .ret (.bounced (.ok ()))⟩ →
    ∀ message ∈ event.messages, ∀ email, Affects D.rt message email →
      ∃ m ∈ c.log, m.tid = j ∧ ∃ mark, Makes D email m mark ∧ mark.Present m.post
  silent : ∀ l₁ m l₂, c.log = l₁ ++ m :: l₂ → ∀ email mark, Makes D email m mark →
    ∀ i, localLog (l₁ ++ [m]) i = [] → (∀ e ∈ l₂, e.tid = i → mark.Present e.pre) →
      ∀ s ∈ l₂, s.tid = i → ∀ mail, s.ev.op = .signIn (.sendEmail mail) →
        D.rt.toLowerCase mail.toAddress ≠ D.rt.toLowerCase email

/-- No shared sign-in is started for a user who carries the attribute. -/
def SharedSkipsQuarantined (c : PoolConfig) : Prop :=
  ∀ e ∈ c.log, ∀ t container userName clientId attributes, c.threads[e.tid]? = some t →
    t.job = .signIn container userName clientId →
    e.ev = ⟨.userAttributes userName, some attributes⟩ →
    attributes.lookup quarantinedAttribute ≠ some "true"

/-- Users sign up with addresses that normalising leaves as they are, but
for the case of letters. -/
def NormalAddresses (D : Deployment) (c : PoolConfig) : Prop :=
  ∀ e ∈ c.log, ∀ userName email clientId address, e.ev.op = .createUser userName email clientId →
    normalizeEmail D.rt email = some address →
    D.rt.toLowerCase address = D.rt.toLowerCase email

section Runs

variable {D : Deployment} {c : PoolConfig}

/-- There is one key. -/
theorem served_key (h : (pool D).Reachable c) {i : Nat} {key : String}
    (hread : ⟨.signIn .resolveEmailHmacKey, .ok key⟩ ∈ localLog c.log i) :
    key = D.emailHmacKey := by
  obtain ⟨e, he, -, hev⟩ := mem_localLog.mp hread
  have hserve := h.served e he
  rw [hev] at hserve
  exact hserve.1 key rfl

theorem makes_user (h : (pool D).Reachable c) {m : Entry Request Reply World} (hm : m ∈ c.log)
    {email : String} (hev : m.ev = ⟨.quarantineUser email, .ok ()⟩) :
    ∃ mark, Makes D email m mark ∧ mark.Present m.post := by
  have hserve := h.served m hm
  rw [hev] at hserve
  obtain ⟨userName, user, hfound, huser, hpost⟩ := hserve
  refine ⟨.user userName, ⟨hev, hfound⟩, user.set quarantinedAttribute "true", ?_, ?_⟩
  · rw [hpost]
    exact Table.put_self _ _ _
  · exact (lookup_setField _ _ _ _).trans (if_pos rfl)

theorem makes_row (h : (pool D).Reachable c) {m : Entry Request Reply World} (hm : m ∈ c.log)
    {email quarantinedAt : String} {expiresAt : Int}
    (hev : m.ev = ⟨.putDenylist (hmacEmail D.rt email D.emailHmacKey) quarantinedAt expiresAt,
      .ok ()⟩) :
    ∃ mark, Makes D email m mark ∧ mark.Present m.post := by
  have hserve := h.served m hm
  rw [hev] at hserve
  refine ⟨.row _, ⟨rfl, _, _, hev⟩, ?_⟩
  rw [show m.post = _ from hserve.2]
  simp [Mark.Present]

theorem bounce_marks (h : (pool D).Reachable c) {j : Nat} {event : SnsEvent}
    (hj : c.threads[j]? = some ⟨.bounce event, .ret (.bounced (.ok ()))⟩) {message email : String}
    (hmessage : message ∈ event.messages) (haffects : Affects D.rt message email) :
    ∃ m ∈ c.log, m.tid = j ∧ ∃ mark, Makes D email m mark ∧ mark.Present m.post := by
  obtain ⟨es₁, es₂, result, hes, hrun, hret⟩ := Prog.finishes_bind.mp (h.local_run j _ hj)
  simp only [Prog.pure_def, Prog.finishes_ret, Output.bounced.injEq] at hret
  obtain ⟨rfl, rfl⟩ := hret
  rw [List.append_nil] at hes
  obtain ⟨key, hkey, hmarked⟩ := finishes_bounceHandler hrun
  rw [← hes] at hkey hmarked
  rw [served_key h hkey] at hmarked
  rcases hmarked message hmessage email haffects with huser | ⟨quarantinedAt, expiresAt, hrow⟩
  · obtain ⟨m, hm, htid, hev⟩ := mem_localLog.mp huser
    exact ⟨m, hm, htid, makes_user h hm hev⟩
  · obtain ⟨m, hm, htid, hev⟩ := mem_localLog.mp hrow
    exact ⟨m, hm, htid, makes_row h hm hev⟩

/-- Where the user of an address carries the mark, attributes that were
handed out without it are another user's, with another address. -/
theorem unmarked_elsewhere (h : (pool D).Reachable c)
    {l₁ l₂ : List (Entry Request Reply World)} {m e : Entry Request Reply World}
    (hlog : c.log = l₁ ++ m :: l₂) {email raw u userName : String} {attributes : Record}
    (halias : m.pre.aliases (D.rt.toLowerCase email) = some u) (he : e ∈ l₂)
    (hpresent : (Mark.user u).Present e.pre)
    (hev : e.ev = ⟨.userAttributes userName, some attributes⟩)
    (hraw : attributes.lookup "email" = some raw)
    (hfree : attributes.lookup quarantinedAttribute ≠ some "true") :
    D.rt.toLowerCase raw ≠ D.rt.toLowerCase email := by
  intro hsame
  obtain ⟨l₃, l₄, rfl⟩ := List.append_of_mem he
  rw [← List.cons_append, ← List.append_assoc] at hlog
  obtain ⟨d, hd, hdlog, hworld⟩ := h.before _ e l₄ hlog
  have hserve := h.served e (by rw [hlog]; simp)
  rw [hev] at hserve
  obtain ⟨user, huser, rfl⟩ := Option.map_eq_some_iff.mp hserve.1.symm
  rw [← hworld] at huser hpresent
  have hindex := aliases_index hd userName user raw huser hraw
  have hkept := aliases_kept hd m (by rw [hdlog]; simp) _ u halias
  rw [hsame, hkept] at hindex
  obtain ⟨marked, hmarked, hattribute⟩ := hpresent
  rw [Option.some.inj hindex, huser] at hmarked
  cases hmarked
  exact hfree hattribute

/-- The address a user was handed out with is one some user signed up
with. -/
theorem address_signedUp (h : (pool D).Reachable c) {e : Entry Request Reply World}
    (he : e ∈ c.log) {userName raw : String} {attributes : Record}
    (hev : e.ev = ⟨.userAttributes userName, some attributes⟩)
    (hraw : attributes.lookup "email" = some raw) :
    ∃ e' ∈ c.log, ∃ clientId, e'.ev.op = .createUser userName raw clientId := by
  obtain ⟨l₁, l₂, hlog⟩ := List.append_of_mem he
  obtain ⟨d, hd, rfl, hworld⟩ := h.before l₁ e l₂ hlog
  have hserve := h.served e he
  rw [hev] at hserve
  obtain ⟨user, huser, rfl⟩ := Option.map_eq_some_iff.mp hserve.1.symm
  obtain ⟨e', he', email, hop, hemail⟩ :=
    (PoolInv.reachable hd).users userName user (by rw [hworld, huser])
  rw [hraw] at hemail
  cases hemail
  exact ⟨e', by rw [hlog]; exact List.mem_append_left _ he', _, hop⟩

/-- In every run that starts no shared sign-in for a marked user, with
addresses in normal form, the quarantine is honoured. -/
theorem quarantine_honoured (h : (pool D).Reachable c) (hshared : SharedSkipsQuarantined c)
    (hnormal : NormalAddresses D c) : QuarantineHonoured D c := by
  refine ⟨fun j event hj message hmessage email haffects =>
    bounce_marks h hj hmessage haffects, ?_⟩
  intro l₁ m l₂ hlog email mark hmakes i hlater hpresent s hs htid mail hop hsame
  obtain ⟨l₃, l₄, rfl⟩ := List.append_of_mem hs
  have hsplit : c.log = (l₁ ++ [m] ++ l₃) ++ s :: l₄ := by simp [hlog]
  obtain ⟨t, ht, hchecks⟩ := h.asked start_checks _ s l₄ hsplit
  rw [hop, htid, localLog_append, hlater, List.nil_append] at hchecks
  rw [htid] at ht
  obtain ⟨hto, key, hkey, hdeny⟩ := hchecks
  have hmem : ∀ e ∈ l₃, e ∈ c.log := by
    intro e he
    rw [hsplit]
    simp [he]
  cases mark with
  | row k =>
      -- the denylist was read while the row was there
      obtain ⟨hk, -⟩ := hmakes
      have hkey' : key = D.emailHmacKey := by
        apply served_key h (mem_localLog.mpr _)
        · exact i
        · obtain ⟨e, he, hei, hev⟩ := mem_localLog.mp hkey
          exact ⟨e, hmem e he, hei, hev⟩
      obtain ⟨e, he, hei, hev⟩ := mem_localLog.mp hdeny
      have hserve := h.served e (hmem e he)
      rw [hev] at hserve
      have hrow := hpresent e (List.mem_append_left _ he) hei
      rw [hmacEmail, hsame, hkey'] at hserve
      rw [hk] at hrow
      have habsent := hserve.1 false rfl
      exact absurd (habsent.trans hrow) (by decide)
  | user u =>
      obtain ⟨-, halias⟩ := hmakes
      rcases hto with ⟨container, userName, clientId, attributes, hjob, hread, hemail⟩ |
        ⟨userPoolId, userName, attributes, raw, -, hread, hraw, hnormalized, hfree⟩
      · obtain ⟨e, he, hei, hev⟩ := mem_localLog.mp hread
        have hfree := hshared e (hmem e he) t container userName clientId attributes
          (by rw [hei, ht]) hjob hev
        exact unmarked_elsewhere h hlog halias (List.mem_append_left _ he)
          (hpresent e (List.mem_append_left _ he) hei) hev hemail hfree hsame
      · obtain ⟨e, he, hei, hev⟩ := mem_localLog.mp hread
        obtain ⟨e', he', clientId, hop'⟩ := address_signedUp h (hmem e he) hev hraw
        have hcase := hnormal e' he' userName raw clientId mail.toAddress hop' hnormalized
        exact unmarked_elsewhere h hlog halias (List.mem_append_left _ he)
          (hpresent e (List.mem_append_left _ he) hei) hev hraw hfree (hcase.symm.trans hsame)

/-! ## A bounced address -/

/-- `SharedSkipsQuarantined`, over the log. -/
def sharedSkipsQuarantined (c : PoolConfig) : Bool :=
  c.log.all fun e => match e.ev with
    | ⟨.userAttributes _, some attributes⟩ => (c.threads[e.tid]?).all fun t => match t.job with
        | .signIn _ _ _ => attributes.lookup quarantinedAttribute != some "true"
        | _ => true
    | _ => true

theorem sharedSkipsQuarantined_sound (hcheck : sharedSkipsQuarantined c = true) :
    SharedSkipsQuarantined c := by
  intro e he t container userName clientId attributes ht hjob hev
  have hthis := List.all_eq_true.mp hcheck e he
  simpa [hev, ht, hjob] using hthis

/-- `NormalAddresses`, over the log. -/
def normalAddresses (D : Deployment) (c : PoolConfig) : Bool :=
  c.log.all fun e => match e.ev.op with
    | .createUser _ email _ => (normalizeEmail D.rt email).all fun address =>
        D.rt.toLowerCase address == D.rt.toLowerCase email
    | _ => true

theorem normalAddresses_sound (hcheck : normalAddresses D c = true) : NormalAddresses D c := by
  intro e he userName email clientId address hop haddress
  have hthis := List.all_eq_true.mp hcheck e he
  simpa [hop, haddress] using hthis

end Runs

namespace Small

/-- Ann signs up; a message to her and to Bob, who is no user, bounces. -/
def bounced : Schedule :=
  [.drift (.putConfig (row "acme" ["example.com"]))] ++
    invoke 0 (.signUp 1 "user-1" "ann@example.com" "acme-client") 5 ++
    invoke 1 (.bounce ⟨["message"]⟩) 6

/-- The addresses mail was sent to. -/
def mailedTo (c : PoolConfig) : List String :=
  c.log.filterMap fun e => match e.ev.op with
    | .signIn (.sendEmail mail) => some mail.toAddress
    | _ => none

/-- The entry marks Ann. -/
def marksAnn (m : Entry Request Reply World) : Bool :=
  match m.ev with
  | ⟨.quarantineUser email, .ok _⟩ => email == "Ann@Example.com" &&
      m.pre.aliases "ann@example.com" == some "user-1"
  | _ => false

def annMarked (w : World) : Bool :=
  (w.users "user-1").any fun user => user.attributes.lookup quarantinedAttribute == some "true"

def mailsAnn (e : Entry Request Reply World) : Bool :=
  match e.ev.op with
  | .signIn (.sendEmail mail) => mail.toAddress == "ann@example.com"
  | _ => false

/-- From the seventh entry on, which marks Ann: the second invocation mails
her, and the mark is there all the time. -/
def mailsMarkedAnn (c : PoolConfig) : Bool :=
  match c.log.drop 6 with
  | m :: rest => marksAnn m && (c.log.take 6 ++ [m]).all (fun e => e.tid != 2) &&
      rest.all (fun e => e.tid != 2 || annMarked e.pre) && rest.any fun e => e.tid == 2 && mailsAnn e
  | [] => false

end Small

theorem quarantine_honoured_single : ∃ c, (pool Small.deployment).Reachable c ∧
    Small.mailedTo c = ["carl@example.com"] ∧ QuarantineHonoured Small.deployment c := by
  obtain ⟨c, hc, hend⟩ := (interpreter Small.deployment).exists_reachable Small.world_init
    (Small.bounced ++ Small.invoke 2 (.singleCreate "eu-central-1_abc" "user-1") 14 ++
      Small.invoke 3 (.signUp 1 "user-2" "carl@example.com" "acme-client") 3 ++
      Small.invoke 4 (.signIn 1 "user-2" "acme-client") 14)
    (fun c => sharedSkipsQuarantined c && normalAddresses Small.deployment c &&
      Small.mailedTo c == ["carl@example.com"]) (by decide +kernel)
  simp only [Bool.and_eq_true, beq_iff_eq] at hend
  obtain ⟨⟨hshared, hnormal⟩, hmailed⟩ := hend
  exact ⟨c, hc, hmailed, quarantine_honoured hc (sharedSkipsQuarantined_sound hshared)
    (normalAddresses_sound hnormal)⟩

/-- The shared trigger mails a user who carries the attribute. -/
theorem quarantine_honoured_shared : ¬ ∀ (D : Deployment) (c : PoolConfig), (pool D).Reachable c →
    QuarantineHonoured D c := by
  intro hclaim
  obtain ⟨c, hc, hend⟩ := (interpreter Small.deployment).exists_reachable Small.world_init
    (Small.bounced ++ Small.invoke 2 (.signIn 1 "user-1" "acme-client") 14) Small.mailsMarkedAnn
    (by decide +kernel)
  unfold Small.mailsMarkedAnn at hend
  split at hend
  · rename_i m rest hdrop
    simp only [Bool.and_eq_true, List.all_eq_true, List.any_eq_true, beq_iff_eq] at hend
    obtain ⟨⟨⟨hmarks, hearlier⟩, hmarked⟩, s, hs, htid, hmails⟩ := hend
    have hlog : c.log = c.log.take 6 ++ m :: rest := by
      rw [← hdrop, List.take_append_drop]
    have hmakes : Makes Small.deployment "Ann@Example.com" m (.user "user-1") := by
      unfold Small.marksAnn at hmarks
      split at hmarks
      · rename_i email hev
        simp only [Bool.and_eq_true, beq_iff_eq] at hmarks
        obtain ⟨rfl, halias⟩ := hmarks
        exact ⟨hev, halias⟩
      · cases hmarks
    have hlater : localLog (c.log.take 6 ++ [m]) 2 = [] := by
      rw [localLog, List.map_eq_nil_iff, List.filter_eq_nil_iff]
      intro e he
      simpa using hearlier e he
    have hpresent : ∀ e ∈ rest, e.tid = 2 → (Mark.user "user-1").Present e.pre := by
      intro e he hei
      have hthis := hmarked e he
      simp only [hei, bne_self_eq_false, Bool.false_or, Small.annMarked, Option.any_eq_true,
        beq_iff_eq] at hthis
      exact hthis
    unfold Small.mailsAnn at hmails
    split at hmails
    · rename_i mail hop
      refine (hclaim _ c hc).silent _ m rest hlog _ _ hmakes 2 hlater hpresent s hs htid mail hop ?_
      rw [beq_iff_eq.mp hmails]
      decide
    · cases hmails
  · cases hend

end SaasFoundation.Vestibulum.SharedDistribution.Triggers
