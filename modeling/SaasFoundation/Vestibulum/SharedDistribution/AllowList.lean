import SaasFoundation.Vestibulum.SharedDistribution.Pool

/-!
# Who gets a tenant's tokens

The allow-list of a tenant is checked once, by `PreSignUp`, for the client
a user signs up through. A sign-in checks nothing of the kind: an existing
user may start one through any client and is handed that client's tenant.
So the allow-list gates the tokens of users who sign in where they signed
up, and of nobody else.
-/

namespace SaasFoundation.Vestibulum.SharedDistribution.Triggers

open Lib

/-! ## The loader -/

/-- The loader's answer came from an entry that had not expired, or from
the table. -/
def Loaded (past : List (Event Request Reply)) (container : Nat) (clientId : String)
    (row : ClientConfigRow) : Prop :=
  (∃ entry, ∃ now : Int, ⟨.signIn .now, now⟩ ∈ past ∧
    ⟨.cacheGet container clientId, some entry⟩ ∈ past ∧ now < entry.expiresAt ∧
    entry.value = some row) ∨
  ∃ item, ⟨.getClientConfig clientId, .ok (some item)⟩ ∈ past ∧
    row = { item with clientId := clientId }

theorem Loaded.mono {past fs : List (Event Request Reply)} {container : Nat} {clientId : String}
    {row : ClientConfigRow} (h : Loaded past container clientId row) (hsub : ∀ e ∈ past, e ∈ fs) :
    Loaded fs container clientId row := by
  rcases h with ⟨entry, now, hnow, hget, hlive, hvalue⟩ | ⟨item, hitem, hrow⟩
  · exact .inl ⟨entry, now, hsub _ hnow, hsub _ hget, hlive, hvalue⟩
  · exact .inr ⟨item, hsub _ hitem, hrow⟩

theorem parseRow_ok {clientId : String} {item row : ClientConfigRow}
    (h : parseRow clientId item = .ok row) : row = { item with clientId := clientId } := by
  unfold parseRow at h
  split at h
  · cases h
    rfl
  · cases h

section Loader

variable {container : Nat} {clientId : String} {es : List (Event Request Reply)}

theorem finishes_loadAndCache {now : Int} {row : ClientConfigRow}
    (h : (loadAndCache container clientId now).Finishes es (.ok (some row))) :
    ∃ item, ⟨.getClientConfig clientId, .ok (some item)⟩ ∈ es ∧
      row = { item with clientId := clientId } := by
  simp only [loadAndCache, Prog.call_bind, Prog.finishes_ask] at h
  obtain ⟨resp, fs, rfl, h⟩ := h
  rcases resp with e | (_ | item)
  · simp only [Prog.finishes_ask, Prog.pure_def, Prog.finishes_ret] at h
    obtain ⟨_, _, -, -, hout⟩ := h
    cases hout
  · simp only [Prog.finishes_ask, Prog.pure_def, Prog.finishes_ret] at h
    obtain ⟨_, _, -, -, hout⟩ := h
    cases hout
  · cases hparse : parseRow clientId item with
    | error e =>
        simp only [hparse, Except.map, Prog.finishes_ask, Prog.pure_def, Prog.finishes_ret] at h
        obtain ⟨_, _, -, -, hout⟩ := h
        cases hout
    | ok row' =>
        simp only [hparse, Except.map, Prog.finishes_ask, Prog.pure_def, Prog.finishes_ret] at h
        obtain ⟨_, _, -, -, hout⟩ := h
        cases hout
        exact ⟨item, List.mem_cons_self, parseRow_ok hparse⟩

theorem finishes_load {row : ClientConfigRow}
    (h : (loadClientConfigByClientId container clientId).Finishes es (.ok (some row))) :
    Loaded es container clientId row := by
  simp only [loadClientConfigByClientId, Prog.call_bind, Prog.finishes_ask] at h
  obtain ⟨now, _, rfl, entry, fs, rfl, h⟩ := h
  have hmiss : (loadAndCache container clientId now).Finishes fs (.ok (some row)) →
      Loaded (⟨.signIn .now, now⟩ :: ⟨.cacheGet container clientId, entry⟩ :: fs) container
        clientId row := by
    intro hload
    obtain ⟨item, hitem, hrow⟩ := finishes_loadAndCache hload
    exact .inr ⟨item, List.mem_cons_of_mem _ (List.mem_cons_of_mem _ hitem), hrow⟩
  cases entry with
  | none => exact hmiss h
  | some entry =>
      simp only at h
      split at h
      · rename_i hlive
        simp only [Prog.pure_def, Prog.finishes_ret, Except.ok.injEq] at h
        exact .inl ⟨entry, now, List.mem_cons_self, List.mem_cons_of_mem _ List.mem_cons_self,
          hlive, h.2⟩
      · exact hmiss h

end Loader

/-! ## What the flows know when they act -/

/-- An entry is cached for a row that was read; a user is created after the
allow-list was checked; a token is issued to a user, for the tenant that
was loaded. -/
def Knows (D : Deployment) (job : Job) (past : List (Event Request Reply)) : Request → Prop
  | .cacheSet _ clientId (some entry) => ∀ row, entry.value = some row →
      ∃ item, ⟨.getClientConfig clientId, .ok (some item)⟩ ∈ past ∧
        row = { item with clientId := clientId }
  | .createUser userName email clientId =>
      ∃ container row, job = .signUp container userName email clientId ∧
        Loaded past container clientId row ∧
        emailDomain D.rt (some email) ∈ row.allowedEmailDomains
  | .issueToken token =>
      ∃ container attributes row, job = .signIn container token.userName token.clientId ∧
        ⟨.userAttributes token.userName, some attributes⟩ ∈ past ∧
        Loaded past container token.clientId row ∧
        token.claims.lookup tenantIdClaim = some row.tenantId
  | _ => True

section Asks

variable {D : Deployment} {job : Job} {past : List (Event Request Reply)} {container : Nat}
  {clientId : String}

theorem asks_loadAndCache (now : Int) :
    Prog.Asks (Knows D job) past (loadAndCache container clientId now) := by
  simp only [loadAndCache, Prog.call_bind, Prog.asks_ask]
  refine ⟨trivial, fun resp => ?_⟩
  rcases resp with e | (_ | item)
  · exact ⟨trivial, fun _ => trivial⟩
  · exact ⟨(fun row hrow => by cases hrow), fun _ => trivial⟩
  · cases hparse : parseRow clientId item with
    | error e =>
        simp only [hparse, Except.map]
        exact ⟨trivial, fun _ => trivial⟩
    | ok row =>
        simp only [hparse, Except.map]
        refine ⟨?_, fun _ => trivial⟩
        intro row' hrow'
        cases hrow'
        exact ⟨item, List.mem_append_right _ List.mem_cons_self, parseRow_ok hparse⟩

theorem asks_load : Prog.Asks (Knows D job) past (loadClientConfigByClientId container clientId) := by
  simp only [loadClientConfigByClientId, Prog.call_bind, Prog.asks_ask]
  refine ⟨trivial, fun now => ⟨trivial, fun entry => ?_⟩⟩
  cases entry with
  | none => exact asks_loadAndCache now
  | some entry =>
      simp only
      split
      · trivial
      · exact asks_loadAndCache now

theorem asks_preSignUp {event : PreSignUpEvent} :
    Prog.Asks (Knows D job) past (preSignUp D.rt container event) := by
  refine asks_load.bind fun es loaded _ => ?_
  split
  · trivial
  · trivial
  · simp only
    split <;> trivial

theorem finishes_preSignUp {event : PreSignUpEvent} {es : List (Event Request Reply)}
    (h : (preSignUp D.rt container event).Finishes es (.ok ())) :
    ∃ row, Loaded es container event.clientId row ∧
      emailDomain D.rt event.email ∈ row.allowedEmailDomains := by
  obtain ⟨es₁, es₂, loaded, rfl, hload, h⟩ := Prog.finishes_bind.mp h
  split at h
  · simp only [Prog.pure_def, Prog.finishes_ret] at h
    cases h.2
  · simp only [Prog.pure_def, Prog.finishes_ret] at h
    cases h.2
  · rename_i row
    simp only at h
    split at h
    · simp only [Prog.pure_def, Prog.finishes_ret] at h
      cases h.2
    · rename_i hallowed
      refine ⟨row, (finishes_load hload).mono fun e he => List.mem_append_left _ he, ?_⟩
      simp only [Bool.or_eq_true, Bool.not_eq_true', not_or, Bool.not_eq_false,
        List.contains_eq_mem, decide_eq_true_eq] at hallowed
      exact hallowed.2

/-- A request nothing has to be known for. -/
def Request.isPlain : Request → Prop
  | .cacheSet _ _ _ => False
  | .createUser _ _ _ => False
  | .issueToken _ => False
  | _ => True

theorem Request.isPlain.knows {op : Request} (h : op.isPlain) : Knows D job past op := by
  cases op with
  | cacheSet _ _ _ => cases h
  | createUser _ _ _ => cases h
  | issueToken _ => cases h
  | _ => trivial

theorem singleTenant_plain {α : Type} (p : SignIn.Handler α) : (singleTenant p).Uses Request.isPlain := by
  refine (@Prog.uses_embed _ _ Reply _ Request.signIn p).mono ?_
  rintro op ⟨o, rfl⟩
  trivial

theorem storeAndSend_plain (rt : Runtime) (cfg : CreateConfig) (siteBaseUrl : String) (now : Int)
    (email hmacKey : String) :
    (storeAndSend rt cfg siteBaseUrl now email hmacKey).Uses Request.isPlain := by
  simp only [storeAndSend, Prog.call_bind, Prog.uses_ask]
  refine ⟨trivial, fun token => ⟨trivial, fun stored => ?_⟩⟩
  split
  · trivial
  · simp only [Prog.uses_ask]
    refine ⟨trivial, fun sent => ?_⟩
    split <;> trivial

theorem limitAndSend_plain (rt : Runtime) (cfg : CreateConfig) (siteBaseUrl : String) (now : Int)
    (email hmacKey : String) :
    (limitAndSend rt cfg siteBaseUrl now email hmacKey).Uses Request.isPlain := by
  refine (singleTenant_plain _).bind fun allowed => ?_
  split
  · trivial
  · trivial
  · exact storeAndSend_plain _ _ _ _ _ _

theorem checkAndSend_plain (rt : Runtime) (cfg : CreateConfig) (siteBaseUrl : String) (now : Int)
    (email hmacKey : String) :
    (checkAndSend rt cfg siteBaseUrl now email hmacKey).Uses Request.isPlain := by
  unfold checkAndSend
  split
  · trivial
  · simp only [Prog.call_bind, Prog.uses_ask]
    refine ⟨trivial, fun denylisted => ?_⟩
    split
    · trivial
    · trivial
    · trivial
    · exact limitAndSend_plain _ _ _ _ _ _

theorem asks_createAuthChallenge {event : CreateAuthChallengeEvent} :
    Prog.Asks (Knows D job) past (createAuthChallenge D.rt D.sharedEnv container event) := by
  refine asks_load.bind fun es loaded _ => ?_
  split
  · trivial
  · trivial
  · simp only
    split
    · trivial
    · split
      · trivial
      · simp only [Prog.call_bind, Prog.asks_ask]
        refine ⟨trivial, fun now => ⟨trivial, fun key => ?_⟩⟩
        split
        · trivial
        · exact (checkAndSend_plain _ _ _ _ _ _).asks fun _ _ hop => hop.knows

theorem asks_tokenFlow {userName : String} {attributes : Record}
    (hattributes : ⟨.userAttributes userName, some attributes⟩ ∈ past) :
    Prog.Asks (Knows D (.signIn container userName clientId)) past
      (tokenFlow D container userName clientId attributes) := by
  have hwrap : Prog.Asks (Knows D (.signIn container userName clientId)) past
      (wrapPreTokenHandler D.inner container ⟨.v1, userName, clientId, attributes, none⟩) :=
    asks_load.bind fun _ _ _ => trivial
  refine hwrap.bind fun es result hrun => ?_
  cases result with
  | error e => trivial
  | ok event =>
      obtain ⟨loaded, hload, hok⟩ := finishes_wrapPreTokenHandler.mp hrun
      obtain ⟨row, rfl, hcheck⟩ := wrapLoaded_ok hok
      refine ⟨?_, fun _ => trivial⟩
      exact ⟨container, attributes, row, rfl, List.mem_append_left _ hattributes,
        (finishes_load hload).mono fun e he => List.mem_append_right _ he,
        mintIdToken_v1 _ hcheck⟩

theorem asks_signInFlow {userName : String} :
    Prog.Asks (Knows D (.signIn container userName clientId)) []
      (signInFlow D container userName clientId) := by
  simp only [signInFlow, Prog.call_bind, Prog.asks_ask]
  refine ⟨trivial, fun attributes => ?_⟩
  cases attributes with
  | none => trivial
  | some attributes =>
      refine asks_createAuthChallenge.bind fun es issued _ => ?_
      cases issued with
      | error e => trivial
      | ok response =>
          simp only [Prog.call_bind, Prog.asks_ask]
          refine ⟨trivial, fun correct => ?_⟩
          split
          · exact asks_tokenFlow (by simp)
          · trivial

theorem asks_signUpFlow {userName email : String} :
    Prog.Asks (Knows D (.signUp container userName email clientId)) []
      (signUpFlow D container userName email clientId) := by
  refine asks_preSignUp.bind fun es allowed hrun => ?_
  cases allowed with
  | error e => trivial
  | ok u =>
      refine ⟨?_, fun _ => trivial⟩
      obtain ⟨row, hloaded, hdomain⟩ := finishes_preSignUp hrun
      exact ⟨container, row, rfl, hloaded, hdomain⟩

theorem Request.ofBounce.isPlain {op : Request} (h : op.ofBounce) : op.isPlain := by
  cases op with
  | cacheSet _ _ _ | createUser _ _ _ | issueToken _ => exact h
  | _ => trivial

theorem start_knows (job : Job) : Prog.Asks (Knows D job) [] (start D job) := by
  cases job with
  | signUp container userName email clientId => exact asks_signUpFlow
  | signIn container userName clientId => exact asks_signInFlow
  | singleCreate userPoolId userName =>
      have huses : (singleFlow D userPoolId userName).Uses Request.isPlain :=
        ⟨trivial, fun attributes => (singleTenant_plain _).bind fun _ => trivial⟩
      exact huses.asks fun _ _ hop => hop.knows
  | bounce event =>
      have huses : (bounceFlow D event).Uses Request.ofBounce :=
        (bounceHandler_uses _ _ _).bind fun _ => trivial
      exact huses.asks fun _ _ hop => hop.isPlain.knows

end Asks

/-! ## The invariant holds -/

section Invariant

variable {D : Deployment} {c : PoolConfig}

theorem Change.tables {w w' : World} {op : Request} (h : Change D w op w') :
    w'.tables = w.tables := by
  cases h <;> rfl

/-- One user, before and after: the address and the sign-up stay. -/
def SameUser (old user : PoolUser) : Prop :=
  user.signUpClient = old.signUpClient ∧
    user.attributes.lookup "email" = old.attributes.lookup "email"

theorem SameUser.refl (user : PoolUser) : SameUser user user := ⟨rfl, rfl⟩

theorem SameUser.trans {a b d : PoolUser} (h : SameUser a b) (h' : SameUser b d) : SameUser a d :=
  ⟨h'.1.trans h.1, h'.2.trans h.2⟩

theorem SameUser.set (user : PoolUser) {name : String} (value : String) (hname : name ≠ "email") :
    SameUser user (user.set name value) :=
  ⟨rfl, (lookup_setField _ _ _ _).trans (if_neg (Ne.symm hname))⟩

/-- A user that is there was there, or has just been created. -/
theorem Change.users {w w' : World} {op : Request} (h : Change D w op w') {u : String}
    {user : PoolUser} (huser : w'.users u = some user) :
    (∃ old, w.users u = some old ∧ SameUser old user) ∨
    ∃ email, op = .createUser u email user.signUpClient ∧
      user.attributes.lookup "email" = some email := by
  cases h with
  | createUser _ _ =>
      rcases Table.put_some huser with ⟨rfl, rfl⟩ | ⟨-, hold⟩
      · exact .inr ⟨_, rfl, rfl⟩
      · exact .inl ⟨user, hold, .refl user⟩
  | @quarantine email userName marked _ hmarked =>
      rcases Table.put_some huser with ⟨rfl, rfl⟩ | ⟨-, hold⟩
      · exact .inl ⟨marked, hmarked, .set marked _ (by decide)⟩
      · exact .inl ⟨user, hold, .refl user⟩
  | _ => exact .inl ⟨user, huser, .refl user⟩

/-- Writing one user keeps all of them. -/
theorem keepsUsers_put {users : Table String PoolUser} {userName u : String} {user new old : PoolUser}
    (huser : users userName = some user) (hsame : SameUser user new) (hold : users u = some old) :
    ∃ user', users.put userName new u = some user' ∧ SameUser old user' := by
  by_cases hu : u = userName
  · subst hu
    rw [huser] at hold
    cases hold
    exact ⟨new, Table.put_self _ _ _, hsame⟩
  · exact ⟨old, by rw [Table.put_of_ne _ _ hu, hold], .refl old⟩

theorem Change.keepsUsers {w w' : World} {op : Request} (h : Change D w op w') {u : String}
    {old : PoolUser} (hold : w.users u = some old) :
    ∃ user, w'.users u = some user ∧ SameUser old user := by
  cases h with
  | createUser hfree _ => exact ⟨old, Table.put_keeps _ hfree hold, .refl old⟩
  | quarantine _ hmarked => exact keepsUsers_put hmarked (.set _ _ (by decide)) hold
  | _ => exact ⟨old, hold, .refl old⟩

theorem drift_keepsUsers {w w' : World} {m : Move} (h : drift w w' m) {u : String} {old : PoolUser}
    (hold : w.users u = some old) : ∃ user, w'.users u = some user ∧ SameUser old user := by
  cases m with
  | putConfig row =>
      obtain ⟨-, rfl⟩ := h
      exact ⟨old, hold, .refl old⟩
  | deleteConfig _ | removeDenylist _ =>
      rw [show w' = _ from h]
      exact ⟨old, hold, .refl old⟩
  | setAttribute userName name value =>
      obtain ⟨hname, user, huser, rfl⟩ := h
      exact keepsUsers_put huser (.set _ _ hname) hold

/-- Whoever was in the pool when a request was served still is. -/
theorem users_kept (h : (pool D).Reachable c) : ∀ e ∈ c.log, ∀ u old, e.pre.users u = some old →
    ∃ user, c.world.users u = some user ∧ SameUser old user := by
  induction h with
  | init _ => simp
  | @step c d _ hs ih =>
      cases hs with
      | spawn _ => exact ih
      | @request i job op k r w _ hserve =>
          intro e he u old hold
          have hlater : ∃ user, c.world.users u = some user ∧ SameUser old user := by
            rcases List.mem_append.mp he with he | he
            · exact ih e he u old hold
            · rw [List.mem_singleton.mp he] at hold
              exact ⟨old, hold, .refl old⟩
          obtain ⟨user, huser, hsame⟩ := hlater
          obtain ⟨user', huser', hsame'⟩ := (serve_change hserve).keepsUsers huser
          exact ⟨user', huser', hsame.trans hsame'⟩
      | drift hd =>
          obtain ⟨m, hm⟩ := hd
          intro e he u old hold
          obtain ⟨user, huser, hsame⟩ := ih e he u old hold
          obtain ⟨user', huser', hsame'⟩ := drift_keepsUsers hm huser
          exact ⟨user', huser', hsame.trans hsame'⟩

/-- A cached row was cached before, or by this request. -/
theorem Change.caches {w w' : World} {op : Request} (h : Change D w op w') {key : Nat × String}
    {entry : CacheEntry} (hentry : w'.caches key = some entry) :
    w.caches key = some entry ∨ op = .cacheSet key.1 key.2 (some entry) := by
  cases h with
  | evict => exact .inl (Table.erase_some hentry).2
  | keep =>
      rcases Table.put_some hentry with ⟨rfl, rfl⟩ | ⟨-, hold⟩
      · exact .inr rfl
      · exact .inl hold
  | _ => exact .inl hentry

theorem PoolInv.init {w : World} (h : (pool D).init w) : PoolInv ⟨w, [], []⟩ := by
  obtain ⟨hconfigs, hpast, hcaches, husers, -⟩ := h
  have htables : w.tables = [Table.empty] := by rw [World.tables, hconfigs, hpast]
  constructor
  · intro key entry row hentry
    rw [hcaches] at hentry
    cases hentry
  · intro table htable k row hrow
    rw [htables, List.mem_singleton] at htable
    rw [htable] at hrow
    cases hrow
  · intro table htable _ _ k row _ hrow
    rw [htables, List.mem_singleton] at htable
    rw [htable] at hrow
    cases hrow
  · intro u user huser
    rw [husers] at huser
    cases huser
  · simp

theorem PoolInv.request {i : Nat} {job : Job} {op : Request} {r : Reply op} {w : World}
    {threads : List (Thread Request Reply Job Output)} (hc : (pool D).Reachable c)
    (hinv : PoolInv c) (hknows : Knows D job (localLog c.log i) op)
    (hserve : serve D c.world op r w) :
    PoolInv ⟨w, threads, c.log ++ [⟨i, c.world, ⟨op, r⟩, w⟩]⟩ := by
  have hchange := serve_change hserve
  have htables := hchange.tables
  constructor
  · intro key entry row hentry hvalue
    simp only [htables]
    rcases hchange.caches hentry with hold | rfl
    · exact hinv.cached key entry row hold hvalue
    · -- the thread read the row it caches, from a table there still is
      obtain ⟨item, hitem, hrow⟩ := hknows row hvalue
      obtain ⟨e, he, -, hev⟩ := mem_localLog.mp hitem
      have hread := hc.served e he
      rw [hev] at hread
      obtain ⟨table, htable, heq⟩ := hread.1 _ rfl
      exact ⟨table, hinv.past e he table htable, item, heq.symm, hrow⟩
  · simp only [htables]
    exact hinv.keyed
  · simp only [htables]
    exact hinv.tenant
  · intro u user huser
    rcases hchange.users huser with ⟨old, hold, hclient, hemail⟩ | ⟨email, rfl, hemail⟩
    · obtain ⟨e, he, email, hop, holdEmail⟩ := hinv.users u old hold
      rw [hclient, hemail]
      exact ⟨e, List.mem_append_left _ he, email, hop, holdEmail⟩
    · exact ⟨_, List.mem_append_right _ List.mem_cons_self, email, rfl, hemail⟩
  · intro e he
    simp only [htables]
    rcases List.mem_append.mp he with he | he
    · exact hinv.past e he
    · rw [List.mem_singleton.mp he]
      exact fun table htable => htable

/-- A new table whose rows are filed under their ids, each with the tenant
its client has had. -/
theorem PoolInv.setConfigs {configs : Table String ClientConfigRow} (hinv : PoolInv c)
    (hkeyed : ∀ k row, configs k = some row → row.clientId = k)
    (htenant : ∀ k row, configs k = some row → ∀ table ∈ c.world.tables, ∀ old,
      table k = some old → old.tenantId = row.tenantId) :
    PoolInv { c with world := c.world.setConfigs configs } := by
  have htables : ∀ table, table ∈ (c.world.setConfigs configs).tables ↔
      table = configs ∨ table ∈ c.world.tables := fun table => List.mem_cons
  constructor
  · intro key entry row hentry hvalue
    obtain ⟨table, htable, hrow⟩ := hinv.cached key entry row hentry hvalue
    exact ⟨table, (htables table).mpr (.inr htable), hrow⟩
  · intro table htable k row hrow
    rcases (htables table).mp htable with rfl | htable
    · exact hkeyed k row hrow
    · exact hinv.keyed table htable k row hrow
  · intro table htable table' htable' k row row' hrow hrow'
    rcases (htables table).mp htable with rfl | hold <;>
      rcases (htables table').mp htable' with rfl | hold'
    · rw [hrow] at hrow'
      rw [Option.some.inj hrow']
    · exact (htenant k row hrow table' hold' row' hrow').symm
    · exact htenant k row' hrow' table hold row hrow
    · exact hinv.tenant table hold table' hold' k row row' hrow hrow'
  · exact hinv.users
  · intro e he table htable
    exact (htables table).mpr (.inr (hinv.past e he table htable))

theorem PoolInv.drift {w : World} {m : Move} (hinv : PoolInv c)
    (hd : Triggers.drift c.world w m) : PoolInv { c with world := w } := by
  cases m with
  | putConfig row =>
      obtain ⟨hkeeps, rfl⟩ := hd
      apply hinv.setConfigs
      · intro k row' hrow'
        rcases Table.put_some hrow' with ⟨rfl, rfl⟩ | ⟨-, hrow'⟩
        · rfl
        · exact hinv.keyed _ List.mem_cons_self k row' hrow'
      · intro k row' hrow' table htable old hold
        rcases Table.put_some hrow' with ⟨rfl, rfl⟩ | ⟨-, hrow'⟩
        · exact hkeeps table htable old hold
        · exact hinv.tenant table htable _ List.mem_cons_self k old row' hold hrow'
  | deleteConfig clientId =>
      rw [show w = _ from hd]
      apply hinv.setConfigs
      · intro k row hrow
        exact hinv.keyed _ List.mem_cons_self k row (Table.erase_some hrow).2
      · intro k row hrow table htable old hold
        exact hinv.tenant table htable _ List.mem_cons_self k old row hold
          (Table.erase_some hrow).2
  | removeDenylist k =>
      rw [show w = _ from hd]
      exact ⟨hinv.cached, hinv.keyed, hinv.tenant, hinv.users, hinv.past⟩
  | setAttribute userName name value =>
      obtain ⟨hname, user, huser, rfl⟩ := hd
      refine ⟨hinv.cached, hinv.keyed, hinv.tenant, ?_, hinv.past⟩
      intro u user' huser'
      rcases Table.put_some huser' with ⟨rfl, rfl⟩ | ⟨-, hold⟩
      · obtain ⟨e, he, email, hop, hemail⟩ := hinv.users _ user huser
        refine ⟨e, he, email, hop, ?_⟩
        rw [← hemail]
        exact (lookup_setField _ _ _ _).trans (if_neg (Ne.symm hname))
      · exact hinv.users u user' hold

theorem PoolInv.reachable (h : (pool D).Reachable c) : PoolInv c := by
  induction h with
  | init hw => exact PoolInv.init hw
  | @step c d hc hs ih =>
      cases hs with
      | spawn _ => exact ⟨ih.cached, ih.keyed, ih.tenant, ih.users, ih.past⟩
      | @request i job op k r w hi hserve =>
          have hknows := (start_knows job).runs (hc.local_run i _ hi)
          rw [List.nil_append] at hknows
          exact ih.request hc hknows hserve
      | drift hd =>
          obtain ⟨m, hm⟩ := hd
          exact ih.drift hm

/-! ## Tokens and allow-lists -/

/-- The client is the tenant's and admits the address, by the table as it
is. -/
def AdmittedIn (D : Deployment) (w : World) (clientId tenantId email : String) : Prop :=
  ∃ row, w.configs clientId = some row ∧ row.tenantId = tenantId ∧
    emailDomain D.rt (some email) ∈ row.allowedEmailDomains

/-- Thread `i` created the user. -/
def SignedUpBy (c : PoolConfig) (userName : String) (i : Nat) : Prop :=
  ∃ e ∈ c.log, e.tid = i ∧ ∃ email clientId, e.ev.op = .createUser userName email clientId

/-- A token of a tenant was issued to a user whose address the tenant's
allow-list admitted, at some moment of the user's sign-up or of the
sign-in. -/
def AllowListGated (D : Deployment) (c : PoolConfig) : Prop :=
  ∀ e ∈ c.log, ∀ token tenantId, e.ev.op = .issueToken token →
    token.claims.lookup tenantIdClaim = some tenantId →
    ∃ user email, e.pre.users token.userName = some user ∧
      user.attributes.lookup "email" = some email ∧
      ∃ e' ∈ c.log, (SignedUpBy c token.userName e'.tid ∨ e'.tid = e.tid) ∧
        AdmittedIn D e'.pre token.clientId tenantId email

/-- Every sign-in is started through the client the user signed up through,
or through one whose allow-list admits the user's address. -/
def SignsInWhereAdmitted (D : Deployment) (c : PoolConfig) : Prop :=
  ∀ e ∈ c.log, ∀ t container userName clientId user email, c.threads[e.tid]? = some t →
    t.job = .signIn container userName clientId → e.ev.op = .userAttributes userName →
    e.pre.users userName = some user → user.attributes.lookup "email" = some email →
    user.signUpClient = clientId ∨ ∃ row, e.pre.configs clientId = some row ∧
      emailDomain D.rt (some email) ∈ row.allowedEmailDomains

/-- The row a sign-up is decided on, from the cache or the table, is the
row as it is in the table then. -/
def SignsUpOnCurrentRow (c : PoolConfig) : Prop :=
  ∀ e ∈ c.log, ∀ t container userName email clientId, c.threads[e.tid]? = some t →
    t.job = .signUp container userName email clientId →
    (∀ entry row, ∀ now : Int, e.ev = ⟨.cacheGet container clientId, some entry⟩ →
      ⟨.signIn .now, now⟩ ∈ localLog c.log e.tid → now < entry.expiresAt →
      entry.value = some row → e.pre.configs clientId = some row) ∧
    ∀ row, e.ev = ⟨.getClientConfig clientId, .ok (some row)⟩ → e.pre.configs clientId = some row

/-- What a thread has loaded is a row some table of the past has. -/
theorem Loaded.item (h : (pool D).Reachable c) {i container : Nat} {clientId : String}
    {row : ClientConfigRow} (hload : Loaded (localLog c.log i) container clientId row) :
    ∃ table ∈ c.world.tables, ∃ item, table clientId = some item ∧
      row = { item with clientId := clientId } := by
  have hinv := PoolInv.reachable h
  rcases hload with ⟨entry, now, -, hget, -, hvalue⟩ | ⟨item, hget, hrow⟩
  · obtain ⟨e, he, -, hev⟩ := mem_localLog.mp hget
    have hserve := h.served e he
    rw [hev] at hserve
    obtain ⟨l₁, l₂, hlog⟩ := List.append_of_mem he
    obtain ⟨d, hd, -, hworld⟩ := h.before l₁ e l₂ hlog
    have hentry : d.world.caches (container, clientId) = some entry := by
      rw [hworld]
      exact hserve.1.symm
    obtain ⟨table, htable, hitem⟩ := (PoolInv.reachable hd).cached _ entry row hentry hvalue
    rw [hworld] at htable
    exact ⟨table, hinv.past e he table htable, hitem⟩
  · obtain ⟨e, he, -, hev⟩ := mem_localLog.mp hget
    have hserve := h.served e he
    rw [hev] at hserve
    obtain ⟨table, htable, heq⟩ := hserve.1 _ rfl
    exact ⟨table, hinv.past e he table htable, item, heq.symm, hrow⟩

theorem SignsUpOnCurrentRow.loaded (hcurrent : SignsUpOnCurrentRow c) {i container : Nat}
    {t : Thread Request Reply Job Output} {userName email clientId : String}
    {row : ClientConfigRow} (ht : c.threads[i]? = some t)
    (hjob : t.job = .signUp container userName email clientId)
    (hload : Loaded (localLog c.log i) container clientId row) :
    ∃ e ∈ c.log, e.tid = i ∧ ∃ item, e.pre.configs clientId = some item ∧
      row.allowedEmailDomains = item.allowedEmailDomains := by
  rcases hload with ⟨entry, now, hnow, hget, hlive, hvalue⟩ | ⟨item, hget, hrow⟩
  · obtain ⟨e, he, htid, hev⟩ := mem_localLog.mp hget
    subst htid
    have hcached := (hcurrent e he t container userName email clientId ht hjob).1
    exact ⟨e, he, rfl, row, hcached entry row now hev hnow hlive hvalue, rfl⟩
  · obtain ⟨e, he, htid, hev⟩ := mem_localLog.mp hget
    subst htid
    have hread := (hcurrent e he t container userName email clientId ht hjob).2
    exact ⟨e, he, rfl, item, hread item hev, by rw [hrow]⟩

theorem localLog_subset {l₁ l₂ : List (Entry Request Reply World)} {i : Nat} :
    ∀ ev ∈ localLog l₁ i, ev ∈ localLog (l₁ ++ l₂) i := by
  intro ev hev
  rw [localLog_append]
  exact List.mem_append_left _ hev

/-- A user created through a client was admitted by it when it signed up. -/
theorem signUp_admitted (h : (pool D).Reachable c) (hcurrent : SignsUpOnCurrentRow c)
    {e : Entry Request Reply World} (he : e ∈ c.log) {userName email clientId : String}
    (hop : e.ev.op = .createUser userName email clientId) :
    ∃ e' ∈ c.log, e'.tid = e.tid ∧ ∃ item, e'.pre.configs clientId = some item ∧
      emailDomain D.rt (some email) ∈ item.allowedEmailDomains := by
  obtain ⟨l₁, l₂, hlog⟩ := List.append_of_mem he
  obtain ⟨t, ht, hknows⟩ := h.asked start_knows l₁ e l₂ hlog
  rw [hop] at hknows
  obtain ⟨container, row, hjob, hload, hdomain⟩ := hknows
  have hload' : Loaded (localLog c.log e.tid) container clientId row := by
    rw [hlog]
    exact hload.mono localLog_subset
  obtain ⟨e', he', htid, item, hitem, hallowed⟩ := hcurrent.loaded ht hjob hload'
  exact ⟨e', he', htid, item, hitem, by rwa [← hallowed]⟩

/-- In every run whose sign-ins are started where the user is admitted or
signed up, and whose sign-ups are decided on current rows, the allow-list
gates the tokens. -/
theorem allowList_gated (h : (pool D).Reachable c) (hwhere : SignsInWhereAdmitted D c)
    (hcurrent : SignsUpOnCurrentRow c) : AllowListGated D c := by
  have hinv := PoolInv.reachable h
  intro e he token tenantId hop htenant
  obtain ⟨l₁, l₂, hlog⟩ := List.append_of_mem he
  obtain ⟨t, ht, hknows⟩ := h.asked start_knows l₁ e l₂ hlog
  rw [hop] at hknows
  obtain ⟨container, attributes, row, hjob, hattributes, hload, hclaim⟩ := hknows
  have hmem : ∀ x ∈ l₁, x ∈ c.log := by
    intro x hx
    rw [hlog]
    exact List.mem_append_left _ hx
  obtain ⟨d, hd, rfl, hworld⟩ := h.before l₁ e l₂ hlog
  -- the token's tenant is the one the client has always had
  have hsameTenant : ∀ x ∈ c.log, ∀ item, x.pre.configs token.clientId = some item →
      item.tenantId = tenantId := by
    intro x hx item hitem
    obtain ⟨table, htable, loaded, hloaded, rfl⟩ := Loaded.item hd hload
    rw [hworld] at htable
    rw [htenant, Option.some.injEq] at hclaim
    rw [hclaim]
    exact hinv.tenant _ (hinv.past x hx _ List.mem_cons_self) _ (hinv.past e he table htable) _
      item loaded hitem hloaded
  -- the user, when the sign-in began and now
  obtain ⟨e₁, he₁, htid₁, hev₁⟩ := mem_localLog.mp hattributes
  have hserve₁ := h.served e₁ (hmem e₁ he₁)
  rw [hev₁] at hserve₁
  obtain ⟨old, hold, -⟩ := Option.map_eq_some_iff.mp hserve₁.1.symm
  obtain ⟨l₃, l₄, hlog₁⟩ := List.append_of_mem he₁
  obtain ⟨d₁, hd₁, rfl, hworld₁⟩ := hd.before l₃ e₁ l₄ hlog₁
  obtain ⟨e₂, he₂, email, hop₂, hemail⟩ := (PoolInv.reachable hd₁).users _ old (by rw [hworld₁, hold])
  obtain ⟨user, huser, hsame⟩ := users_kept hd e₁ he₁ _ old hold
  refine ⟨user, email, by rwa [hworld] at huser, hsame.2.trans hemail, ?_⟩
  have he₂' : e₂ ∈ c.log := hmem e₂ (by rw [hlog₁]; exact List.mem_append_left _ he₂)
  have hop₁ : e₁.ev.op = .userAttributes token.userName := by rw [hev₁]
  rcases hwhere e₁ (hmem e₁ he₁) t container _ _ old email (by rw [htid₁, ht]) hjob hop₁ hold
    hemail with hclient | ⟨item, hitem, hdomain⟩
  · rw [hclient] at hop₂
    obtain ⟨e₃, he₃, htid₃, item, hitem, hdomain⟩ := signUp_admitted h hcurrent he₂' hop₂
    refine ⟨e₃, he₃, .inl ⟨e₂, he₂', htid₃.symm, email, _, hop₂⟩, ?_⟩
    exact ⟨item, hitem, hsameTenant e₃ he₃ item hitem, hdomain⟩
  · refine ⟨e₁, hmem e₁ he₁, .inr htid₁, ?_⟩
    exact ⟨item, hitem, hsameTenant e₁ (hmem e₁ he₁) item hitem, hdomain⟩

/-! ## A user of two tenants -/

/-- `SignsInWhereAdmitted`, over the log. -/
def signsInWhereAdmitted (D : Deployment) (c : PoolConfig) : Bool :=
  c.log.all fun e => (c.threads[e.tid]?).all fun t => match t.job with
    | .signIn _ userName clientId =>
        e.ev.op != .userAttributes userName || (e.pre.users userName).all fun user =>
          (user.attributes.lookup "email").all fun email => user.signUpClient == clientId ||
            (e.pre.configs clientId).any fun row =>
              row.allowedEmailDomains.contains (emailDomain D.rt (some email))
    | _ => true

theorem signsInWhereAdmitted_sound (hcheck : signsInWhereAdmitted D c = true) :
    SignsInWhereAdmitted D c := by
  intro e he t container userName clientId user email ht hjob hop huser hemail
  have hall := List.all_eq_true.mp hcheck e he
  rw [ht, Option.all_some, hjob] at hall
  simp only [hop, bne_self_eq_false, Bool.false_or, huser, Option.all_some, hemail,
    Bool.or_eq_true, beq_iff_eq, Option.any_eq_true, List.contains_eq_mem, decide_eq_true_eq]
    at hall
  exact hall

/-- The row a thread was given, and what the table has under its id. -/
def readsCurrentRow (e : Entry Request Reply World) : Bool :=
  match e.ev with
  | ⟨.cacheGet _ clientId, some entry⟩ => entry.value.all fun row =>
      e.pre.configs clientId == some row
  | ⟨.getClientConfig clientId, .ok (some row)⟩ => e.pre.configs clientId == some row
  | _ => true

theorem readsCurrentRow_sound (hcheck : c.log.all readsCurrentRow = true) :
    SignsUpOnCurrentRow c := by
  intro e he t container userName email clientId _ _
  have hthis := List.all_eq_true.mp hcheck e he
  constructor
  · intro entry row now hev _ _ hvalue
    simpa [readsCurrentRow, hev, hvalue] using hthis
  · intro row hev
    simpa [readsCurrentRow, hev] using hthis

/-- To whom tokens were issued, through which client, with which tenant
id. -/
def issuedTokens (c : PoolConfig) : List (String × String × Option String) :=
  c.log.filterMap fun e => match e.ev.op with
    | .issueToken token =>
        some (token.userName, token.clientId, token.claims.lookup tenantIdClaim)
    | _ => none

end Invariant

namespace Small

/-- The user signs up with `acme`, then in with both tenants. -/
def bothTenants (acmeDomains betaDomains : List String) : Schedule :=
  [.drift (.putConfig (row "acme" acmeDomains)), .drift (.putConfig (row "beta" betaDomains))] ++
    invoke 0 (.signUp 1 "ann@example.com" "ann@example.com" "acme-client") 5 ++
    invoke 1 (.signIn 1 "ann@example.com" "acme-client") 14 ++
    invoke 2 (.signIn 1 "ann@example.com" "beta-client") 16

end Small

theorem allowList_gated_both : ∃ c, (pool Small.deployment).Reachable c ∧
    issuedTokens c = [("ann@example.com", "acme-client", some "acme"),
      ("ann@example.com", "beta-client", some "beta")] ∧ AllowListGated Small.deployment c := by
  obtain ⟨c, hc, hend⟩ := (interpreter Small.deployment).exists_reachable Small.world_init
    (Small.bothTenants ["example.com"] ["beta.com", "example.com"])
    (fun c => signsInWhereAdmitted Small.deployment c && c.log.all readsCurrentRow &&
      issuedTokens c == [("ann@example.com", "acme-client", some "acme"),
        ("ann@example.com", "beta-client", some "beta")]) (by decide +kernel)
  simp only [Bool.and_eq_true, beq_iff_eq] at hend
  obtain ⟨⟨hwhere, hcurrent⟩, htokens⟩ := hend
  exact ⟨c, hc, htokens, allowList_gated hc (signsInWhereAdmitted_sound hwhere)
    (readsCurrentRow_sound hcurrent)⟩

/-- A token of `beta` for Ann. -/
def Small.isBetaToken (e : Entry Request Reply World) : Bool :=
  match e.ev.op with
  | .issueToken token => token.clientId == "beta-client" &&
      token.claims.lookup tenantIdClaim == some "beta" &&
      (e.pre.users token.userName).map PoolUser.attributes == some [("email", "ann@example.com")]
  | _ => false

/-- Nobody of `example.com` may sign up with `beta`, and the user signs in
there all the same. -/
theorem allowList_gated_crossed : ¬ ∀ (D : Deployment) (c : PoolConfig), (pool D).Reachable c →
    AllowListGated D c := by
  intro hclaim
  obtain ⟨c, hc, hend⟩ := (interpreter Small.deployment).exists_reachable Small.world_init
    (Small.bothTenants ["example.com"] ["beta.com"])
    (fun c => c.log.any Small.isBetaToken && c.log.all fun e => (e.pre.configs "beta-client").all
      fun row => row.allowedEmailDomains == ["beta.com"]) (by decide +kernel)
  simp only [Bool.and_eq_true, List.any_eq_true] at hend
  obtain ⟨⟨e, he, htoken⟩, hrows⟩ := hend
  unfold Small.isBetaToken at htoken
  split at htoken
  · rename_i token hop
    simp only [Bool.and_eq_true, beq_iff_eq] at htoken
    obtain ⟨⟨hclient, htenant⟩, hattributes⟩ := htoken
    obtain ⟨user, email, huser, hemail, e', he', -, row, hrow, -, hdomain⟩ :=
      hclaim _ c hc e he token "beta" hop htenant
    rw [huser, Option.map_some, Option.some.injEq] at hattributes
    rw [hattributes] at hemail
    cases hemail
    have hallowed := List.all_eq_true.mp hrows e' he'
    rw [← hclient, hrow, Option.all_some, beq_iff_eq] at hallowed
    rw [hallowed] at hdomain
    revert hdomain
    decide +kernel
  · cases htoken

end SaasFoundation.Vestibulum.SharedDistribution.Triggers
