import SaasFoundation.Lib.Script
import SaasFoundation.Lib.Store
import SaasFoundation.Vestibulum.SharedDistribution.Bounce
import SaasFoundation.Vestibulum.SharedDistribution.TokenClaims

/-!
# One user pool

Sign-ups and sign-ins through many app clients, the single-tenant trigger
and the bounce handler over one pool, one denylist and one `ClientConfig`
table. Cognito is the part around the triggers: it creates the user a
`SignUp` was allowed for, hands every trigger the user's attributes, and
mints the token; an address belongs to one user at most. The admin API
writes rows at any time; an app client keeps its tenant, since a client id
is issued once and no call changes the names of a row. Clocks, counters,
tokens and the user's answers are at the outside's will.
-/

namespace SaasFoundation.Vestibulum.SharedDistribution.Triggers

open Lib

structure PoolUser where
  attributes : Record
  signUpClient : String
deriving DecidableEq, Repr

/-- The functions as deployed: one email-HMAC key, the consumer's token
handler, and the claims Cognito mints by itself. -/
structure Deployment where
  rt : Runtime
  sharedEnv : ProcessEnv
  singleEnv : ProcessEnv
  bounceEnv : ProcessEnv
  emailHmacKey : String
  inner : Inner
  baseClaims : (userName clientId : String) → Record

structure World where
  configs : Table String ClientConfigRow
  /-- What the table has been before; a read may still see it. -/
  pastConfigs : List (Table String ClientConfigRow)
  caches : Table (Nat × String) CacheEntry
  users : Table String PoolUser
  /-- Who signs in with an address; addresses are compared in lower case. -/
  aliases : Table String String
  /-- The `expires_at` of each row. -/
  denylist : Table String Int

/-- The table as it is and as it was. -/
def World.tables (w : World) : List (Table String ClientConfigRow) := w.configs :: w.pastConfigs

/-! ## The flows -/

inductive Job where
  | signUp (container : Nat) (userName email clientId : String)
  /-- `CUSTOM_AUTH` through a client of the shared distribution. -/
  | signIn (container : Nat) (userName clientId : String)
  /-- One invocation of the single-tenant trigger. -/
  | singleCreate (userPoolId userName : String)
  | bounce (event : SnsEvent)

inductive Output where
  | refused
  | signedUp
  | signedIn
  | challenged (result : Except SignIn.Thrown SignIn.ChallengeResponse)
  | bounced (result : Except BounceThrown Unit)

def signUpFlow (D : Deployment) (container : Nat) (userName email clientId : String) :
    Handler Output := do
  let allowed ← preSignUp D.rt container ⟨clientId, some email⟩
  match allowed with
  | .error _ => pure .refused
  | .ok () => do
      let _ ← request (.createUser userName email clientId)
      pure .signedUp

/-- The tokens of a flow that was answered correctly. -/
def tokenFlow (D : Deployment) (container : Nat) (userName clientId : String)
    (attributes : Record) : Handler Output := do
  let result ← wrapPreTokenHandler D.inner container ⟨.v1, userName, clientId, attributes, none⟩
  match result with
  | .error _ => pure .refused
  | .ok event => do
      let claims := mintIdToken .v1 (D.baseClaims userName clientId) event
      let _ ← request (.issueToken ⟨userName, clientId, claims⟩)
      pure .signedIn

/-- The challenge, its answer, the tokens. -/
def challengeFlow (D : Deployment) (container : Nat) (userName clientId : String)
    (attributes : Record) : Handler Output := do
  let issued ← createAuthChallenge D.rt D.sharedEnv container ⟨clientId, attributes⟩
  match issued with
  | .error _ => pure .refused
  | .ok response => do
      let correct : Bool ← request (.answerCorrect response.privateChallengeParameters)
      if correct then tokenFlow D container userName clientId attributes else pure .refused

/-- Only an existing user can start. -/
def signInFlow (D : Deployment) (container : Nat) (userName clientId : String) :
    Handler Output := do
  let attributes : Option Record ← request (.userAttributes userName)
  match attributes with
  | none => pure .refused
  | some attributes => challengeFlow D container userName clientId attributes

/-- An unknown user has no attributes. -/
def singleFlow (D : Deployment) (userPoolId userName : String) : Handler Output := do
  let attributes : Option Record ← request (.userAttributes userName)
  let result ← singleTenant (SignIn.createAuthChallenge D.rt D.singleEnv
    ⟨userPoolId, userName, attributes.getD []⟩)
  pure (.challenged result)

def bounceFlow (D : Deployment) (event : SnsEvent) : Handler Output := do
  let result ← bounceHandler D.rt D.bounceEnv event
  pure (.bounced result)

def start (D : Deployment) : Job → Handler Output
  | .signUp container userName email clientId => signUpFlow D container userName email clientId
  | .signIn container userName clientId => signInFlow D container userName clientId
  | .singleCreate userPoolId userName => singleFlow D userPoolId userName
  | .bounce event => bounceFlow D event

/-! ## The stores -/

def quarantinedAttribute : String := "custom:email_quarantined"

def PoolUser.set (user : PoolUser) (name value : String) : PoolUser :=
  { user with attributes := setField user.attributes name value }

/-- The user Cognito finds under an address was marked. -/
def Quarantined (D : Deployment) (w : World) (email : String) (w' : World) : Prop :=
  ∃ userName user, w.aliases (D.rt.toLowerCase email) = some userName ∧
    w.users userName = some user ∧
    w' = { w with users := w.users.put userName (user.set quarantinedAttribute "true") }

/-- The pool with one more user. -/
def World.addUser (D : Deployment) (w : World) (userName email clientId : String) : World :=
  { w with
    users := w.users.put userName ⟨[("email", email)], clientId⟩
    aliases := w.aliases.put (D.rt.toLowerCase email) userName }

/-- What the outside may answer, and what it does to the world. -/
def serve (D : Deployment) (w : World) : (op : Request) → Reply op → World → Prop
  | .signIn .resolveEmailHmacKey, reply, w' =>
      (∀ key, reply = .ok key → key = D.emailHmacKey) ∧ w' = w
  | .signIn (.getDenylist k), reply, w' =>
      (∀ found, reply = .ok found → found = (w.denylist k).isSome) ∧ w' = w
  | .signIn _, _, w' => w' = w
  | .cacheGet container clientId, entry, w' => entry = w.caches (container, clientId) ∧ w' = w
  | .cacheSet container clientId none, _, w' =>
      w' = { w with caches := w.caches.erase (container, clientId) }
  | .cacheSet container clientId (some entry), _, w' =>
      w' = { w with caches := w.caches.put (container, clientId) entry }
  | .getClientConfig clientId, reply, w' =>
      (∀ row, reply = .ok row → ∃ table ∈ w.tables, row = table clientId) ∧ w' = w
  | .userAttributes userName, reply, w' =>
      reply = (w.users userName).map PoolUser.attributes ∧ w' = w
  | .createUser userName email clientId, _, w' =>
      w.users userName = none ∧ w.aliases (D.rt.toLowerCase email) = none ∧
        w' = w.addUser D userName email clientId
  | .quarantineUser email, .ok _, w' => Quarantined D w email w'
  | .quarantineUser email, .error e, w' => w' = w ∨ e = .other ∧ Quarantined D w email w'
  | .putDenylist k _ expiresAt, reply, w' =>
      ConditionalWrite True w { w with denylist := w.denylist.put k expiresAt } reply w'
  | .answerCorrect _, _, w' => w' = w
  | .issueToken _, _, w' => w' = w

/-- What happens besides: the admin API writes or deletes a row, a denylist
row goes, an attribute other than the address changes. -/
inductive Move where
  | putConfig (row : ClientConfigRow)
  | deleteConfig (clientId : String)
  | removeDenylist (k : String)
  | setAttribute (userName name value : String)

/-- A row under a client id never changes its tenant. -/
def KeepsTenant (w : World) (row : ClientConfigRow) : Prop :=
  ∀ table ∈ w.tables, ∀ old, table row.clientId = some old → old.tenantId = row.tenantId

def World.setConfigs (w : World) (configs : Table String ClientConfigRow) : World :=
  { w with configs := configs, pastConfigs := w.configs :: w.pastConfigs }

def drift (w w' : World) : Move → Prop
  | .putConfig row => KeepsTenant w row ∧ w' = w.setConfigs (w.configs.put row.clientId row)
  | .deleteConfig clientId => w' = w.setConfigs (w.configs.erase clientId)
  | .removeDenylist k => w' = { w with denylist := w.denylist.erase k }
  | .setAttribute userName name value =>
      name ≠ "email" ∧ ∃ user, w.users userName = some user ∧
        w' = { w with users := w.users.put userName (user.set name value) }

/-- The pool of a deployment, from an empty one. -/
def pool (D : Deployment) : System Request Reply World Job Output where
  start := start D
  permits := fun _ _ => True
  serve := serve D
  drift := fun w w' => ∃ m, drift w w' m
  init := fun w => w.configs = Table.empty ∧ w.pastConfigs = [] ∧ w.caches = Table.empty ∧
    w.users = Table.empty ∧ w.aliases = Table.empty ∧ w.denylist = Table.empty

abbrev PoolConfig := Config Request Reply World Job Output

/-! ## What a step can change -/

/-- Everything a served request can do to the world. -/
inductive Change (D : Deployment) (w : World) : Request → World → Prop
  | nothing {op : Request} : Change D w op w
  | evict {container : Nat} {clientId : String} :
      Change D w (.cacheSet container clientId none)
        { w with caches := w.caches.erase (container, clientId) }
  | keep {container : Nat} {clientId : String} {entry : CacheEntry} :
      Change D w (.cacheSet container clientId (some entry))
        { w with caches := w.caches.put (container, clientId) entry }
  | createUser {userName email clientId : String} (hfree : w.users userName = none)
      (hunused : w.aliases (D.rt.toLowerCase email) = none) :
      Change D w (.createUser userName email clientId) (w.addUser D userName email clientId)
  | quarantine {email userName : String} {user : PoolUser}
      (hfound : w.aliases (D.rt.toLowerCase email) = some userName)
      (huser : w.users userName = some user) :
      Change D w (.quarantineUser email)
        { w with users := w.users.put userName (user.set quarantinedAttribute "true") }
  | putDenylist {k quarantinedAt : String} {expiresAt : Int} :
      Change D w (.putDenylist k quarantinedAt expiresAt)
        { w with denylist := w.denylist.put k expiresAt }

theorem serve_change {D : Deployment} {w w' : World} {op : Request} {r : Reply op}
    (h : serve D w op r w') : Change D w op w' := by
  cases op with
  | signIn op =>
      have hsame : w' = w := by
        cases op with
        | resolveEmailHmacKey | getDenylist k => exact h.2
        | _ => exact h
      rw [hsame]
      exact .nothing
  | cacheGet _ _ | getClientConfig _ | userAttributes _ =>
      rw [h.2]
      exact .nothing
  | cacheSet container clientId entry =>
      cases entry with
      | none =>
          rw [show w' = _ from h]
          exact .evict
      | some entry =>
          rw [show w' = _ from h]
          exact .keep
  | createUser userName email clientId =>
      rw [h.2.2]
      exact .createUser h.1 h.2.1
  | quarantineUser email =>
      have hmarked : Quarantined D w email w' → Change D w (.quarantineUser email) w' := by
        rintro ⟨userName, user, hfound, huser, rfl⟩
        exact .quarantine hfound huser
      cases r with
      | ok u => exact hmarked h
      | error e =>
          rcases h with rfl | ⟨-, h⟩
          · exact .nothing
          · exact hmarked h
  | putDenylist k quarantinedAt expiresAt =>
      rcases ConditionalWrite.changed h with rfl | ⟨-, rfl⟩
      · exact .nothing
      · exact .putDenylist
  | answerCorrect _ | issueToken _ =>
      rw [show w' = w from h]
      exact .nothing

theorem lookup_setField (record : Record) (name value k : String) :
    (setField record name value).lookup k = if k = name then some value else record.lookup k := by
  rw [setField, List.lookup_append]
  have hfilter := lookup_filter_name record (fun n => decide (n ≠ name)) k
  simp only [decide_eq_true_eq] at hfilter
  rw [hfilter]
  by_cases hk : k = name
  · simp [hk]
  · rw [if_pos hk, if_neg hk]
    cases record.lookup k with
    | none => simp [List.lookup_cons, beq_eq_false_iff_ne.mpr hk]
    | some v => rfl

/-! ## The invariant of a run -/

/-- Where everything in the world comes from: a cached row from the table,
a user from a sign-up; and a client id belongs to one tenant. -/
structure PoolInv (c : PoolConfig) : Prop where
  cached : ∀ key entry row, c.world.caches key = some entry → entry.value = some row →
    ∃ table ∈ c.world.tables, ∃ item, table key.2 = some item ∧
      row = { item with clientId := key.2 }
  keyed : ∀ table ∈ c.world.tables, ∀ k row, table k = some row → row.clientId = k
  tenant : ∀ table ∈ c.world.tables, ∀ table' ∈ c.world.tables, ∀ k row row',
    table k = some row → table' k = some row' → row.tenantId = row'.tenantId
  users : ∀ u user, c.world.users u = some user → ∃ e ∈ c.log, ∃ email,
    e.ev.op = .createUser u email user.signUpClient ∧
      user.attributes.lookup "email" = some email
  past : ∀ e ∈ c.log, ∀ table ∈ e.pre.tables, table ∈ c.world.tables

/-! ## Running it -/

/-- The world after a reply it may give; reads are up to date. -/
def World.serve (D : Deployment) (w : World) : Event Request Reply → Option World
  | ⟨.signIn .resolveEmailHmacKey, .ok key⟩ => if key = D.emailHmacKey then some w else none
  | ⟨.signIn (.getDenylist k), .ok found⟩ =>
      if found = (w.denylist k).isSome then some w else none
  | ⟨.cacheGet container clientId, entry⟩ =>
      if entry = w.caches (container, clientId) then some w else none
  | ⟨.cacheSet container clientId none, _⟩ =>
      some { w with caches := w.caches.erase (container, clientId) }
  | ⟨.cacheSet container clientId (some entry), _⟩ =>
      some { w with caches := w.caches.put (container, clientId) entry }
  | ⟨.getClientConfig clientId, .ok row⟩ => if row = w.configs clientId then some w else none
  | ⟨.userAttributes userName, reply⟩ =>
      if reply = (w.users userName).map PoolUser.attributes then some w else none
  | ⟨.createUser userName email clientId, _⟩ =>
      if w.users userName = none ∧ w.aliases (D.rt.toLowerCase email) = none then
        some (w.addUser D userName email clientId)
      else none
  | ⟨.quarantineUser email, .ok _⟩ =>
      (w.aliases (D.rt.toLowerCase email)).bind fun userName =>
        (w.users userName).map fun user =>
          { w with users := w.users.put userName (user.set quarantinedAttribute "true") }
  | ⟨.putDenylist k _ expiresAt, .ok _⟩ =>
      some { w with denylist := w.denylist.put k expiresAt }
  | _ => some w

theorem World.serve_sound (D : Deployment) (w : World) (e : Event Request Reply) (w' : World)
    (h : w.serve D e = some w') : Triggers.serve D w e.op e.res w' := by
  obtain ⟨op, r⟩ := e
  cases op with
  | signIn op =>
      cases op with
      | resolveEmailHmacKey | getDenylist k =>
          cases r with
          | error x =>
              cases h
              exact ⟨(fun _ h => by cases h), rfl⟩
          | ok a =>
              simp only [World.serve, Option.ite_none_right_eq_some, Option.some.injEq] at h
              obtain ⟨ha, rfl⟩ := h
              refine ⟨fun b hb => ?_, rfl⟩
              cases hb
              exact ha
      | _ =>
          cases h
          rfl
  | getClientConfig clientId =>
      cases r with
      | error x =>
          cases h
          exact ⟨(fun _ h => by cases h), rfl⟩
      | ok row =>
          simp only [World.serve, Option.ite_none_right_eq_some, Option.some.injEq] at h
          obtain ⟨hrow, rfl⟩ := h
          refine ⟨fun row' hrow' => ?_, rfl⟩
          cases hrow'
          exact ⟨w.configs, List.mem_cons_self, hrow⟩
  | cacheGet _ _ | userAttributes _ =>
      simp only [World.serve, Option.ite_none_right_eq_some, Option.some.injEq] at h
      exact ⟨h.1, h.2.symm⟩
  | createUser _ _ _ =>
      simp only [World.serve, Option.ite_none_right_eq_some, Option.some.injEq] at h
      exact ⟨h.1.1, h.1.2, h.2.symm⟩
  | cacheSet container clientId entry =>
      cases entry <;> (cases h; rfl)
  | quarantineUser email =>
      cases r with
      | error x =>
          cases h
          exact .inl rfl
      | ok a =>
          obtain ⟨userName, hfound, h⟩ := Option.bind_eq_some_iff.mp h
          obtain ⟨user, huser, rfl⟩ := Option.map_eq_some_iff.mp h
          exact ⟨userName, user, hfound, huser, rfl⟩
  | putDenylist _ _ _ =>
      cases r with
      | error x =>
          cases h
          exact .inl rfl
      | ok a =>
          cases h
          exact ⟨trivial, rfl⟩
  | _ =>
      cases h
      rfl

def keepsTenant (w : World) (row : ClientConfigRow) : Bool :=
  w.tables.all fun table => (table row.clientId).all fun old => old.tenantId == row.tenantId

def World.move (w : World) : Move → Option World
  | .putConfig row =>
      if keepsTenant w row then some (w.setConfigs (w.configs.put row.clientId row)) else none
  | .deleteConfig clientId => some (w.setConfigs (w.configs.erase clientId))
  | .removeDenylist k => some { w with denylist := w.denylist.erase k }
  | .setAttribute userName name value =>
      if name = "email" then none
      else (w.users userName).map fun user =>
        { w with users := w.users.put userName (user.set name value) }

theorem World.move_sound (w : World) (m : Move) (w' : World) (h : w.move m = some w') :
    drift w w' m := by
  cases m with
  | putConfig row =>
      simp only [World.move, Option.ite_none_right_eq_some, Option.some.injEq] at h
      obtain ⟨hkeeps, rfl⟩ := h
      refine ⟨?_, rfl⟩
      intro table htable old hold
      have hall := List.all_eq_true.mp hkeeps table htable
      rw [hold, Option.all_some] at hall
      exact beq_iff_eq.mp hall
  | deleteConfig _ | removeDenylist _ =>
      cases h
      rfl
  | setAttribute userName name value =>
      simp only [World.move, Option.ite_none_left_eq_some, Option.map_eq_some_iff] at h
      obtain ⟨hname, user, huser, rfl⟩ := h
      exact ⟨hname, user, huser, rfl⟩

def interpreter (D : Deployment) : Interpreter (pool D) Move where
  permits := fun _ _ => true
  serve := World.serve D
  drift := World.move
  permits_sound := fun _ _ _ => trivial
  serve_sound := World.serve_sound D
  drift_sound := fun w m w' h => ⟨m, World.move_sound w m w' h⟩

/-! ## A small pool -/

namespace Small

/-- A message that bounced for two recipients. -/
def notification : Json :=
  .obj [("notificationType", .str "Bounce"),
    ("bounce", .obj [("bounceType", .str "Permanent"),
      ("bouncedRecipients", .arr [.obj [("emailAddress", .str "Ann@Example.com")],
        .obj [("emailAddress", .str "bob@example.com")]])])]

def bobHmac : String := String.ofList (List.replicate 64 'b')

def rt : Runtime := .tabulated [] [(("secret", "bob@example.com"), bobHmac)]
  (fun _ => some notification) sha_nil (by decide)

def env : ProcessEnv := fun name =>
  [(RuntimeEnv.tokenTableName, "tokens"), (RuntimeEnv.rateLimitTableName, "limits"),
    (RuntimeEnv.sesFrom, "login@example.com"), (RuntimeEnv.domain, "example.com"),
    (RuntimeEnv.denylistTableName, "denylist"),
    (RuntimeEnv.cognitoUserPoolId, "eu-central-1_abc")].lookup name

def deployment : Deployment where
  rt := rt
  sharedEnv := env
  singleEnv := env
  bounceEnv := env
  emailHmacKey := "secret"
  inner := preTokenGeneration
  baseClaims := fun userName clientId => [("sub", userName), ("aud", clientId)]

def world : World := ⟨Table.empty, [], Table.empty, Table.empty, Table.empty, Table.empty⟩

theorem world_init : (pool deployment).init world := ⟨rfl, rfl, rfl, rfl, rfl, rfl⟩

def signInOutside (w : World) : (op : SignIn.Request) → SignIn.Reply op
  | .now => (1700000000000 : Int)
  | .sleep _ => ()
  | .randomToken => "token"
  | .newSigninCode => "code"
  | .newBindingSecret => "secret"
  | .randomPhantom => "phantom"
  | .randomPassword => "password"
  | .resolveEmailHmacKey => .ok "secret"
  | .getDenylist k => .ok (w.denylist k).isSome
  | .updateCounter _ => .ok ()
  | .allowListGet _ _ => .error .other
  | .allowListLookup _ _ => .error .other
  | .putToken _ => .ok ()
  | .getToken _ => .ok none
  | .deleteToken _ => .ok ()
  | .sendEmail _ => .ok ()
  | .signUp _ _ _ => .error .other
  | .initiateAuth _ _ => .error .other
  | .respondToAuthChallenge _ _ _ _ => .error .other
  | .putBinding _ => .ok ()
  | .takeBinding _ => .ok none
  | .emitSigninMetric _ => ()

/-- An outside where everything works and the answer is right. -/
def outside (w : World) : (op : Request) → Reply op
  | .signIn op => signInOutside w op
  | .cacheGet container clientId => w.caches (container, clientId)
  | .cacheSet _ _ _ => ()
  | .getClientConfig clientId => .ok (w.configs clientId)
  | .userAttributes userName => (w.users userName).map PoolUser.attributes
  | .createUser _ _ _ => ()
  | .quarantineUser email =>
      if (w.aliases (rt.toLowerCase email)).isSome then .ok () else .error .userNotFound
  | .putDenylist _ _ _ => .ok ()
  | .answerCorrect _ => true
  | .issueToken _ => ()

abbrev Schedule := List (Action Request Reply World Job Move)

/-- Start an invocation and answer its first `n` requests. -/
def invoke (i : Nat) (job : Job) (n : Nat) : Schedule :=
  .spawn job :: List.replicate n (.answer i outside)

/-- A row of the tenant `tenantId` whose client is named after it. -/
def row (tenantId : String) (allowedEmailDomains : List String) : ClientConfigRow :=
  ⟨tenantId ++ "-client", tenantId, tenantId, "https://" ++ tenantId ++ ".example.com",
    allowedEmailDomains, "2023-11-14T22:13:20.000Z", none⟩

end Small

end SaasFoundation.Vestibulum.SharedDistribution.Triggers
