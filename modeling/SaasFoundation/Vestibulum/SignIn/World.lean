import SaasFoundation.Lib.Fresh
import SaasFoundation.Lib.Script
import SaasFoundation.Lib.Store
import SaasFoundation.Lib.Tickets
import SaasFoundation.Vestibulum.SignIn.Redeem
import SaasFoundation.Vestibulum.SignIn.Verify

/-!
# The sign-in service

The four sign-in handlers over their shared tables, as one system. Any
number of invocations is in flight; the tables answer atomically; TTL sweeps
rows once they have expired; every other dependency answers as it likes or
fails. Cognito keeps the private parameters of a challenge to itself, so
`Verify` is only ever handed what some `Create` returned.
-/

namespace SaasFoundation.Vestibulum.SignIn

open Lib

/-- The four functions as deployed: each has its own environment, and all
resolve one email-HMAC key. -/
structure Deployment where
  rt : Runtime
  createEnv : ProcessEnv
  verifyEnv : ProcessEnv
  loginEnv : ProcessEnv
  redeemEnv : ProcessEnv
  /-- Whether `auth-login` was built with an allow-list of its own. -/
  portInjected : Bool
  emailHmacKey : String

structure World where
  /-- The time of the stores, in milliseconds; handlers read clocks of
  their own. -/
  now : Int
  tokens : Table String TokenRow
  bindings : Table String BindingRow
  counters : Table String CounterRow
  drawnTokens : List String
  drawnSecrets : List String

inductive Job where
  | create (ev : CreateAuthChallengeEvent)
  | verify (ev : VerifyAuthChallengeEvent)
  | login (ev : FunctionUrlEvent)
  | redeem (ev : FunctionUrlEvent)

inductive Output where
  | challenge (result : Except Thrown ChallengeResponse)
  | verdict (result : Except Thrown VerifyResult)
  | loginResponse (response : FunctionUrlResult)
  | redeemResponse (result : Except Thrown FunctionUrlResult)

def start (D : Deployment) : Job → Handler Output
  | .create ev => do
      let result ← createAuthChallenge D.rt D.createEnv ev
      pure (.challenge result)
  | .verify ev => do
      let result ← verifyAuthChallenge D.rt D.verifyEnv ev
      pure (.verdict result)
  | .login ev => do
      let response ← authLogin D.rt D.loginEnv D.portInjected ev
      pure (.loginResponse response)
  | .redeem ev => do
      let result ← authVerify D.rt D.redeemEnv ev
      pure (.redeemResponse result)

/-! ## The tables -/

/-- The condition of a counter update on the row it meets. -/
def CounterUpdate.enabled (u : CounterUpdate) (row : Option CounterRow) : Bool :=
  match u.limit with
  | none => false
  | some limit =>
      match row with
      | none => true
      | some row =>
          decide (row.count < limit) &&
            match u.windowStart with
            | none => true
            | some ws => row.windowStart == some ws

/-- The row a counter update leaves. -/
def CounterUpdate.apply (u : CounterUpdate) (row : Option CounterRow) : CounterRow where
  count := (row.map CounterRow.count).getD 0 + 1
  windowStart := match u.windowStart with
    | some ws => some ws
    | none => row.bind CounterRow.windowStart
  expiresAt := u.expiresAt

/-- What the outside may answer, and what it does to the world. A request
that is not listed changes nothing and is answered at will. -/
def serve (D : Deployment) (w : World) : (op : Request) → Reply op → World → Prop
  | .randomToken, t, w' =>
      t ∉ w.drawnTokens ∧ w' = { w with drawnTokens := t :: w.drawnTokens }
  | .newBindingSecret, b, w' =>
      b ∉ w.drawnSecrets ∧ w' = { w with drawnSecrets := b :: w.drawnSecrets }
  | .resolveEmailHmacKey, reply, w' => (∀ key, reply = .ok key → key = D.emailHmacKey) ∧ w' = w
  | .updateCounter u, reply, w' =>
      ConditionalWrite (u.enabled (w.counters u.bucketId) = true) w
        { w with counters := w.counters.put u.bucketId (u.apply (w.counters u.bucketId)) } reply w'
  | .putToken row, reply, w' =>
      ConditionalWrite (w.tokens row.tokenHash = none) w
        { w with tokens := w.tokens.put row.tokenHash row } reply w'
  | .getToken k, reply, w' => (∀ row, reply = .ok row → row = w.tokens k) ∧ w' = w
  | .deleteToken k, reply, w' =>
      ConditionalWrite ((w.tokens k).isSome) w { w with tokens := w.tokens.erase k } reply w'
  | .putBinding row, reply, w' =>
      ConditionalWrite (w.bindings row.bindingHash = none) w
        { w with bindings := w.bindings.put row.bindingHash row } reply w'
  | .takeBinding k, reply, w' =>
      ConditionalWrite ((w.bindings k).isSome) w { w with bindings := w.bindings.erase k } reply w' ∧
        ∀ row, reply = .ok row → row = w.bindings k
  | _, _, w' => w' = w

/-- What the world does by itself: time passes, expired rows are swept. -/
inductive Move where
  | tick (now : Int)
  | sweepToken (k : String)
  | sweepBinding (k : String)
  | sweepCounter (k : String)

def World.move (w : World) : Move → Option World
  | .tick now => if w.now ≤ now then some { w with now := now } else none
  | .sweepToken k => do
      let row ← w.tokens k
      let expiresAt ← row.expiresAt
      if expiresAt * 1000 ≤ w.now then some { w with tokens := w.tokens.erase k } else none
  | .sweepBinding k => do
      let row ← w.bindings k
      let expiresAt ← row.expiresAt
      if expiresAt * 1000 ≤ w.now then some { w with bindings := w.bindings.erase k } else none
  | .sweepCounter k => do
      let row ← w.counters k
      if row.expiresAt * 1000 ≤ w.now then some { w with counters := w.counters.erase k } else none

abbrev SignInThread := Thread Request Reply Job Output

/-- Some `Create` has returned these private parameters. -/
def issuedParameters (threads : List SignInThread) (params : Record) : Bool :=
  threads.any fun t =>
    match t.job, t.prog with
    | .create _, .ret (.challenge (.ok response)) =>
        response.privateChallengeParameters == params
    | _, _ => false

def permits (threads : List SignInThread) : Job → Bool
  | .verify ev => issuedParameters threads ev.privateChallengeParameters
  | _ => true

/-- The sign-in service of a deployment. -/
def signIn (D : Deployment) : System Request Reply World Job Output where
  start := start D
  permits := fun threads job => permits threads job = true
  serve := serve D
  drift := fun w w' => ∃ m, w.move m = some w'
  init := fun w => w.tokens = Table.empty ∧ w.bindings = Table.empty ∧
    w.counters = Table.empty ∧ w.drawnTokens = [] ∧ w.drawnSecrets = []

abbrev SignInConfig := Config Request Reply World Job Output

/-! ## What a request can change -/

/-- Everything a served request can do to the world. -/
inductive Change (w : World) : Request → World → Prop
  | nothing {op : Request} : Change w op w
  | drawToken (t : String) :
      Change w .randomToken { w with drawnTokens := t :: w.drawnTokens }
  | drawSecret (b : String) :
      Change w .newBindingSecret { w with drawnSecrets := b :: w.drawnSecrets }
  | count {u : CounterUpdate} (henabled : u.enabled (w.counters u.bucketId) = true) :
      Change w (.updateCounter u)
        { w with counters := w.counters.put u.bucketId (u.apply (w.counters u.bucketId)) }
  | putToken {row : TokenRow} (hfree : w.tokens row.tokenHash = none) :
      Change w (.putToken row) { w with tokens := w.tokens.put row.tokenHash row }
  | deleteToken {k : String} (hrow : (w.tokens k).isSome) :
      Change w (.deleteToken k) { w with tokens := w.tokens.erase k }
  | putBinding {row : BindingRow} (hfree : w.bindings row.bindingHash = none) :
      Change w (.putBinding row) { w with bindings := w.bindings.put row.bindingHash row }
  | takeBinding {k : String} (hrow : (w.bindings k).isSome) :
      Change w (.takeBinding k) { w with bindings := w.bindings.erase k }

section Changes

variable {D : Deployment} {w w' : World}

theorem serve_change {op : Request} {r : Reply op} (h : serve D w op r w') :
    Change w op w' := by
  cases op with
  | randomToken =>
      rw [h.2]
      exact .drawToken r
  | newBindingSecret =>
      rw [h.2]
      exact .drawSecret r
  | resolveEmailHmacKey | getToken k =>
      rw [h.2]
      exact .nothing
  | updateCounter u =>
      rcases ConditionalWrite.changed h with rfl | ⟨hc, rfl⟩
      · exact .nothing
      · exact .count hc
  | putToken row =>
      rcases ConditionalWrite.changed h with rfl | ⟨hc, rfl⟩
      · exact .nothing
      · exact .putToken hc
  | deleteToken k =>
      rcases ConditionalWrite.changed h with rfl | ⟨hc, rfl⟩
      · exact .nothing
      · exact .deleteToken hc
  | putBinding row =>
      rcases ConditionalWrite.changed h with rfl | ⟨hc, rfl⟩
      · exact .nothing
      · exact .putBinding hc
  | takeBinding k =>
      rcases ConditionalWrite.changed h.1 with rfl | ⟨hc, rfl⟩
      · exact .nothing
      · exact .takeBinding hc
  | _ =>
      cases h
      exact .nothing

/-- Everything a move can do to the world. -/
theorem move_cases {m : Move} (h : w.move m = some w') :
    (∃ now, w.now ≤ now ∧ w' = { w with now := now }) ∨
    (∃ k row e, w.tokens k = some row ∧ row.expiresAt = some e ∧ e * 1000 ≤ w.now ∧
      w' = { w with tokens := w.tokens.erase k }) ∨
    (∃ k row e, w.bindings k = some row ∧ row.expiresAt = some e ∧ e * 1000 ≤ w.now ∧
      w' = { w with bindings := w.bindings.erase k }) ∨
    (∃ k row, w.counters k = some row ∧ row.expiresAt * 1000 ≤ w.now ∧
      w' = { w with counters := w.counters.erase k }) := by
  cases m with
  | tick now =>
      simp only [World.move, Option.ite_none_right_eq_some, Option.some.injEq] at h
      exact .inl ⟨now, h.1, h.2.symm⟩
  | sweepToken k =>
      simp only [World.move, Option.bind_eq_bind, Option.bind_eq_some_iff,
        Option.ite_none_right_eq_some, Option.some.injEq] at h
      obtain ⟨row, hrow, e, he, hle, rfl⟩ := h
      exact .inr (.inl ⟨k, row, e, hrow, he, hle, rfl⟩)
  | sweepBinding k =>
      simp only [World.move, Option.bind_eq_bind, Option.bind_eq_some_iff,
        Option.ite_none_right_eq_some, Option.some.injEq] at h
      obtain ⟨row, hrow, e, he, hle, rfl⟩ := h
      exact .inr (.inr (.inl ⟨k, row, e, hrow, he, hle, rfl⟩))
  | sweepCounter k =>
      simp only [World.move, Option.bind_eq_bind, Option.bind_eq_some_iff,
        Option.ite_none_right_eq_some, Option.some.injEq] at h
      obtain ⟨row, hrow, hle, rfl⟩ := h
      exact .inr (.inr (.inr ⟨k, row, hrow, hle, rfl⟩))

variable (D)

theorem tokenRows :
    TicketRequests (signIn D) World.tokens TokenRow.tokenHash Request.putToken where
  empty := fun w hw => hw.1
  drift := by
    rintro w w' ⟨m, hm⟩
    rcases move_cases hm with ⟨_, _, rfl⟩ | ⟨k, _, _, _, _, _, rfl⟩ | ⟨_, _, _, _, _, _, rfl⟩ |
      ⟨_, _, _, _, rfl⟩
    · exact .inl rfl
    · exact .inr ⟨k, rfl⟩
    · exact .inl rfl
    · exact .inl rfl
  serve := by
    intro w op r w' h
    cases serve_change h with
    | putToken hfree => exact .inr (.inl ⟨_, rfl, hfree, rfl⟩)
    | deleteToken _ => exact .inr (.inr ⟨_, rfl⟩)
    | _ => exact .inl rfl

theorem bindingRows :
    TicketRequests (signIn D) World.bindings BindingRow.bindingHash Request.putBinding where
  empty := fun w hw => hw.2.1
  drift := by
    rintro w w' ⟨m, hm⟩
    rcases move_cases hm with ⟨_, _, rfl⟩ | ⟨_, _, _, _, _, _, rfl⟩ | ⟨k, _, _, _, _, _, rfl⟩ |
      ⟨_, _, _, _, rfl⟩
    · exact .inl rfl
    · exact .inl rfl
    · exact .inr ⟨k, rfl⟩
    · exact .inl rfl
  serve := by
    intro w op r w' h
    cases serve_change h with
    | putBinding hfree => exact .inr (.inl ⟨_, rfl, hfree, rfl⟩)
    | takeBinding _ => exact .inr (.inr ⟨_, rfl⟩)
    | _ => exact .inl rfl

/-! ## Fresh values -/

def drawsToken : Event Request Reply → Option String
  | ⟨.randomToken, t⟩ => some t
  | _ => none

def drawsSecret : Event Request Reply → Option String
  | ⟨.newBindingSecret, b⟩ => some b
  | _ => none

theorem freshTokens : FreshSource (signIn D) drawsToken World.drawnTokens where
  fresh := by
    intro w op r w' h t ht
    cases op with
    | randomToken =>
        cases ht
        rw [h.2]
        exact ⟨h.1, List.mem_cons_self⟩
    | _ => cases ht
  serve_keeps := by
    intro w op r w' h t ht
    cases serve_change h with
    | drawToken _ => exact List.mem_cons_of_mem _ ht
    | _ => exact ht
  drift_keeps := by
    rintro w w' ⟨m, hm⟩ t ht
    rcases move_cases hm with ⟨_, _, rfl⟩ | ⟨_, _, _, _, _, _, rfl⟩ | ⟨_, _, _, _, _, _, rfl⟩ |
      ⟨_, _, _, _, rfl⟩ <;> exact ht

theorem freshSecrets : FreshSource (signIn D) drawsSecret World.drawnSecrets where
  fresh := by
    intro w op r w' h b hb
    cases op with
    | newBindingSecret =>
        cases hb
        rw [h.2]
        exact ⟨h.1, List.mem_cons_self⟩
    | _ => cases hb
  serve_keeps := by
    intro w op r w' h b hb
    cases serve_change h with
    | drawSecret _ => exact List.mem_cons_of_mem _ hb
    | _ => exact hb
  drift_keeps := by
    rintro w w' ⟨m, hm⟩ b hb
    rcases move_cases hm with ⟨_, _, rfl⟩ | ⟨_, _, _, _, _, _, rfl⟩ | ⟨_, _, _, _, _, _, rfl⟩ |
      ⟨_, _, _, _, rfl⟩ <;> exact hb

end Changes

/-! ## The handler behind a thread -/

section Handlers

variable {D : Deployment} {c : SignInConfig}

/-- What a thread has asked so far is the beginning of a run of its
handler. -/
theorem thread_runs (h : (signIn D).Reachable c) {i : Nat} {t : SignInThread}
    (ht : c.threads[i]? = some t) :
    ∃ fs out, (start D t.job).Finishes (localLog c.log i ++ fs) out := by
  exact (h.local_run i t ht).completes

/-- A thread that has returned has run its handler to the end. -/
theorem thread_finishes (h : (signIn D).Reachable c) {i : Nat} {job : Job} {out : Output}
    (ht : c.threads[i]? = some ⟨job, .ret out⟩) :
    (start D job).Finishes (localLog c.log i) out :=
  h.local_run i _ ht

/-- Every key that was resolved is the deployment's. -/
theorem resolved_eq (h : (signIn D).Reachable c) {i : Nat} {key : String}
    (hmem : ⟨.resolveEmailHmacKey, .ok key⟩ ∈ localLog c.log i) : key = D.emailHmacKey := by
  obtain ⟨e, he, -, hev⟩ := mem_localLog.mp hmem
  have hserve := h.served e he
  rw [hev] at hserve
  exact hserve.1 _ rfl

/-- The run of a job is the run of its handler. -/
theorem finishes_start {es : List (Event Request Reply)} {out : Output} {job : Job}
    (h : (start D job).Finishes es out) :
    match job with
    | .create ev => ∃ r, out = .challenge r ∧ (createAuthChallenge D.rt D.createEnv ev).Finishes es r
    | .verify ev => ∃ r, out = .verdict r ∧ (verifyAuthChallenge D.rt D.verifyEnv ev).Finishes es r
    | .login ev => ∃ r, out = .loginResponse r ∧
        (authLogin D.rt D.loginEnv D.portInjected ev).Finishes es r
    | .redeem ev => ∃ r, out = .redeemResponse r ∧ (authVerify D.rt D.redeemEnv ev).Finishes es r := by
  cases job <;>
    (obtain ⟨es₁, es₂, r, rfl, hrun, hret⟩ := Prog.finishes_bind.mp h
     simp only [Prog.pure_def, Prog.finishes_ret] at hret
     obtain ⟨rfl, rfl⟩ := hret
     exact ⟨r, rfl, by rwa [List.append_nil]⟩)

/-- The requests of the handler of a job. -/
def Job.mayAsk : Job → Request → Prop
  | .create _ => Request.ofCreate
  | .verify _ => Request.ofVerify
  | .login _ => Request.ofLogin
  | .redeem _ => Request.ofRedeem

theorem start_uses (job : Job) : (start D job).Uses job.mayAsk := by
  cases job with
  | create ev => exact createAuthChallenge_uses.bind fun _ => trivial
  | verify ev => exact verifyAuthChallenge_uses.bind fun _ => trivial
  | login ev => exact authLogin_uses.bind fun _ => trivial
  | redeem ev => exact authVerify_uses.bind fun _ => trivial

/-- Every entry belongs to a thread whose handler makes such requests. -/
theorem entry_thread (h : (signIn D).Reachable c) {e : Entry Request Reply World}
    (he : e ∈ c.log) : ∃ t, c.threads[e.tid]? = some t ∧ t.job.mayAsk e.ev.op := by
  have hlt := h.tid_lt e he
  have ht : c.threads[e.tid]? = some c.threads[e.tid] := List.getElem?_eq_getElem hlt
  refine ⟨_, ht, ?_⟩
  obtain ⟨fs, out, hrun⟩ := thread_runs h ht
  exact (start_uses _).finishes hrun e.ev (List.mem_append_left _ (Entry.mem_localLog he))

end Handlers

/-! ## Running a schedule of the service -/

/-- One possible world after an event: a write that failed has not
happened. -/
def World.serve (D : Deployment) (w : World) : Event Request Reply → Option World
  | ⟨.randomToken, t⟩ =>
      if t ∈ w.drawnTokens then none else some { w with drawnTokens := t :: w.drawnTokens }
  | ⟨.newBindingSecret, b⟩ =>
      if b ∈ w.drawnSecrets then none else some { w with drawnSecrets := b :: w.drawnSecrets }
  | ⟨.resolveEmailHmacKey, .ok key⟩ => if key = D.emailHmacKey then some w else none
  | ⟨.resolveEmailHmacKey, .error _⟩ => some w
  | ⟨.updateCounter u, .ok _⟩ =>
      if u.enabled (w.counters u.bucketId) then
        some { w with counters := w.counters.put u.bucketId (u.apply (w.counters u.bucketId)) }
      else none
  | ⟨.updateCounter _, .error _⟩ => some w
  | ⟨.putToken row, .ok _⟩ =>
      if w.tokens row.tokenHash = none then
        some { w with tokens := w.tokens.put row.tokenHash row }
      else none
  | ⟨.putToken _, .error _⟩ => some w
  | ⟨.getToken k, .ok row⟩ => if row = w.tokens k then some w else none
  | ⟨.getToken _, .error _⟩ => some w
  | ⟨.deleteToken k, .ok _⟩ =>
      if (w.tokens k).isSome then some { w with tokens := w.tokens.erase k } else none
  | ⟨.deleteToken _, .error _⟩ => some w
  | ⟨.putBinding row, .ok _⟩ =>
      if w.bindings row.bindingHash = none then
        some { w with bindings := w.bindings.put row.bindingHash row }
      else none
  | ⟨.putBinding _, .error _⟩ => some w
  | ⟨.takeBinding k, .ok row⟩ =>
      if row = w.bindings k ∧ (w.bindings k).isSome then
        some { w with bindings := w.bindings.erase k }
      else none
  | ⟨.takeBinding _, .error _⟩ => some w
  | _ => some w

theorem World.serve_sound (D : Deployment) (w : World) (e : Event Request Reply) (w' : World)
    (h : w.serve D e = some w') : SignIn.serve D w e.op e.res w' := by
  obtain ⟨op, r⟩ := e
  cases op with
  | randomToken | newBindingSecret =>
      simp only [World.serve, Option.ite_none_left_eq_some, Option.some.injEq] at h
      exact ⟨h.1, h.2.symm⟩
  | resolveEmailHmacKey | getToken k =>
      cases r with
      | error e =>
          cases h
          exact ⟨(fun _ h => by cases h), rfl⟩
      | ok a =>
          simp only [World.serve, Option.ite_none_right_eq_some, Option.some.injEq] at h
          obtain ⟨ha, rfl⟩ := h
          refine ⟨fun b hb => ?_, rfl⟩
          cases hb
          exact ha
  | updateCounter u | putToken row | deleteToken k | putBinding row =>
      cases r with
      | error e =>
          cases h
          exact .inl rfl
      | ok a =>
          simp only [World.serve, Option.ite_none_right_eq_some, Option.some.injEq] at h
          exact ⟨h.1, h.2.symm⟩
  | takeBinding k =>
      cases r with
      | error e =>
          cases h
          exact ⟨.inl rfl, fun _ h => by cases h⟩
      | ok a =>
          simp only [World.serve, Option.ite_none_right_eq_some, Option.some.injEq] at h
          obtain ⟨⟨ha, hsome⟩, rfl⟩ := h
          refine ⟨⟨hsome, rfl⟩, fun b hb => ?_⟩
          cases hb
          exact ha
  | _ =>
      cases h
      rfl

def interpreter (D : Deployment) : Interpreter (signIn D) Move where
  permits := permits
  serve := World.serve D
  drift := World.move
  permits_sound := fun _ _ h => h
  serve_sound := World.serve_sound D
  drift_sound := fun _ m _ h => ⟨m, h⟩

/-! ## A small deployment

One address, one client, the default limits, with the digests of the texts
that occur. Schedules of it are run by the kernel. -/

namespace Small

def token : String := "AAECAwQFBgcICQoLDA0ODxAREhMUFRYXGBkaGxwdHh8"
def secondToken : String := "QEFCQ0RFRkdISUpLTE1OT1BRUlNUVVZXWFlaW1xdXl8"
def code : String := "01234567"
def secret : String := "ICEiIyQlJicoKSorLC0uLzAxMjM0NTY3ODk6Ozw9Pj8"
def email : String := "ann@example.com"
def hmacKey : String := "k3y"

/-- 2023-11-14T22:13:20Z. -/
def clock : Int := 1700000000000

def shaTable : List (String × String) :=
  [(token, "ea866a757e4c38babfa8127cbe9a409d3e1f93a00ff1488ff735fcf917afffd0"),
    (secondToken, "f45dc82a7523d14974cea050e3028e8bf06a8ee855a9d63034ebb4fb9ecc2305"),
    (code, "924592b9b103f14f833faafb67f480691f01988aa457c0061769f58cd47311bc"),
    (secret, "cf0931e168b49e987503caf18af6fe253b6b3d82a81008c3e8e1ee67c7c8dc55"),
    ("login-ip:203.0.113.7#1699999200000",
      "3267abe0400313771625775bea4e1aa73be1a558cb98ca7025b4c0f272c9c746")]

def hmacTable : List ((String × String) × String) :=
  [((hmacKey, email), "05b7b9620c06e46bf452db3b5d45cfc224934bb252999c8be5c3fe14816025a7"),
    ((hmacKey, "window:ann@example.com#1699999200000"),
      "6578f47af3790cca41a92eb54d95fc286970468042582cfbbfa756b343ff2696"),
    ((hmacKey, "daily-cap:ann@example.com#2023-11-14"),
      "e78433d3126fa277a866fedc50795fd2469d44f02eb3a08071790055527ed4bd"),
    ((hmacKey, "window:ann@example.com#253402300800000"),
      "d126c40faa3e6fa496fb968c416b0f57c5a9bd1681d684189c344f836d9e591d"),
    ((hmacKey, "window:ann@example.com#253402387200000"),
      "e0c8a335708c02b12b6b8c944cccc3d0653df67c0c6e4319e0b3af6f4584bb87"),
    ((hmacKey, "daily-cap:ann@example.com#+010000-01"),
      "b4164b2ab186f6c02184e959f7a6777922fcaac0162496c9627255ae76465ddd")]

def loginBody : String := "\x7b\"email\":\"ann@example.com\"\x7d"
def redeemBody : String := "\x7b\"answer\":\"01234567\"\x7d"

def strangerBody : String := "\x7b\"email\":\"eve@example.org\"\x7d"

def parse (body : String) : Option Json :=
  if body = loginBody then some (.obj [("email", .str email)])
  else if body = redeemBody then some (.obj [("answer", .str code)])
  else if body = strangerBody then some (.obj [("email", .str "eve@example.org")])
  else none

def rt : Runtime := Runtime.tabulated shaTable hmacTable parse (by decide) (by decide)

def env : ProcessEnv := fun name =>
  [(RuntimeEnv.tokenTableName, "tokens"), (RuntimeEnv.rateLimitTableName, "counters"),
    (RuntimeEnv.denylistTableName, "denylist"), (RuntimeEnv.bindingTableName, "bindings"),
    (RuntimeEnv.sesFrom, "noreply@app.example.com"), (RuntimeEnv.domain, "app.example.com"),
    (RuntimeEnv.cognitoUserPoolId, "pool"), (RuntimeEnv.cognitoClientId, "client")].lookup name

def deployment : Deployment where
  rt := rt
  createEnv := env
  verifyEnv := env
  loginEnv := env
  redeemEnv := env
  portInjected := false
  emailHmacKey := hmacKey

/-- An outside where everything works and the clock stands still. -/
def outside (w : World) : (op : Request) → Reply op
  | .now => clock
  | .sleep _ => ()
  | .randomToken => token
  | .newSigninCode => code
  | .newBindingSecret => secret
  | .randomPhantom => "phantom"
  | .randomPassword => "password"
  | .resolveEmailHmacKey => .ok hmacKey
  | .getDenylist _ => .ok false
  | .updateCounter _ => .ok ()
  | .allowListGet _ subject => .ok (.value (some ⟨subject, true⟩))
  | .allowListLookup _ _ => .ok (.value (some ⟨"ann", true⟩))
  | .putToken _ => .ok ()
  | .getToken k => .ok (w.tokens k)
  | .deleteToken _ => .ok ()
  | .sendEmail _ => .ok ()
  | .signUp _ _ _ => .ok ()
  | .initiateAuth _ _ => .ok ⟨some "session", none⟩
  | .respondToAuthChallenge _ _ _ _ => .ok ⟨some "id-token", none⟩
  | .putBinding _ => .ok ()
  | .takeBinding k => .ok (w.bindings k)
  | .emitSigninMetric _ => ()

def world : World := ⟨clock, Table.empty, Table.empty, Table.empty, [], []⟩

theorem world_init : (signIn deployment).init world := ⟨rfl, rfl, rfl, rfl, rfl⟩

abbrev Schedule := List (Action Request Reply World Job Move)

/-- Answer the next `n` requests of thread `i`. -/
def answers (i n : Nat) : Schedule := List.replicate n (.answer i outside)

def createEvent : CreateAuthChallengeEvent := ⟨"pool", "ann", [("email", email)]⟩

/-- A login with the given body. -/
def loginEvent (body : String) : FunctionUrlEvent :=
  ⟨[("origin", "https://app.example.com"), ("x-forwarded-for", "203.0.113.7")], [], some body,
    some "POST"⟩

/-- The session of the challenge, answered with `answer`. -/
def verifyEvent (answer : String) : VerifyAuthChallengeEvent where
  userPoolId := "pool"
  userName := "ann"
  privateChallengeParameters :=
    privateParameters email (rt.sha256Hex token) (rt.sha256Hex code) "false"
  challengeAnswer := some (.str answer)
  session := []

end Small

end SaasFoundation.Vestibulum.SignIn
