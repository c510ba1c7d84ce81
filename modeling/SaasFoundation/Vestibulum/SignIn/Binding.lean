import Mathlib.Data.Set.Function
import SaasFoundation.Vestibulum.SignIn.World

/-!
# The browser binding

A binding row is a ticket too. One login writes it, under the hash of a
secret only its browser gets; a redemption answers Cognito only behind the
delete that takes the row of its cookie. Of all requests with that cookie
one gets the session, and one that brings no cookie, or a wrong one, gets
nothing and changes nothing.
-/

namespace SaasFoundation.Vestibulum.SignIn

open Lib

variable {D : Deployment} {c : SignInConfig}

/-! ## Who writes a binding -/

def Request.isBind : Request → Bool
  | .putBinding _ => true
  | _ => false

/-- The login behind a binding row: its run up to now, and the secret it
generated. -/
structure Binder (D : Deployment) (c : SignInConfig) (i : Nat) (row : BindingRow) where
  ev : FunctionUrlEvent
  prog : Handler Output
  plan : LoginPlan
  fs : List (Event Request Reply)
  out : FunctionUrlResult
  run : LoginRun D.rt plan (localLog c.log i ++ fs) out
  thread : c.threads[i]? = some ⟨.login ev, prog⟩
  row_eq : row = bindingRow D.rt run.secret run.nowMs plan.cfg.ttlMinutes run.started
  drawn : ⟨.newBindingSecret, run.secret⟩ ∈ localLog c.log i

namespace LoginRun

variable {rt : Runtime} {plan : LoginPlan} {es : List (Event Request Reply)}
  {out : FunctionUrlResult}

/-- A login asks for one row to be put. -/
theorem filter_isBind (r : LoginRun rt plan es out) :
    es.filter (fun e => e.op.isBind) =
      [⟨.putBinding (bindingRow rt r.secret r.nowMs plan.cfg.ttlMinutes r.started), r.stored⟩] := by
  have htries : r.tries.filter (fun e => e.op.isBind) = [] := by
    rw [List.filter_eq_nil_iff]
    intro e he
    have htry := (attempt_uses _).finishes r.attempts e he
    cases hop : e.op <;> simp [hop, Request.isAttempt, Request.ofStart, Request.isBind] at htry ⊢
  have htail : r.tail.filter (fun e => e.op.isBind) = [] := by
    rw [List.filter_eq_nil_iff]
    intro e he
    rcases r.floor e he with hop | ⟨ms, hop⟩ <;> simp [hop, Request.isBind]
  refine (congrArg (List.filter _) r.es_eq).trans ?_
  rw [List.filter_cons_of_neg (by simp [Request.isBind]),
    List.filter_cons_of_neg (by simp [Request.isBind]), List.filter_append, htries,
    List.nil_append, List.filter_cons_of_neg (by simp [Request.isBind]),
    List.filter_cons_of_pos rfl, List.filter_cons_of_neg (by simp [Request.isBind]), htail]

/-- The secret was drawn before the row was put. -/
theorem secret_mem {fs : List (Event Request Reply)} (r : LoginRun rt plan (es ++ fs) out)
    {e : Event Request Reply} (he : e ∈ es) (hop : e.op.isBind = true) :
    ⟨.newBindingSecret, r.secret⟩ ∈ es := by
  refine Prog.mem_of_prefix r.es_eq he
    (?_ : e ∉ [⟨.now, r.start⟩, ⟨.newBindingSecret, r.secret⟩]) (by simp)
  intro hmem
  have hops := List.mem_map_of_mem (f := Event.op) hmem
  simp only [List.map_cons, List.map_nil, List.mem_cons, List.not_mem_nil, or_false] at hops
  rcases hops with hnow | hdraw
  · rw [hnow] at hop
    cases hop
  · rw [hdraw] at hop
    cases hop

end LoginRun

/-- Binding rows come from a login in flight. -/
theorem bind_entry (h : (signIn D).Reachable c) {e : Entry Request Reply World}
    (he : e ∈ c.log) (hop : e.ev.op.isBind = true) :
    ∃ ev prog plan fs out, c.threads[e.tid]? = some ⟨.login ev, prog⟩ ∧
      Nonempty (LoginRun D.rt plan (localLog c.log e.tid ++ fs) out) := by
  obtain ⟨⟨job, q⟩, ht, hask⟩ := entry_thread h he
  cases job with
  | login ev =>
      obtain ⟨fs, out, hrun⟩ := thread_runs h ht
      obtain ⟨r, rfl, hlogin⟩ := finishes_start hrun
      rcases finishes_authLogin hlogin with ⟨-, hnil⟩ | ⟨plan, -, hplan⟩
      · have hmem := List.mem_append_left fs (Entry.mem_localLog he)
        rw [hnil] at hmem
        cases hmem
      · exact ⟨ev, q, plan, fs, r, ht, hplan⟩
  | create ev =>
      cases hreq : e.ev.op <;>
        simp_all [Job.mayAsk, Request.ofCreate, Request.isRead, Request.isBind]
  | verify ev => cases hreq : e.ev.op <;> simp_all [Job.mayAsk, Request.ofVerify, Request.isBind]
  | redeem ev => cases hreq : e.ev.op <;> simp_all [Job.mayAsk, Request.ofRedeem, Request.isBind]

theorem put_binder (h : (signIn D).Reachable c) {e : Entry Request Reply World}
    (he : e ∈ c.log) {row : BindingRow} (hop : e.ev.op = .putBinding row) :
    Nonempty (Binder D c e.tid row) := by
  have hbind : e.ev.op.isBind = true := by rw [hop]; rfl
  obtain ⟨ev, q, plan, fs, out, ht, ⟨r⟩⟩ := bind_entry h he hbind
  have hmem := Entry.mem_localLog he
  have hfilter : e.ev ∈ (localLog c.log e.tid ++ fs).filter (fun e => e.op.isBind) :=
    List.mem_filter.mpr ⟨List.mem_append_left fs hmem, hbind⟩
  rw [r.filter_isBind, List.mem_singleton] at hfilter
  have hrow := congrArg Event.op hfilter
  rw [hop] at hrow
  exact ⟨⟨ev, q, plan, fs, out, r, ht, Request.putBinding.inj hrow, r.secret_mem hmem hbind⟩⟩

/-- A thread puts at most one binding. -/
theorem countP_isBind_le (h : (signIn D).Reachable c) (i : Nat) :
    (localLog c.log i).countP (fun e => e.op.isBind) ≤ 1 := by
  by_cases hbind : ∃ e ∈ c.log, e.tid = i ∧ e.ev.op.isBind = true
  · obtain ⟨e, he, rfl, hop⟩ := hbind
    obtain ⟨_, _, plan, fs, out, -, ⟨r⟩⟩ := bind_entry h he hop
    have hall : (localLog c.log e.tid ++ fs).countP (fun e => e.op.isBind) = 1 := by
      rw [List.countP_eq_length_filter, r.filter_isBind]
      rfl
    rw [List.countP_append] at hall
    omega
  · rw [List.countP_eq_zero.mpr]
    · omega
    · intro ev hev hop
      obtain ⟨e, he, htid, rfl⟩ := mem_localLog.mp hev
      exact hbind ⟨e, he, htid, hop⟩

/-- The secrets of a run: those generated, and those presented as cookies. -/
def secretsSeen (c : SignInConfig) : Set String :=
  { b | ∃ e ∈ c.log, drawsSecret e.ev = some b } ∪
    { b | ∃ t ∈ c.threads, ∃ ev, t.job = .redeem ev ∧ bindingCookie ev = some b }

theorem Binder.secret_seen {i : Nat} {row : BindingRow} (w : Binder D c i row) :
    w.run.secret ∈ secretsSeen c := by
  obtain ⟨e, he, -, hev⟩ := mem_localLog.mp w.drawn
  exact .inl ⟨e, he, by rw [hev]; rfl⟩

/-- Rows under one key have one login. -/
theorem Binder.unique (h : (signIn D).Reachable c)
    (hinj : Set.InjOn D.rt.sha256Hex (secretsSeen c)) {i j : Nat} {row row' : BindingRow}
    (w : Binder D c i row) (w' : Binder D c j row') (hkey : row.bindingHash = row'.bindingHash) :
    i = j := by
  have hsecret : w.run.secret = w'.run.secret := by
    refine hinj w.secret_seen w'.secret_seen ?_
    rw [w.row_eq, w'.row_eq] at hkey
    exact hkey
  obtain ⟨e, he, rfl, hev⟩ := mem_localLog.mp w.drawn
  obtain ⟨e', he', rfl, hev'⟩ := mem_localLog.mp w'.drawn
  have hdraw : drawsSecret e.ev = some w.run.secret := by rw [hev]; rfl
  have hdraw' : drawsSecret e'.ev = some w.run.secret := by rw [hev', hsecret]; rfl
  rw [(freshSecrets D).draw_unique h e he e' he' _ hdraw hdraw']

/-- Of all requests of a run, at most one takes the row under a key. -/
theorem binding_removes_unique (h : (signIn D).Reachable c)
    (hinj : Set.InjOn D.rt.sha256Hex (secretsSeen c)) (k : String) :
    ∀ e₁ ∈ c.log, ∀ e₂ ∈ c.log, e₁.removes World.bindings k → e₂.removes World.bindings k →
      e₁ = e₂ := by
  refine (bindingRows D).removes_unique h (fun _ => rfl) ?_ (countP_isBind_le h) k
  intro e₁ he₁ e₂ he₂ row₁ row₂ hop₁ hop₂ hkey
  obtain ⟨w₁⟩ := put_binder h he₁ hop₁
  obtain ⟨w₂⟩ := put_binder h he₂ hop₂
  exact w₁.unique h hinj w₂ hkey

/-! ## Who answers Cognito -/

def Request.isRespond : Request → Bool
  | .respondToAuthChallenge _ _ _ _ => true
  | _ => false

/-- The request behind a call of `RespondToAuthChallenge`: the cookie it
brought, the row it took and the clock it read before. -/
structure Redemption (D : Deployment) (c : SignInConfig) (i : Nat) where
  ev : FunctionUrlEvent
  prog : Handler Output
  plan : RedeemPlan
  secret : String
  row : BindingRow
  expiresAt : Int
  nowMs : Int
  session : String
  username : String
  thread : c.threads[i]? = some ⟨.redeem ev, prog⟩
  cookie : bindingCookie ev = some secret
  taken : ⟨.takeBinding (D.rt.sha256Hex secret), .ok (some row)⟩ ∈ localLog c.log i
  clock : ⟨.now, nowMs⟩ ∈ localLog c.log i
  expires : row.expiresAt = some expiresAt
  fresh : nowMs < expiresAt * 1000
  session_eq : rowSession row = some (session, username)

/-- What a redemption has asked so far, as the beginning of a complete run. -/
theorem redeem_run (h : (signIn D).Reachable c) {i : Nat} {ev : FunctionUrlEvent}
    {prog : Handler Output} (ht : c.threads[i]? = some ⟨.redeem ev, prog⟩) :
    ∃ fs out, (authVerify D.rt D.redeemEnv ev).Finishes (localLog c.log i ++ fs) out := by
  obtain ⟨fs, out, hrun⟩ := thread_runs h ht
  obtain ⟨r, -, hredeem⟩ := finishes_start hrun
  exact ⟨fs, r, hredeem⟩

/-- Requests about rows and to Cognito come from redemptions. -/
theorem redeem_entry (h : (signIn D).Reachable c) {e : Entry Request Reply World}
    (he : e ∈ c.log) (hop : e.ev.op.isRedeem = true) :
    ∃ ev prog, c.threads[e.tid]? = some ⟨.redeem ev, prog⟩ := by
  obtain ⟨⟨job, q⟩, ht, hask⟩ := entry_thread h he
  cases job with
  | redeem ev => exact ⟨ev, q, ht⟩
  | create ev =>
      cases hreq : e.ev.op <;>
        simp_all [Job.mayAsk, Request.ofCreate, Request.isRead, Request.isRedeem]
  | verify ev => cases hreq : e.ev.op <;> simp_all [Job.mayAsk, Request.ofVerify, Request.isRedeem]
  | login ev =>
      cases hreq : e.ev.op <;>
        simp_all [Job.mayAsk, Request.ofLogin, Request.isAttempt, Request.ofStart, Request.isRedeem]

theorem respond_redemption (h : (signIn D).Reachable c) {e : Entry Request Reply World}
    (he : e ∈ c.log) (hop : e.ev.op.isRespond = true) :
    ∃ r : Redemption D c e.tid, e.ev.op =
      .respondToAuthChallenge r.plan.clientId r.session r.username r.plan.answer := by
  have hredeem : e.ev.op.isRedeem = true := by
    cases hreq : e.ev.op <;> simp_all [Request.isRespond, Request.isRedeem]
  obtain ⟨ev, q, ht⟩ := redeem_entry h he hredeem
  obtain ⟨fs, out, hrun⟩ := redeem_run h ht
  have hmem := Entry.mem_localLog he
  rcases finishes_authVerify hrun with hquiet | ⟨plan, secret, taken, rest, -, hcookie, hes, hrest⟩
  · rw [hquiet _ (List.mem_append_left fs hmem)] at hredeem
    cases hredeem
  have htake : e.ev ≠ ⟨.takeBinding (D.rt.sha256Hex secret), taken⟩ := by
    intro heq
    rw [heq] at hop
    cases hop
  have hin : e.ev ∈ rest := by
    have hall : e.ev ∈ localLog c.log e.tid ++ fs := List.mem_append_left fs hmem
    rw [hes] at hall
    exact (List.mem_cons.mp hall).resolve_left htake
  rcases hrest with hquiet | ⟨⟨row, expiresAt, nowMs, session, username, reply, tail, rfl, hexp,
    hfresh, hsession, rfl, hquiet⟩⟩
  · rw [hquiet _ hin] at hredeem
    cases hredeem
  refine ⟨⟨ev, q, plan, secret, row, expiresAt, nowMs, session, username, ht, hcookie,
    ?_, ?_, hexp, hfresh, hsession⟩, ?_⟩
  · exact Prog.mem_of_prefix hes hmem (by simpa using htake :
      e.ev ∉ [⟨.takeBinding (D.rt.sha256Hex secret), .ok (some row)⟩]) (by simp)
  · refine Prog.mem_of_prefix hes hmem
      (?_ : e.ev ∉ [⟨.takeBinding (D.rt.sha256Hex secret), .ok (some row)⟩, ⟨.now, nowMs⟩])
      (by simp)
    intro hpre
    rcases List.mem_cons.mp hpre with heq | heq
    · exact htake heq
    · rw [List.mem_singleton.mp heq] at hop
      cases hop
  · simp only [List.mem_cons] at hin
    rcases hin with heq | heq | hin
    · rw [heq] at hop
      cases hop
    · exact congrArg Event.op heq
    · rw [hquiet _ hin] at hredeem
      cases hredeem

/-- A thread calls `RespondToAuthChallenge` at most once. -/
theorem countP_isRespond_le (h : (signIn D).Reachable c) (i : Nat) :
    (localLog c.log i).countP (fun e => e.op.isRespond) ≤ 1 := by
  have hquiet : ∀ l : List (Event Request Reply), (∀ e ∈ l, e.op.isRedeem = false) →
      l.countP (fun e => e.op.isRespond) = 0 := by
    intro l hl
    rw [List.countP_eq_zero]
    intro e he hop
    have := hl e he
    cases hreq : e.op <;> simp_all [Request.isRespond, Request.isRedeem]
  by_cases hex : ∃ e ∈ c.log, e.tid = i ∧ e.ev.op.isRedeem = true
  · obtain ⟨e, he, rfl, hop⟩ := hex
    obtain ⟨ev, q, ht⟩ := redeem_entry h he hop
    obtain ⟨fs, out, hrun⟩ := redeem_run h ht
    suffices hall : (localLog c.log e.tid ++ fs).countP (fun e => e.op.isRespond) ≤ 1 by
      rw [List.countP_append] at hall
      omega
    rcases finishes_authVerify hrun with hl | ⟨plan, secret, taken, rest, -, -, hes, hrest⟩
    · rw [hquiet _ hl]
      omega
    · rw [hes, List.countP_cons_of_neg (by simp [Request.isRespond])]
      rcases hrest with hl | ⟨⟨a⟩⟩
      · rw [hquiet _ hl]
        omega
      · rw [a.rest_eq, List.countP_cons_of_neg (by simp [Request.isRespond]),
          List.countP_cons_of_pos rfl, hquiet _ a.quiet]
  · rw [hquiet]
    · omega
    · intro ev hev
      obtain ⟨e, he, htid, rfl⟩ := mem_localLog.mp hev
      by_contra hop
      exact hex ⟨e, he, htid, by simpa using hop⟩

/-- The row a redemption took was in the table, under the hash of its
cookie, and is gone. -/
theorem Redemption.removes (h : (signIn D).Reachable c) {i : Nat} (r : Redemption D c i) :
    ∃ e ∈ c.log, e.tid = i ∧ e.pre.bindings (D.rt.sha256Hex r.secret) = some r.row ∧
      e.ev.op = .takeBinding (D.rt.sha256Hex r.secret) ∧
      e.post.bindings (D.rt.sha256Hex r.secret) = none := by
  obtain ⟨e, he, htid, hev⟩ := mem_localLog.mp r.taken
  have hserve := h.served e he
  rw [hev] at hserve
  obtain ⟨⟨-, hpost⟩, hrow⟩ := hserve
  refine ⟨e, he, htid, (hrow _ rfl).symm, by rw [hev], ?_⟩
  rw [hpost]
  exact Table.erase_self _ _

/-- The login that generated the cookie of a redemption wrote the row it
took. -/
theorem Redemption.binder (h : (signIn D).Reachable c)
    (hinj : Set.InjOn D.rt.sha256Hex (secretsSeen c)) {i : Nat} (r : Redemption D c i) :
    ∃ j, ∃ b : Binder D c j r.row, b.run.secret = r.secret := by
  obtain ⟨e, he, -, hpre, -, -⟩ := r.removes h
  obtain ⟨e', he', hpre', hpost'⟩ := ((bindingRows D).ticketTable.inserted h _ _).2 e he hpre
  obtain ⟨hop, hk⟩ := (bindingRows D).inserted_by h he' hpre' hpost'
  obtain ⟨b⟩ := put_binder h he' hop
  refine ⟨e'.tid, b, hinj b.secret_seen ?_ ?_⟩
  · exact .inr ⟨_, List.mem_of_getElem? r.thread, r.ev, rfl, r.cookie⟩
  · rw [b.row_eq] at hk
    exact hk

/-- A redemption whose cookie matches no row leaves the table as it is. -/
theorem redeem_keeps (h : (signIn D).Reachable c) {e : Entry Request Reply World}
    {ev : FunctionUrlEvent} {prog : Handler Output}
    (ht : c.threads[e.tid]? = some ⟨.redeem ev, prog⟩)
    (hnone : ∀ secret, bindingCookie ev = some secret →
      ∀ e' ∈ c.log, e'.tid = e.tid → e'.ev.op = .takeBinding (D.rt.sha256Hex secret) →
        e'.pre.bindings (D.rt.sha256Hex secret) = none)
    (he : e ∈ c.log) : e.post.bindings = e.pre.bindings := by
  obtain ⟨fs, out, hrun⟩ := redeem_run h ht
  have hall := List.mem_append_left fs (Entry.mem_localLog he)
  have hask := authVerify_uses.finishes hrun _ hall
  have hchange := serve_change (h.served e he)
  cases hop : e.ev.op with
  | takeBinding k =>
      -- the only row a redemption asks for is the one of its cookie
      have hkey : ∃ secret, bindingCookie ev = some secret ∧ k = D.rt.sha256Hex secret := by
        rcases finishes_authVerify hrun with hquiet | ⟨plan, secret, taken, rest, -, hcookie, hes, hrest⟩
        · have := hquiet _ hall
          rw [hop] at this
          cases this
        refine ⟨secret, hcookie, ?_⟩
        rw [hes] at hall
        rcases List.mem_cons.mp hall with heq | hin
        · rw [heq] at hop
          exact (Request.takeBinding.inj hop).symm
        · have hquiet : e.ev.op.isRedeem = false ∨ e.ev.op.isRespond = true := by
            rcases hrest with hl | ⟨⟨a⟩⟩
            · exact .inl (hl _ hin)
            · rw [a.rest_eq] at hin
              simp only [List.mem_cons] at hin
              rcases hin with heq | heq | hin
              · exact .inl (by rw [heq]; rfl)
              · exact .inr (by rw [heq]; rfl)
              · exact .inl (a.quiet _ hin)
          rw [hop] at hquiet
          simp [Request.isRedeem, Request.isRespond] at hquiet
      obtain ⟨secret, hcookie, rfl⟩ := hkey
      have hfree := hnone secret hcookie e he rfl hop
      rw [hop] at hchange
      generalize e.post = w at hchange
      cases hchange with
      | nothing => rfl
      | takeBinding hrow =>
          rw [hfree] at hrow
          cases hrow
  | _ =>
      rw [hop] at hchange hask
      generalize e.post = w at hchange
      cases hchange <;> first | rfl | exact absurd hask id

/-- What a row stores is what the login started. -/
theorem rowSession_bindingRow {rt : Runtime} {secret : String} {nowMs ttl : Int}
    {started : Option Started} {session username : String}
    (h : rowSession (bindingRow rt secret nowMs ttl started) = some (session, username)) :
    started = some ⟨session, username⟩ := by
  cases started with
  | none => cases h
  | some s =>
      simp only [rowSession, bindingRow, Option.map_some] at h
      split at h
      · cases h
      · cases h
        rfl

/-- **Browser binding.** Every call of `RespondToAuthChallenge` is made by a
request that carries the secret of the row it took, before the row expires,
with the session and the username stored by the login that generated the
secret; the calls for one row come from one request, which makes one; and a
request without a cookie, or whose cookie matches no row, changes nothing
and calls nobody. -/
theorem browser_binding (h : (signIn D).Reachable c)
    (hinj : Set.InjOn D.rt.sha256Hex (secretsSeen c)) :
    (∀ e ∈ c.log, e.ev.op.isRespond = true → ∃ r : Redemption D c e.tid,
      e.ev.op = .respondToAuthChallenge r.plan.clientId r.session r.username r.plan.answer ∧
      r.row.bindingHash = D.rt.sha256Hex r.secret ∧
      ∃ j, ∃ b : Binder D c j r.row, b.run.secret = r.secret ∧
        b.run.started = some ⟨r.session, r.username⟩) ∧
    (∀ i j (r : Redemption D c i) (r' : Redemption D c j),
      r.row.bindingHash = r'.row.bindingHash → i = j) ∧
    (∀ i, (localLog c.log i).countP (fun e => e.op.isRespond) ≤ 1) ∧
    (∀ (i : Nat) (ev : FunctionUrlEvent) (prog : Handler Output),
      c.threads[i]? = some ⟨.redeem ev, prog⟩ →
      (∀ secret, bindingCookie ev = some secret →
        ∀ e ∈ c.log, e.tid = i → e.ev.op = .takeBinding (D.rt.sha256Hex secret) →
          e.pre.bindings (D.rt.sha256Hex secret) = none) →
      ∀ e ∈ c.log, e.tid = i →
        e.post.bindings = e.pre.bindings ∧ e.ev.op.isRespond = false) := by
  have hkey : ∀ {i : Nat} (r : Redemption D c i),
      r.row.bindingHash = D.rt.sha256Hex r.secret := by
    intro i r
    obtain ⟨j, b, hb⟩ := r.binder h hinj
    rw [b.row_eq, ← hb]
    rfl
  refine ⟨?_, ?_, countP_isRespond_le h, ?_⟩
  · intro e he hop
    obtain ⟨r, hr⟩ := respond_redemption h he hop
    obtain ⟨j, b, hb⟩ := r.binder h hinj
    refine ⟨r, hr, hkey r, j, b, hb, ?_⟩
    exact rowSession_bindingRow (b.row_eq ▸ r.session_eq)
  · intro i j r r' hsame
    rw [hkey r, hkey r'] at hsame
    obtain ⟨e, he, rfl, hpre, -, hpost⟩ := r.removes h
    obtain ⟨e', he', rfl, hpre', -, hpost'⟩ := r'.removes h
    rw [← hsame] at hpre' hpost'
    rw [binding_removes_unique h hinj (D.rt.sha256Hex r.secret) e he e' he'
      (by simp [Entry.removes, hpre, hpost]) (by simp [Entry.removes, hpre', hpost'])]
  · intro i ev prog ht hnone e he htid
    subst htid
    constructor
    · exact redeem_keeps h ht hnone he
    · by_contra hop
      obtain ⟨r, -⟩ := respond_redemption h he (by simpa using hop)
      have hev : r.ev = ev := by
        have hthread := r.thread
        rw [ht] at hthread
        cases hthread
        rfl
      obtain ⟨e', he', htid, hpre, htake, -⟩ := r.removes h
      rw [hnone r.secret (hev ▸ r.cookie) e' he' htid htake] at hpre
      cases hpre

/-- A redemption by the browser that logged in. -/
def Small.redeemEvent : FunctionUrlEvent :=
  ⟨[("origin", "https://app.example.com"), ("content-type", "application/json")],
    ["__Host-signin=" ++ Small.secret], some Small.redeemBody, some "POST"⟩

/-- One login, and two redemptions with its cookie of which the second is
too late. -/
def Small.redeemTwice : Small.Schedule :=
  [.spawn (.login (Small.loginEvent Small.loginBody))] ++ Small.answers 0 11 ++
    [.spawn (.redeem Small.redeemEvent), .spawn (.redeem Small.redeemEvent)] ++
    Small.answers 1 1 ++
    [.answer 2 fun w op => match op with
      | .takeBinding _ => .error .conditionalCheckFailed
      | op => Small.outside w op] ++
    Small.answers 1 3 ++ Small.answers 2 1

/-- The secrets of a run, as a list. -/
def secretsList (c : SignInConfig) : List String :=
  c.log.filterMap (fun e => drawsSecret e.ev) ++
    c.threads.filterMap (fun t => match t.job with
      | .redeem ev => bindingCookie ev
      | _ => none)

theorem secretsSeen_subset (c : SignInConfig) : secretsSeen c ⊆ { b | b ∈ secretsList c } := by
  rintro b (⟨e, he, hev⟩ | ⟨t, ht, ev, hjob, hcookie⟩) <;>
    simp only [secretsList, Set.mem_ofPred_eq, List.mem_append, List.mem_filterMap]
  · exact .inl ⟨e, he, hev⟩
  · exact .inr ⟨t, ht, by rw [hjob]; exact hcookie⟩

theorem browser_binding_redeemTwice : ∃ c : SignInConfig,
    (signIn Small.deployment).Reachable c ∧ Set.InjOn Small.rt.sha256Hex (secretsSeen c) ∧
    ∃ e ∈ c.log, e.ev.op.isRespond = true ∧ ∃ r : Redemption Small.deployment c e.tid,
      r.row.bindingHash = Small.rt.sha256Hex r.secret ∧
      ∃ j, ∃ b : Binder Small.deployment c j r.row,
        b.run.started = some ⟨r.session, r.username⟩ := by
  obtain ⟨c, hc, hend⟩ := (interpreter Small.deployment).exists_reachable Small.world_init
    Small.redeemTwice (fun c => c.log.any (fun e => e.ev.op.isRespond) &&
      (secretsList c == [Small.secret, Small.secret, Small.secret])) (by decide +kernel)
  simp only [Bool.and_eq_true, beq_iff_eq, List.any_eq_true] at hend
  obtain ⟨⟨e, he, hop⟩, hsecrets⟩ := hend
  have hinj : Set.InjOn Small.rt.sha256Hex (secretsSeen c) := by
    refine Set.InjOn.mono (secretsSeen_subset c) ?_
    rw [hsecrets]
    intro a ha b hb _
    simp only [Set.mem_ofPred_eq, List.mem_cons, List.not_mem_nil, or_false, or_self] at ha hb
    rw [ha, hb]
  obtain ⟨r, -, hkey, j, b, -, hstarted⟩ := (browser_binding hc hinj).1 e he hop
  exact ⟨c, hc, hinj, e, he, hop, r, hkey, j, b, hstarted⟩

end SaasFoundation.Vestibulum.SignIn
