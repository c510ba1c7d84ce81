import Mathlib.Data.Set.Function
import SaasFoundation.Vestibulum.SignIn.World

/-!
# Single use of a link

A token row is a ticket. One `Create` writes it, under the hash of a token
nobody else draws, and `Verify` succeeds only behind the delete that takes
it; so whatever the schedule, a row lets one `Verify` through. What that
`Verify` has established about the row, the answer and the clock is read off
the two runs the row connects.
-/

namespace SaasFoundation.Vestibulum.SignIn

open Lib Lib.Text

variable {D : Deployment} {c : SignInConfig}

/-! ## Who writes a row -/

/-- The tokens drawn in a run. -/
def tokensDrawn (c : SignInConfig) : Set String :=
  { t | ∃ e ∈ c.log, drawsToken e.ev = some t }

/-- A `Create` in flight that has asked for more than the time has not
thrown. -/
theorem create_run (h : (signIn D).Reachable c) {i : Nat} {ev : CreateAuthChallengeEvent}
    {q : Handler Output} (ht : c.threads[i]? = some ⟨.create ev, q⟩) {e : Event Request Reply}
    (he : e ∈ localLog c.log i) (hnow : e.op ≠ .now) (hsleep : ∀ ms, e.op ≠ .sleep ms) :
    ∃ fs out, Nonempty (IssueRun D.rt D.createEnv ev (localLog c.log i ++ fs) out) := by
  obtain ⟨fs, out, hrun⟩ := thread_runs h ht
  obtain ⟨r, rfl, hcreate⟩ := finishes_start hrun
  cases r with
  | ok out => exact ⟨fs, out, finishes_createAuthChallenge hcreate⟩
  | error thrown =>
      have hquiet := (finishes_createAuthChallenge_error hcreate).2 e (List.mem_append_left fs he)
      rcases hquiet with hop | ⟨ms, hop⟩
      · exact absurd hop hnow
      · exact absurd hop (hsleep ms)

/-- Rows and mails come from a `Create` in flight. -/
theorem issue_entry (h : (signIn D).Reachable c) {e : Entry Request Reply World}
    (he : e ∈ c.log) (hop : e.ev.op.isIssue = true) :
    ∃ ev q fs out, c.threads[e.tid]? = some ⟨.create ev, q⟩ ∧
      Nonempty (IssueRun D.rt D.createEnv ev (localLog c.log e.tid ++ fs) out) := by
  obtain ⟨⟨job, q⟩, ht, hask⟩ := entry_thread h he
  cases job with
  | create ev =>
      obtain ⟨fs, out, hr⟩ := create_run h ht (Entry.mem_localLog he)
        (fun hnow => by rw [hnow] at hop; cases hop)
        (fun ms hsleep => by rw [hsleep] at hop; cases hop)
      exact ⟨ev, q, fs, out, ht, hr⟩
  | verify ev => cases hreq : e.ev.op <;> simp_all [Job.mayAsk, Request.ofVerify, Request.isIssue]
  | login ev =>
      cases hreq : e.ev.op <;>
        simp_all [Job.mayAsk, Request.ofLogin, Request.isAttempt, Request.ofStart, Request.isIssue]
  | redeem ev => cases hreq : e.ev.op <;> simp_all [Job.mayAsk, Request.ofRedeem, Request.isIssue]

/-- The `Create` behind a row: its run up to now, and what went into the
row. -/
structure Writer (D : Deployment) (c : SignInConfig) (i : Nat) (row : TokenRow) where
  ev : CreateAuthChallengeEvent
  prog : Handler Output
  fs : List (Event Request Reply)
  out : ChallengeResponse
  run : IssueRun D.rt D.createEnv ev (localLog c.log i ++ fs) out
  email : String
  key : String
  thread : c.threads[i]? = some ⟨.create ev, prog⟩
  ready : Ready D.rt ev run.gathered email key
  row_eq : row = issuedRow D.rt run.cfg run.now email key run.token run.code
  drawn : ⟨.randomToken, run.token⟩ ∈ localLog c.log i

/-- Every row a run of `Create` asks to be put is the one it issues. -/
theorem IssueOutcome.put_eq {rt : Runtime} {cfg : CreateConfig} {ev : CreateAuthChallengeEvent}
    {now : Int} {token code : String} {g : Gathered} {es : List (Event Request Reply)}
    {out : ChallengeResponse} (ho : IssueOutcome rt cfg ev now token code g es out)
    {e : Event Request Reply} (he : e ∈ es) {row : TokenRow} (hop : e.op = .putToken row) :
    ∃ email key, Ready rt ev g email key ∧ row = issuedRow rt cfg now email key token code := by
  cases ho with
  | suppressed email t => cases he
  | unsent hready t =>
      rw [List.mem_singleton.mp he] at hop
      exact ⟨_, _, hready, (Request.putToken.inj hop).symm⟩
  | sendFailed hready t x =>
      rcases List.mem_cons.mp he with rfl | he
      · exact ⟨_, _, hready, (Request.putToken.inj hop).symm⟩
      · rw [List.mem_singleton.mp he] at hop
        cases hop
  | sent hready =>
      rcases List.mem_cons.mp he with rfl | he
      · exact ⟨_, _, hready, (Request.putToken.inj hop).symm⟩
      · rw [List.mem_singleton.mp he] at hop
        cases hop

theorem put_writer (h : (signIn D).Reachable c) {e : Entry Request Reply World}
    (he : e ∈ c.log) {row : TokenRow} (hop : e.ev.op = .putToken row) :
    Nonempty (Writer D c e.tid row) := by
  have hissue : e.ev.op.isIssue = true := by rw [hop]; rfl
  obtain ⟨ev, q, fs, out, ht, ⟨r⟩⟩ := issue_entry h he hissue
  have hmem := Entry.mem_localLog he
  obtain ⟨email, key, hready, hrow⟩ :=
    r.outcome.put_eq (List.mem_filter.mpr ⟨List.mem_append_left fs hmem, hissue⟩) hop
  exact ⟨⟨ev, q, fs, out, r, email, key, ht, hready, hrow,
    r.mem_of_issued hmem hissue (by simp)⟩⟩

/-- Rows under one key have one writer. -/
theorem Writer.unique (h : (signIn D).Reachable c)
    (hinj : Set.InjOn D.rt.sha256Hex (tokensDrawn c)) {i j : Nat} {row row' : TokenRow}
    (w : Writer D c i row) (w' : Writer D c j row') (hkey : row.tokenHash = row'.tokenHash) :
    i = j := by
  obtain ⟨e, he, rfl, hev⟩ := mem_localLog.mp w.drawn
  obtain ⟨e', he', rfl, hev'⟩ := mem_localLog.mp w'.drawn
  have hdraw : drawsToken e.ev = some w.run.token := by rw [hev]; rfl
  have hdraw' : drawsToken e'.ev = some w'.run.token := by rw [hev']; rfl
  have htoken : w.run.token = w'.run.token := by
    refine hinj ⟨e, he, hdraw⟩ ⟨e', he', hdraw'⟩ ?_
    rw [w.row_eq, w'.row_eq] at hkey
    exact hkey
  rw [← htoken] at hdraw'
  rw [(freshTokens D).draw_unique h e he e' he' _ hdraw hdraw']

/-- A thread puts at most one row. -/
theorem countP_isPut_le (h : (signIn D).Reachable c) (i : Nat) :
    (localLog c.log i).countP (fun e => e.op.isPut) ≤ 1 := by
  by_cases hput : ∃ e ∈ c.log, e.tid = i ∧ e.ev.op.isIssue = true
  · obtain ⟨e, he, rfl, hop⟩ := hput
    obtain ⟨ev, q, fs, out, -, ⟨r⟩⟩ := issue_entry h he hop
    have hall := r.countP_isPut_le
    rw [List.countP_append] at hall
    omega
  · rw [List.countP_eq_zero.mpr]
    · omega
    · intro ev hev hop
      obtain ⟨e, he, htid, rfl⟩ := mem_localLog.mp hev
      refine hput ⟨e, he, htid, ?_⟩
      cases hreq : e.ev.op <;> simp_all [Request.isPut, Request.isIssue]

/-- Of all requests of a run, at most one takes the row under a key. -/
theorem token_removes_unique (h : (signIn D).Reachable c)
    (hinj : Set.InjOn D.rt.sha256Hex (tokensDrawn c)) (k : String) :
    ∀ e₁ ∈ c.log, ∀ e₂ ∈ c.log, e₁.removes World.tokens k → e₂.removes World.tokens k →
      e₁ = e₂ := by
  refine (tokenRows D).removes_unique h (fun _ => rfl) ?_ (countP_isPut_le h) k
  intro e₁ he₁ e₂ he₂ row₁ row₂ hop₁ hop₂ hkey
  obtain ⟨w₁⟩ := put_writer h he₁ hop₁
  obtain ⟨w₂⟩ := put_writer h he₂ hop₂
  exact w₁.unique h hinj w₂ hkey

/-! ## Who consumes it -/

/-- The `Verify` with number `i` has set `answerCorrect`. -/
def AnswersCorrectly (c : SignInConfig) (i : Nat) (ev : VerifyAuthChallengeEvent) : Prop :=
  c.threads[i]? = some ⟨.verify ev, .ret (.verdict (.ok .correct))⟩

/-- The row whose delete let the `Verify` with number `i` through. -/
def Consumes (c : SignInConfig) (i : Nat) (row : TokenRow) : Prop :=
  ∃ e ∈ c.log, e.tid = i ∧ e.ev = ⟨.deleteToken row.tokenHash, .ok ()⟩ ∧
    e.pre.tokens row.tokenHash = some row ∧ e.post.tokens row.tokenHash = none

/-- Some `Create` of the run put the row. -/
def WrittenByCreate (c : SignInConfig) (row : TokenRow) : Prop :=
  ∃ e ∈ c.log, e.ev.op = .putToken row ∧
    ∃ ev prog, c.threads[e.tid]? = some ⟨.create ev, prog⟩

/-- The run of a `Verify` that has set `answerCorrect`. -/
theorem AnswersCorrectly.run (h : (signIn D).Reachable c) {i : Nat}
    {ev : VerifyAuthChallengeEvent} (hi : AnswersCorrectly c i ev) :
    Nonempty (RedeemRun D.rt D.verifyEnv ev (localLog c.log i)) := by
  obtain ⟨r, hr, hrun⟩ := finishes_start (thread_finishes h hi)
  cases hr
  exact finishes_verifyAuthChallenge_correct hrun

/-- The row a table holds under a key at some request was put there under
its own hash, by its writer. -/
theorem row_writer (h : (signIn D).Reachable c) {e : Entry Request Reply World}
    (he : e ∈ c.log) {k : String} {row : TokenRow} (hrow : e.pre.tokens k = some row) :
    row.tokenHash = k ∧ ∃ e' ∈ c.log, e'.ev.op = .putToken row := by
  obtain ⟨e', he', hpre, hpost⟩ := ((tokenRows D).ticketTable.inserted h k row).2 e he hrow
  obtain ⟨hop, hk⟩ := (tokenRows D).inserted_by h he' hpre hpost
  exact ⟨hk, e', he', hop⟩

/-- A `Verify` that has set `answerCorrect` has consumed the row of its
session, and a `Create` had written it. -/
theorem AnswersCorrectly.consumes (h : (signIn D).Reachable c) {i : Nat}
    {ev : VerifyAuthChallengeEvent} (hi : AnswersCorrectly c i ev) :
    ∃ row, Consumes c i row ∧ WrittenByCreate c row ∧
      ev.privateChallengeParameters.lookup "token_hash" = some row.tokenHash := by
  obtain ⟨r⟩ := hi.run h
  have hmem : ⟨.deleteToken r.accepted.rowKey, .ok ()⟩ ∈ localLog c.log i :=
    r.mem_of_eq (by simp)
  obtain ⟨e, he, rfl, hev⟩ := mem_localLog.mp hmem
  have hserve := h.served e he
  rw [hev] at hserve
  obtain ⟨hsome, hpost⟩ := hserve
  obtain ⟨row, hrow⟩ := Option.isSome_iff_exists.mp hsome
  obtain ⟨hk, e', he', hop'⟩ := row_writer h he hrow
  obtain ⟨w⟩ := put_writer h he' hop'
  rw [← hk] at hev hrow hpost
  refine ⟨row, ⟨e, he, rfl, hev, hrow, ?_⟩, ⟨e', he', hop', w.ev, w.prog, w.thread⟩, ?_⟩
  · rw [hpost]
    exact Table.erase_self _ _
  · rw [hk]
    exact r.fits.rowKey

/-- **Single use.** In every run of the service, every `Verify` that sets
`answerCorrect` consumes a row some `Create` wrote; of the rows with one
key, at most one `Verify` consumes one; and so at most one `Verify` of a
challenge, in whichever form the answers come, sets `answerCorrect`. -/
theorem link_single_use (h : (signIn D).Reachable c)
    (hinj : Set.InjOn D.rt.sha256Hex (tokensDrawn c)) :
    (∀ i ev, AnswersCorrectly c i ev → ∃ row, Consumes c i row ∧ WrittenByCreate c row ∧
      ev.privateChallengeParameters.lookup "token_hash" = some row.tokenHash) ∧
    (∀ i j row row', Consumes c i row → Consumes c j row' → row.tokenHash = row'.tokenHash →
      i = j) ∧
    (∀ i j ev ev', AnswersCorrectly c i ev → AnswersCorrectly c j ev' →
      ev.privateChallengeParameters.lookup "token_hash" =
        ev'.privateChallengeParameters.lookup "token_hash" → i = j) := by
  have hone : ∀ i j row row', Consumes c i row → Consumes c j row' →
      row.tokenHash = row'.tokenHash → i = j := by
    rintro i j row row' ⟨e, he, rfl, -, hpre, hpost⟩ ⟨e', he', rfl, -, hpre', hpost'⟩ hk
    rw [← hk] at hpre' hpost'
    have heq := token_removes_unique h hinj row.tokenHash e he e' he'
      (by simp [Entry.removes, hpre, hpost]) (by simp [Entry.removes, hpre', hpost'])
    rw [heq]
  refine ⟨fun i ev hi => hi.consumes h, hone, ?_⟩
  intro i j ev ev' hi hj hparams
  obtain ⟨row, hrow, -, hk⟩ := hi.consumes h
  obtain ⟨row', hrow', -, hk'⟩ := hj.consumes h
  rw [hk, hk'] at hparams
  exact hone i j row row' hrow hrow' (Option.some.inj hparams)

/-- A link and a code of one challenge are raced: both `Verify` runs have
read the row before either deletes it. -/
def Small.race : Small.Schedule :=
  [.spawn (.create Small.createEvent)] ++ Small.answers 0 13 ++
    [.spawn (.verify (Small.verifyEvent Small.code)),
      .spawn (.verify (Small.verifyEvent Small.token))] ++
    Small.answers 1 3 ++ Small.answers 2 3 ++ Small.answers 1 2

def SignInThread.isCorrect (t : SignInThread) : Bool :=
  match t with
  | ⟨.verify _, .ret (.verdict (.ok .correct))⟩ => true
  | _ => false

theorem SignInThread.isCorrect_iff {i : Nat} (h : (c.threads[i]?).any SignInThread.isCorrect) :
    ∃ ev, AnswersCorrectly c i ev := by
  obtain ⟨t, ht, hcorrect⟩ := (Option.any_eq_true _ _).mp h
  unfold SignInThread.isCorrect at hcorrect
  split at hcorrect
  · exact ⟨_, ht⟩
  · cases hcorrect

/-- The tokens drawn, as a list. -/
def drawnList (c : SignInConfig) : List String := c.log.filterMap (fun e => drawsToken e.ev)

theorem tokensDrawn_eq (c : SignInConfig) : tokensDrawn c = { t | t ∈ drawnList c } := by
  ext t
  simp [tokensDrawn, drawnList, List.mem_filterMap]

theorem link_single_use_race : ∃ c : SignInConfig, (signIn Small.deployment).Reachable c ∧
    Set.InjOn Small.rt.sha256Hex (tokensDrawn c) ∧
    ∃ ev row, AnswersCorrectly c 1 ev ∧ Consumes c 1 row ∧ WrittenByCreate c row := by
  obtain ⟨c, hc, hend⟩ := (interpreter Small.deployment).exists_reachable Small.world_init
    Small.race (fun c => (c.threads[1]?).any SignInThread.isCorrect &&
      (drawnList c == [Small.token])) (by decide +kernel)
  simp only [Bool.and_eq_true, beq_iff_eq] at hend
  obtain ⟨ev, hev⟩ := SignInThread.isCorrect_iff hend.1
  have hinj : Set.InjOn Small.rt.sha256Hex (tokensDrawn c) := by
    rw [tokensDrawn_eq, hend.2]
    intro a ha b hb _
    simp only [Set.mem_ofPred_eq, List.mem_singleton] at ha hb
    rw [ha, hb]
  obtain ⟨row, hrow, hwritten, -⟩ := (link_single_use hc hinj).1 1 ev hev
  exact ⟨c, hc, hinj, ev, row, hev, hrow, hwritten⟩

end SaasFoundation.Vestibulum.SignIn
