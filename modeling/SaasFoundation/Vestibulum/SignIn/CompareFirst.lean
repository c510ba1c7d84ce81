import Mathlib.Data.Set.Function
import SaasFoundation.Lib.BigStep
import SaasFoundation.Vestibulum.SignIn.World

/-!
# Compare first

`Verify` compares the answer with the session's own hashes before it opens
the token table, and then names rows by the session's own hash only. So an
answer of some other session burns nothing: the invocation it is typed into
asks the table for nothing, and whatever is typed, the rows of the other
sessions stay as they are.

An invocation is taken here as it comes in a busy service: a sequence of
requests, each served from whatever world the others have left behind.
-/

namespace SaasFoundation.Vestibulum.SignIn

open Lib Lib.Text

/-- The failures that come before the row is deleted. The others name the
delete itself, or the look at the allow-list behind it. -/
def FailReason.beforeConsume : FailReason → Bool
  | .alreadyConsumed | .deleteError | .ineligible | .allowListDown => false
  | _ => true

/-- The invocation failed before it came to consume its row. -/
def failsBeforeConsume : Except Thrown VerifyResult → Bool
  | .error _ => true
  | .ok .correct => false
  | .ok (.failed reason) => reason.beforeConsume

/-- The request deletes a row of the token table. -/
def Request.isConsume : Request → Bool
  | .deleteToken _ => true
  | _ => false

/-- The request reads or changes the token table. -/
def Request.onTokens : Request → Bool
  | .getToken _ | .deleteToken _ | .putToken _ => true
  | _ => false

/-- The answer is one of the session's own: its hash is the one the private
parameters hold for the token or for the code. -/
def OwnAnswer (rt : Runtime) (ev : VerifyAuthChallengeEvent) : Prop :=
  ∃ submitted, Json.asString ev.challengeAnswer = some submitted ∧
    ∃ form hash, expectedHash ev.privateChallengeParameters form = some hash ∧
      fromHex hash.toList = fromHex (rt.sha256Hex submitted).toList

/-- The two secrets behind a session's private parameters. -/
structure SessionSecrets (rt : Runtime) (params : Record) where
  token : String
  code : String
  token_hash : params.lookup "token_hash" = some (rt.sha256Hex token)
  code_hash : params.lookup "code_hash" = some (rt.sha256Hex code)

/-- An invocation of `Verify` as far as it has got, over a world it does not
have for itself. -/
structure Invocation (D : Deployment) (ev : VerifyAuthChallengeEvent) where
  entries : List (Entry Request Reply World)
  rest : Handler (Except Thrown VerifyResult)
  runs : (verifyAuthChallenge D.rt D.verifyEnv ev).Runs (entries.map Entry.ev) rest
  served : ∀ e ∈ entries, serve D e.pre e.ev.op e.ev.res e.post

/-- The invocation has done nothing to the world. -/
def Invocation.ChangesNothing {D : Deployment} {ev : VerifyAuthChallengeEvent}
    (inv : Invocation D ev) : Prop :=
  ∀ e ∈ inv.entries, e.post = e.pre

/-- The invocation has not asked the token table for anything. -/
def Invocation.LeavesTokensAlone {D : Deployment} {ev : VerifyAuthChallengeEvent}
    (inv : Invocation D ev) : Prop :=
  ∀ e ∈ inv.entries, e.ev.op.onTokens = false

/-- What is left of an invocation may still set `answerCorrect` from `w`. -/
def CanRedeem (D : Deployment) (rest : Handler (Except Thrown VerifyResult)) (w : World) : Prop :=
  ∃ w', rest.Completes (serve D) w (.ok .correct) w'

/-! ## An answer of another session -/

section Comparison

variable {rt : Runtime} {env : ProcessEnv} {ev : VerifyAuthChallengeEvent}

theorem constantTimeHashEqual_some {a : Option String} {b : String}
    (h : constantTimeHashEqual a (some b) = true) :
    ∃ hash, a = some hash ∧ fromHex hash.toList = fromHex b.toList := by
  cases a with
  | none =>
      rw [constantTimeHashEqual_none] at h
      cases h
  | some hash =>
      refine ⟨hash, rfl, ?_⟩
      simp only [constantTimeHashEqual, Option.getD_some] at h
      split at h
      · cases h
      · exact beq_iff_eq.mp h

/-- The comparison stops an answer that is not the session's own. -/
theorem checkAnswer_stranger (h : ¬ OwnAnswer rt ev) :
    ∃ reason, checkAnswer rt ev = .error reason := by
  cases hcheck : checkAnswer rt ev with
  | error reason => exact ⟨reason, rfl⟩
  | ok a =>
      obtain ⟨submitted, hfits⟩ := checkAnswer_ok hcheck
      obtain ⟨hash, hexpected, hbytes⟩ := constantTimeHashEqual_some hfits.hash
      exact absurd ⟨submitted, hfits.answer, a.form, hash, hexpected, hbytes⟩ h

/-- Behind a failed comparison no request is left. -/
theorem verifyAuthChallenge_stranger_uses (h : ¬ OwnAnswer rt ev) :
    (verifyAuthChallenge rt env ev).Uses (· = .resolveEmailHmacKey) := by
  obtain ⟨reason, hreason⟩ := checkAnswer_stranger h
  unfold verifyAuthChallenge
  rw [hreason]
  split
  · trivial
  · simp only [Prog.call_bind, Prog.uses_ask]
    refine ⟨trivial, fun reply => ?_⟩
    split <;> trivial

/-- Where no two of the texts in play share a hash, an answer that is
neither the token nor the code of the session is not its own. -/
theorem SessionSecrets.stranger (s : SessionSecrets rt ev.privateChallengeParameters)
    {submitted : String} (hanswer : Json.asString ev.challengeAnswer = some submitted)
    (hinj : Set.InjOn rt.sha256Hex {submitted, s.token, s.code})
    (htoken : submitted ≠ s.token) (hcode : submitted ≠ s.code) : ¬ OwnAnswer rt ev := by
  rintro ⟨submitted', hanswer', form, hash, hexpected, hbytes⟩
  obtain rfl : submitted = submitted' := Option.some.inj (hanswer.symm.trans hanswer')
  have hhash : ∀ secret, secret ∈ ({submitted, s.token, s.code} : Set String) →
      hash = rt.sha256Hex secret → submitted = secret := by
    rintro secret hsecret rfl
    refine hinj (by simp) hsecret ?_
    exact (rt.sha256Hex_digest submitted).fromHex_inj (rt.sha256Hex_digest secret) hbytes.symm
  cases form with
  | token =>
      have heq := Option.some.inj (hexpected.symm.trans s.token_hash)
      exact htoken (hhash s.token (by simp) heq)
  | code =>
      have heq := Option.some.inj (hexpected.symm.trans s.code_hash)
      exact hcode (hhash s.code (by simp) heq)

end Comparison

/-! ## Failures before the row is consumed -/

section Consume

variable {rt : Runtime} {env : ProcessEnv} {ev : VerifyAuthChallengeEvent}
  {es : List (Event Request Reply)}

/-- The comparison fails for reasons of its own. -/
theorem checkAnswer_error {reason : FailReason} (h : checkAnswer rt ev = .error reason) :
    reason.beforeConsume = true := by
  unfold checkAnswer at h
  simp only at h
  -- one branch for each way out, in the order of the source
  split at h
  · cases h
    rfl
  split at h
  · cases h
    rfl
  split at h
  · cases h
    rfl
  split at h
  · cases h
    rfl
  split at h
  · cases h
    rfl
  split at h
  · cases h
    rfl
  split at h
  · cases h
    rfl
  split at h
  · cases h
    rfl
  · cases h

theorem checkRow_some {hmacKey : String} {a : AcceptedAnswer} {row : TokenRow}
    {reason : FailReason} (h : checkRow rt ev hmacKey a row = .ok (some reason)) :
    reason.beforeConsume = true := by
  unfold checkRow at h
  simp only at h
  split at h
  · cases h
    rfl
  split at h
  · cases h
    rfl
  split at h
  · cases h
  · cases h
  · cases h
    rfl

/-- Before the delete nothing is reported that names it, and after it
nothing else. -/
theorem finishes_consume {enrollment : Enrollment} {rowKey : String} {row : TokenRow}
    {result : VerifyResult}
    (h : (consume env ev enrollment rowKey row).Finishes es result) :
    failsBeforeConsume (.ok result) = !es.any (fun e => e.op.isConsume) := by
  simp only [consume, Prog.call_bind, Prog.finishes_ask] at h
  obtain ⟨nowMs, fs, rfl, h⟩ := h
  split at h
  · simp only [Prog.pure_def, Prog.finishes_ret] at h
    obtain ⟨rfl, rfl⟩ := h
    rfl
  simp only [Prog.finishes_ask] at h
  obtain ⟨reply, gs, rfl, h⟩ := h
  have hconsumed : (⟨.now, nowMs⟩ :: ⟨.deleteToken rowKey, reply⟩ :: gs :
      List (Event Request Reply)).any (fun e => e.op.isConsume) = true := rfl
  rw [hconsumed]
  split at h
  · -- the allow-list has the last word
    unfold recheckEligibility at h
    split at h
    · simp only [Prog.pure_def, Prog.finishes_ret] at h
      rw [← h.2]
      rfl
    · simp only [Prog.call_bind, Prog.finishes_ask] at h
      obtain ⟨answer, hs, -, h⟩ := h
      split at h
      · rw [← (Prog.finishes_ret.mp h).2]
        rfl
      · rw [← (Prog.finishes_ret.mp h).2]
        rfl
      · split at h <;> rw [← (Prog.finishes_ret.mp h).2] <;> rfl
  · rw [← (Prog.finishes_ret.mp h).2]
    rfl
  · rw [← (Prog.finishes_ret.mp h).2]
    rfl

/-- A finished invocation failed before the consume step exactly when it
asked for no row to be deleted. -/
theorem finishes_failsBeforeConsume {r : Except Thrown VerifyResult}
    (h : (verifyAuthChallenge rt env ev).Finishes es r) :
    failsBeforeConsume r = !es.any (fun e => e.op.isConsume) := by
  unfold verifyAuthChallenge at h
  split at h
  · obtain ⟨rfl, rfl⟩ := Prog.finishes_ret.mp h
    rfl
  simp only [Prog.call_bind, Prog.finishes_ask] at h
  obtain ⟨reply, fs, rfl, h⟩ := h
  split at h
  · obtain ⟨rfl, rfl⟩ := Prog.finishes_ret.mp h
    rfl
  split at h
  · rename_i reason hreason
    obtain ⟨rfl, rfl⟩ := Prog.finishes_ret.mp h
    exact checkAnswer_error hreason
  split at h
  · obtain ⟨rfl, rfl⟩ := Prog.finishes_ret.mp h
    rfl
  simp only [redeem, Prog.call_bind, Prog.finishes_ask] at h
  obtain ⟨lookup, gs, rfl, h⟩ := h
  split at h
  · obtain ⟨rfl, rfl⟩ := Prog.finishes_ret.mp h
    rfl
  · obtain ⟨rfl, rfl⟩ := Prog.finishes_ret.mp h
    rfl
  split at h
  · obtain ⟨rfl, rfl⟩ := Prog.finishes_ret.mp h
    rfl
  · rename_i reason hreason
    obtain ⟨rfl, rfl⟩ := Prog.finishes_ret.mp h
    exact checkRow_some hreason
  · obtain ⟨hs, ts, result, rfl, hconsume, hret⟩ := Prog.finishes_bind.mp h
    obtain ⟨rfl, rfl⟩ := Prog.finishes_ret.mp hret
    rw [finishes_consume hconsume]
    simp [Request.isConsume]

end Consume

/-! ## The rows of other sessions -/

section Worlds

variable {D : Deployment} {params : Record} {w w' v : World} {op : Request} {r : Reply op}

/-- A session's request leaves the row of every other session. -/
theorem serve_otherRow {k : String} (hop : op.ofSession params)
    (hk : params.lookup "token_hash" ≠ some k) (h : serve D w op r w') :
    w'.tokens k = w.tokens k := by
  cases serve_change h with
  | nothing => rfl
  | @deleteToken own hrow =>
      have hne : k ≠ own := by
        rintro rfl
        exact hk hop
      exact Table.erase_of_ne _ hne
  | putToken hfree => exact hop.elim
  | count henabled => exact hop.elim
  | putBinding hfree => exact hop.elim
  | takeBinding hrow => exact hop.elim
  | drawToken t => exact hop.elim
  | drawSecret b => exact hop.elim

/-- A request that is no delete and no other write changes nothing. -/
theorem serve_read (hop : op.ofSession params) (hread : op.isConsume = false)
    (h : serve D w op r w') : w' = w := by
  cases serve_change h with
  | nothing => rfl
  | deleteToken hrow => cases hread
  | putToken hfree => exact hop.elim
  | count henabled => exact hop.elim
  | putBinding hfree => exact hop.elim
  | takeBinding hrow => exact hop.elim
  | drawToken t => exact hop.elim
  | drawSecret b => exact hop.elim

/-- A conditional delete is answered alike over two tables with one row. -/
theorem deleteToken_transfer {k : String} {reply : Except SdkError Unit}
    (hrow : w.tokens k = v.tokens k)
    (h : serve D w (.deleteToken k) reply w') :
    ∃ v', serve D v (.deleteToken k) reply v' ∧ w'.tokens k = v'.tokens k := by
  have hgone : ({ w with tokens := w.tokens.erase k } : World).tokens k =
      ({ v with tokens := v.tokens.erase k } : World).tokens k := by
    simp only [Table.erase_self]
  cases reply with
  | ok acknowledged =>
      obtain ⟨hsome, rfl⟩ := h
      exact ⟨_, ⟨hrow ▸ hsome, rfl⟩, hgone⟩
  | error failure =>
      rcases h with rfl | ⟨hsome, rfl⟩
      · exact ⟨v, .inl rfl, hrow⟩
      · exact ⟨_, .inr ⟨hrow ▸ hsome, rfl⟩, hgone⟩

/-- What a session's requests are answered depends on its own row only. -/
theorem serve_transfer {k : String} (hk : params.lookup "token_hash" = some k)
    (hop : op.ofSession params) (hrow : w.tokens k = v.tokens k) (h : serve D w op r w') :
    ∃ v', serve D v op r v' ∧ w'.tokens k = v'.tokens k := by
  cases op with
  | now =>
      cases h
      exact ⟨v, rfl, hrow⟩
  | resolveEmailHmacKey =>
      obtain ⟨hkey, rfl⟩ := h
      exact ⟨v, ⟨hkey, rfl⟩, hrow⟩
  | allowListGet poolId userName =>
      cases h
      exact ⟨v, rfl, hrow⟩
  | getToken own =>
      obtain rfl : own = k := Option.some.inj (hop.symm.trans hk)
      obtain ⟨hread, rfl⟩ := h
      exact ⟨v, ⟨fun row hreply => (hread row hreply).trans hrow, rfl⟩, hrow⟩
  | deleteToken own =>
      obtain rfl : own = k := Option.some.inj (hop.symm.trans hk)
      exact deleteToken_transfer hrow h
  | _ => exact hop.elim

/-- Whether a session can still be redeemed depends on its own row only. -/
theorem canRedeem_congr {k : String} (hk : params.lookup "token_hash" = some k)
    {rest : Handler (Except Thrown VerifyResult)} (hrest : rest.Uses (Request.ofSession params))
    (hrow : w.tokens k = v.tokens k) : CanRedeem D rest w ↔ CanRedeem D rest v := by
  have htransfer : ∀ w v : World, w.tokens k = v.tokens k → CanRedeem D rest w →
      CanRedeem D rest v := by
    rintro w v hrow ⟨w', hdone⟩
    have hstep : ∀ (w v : World) (op : Request) (r : Reply op) (w' : World),
        op.ofSession params → w.tokens k = v.tokens k → serve D w op r w' →
        ∃ v', serve D v op r v' ∧ w'.tokens k = v'.tokens k :=
      fun _ _ _ _ _ hop hrow h => serve_transfer hk hop hrow h
    obtain ⟨v', hdone', -⟩ := hdone.transfer hstep hrest hrow
    exact ⟨v', hdone'⟩
  exact ⟨htransfer w v hrow, htransfer v w hrow.symm⟩

end Worlds

/-! ## Invocations -/

namespace Invocation

variable {D : Deployment} {ev : VerifyAuthChallengeEvent} (inv : Invocation D ev)

theorem entry_ofSession {e : Entry Request Reply World} (he : e ∈ inv.entries) :
    e.ev.op.ofSession ev.privateChallengeParameters :=
  (verifyAuthChallenge_ofSession.runs inv.runs).1 e.ev (List.mem_map_of_mem he)

/-- Without a delete the invocation has done nothing. -/
theorem changesNothing_of_reads (hread : ∀ e ∈ inv.entries, e.ev.op.isConsume = false) :
    inv.ChangesNothing :=
  fun e he => serve_read (inv.entry_ofSession he) (hread e he) (inv.served e he)

theorem changesNothing_of_failure {r : Except Thrown VerifyResult} (hdone : inv.rest = .ret r)
    (hfail : failsBeforeConsume r = true) : inv.ChangesNothing := by
  have hrun : (verifyAuthChallenge D.rt D.verifyEnv ev).Finishes (inv.entries.map Entry.ev) r := by
    have hruns := inv.runs
    rwa [hdone] at hruns
  rw [finishes_failsBeforeConsume hrun] at hfail
  refine inv.changesNothing_of_reads fun e he => ?_
  by_contra hconsume
  have hany : (inv.entries.map Entry.ev).any (fun e => e.op.isConsume) = true :=
    List.any_eq_true.mpr ⟨e.ev, List.mem_map_of_mem he, by simpa using hconsume⟩
  rw [hany] at hfail
  cases hfail

theorem stranger (h : ¬ OwnAnswer D.rt ev) : inv.LeavesTokensAlone ∧ inv.ChangesNothing := by
  have hops : ∀ e ∈ inv.entries, e.ev.op = .resolveEmailHmacKey := fun e he =>
    ((verifyAuthChallenge_stranger_uses h).runs inv.runs).1 e.ev (List.mem_map_of_mem he)
  constructor
  · intro e he
    rw [hops e he]
    rfl
  · refine inv.changesNothing_of_reads fun e he => ?_
    rw [hops e he]
    rfl

/-- Whatever is submitted, another session keeps its row, and what is left
of its own invocations can do what it could. -/
theorem keeps_other {ev' : VerifyAuthChallengeEvent} {k : String}
    (hk : ev'.privateChallengeParameters.lookup "token_hash" = some k)
    (hne : ev.privateChallengeParameters.lookup "token_hash" ≠ some k)
    (inv' : Invocation D ev') {e : Entry Request Reply World} (he : e ∈ inv.entries) :
    e.post.tokens k = e.pre.tokens k ∧
      (CanRedeem D inv'.rest e.pre ↔ CanRedeem D inv'.rest e.post) := by
  have hrow := serve_otherRow (inv.entry_ofSession he) hne (inv.served e he)
  exact ⟨hrow, canRedeem_congr hk (verifyAuthChallenge_ofSession.runs inv'.runs).2 hrow.symm⟩

end Invocation

/-- **Compare first.** For every event and whatever the world does between
the requests of an invocation:

* it has failed before the consume step just when no row was asked to be
  deleted, and then it has changed nothing;
* an answer that is not the session's own leads to no request to the token
  table and changes nothing, however far the invocation has got; and an
  answer is not the session's own when it is neither its token nor its code,
  and no two of these three texts share a hash;
* whatever is submitted, each of its requests leaves the row of every
  session with another token hash, and what is left of that session's own
  invocations can still set `answerCorrect` just when it could before; two
  sessions have two token hashes when their tokens differ and do not share
  a hash. -/
theorem compare_first (D : Deployment) :
    (∀ (ev : VerifyAuthChallengeEvent) es r,
      (verifyAuthChallenge D.rt D.verifyEnv ev).Finishes es r →
      (failsBeforeConsume r = true ↔ ∀ e ∈ es, e.op.isConsume = false)) ∧
    (∀ (ev : VerifyAuthChallengeEvent) (inv : Invocation D ev) r,
      inv.rest = .ret r → failsBeforeConsume r = true → inv.ChangesNothing) ∧
    (∀ (ev : VerifyAuthChallengeEvent) (inv : Invocation D ev),
      ¬ OwnAnswer D.rt ev → inv.LeavesTokensAlone ∧ inv.ChangesNothing) ∧
    (∀ (ev : VerifyAuthChallengeEvent) (inv : Invocation D ev)
      (own : SessionSecrets D.rt ev.privateChallengeParameters) (submitted : String),
      Json.asString ev.challengeAnswer = some submitted →
      Set.InjOn D.rt.sha256Hex {submitted, own.token, own.code} →
      submitted ≠ own.token → submitted ≠ own.code →
      inv.LeavesTokensAlone ∧ inv.ChangesNothing) ∧
    (∀ (ev ev' : VerifyAuthChallengeEvent) (inv : Invocation D ev) (inv' : Invocation D ev')
      (k : String), ev'.privateChallengeParameters.lookup "token_hash" = some k →
      ev.privateChallengeParameters.lookup "token_hash" ≠ some k →
      ∀ e ∈ inv.entries, e.post.tokens k = e.pre.tokens k ∧
        (CanRedeem D inv'.rest e.pre ↔ CanRedeem D inv'.rest e.post)) ∧
    (∀ (params params' : Record) (own : SessionSecrets D.rt params)
      (other : SessionSecrets D.rt params'),
      Set.InjOn D.rt.sha256Hex {own.token, other.token} → own.token ≠ other.token →
      params.lookup "token_hash" ≠ params'.lookup "token_hash") := by
  refine ⟨?_, fun ev inv r hdone hfail => inv.changesNothing_of_failure hdone hfail,
    fun ev inv h => inv.stranger h, ?_,
    fun ev ev' inv inv' k hk hne e he => inv.keeps_other hk hne inv' he, ?_⟩
  · intro ev es r hrun
    rw [finishes_failsBeforeConsume hrun, Bool.not_eq_true', List.any_eq_false]
    simp only [Bool.not_eq_true]
  · intro ev inv own submitted hanswer hinj htoken hcode
    exact inv.stranger (own.stranger hanswer hinj htoken hcode)
  · intro params params' own other hinj hne heq
    rw [own.token_hash, other.token_hash] at heq
    exact hne (hinj (by simp) (by simp) (Option.some.inj heq))

namespace Small

/-- A session of its own, answered with the link of the session of
`verifyEvent`. -/
def strangerEvent : VerifyAuthChallengeEvent where
  userPoolId := "pool"
  userName := "eve"
  privateChallengeParameters :=
    privateParameters "eve@example.org" (rt.sha256Hex secondToken) (rt.sha256Hex "76543210") "false"
  challengeAnswer := some (.str token)
  session := []

def strangerSecrets : SessionSecrets rt strangerEvent.privateChallengeParameters where
  token := secondToken
  code := "76543210"
  token_hash := rfl
  code_hash := rfl

theorem strangerEvent_stranger : ¬ OwnAnswer rt strangerEvent := by
  have hinj : ∀ a ∈ [token, secondToken, "76543210"], ∀ b ∈ [token, secondToken, "76543210"],
      rt.sha256Hex a = rt.sha256Hex b → a = b := by decide +kernel
  refine strangerSecrets.stranger rfl ?_ (by decide) (by decide)
  intro a ha b hb
  exact hinj a (by simpa [strangerSecrets] using ha) b (by simpa [strangerSecrets] using hb)

/-- The invocation it leads to. -/
def strangerInvocation : Invocation deployment strangerEvent where
  entries := ((verifyAuthChallenge rt env strangerEvent).play (outside world)).1.map
    fun ev => ⟨0, world, ev, world⟩
  rest := .ret ((verifyAuthChallenge rt env strangerEvent).play (outside world)).2
  runs := by
    rw [List.map_map]
    exact (List.map_id _).symm ▸ Prog.play_finishes (outside world) _
  served := by
    intro e he
    obtain ⟨ev, hev, rfl⟩ := List.mem_map.mp he
    have hplay := Prog.play_finishes (outside world) (verifyAuthChallenge rt env strangerEvent)
    have hop := (verifyAuthChallenge_stranger_uses strangerEvent_stranger).finishes hplay ev hev
    have hres := Prog.play_answers (outside world) _ ev hev
    obtain ⟨op, res⟩ := ev
    obtain rfl : op = .resolveEmailHmacKey := hop
    obtain rfl : res = .ok hmacKey := hres
    exact ⟨fun key hkey => (Except.ok.inj hkey).symm, rfl⟩

end Small

theorem compare_first_stranger : Small.strangerInvocation.LeavesTokensAlone ∧
    Small.strangerInvocation.ChangesNothing :=
  (compare_first Small.deployment).2.2.1 _ Small.strangerInvocation Small.strangerEvent_stranger

end SaasFoundation.Vestibulum.SignIn
