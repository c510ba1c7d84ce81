import Mathlib
import SaasFoundation.Vestibulum.SignIn.SingleUse

/-!
# The send caps

How many mails an address can be sent. One counter row bounds the updates
that were acknowledged under its key for as long as all of them carry one
limit and one expiry and come before that expiry; the rest is to show that
a bucket's key stands for one limiter, one subject and one stretch of time.

The window limiters name the stretch by a number. The daily cap names it by
the first ten characters of the ISO text, which are the date only in years
of four digits: there the key stands for a day, beyond them for up to ten.
-/

namespace SaasFoundation.Vestibulum.SignIn

open Lib Lib.Text

variable {D : Deployment} {c : SignInConfig}

/-! ## One counter row -/

/-- An acknowledged update of the row `k`. -/
def isHit (k : String) : Event Request Reply → Bool
  | ⟨.updateCounter u, .ok _⟩ => u.bucketId == k
  | _ => false

/-- What a row knows of its acknowledged updates: while it is there it has
counted them all, and once it is gone it counted them until it expired. -/
def Metered (limit expiresAt now : Int) (hits : Nat) : Option CounterRow → Prop
  | some row => hits ≤ row.count ∧ row.count ≤ limit ∧ row.expiresAt = expiresAt
  | none => hits = 0 ∨ (hits ≤ limit ∧ expiresAt * 1000 ≤ now)

namespace Metered

variable {limit expiresAt now now' : Int} {hits hits' : Nat} {row : Option CounterRow}

theorem bound (h : Metered limit expiresAt now hits row) (hlimit : 1 ≤ limit) :
    (hits : Int) ≤ limit := by
  cases row with
  | none =>
      rcases h with hzero | hgone
      · omega
      · exact hgone.1
  | some row =>
      obtain ⟨hhits, hle, -⟩ := h
      omega

theorem later (h : Metered limit expiresAt now hits row) (hle : now ≤ now') :
    Metered limit expiresAt now' hits row := by
  cases row with
  | none =>
      rcases h with hzero | ⟨hhits, hgone⟩
      · exact .inl hzero
      · exact .inr ⟨hhits, by omega⟩
  | some row => exact h

/-- A row that is taken has expired. -/
theorem swept {row : CounterRow} (h : Metered limit expiresAt now hits (some row))
    (hexp : row.expiresAt * 1000 ≤ now) : Metered limit expiresAt now hits none := by
  obtain ⟨hhits, hle, hrowExp⟩ := h
  rw [hrowExp] at hexp
  exact .inr ⟨by omega, hexp⟩

/-- An update that is let through finds a row with room or none at all, and
in the second case nothing has been counted yet, since it comes before the
expiry. -/
theorem counted {u : CounterUpdate} (h : Metered limit expiresAt now hits row)
    (hlimit : 1 ≤ limit) (hlim : u.limit = some limit) (hexp : u.expiresAt = expiresAt)
    (hbefore : now < expiresAt * 1000) (henabled : u.enabled row = true)
    (hone : hits' ≤ hits + 1) : Metered limit expiresAt now hits' (some (u.apply row)) := by
  simp only [CounterUpdate.enabled, hlim] at henabled
  cases row with
  | none =>
      have hzero : hits = 0 := h.resolve_right (fun hgone => by omega)
      refine ⟨?_, ?_, hexp⟩
      · show (hits' : Int) ≤ 0 + 1
        omega
      · show (0 : Int) + 1 ≤ limit
        omega
  | some row =>
      simp only [Bool.and_eq_true, decide_eq_true_eq] at henabled
      obtain ⟨hhits, -, -⟩ := h
      refine ⟨?_, ?_, hexp⟩
      · show (hits' : Int) ≤ row.count + 1
        omega
      · show row.count + 1 ≤ limit
        omega

end Metered

/-- The acknowledged updates of the row `k`. -/
def hits (k : String) (c : SignInConfig) : Nat := c.log.countP (fun e => isHit k e.ev)

/-- The updates of the row `k` agree on its limit and its expiry, and none
comes after it. -/
def Uniform (k : String) (limit expiresAt : Int) (log : List (Entry Request Reply World)) : Prop :=
  ∀ e ∈ log, ∀ u, e.ev.op = .updateCounter u → u.bucketId = k →
    u.limit = some limit ∧ u.expiresAt = expiresAt ∧ e.pre.now < expiresAt * 1000

section Counter

variable {k : String} {limit expiresAt : Int}

/-- A request leaves the counters and the time alone, or is an update that
was let through. -/
theorem serve_counters {w w' : World} {op : Request} {r : Reply op}
    (h : SignIn.serve D w op r w') :
    (w'.counters = w.counters ∧ w'.now = w.now ∧ isHit k ⟨op, r⟩ = false) ∨
    ∃ u, op = .updateCounter u ∧ u.enabled (w.counters u.bucketId) = true ∧
      w' = { w with counters := w.counters.put u.bucketId (u.apply (w.counters u.bucketId)) } := by
  cases op with
  | updateCounter u =>
      cases r with
      | ok a => exact .inr ⟨u, rfl, h⟩
      | error x =>
          rcases h with rfl | happlied
          · exact .inl ⟨rfl, rfl, rfl⟩
          · exact .inr ⟨u, rfl, happlied⟩
  | _ => cases serve_change h <;> exact .inl ⟨rfl, rfl, rfl⟩

/-- A move keeps the row, or takes it once it has expired. -/
theorem metered_move {w w' : World} {m : Move} {n : Nat}
    (h : Metered limit expiresAt w.now n (w.counters k)) (hm : w.move m = some w') :
    Metered limit expiresAt w'.now n (w'.counters k) := by
  rcases move_cases hm with ⟨now, hle, rfl⟩ | ⟨_, _, _, _, _, _, rfl⟩ | ⟨_, _, _, _, _, _, rfl⟩ |
    ⟨k', row, hrow, hexp, rfl⟩
  · exact h.later hle
  · exact h
  · exact h
  · show Metered limit expiresAt w.now n (w.counters.erase k' k)
    by_cases hk : k = k'
    · subst hk
      rw [hrow] at h
      rw [Table.erase_self]
      exact h.swept hexp
    · rw [Table.erase_of_ne _ hk]
      exact h

theorem metered_serve {w w' : World} {op : Request} {r : Reply op} {n : Nat}
    (h : Metered limit expiresAt w.now n (w.counters k)) (hlimit : 1 ≤ limit)
    (hserve : SignIn.serve D w op r w')
    (hu : ∀ u, op = .updateCounter u → u.bucketId = k →
      u.limit = some limit ∧ u.expiresAt = expiresAt ∧ w.now < expiresAt * 1000) :
    Metered limit expiresAt w'.now (n + if isHit k ⟨op, r⟩ then 1 else 0) (w'.counters k) := by
  rcases serve_counters (k := k) hserve with ⟨hcounters, hnow, hmiss⟩ | ⟨u, rfl, henabled, rfl⟩
  · rw [hcounters, hnow, hmiss]
    exact h
  · show Metered limit expiresAt w.now _ (w.counters.put u.bucketId _ k)
    by_cases hk : u.bucketId = k
    · subst hk
      obtain ⟨hlim, hexp, hbefore⟩ := hu u rfl rfl
      rw [Table.put_self]
      refine h.counted hlimit hlim hexp hbefore henabled ?_
      split <;> omega
    · have hmiss : isHit k ⟨.updateCounter u, r⟩ = false := by
        cases r with
        | ok a => simp [isHit, hk]
        | error x => rfl
      rw [Table.put_of_ne _ _ (Ne.symm hk), hmiss]
      exact h

/-- In every run whose updates of a row are uniform, the row meters them. -/
theorem metered (hlimit : 1 ≤ limit) (h : (signIn D).Reachable c)
    (hu : Uniform k limit expiresAt c.log) :
    Metered limit expiresAt c.world.now (hits k c) (c.world.counters k) := by
  induction h with
  | init hw =>
      rw [hw.2.2.1]
      exact .inl rfl
  | @step c d hc hs ih =>
      cases hs with
      | spawn _ => exact ih hu
      | request hi hserve =>
          have hold := ih (fun e he => hu e (List.mem_append_left _ he))
          unfold hits at hold ⊢
          rw [List.countP_append, List.countP_singleton]
          exact metered_serve hold hlimit hserve
            (fun u hop hk => hu _ (List.mem_append_right _ List.mem_cons_self) u hop hk)
      | drift hd =>
          obtain ⟨m, hm⟩ := hd
          exact metered_move (ih hu) hm

end Counter

/-! ## The text of a bucket -/

/-- What is hashed for a bucket: a text, under the secret or plain. -/
def BucketName.hashed (rt : Runtime) (b : BucketName) : Bool × String :=
  match b with
  | .window _ _ => (true, b.text rt)
  | .dailyCap _ _ => (true, b.text rt)
  | .loginIp _ _ => (false, b.text rt)

def bucketDigest (rt : Runtime) (hmacKey : String) : Bool × String → String
  | (true, text) => rt.hmacSha256Hex hmacKey text
  | (false, text) => rt.sha256Hex text

theorem bucketId_eq (rt : Runtime) (hmacKey : String) (b : BucketName) :
    b.bucketId rt hmacKey = bucketDigest rt hmacKey (b.hashed rt) := by
  cases b <;> rfl

/-- The name as far as its text keeps it: addresses are lower-cased. -/
def BucketName.folded (rt : Runtime) : BucketName → BucketName
  | .window email ws => .window (rt.toLowerCase email) ws
  | .dailyCap address date => .dailyCap (rt.toLowerCase address) date
  | .loginIp ip ws => .loginIp ip ws

/-- A date can be set off by a `#`. -/
def BucketName.Separable : BucketName → Prop
  | .dailyCap _ date => '#' ∉ date.toList
  | _ => True

theorem hash_not_mem_toString (n : Int) : '#' ∉ (toString n).toList := by
  intro hmem
  have hnat : ∀ m : Nat, '#' ∉ m.repr.toList := by
    intro m hm
    rw [Nat.toList_repr] at hm
    have := Nat.isDigit_of_mem_toDigits (by decide) (by decide) hm
    cases this
  cases n with
  | ofNat m => exact hnat m hmem
  | negSucc m =>
      have : '#' ∈ ("-" ++ (m + 1).repr).toList := hmem
      rw [String.toList_append, List.mem_append] at this
      exact this.elim (by decide) (hnat (m + 1))

/-- Tag, subject and stretch of time are read back from the text. -/
theorem text_inj {tag subject subject' stretch stretch' : String}
    (h : tag ++ subject ++ "#" ++ stretch = tag ++ subject' ++ "#" ++ stretch')
    (hs : '#' ∉ stretch.toList) (hs' : '#' ∉ stretch'.toList) :
    subject = subject' ∧ stretch = stretch' := by
  have htext : tag.toList ++ (subject.toList ++ '#' :: stretch.toList) =
      tag.toList ++ (subject'.toList ++ '#' :: stretch'.toList) := by
    simpa [String.toList_append] using congrArg String.toList h
  obtain ⟨hsub, hstr⟩ := append_sep_inj (List.append_cancel_left htext) hs hs'
  exact ⟨String.toList_inj.mp hsub, String.toList_inj.mp hstr⟩

/-- Different buckets hash different texts, or the same text differently. -/
theorem hashed_inj (rt : Runtime) {b b' : BucketName} (hb : b.Separable) (hb' : b'.Separable)
    (h : b.hashed rt = b'.hashed rt) : b.folded rt = b'.folded rt := by
  cases b with
  | window email ws =>
      cases b' with
      | window email' ws' =>
          obtain ⟨hemail, hws⟩ := text_inj (congrArg Prod.snd h)
            (hash_not_mem_toString ws) (hash_not_mem_toString ws')
          rw [BucketName.folded, BucketName.folded, hemail, Int.repr_inj.mp hws]
      | dailyCap address date =>
          have hfirst := congrArg (fun p => p.2.toList.head?) h
          simp [BucketName.hashed, BucketName.text, String.toList_append] at hfirst
      | loginIp ip ws' => cases congrArg Prod.fst h
  | dailyCap address date =>
      cases b' with
      | window email' ws' =>
          have hfirst := congrArg (fun p => p.2.toList.head?) h
          simp [BucketName.hashed, BucketName.text, String.toList_append] at hfirst
      | dailyCap address' date' =>
          obtain ⟨haddr, hdate⟩ := text_inj (congrArg Prod.snd h) hb hb'
          rw [BucketName.folded, BucketName.folded, haddr, hdate]
      | loginIp ip ws' => cases congrArg Prod.fst h
  | loginIp ip ws =>
      cases b' with
      | window email' ws' => cases congrArg Prod.fst h
      | dailyCap address' date' => cases congrArg Prod.fst h
      | loginIp ip' ws' =>
          obtain ⟨hip, hws⟩ := text_inj (congrArg Prod.snd h)
            (hash_not_mem_toString ws) (hash_not_mem_toString ws')
          rw [BucketName.folded, BucketName.folded, hip, Int.repr_inj.mp hws]

/-! ## The date of a bucket -/

theorem utcDate_separable {t : Int} {date : String} (h : utcDate t = some date) :
    '#' ∉ date.toList := by
  simp only [utcDate, Option.map_eq_some_iff] at h
  obtain ⟨s, hs, rfl⟩ := h
  rw [String.toList_ofList]
  intro hmem
  exact IsoDate.hash_not_mem_toIsoString hs (List.mem_of_mem_take hmem)

/-- In a year of four digits the ten characters are the whole date. -/
theorem utcDate_fourDigit {t : Int} {date : String} (ht : IsoDate.FourDigitYear t)
    (h : utcDate t = some date) : date = String.ofList (IsoDate.dateText (IsoDate.day t)) := by
  simp only [utcDate, IsoDate.toIsoString, Option.map_eq_some_iff, Option.ite_none_right_eq_some,
    Option.some.injEq] at h
  obtain ⟨s, ⟨-, rfl⟩, rfl⟩ := h
  have hlen := IsoDate.dateText_length ht
  rw [List.append_assoc, ← hlen, List.take_left]

/-- Such a date stands for one day. -/
theorem utcDate_inj {s t : Int} {date : String} (hs : IsoDate.FourDigitYear s)
    (ht : IsoDate.FourDigitYear t) (h : utcDate s = some date) (h' : utcDate t = some date) :
    IsoDate.day s = IsoDate.day t := by
  apply IsoDate.dateText_inj hs ht
  have heq := (utcDate_fourDigit hs h).symm.trans (utcDate_fourDigit ht h')
  simpa using congrArg String.toList heq

/-! ## Who updates which bucket -/

/-- The clock readings of an invocation. -/
def clockReads (es : List (Event Request Reply)) : List Int :=
  es.filterMap fun
    | ⟨.now, t⟩ => some t
    | _ => none

/-- The reading that names an invocation's buckets: the second, the first
is the floor's. -/
def namingClock (es : List (Event Request Reply)) : Option Int := (clockReads es)[1]?

/-- Whom a `Create` counts: the recipient, or the username of a phantom. -/
def subjectKey (rt : Runtime) (ev : CreateAuthChallengeEvent) : String :=
  (recipient rt ev).getD ev.userName

/-- The buckets an invocation names at the clock `t`. -/
def Job.buckets (rt : Runtime) (t : Int) : Job → List BucketName
  | .create ev =>
      .window (subjectKey rt ev) (startOf rateLimitWindowMs t) ::
        ((utcDate t).map (.dailyCap (subjectKey rt ev))).toList
  | .login ev => ((clientIp ev).map (.loginIp · (startOf rateLimitWindowMs t))).toList
  | _ => []

/-- The update `u` is one that the invocation `job` makes at the clock `t`,
for the bucket `b`. -/
inductive Counting (D : Deployment) (t : Int) : Job → BucketName → CounterUpdate → Prop
  | window {ev : CreateAuthChallengeEvent} {cfg : CreateConfig}
      (hcfg : createConfig D.createEnv = some cfg) :
      Counting D t (.create ev) (.window (subjectKey D.rt ev) (startOf rateLimitWindowMs t))
        (rateLimitUpdate D.rt (subjectKey D.rt ev) D.emailHmacKey cfg.sendsPerWindow t)
  | daily {ev : CreateAuthChallengeEvent} {cfg : CreateConfig} {date : String}
      (hcfg : createConfig D.createEnv = some cfg) (hdate : utcDate t = some date) :
      Counting D t (.create ev) (.dailyCap (subjectKey D.rt ev) date)
        (dailyCapUpdate D.rt (subjectKey D.rt ev) D.emailHmacKey date cfg.sendsPerDay t)
  | loginIp {ev : FunctionUrlEvent} {ip : String} {limit : Option Int}
      (hip : clientIp ev = some ip) :
      Counting D t (.login ev) (.loginIp ip (startOf rateLimitWindowMs t))
        (ipRateLimitUpdate D.rt ip limit t)

theorem Counting.bucketId {t : Int} {job : Job} {b : BucketName} {u : CounterUpdate}
    (h : Counting D t job b u) : u.bucketId = b.bucketId D.rt D.emailHmacKey := by
  cases h <;> rfl

theorem Counting.mem_buckets {t : Int} {job : Job} {b : BucketName} {u : CounterUpdate}
    (h : Counting D t job b u) : b ∈ job.buckets D.rt t := by
  cases h with
  | window _ => simp [Job.buckets]
  | daily _ hdate => simp [Job.buckets, hdate]
  | loginIp hip => simp [Job.buckets, hip]

theorem Counting.separable {t : Int} {job : Job} {b : BucketName} {u : CounterUpdate}
    (h : Counting D t job b u) : b.Separable := by
  cases h with
  | window _ => trivial
  | daily _ hdate => exact utcDate_separable hdate
  | loginIp _ => trivial

/-- The naming clock of a `Create` that has gone past it. -/
theorem IssueRun.namingClock_eq {rt : Runtime} {env : ProcessEnv} {ev : CreateAuthChallengeEvent}
    {es fs : List (Event Request Reply)} {out : ChallengeResponse}
    (r : IssueRun rt env ev (es ++ fs) out) {e : Event Request Reply} (he : e ∈ es)
    (hop : e.op ≠ .now) : namingClock es = some r.now := by
  have hlate : e ∉ [(⟨.now, r.start⟩ : Event Request Reply), ⟨.now, r.now⟩] := by
    intro hmem
    have hops := List.mem_map_of_mem (f := Event.op) hmem
    simp [hop] at hops
  obtain ⟨as, has⟩ := Prog.past_prefix r.es_eq he hlate
  exact (congrArg namingClock has).trans rfl

theorem LoginRun.counting {plan : LoginPlan} {ev : FunctionUrlEvent} {D : Deployment}
    {es fs : List (Event Request Reply)} {out : FunctionUrlResult}
    (r : LoginRun D.rt plan (es ++ fs) out) (hip : clientIp ev = some plan.clientIp)
    {e : Event Request Reply} (he : e ∈ es) {u : CounterUpdate} (hop : e.op = .updateCounter u) :
    ∃ t b, namingClock es = some t ∧ Counting D t (.login ev) b u := by
  obtain ⟨t, reply, rest, htries, hquiet⟩ := finishes_attempt r.attempts
  have hall := (congrArg (e ∈ ·) r.es_eq).mp (List.mem_append_left fs he)
  simp only [htries, List.cons_append, List.mem_cons, List.mem_append] at hall
  have hthis : e.op = .updateCounter (ipRateLimitUpdate D.rt plan.clientIp plan.cfg.limit t) := by
    rcases hall with rfl | rfl | rfl | rfl | hmem | rfl | rfl | rfl | hmem
    · cases hop
    · cases hop
    · cases hop
    · rfl
    · exact absurd hop (hquiet e hmem u)
    · cases hop
    · cases hop
    · cases hop
    · rcases r.floor e hmem with h | ⟨ms, h⟩ <;> rw [h] at hop <;> cases hop
  have hlate : e ∉ [(⟨.now, r.start⟩ : Event Request Reply), ⟨.newBindingSecret, r.secret⟩,
      ⟨.now, t⟩] := by
    intro hmem
    have hops := List.mem_map_of_mem (f := Event.op) hmem
    simp [hop] at hops
  have hes := r.es_eq
  rw [htries] at hes
  obtain ⟨as, has⟩ := Prog.past_prefix hes he hlate
  refine ⟨t, .loginIp plan.clientIp (startOf rateLimitWindowMs t),
    (congrArg namingClock has).trans rfl, ?_⟩
  rw [hop] at hthis
  rw [Request.updateCounter.inj hthis]
  exact .loginIp hip

/-- Every counter update of a run is made by a `Create` or a login, for a
bucket it named at its clock. -/
theorem update_entry (h : (signIn D).Reachable c) {e : Entry Request Reply World}
    (he : e ∈ c.log) {u : CounterUpdate} (hop : e.ev.op = .updateCounter u) :
    ∃ thread t b, c.threads[e.tid]? = some thread ∧ namingClock (localLog c.log e.tid) = some t ∧
      Counting D t thread.job b u := by
  obtain ⟨⟨job, q⟩, ht, hask⟩ := entry_thread h he
  have hmem := Entry.mem_localLog he
  rw [hop] at hask
  cases job with
  | create ev =>
      obtain ⟨fs, out, ⟨r⟩⟩ := create_run h ht hmem (by simp [hop]) (by simp [hop])
      have hclock := r.namingClock_eq hmem (by simp [hop])
      obtain ⟨key, hkey, hu⟩ := r.update_eq hmem hop
      rw [resolved_eq h hkey] at hu
      rcases hu with rfl | ⟨date, hdate, rfl⟩
      · exact ⟨_, r.now, _, ht, hclock, .window r.config⟩
      · exact ⟨_, r.now, _, ht, hclock, .daily r.config hdate⟩
  | login ev =>
      obtain ⟨fs, out, hrun⟩ := thread_runs h ht
      obtain ⟨response, rfl, hlogin⟩ := finishes_start hrun
      rcases finishes_authLogin hlogin with ⟨-, hnil⟩ | ⟨plan, hchecks, ⟨r⟩⟩
      · rw [List.append_eq_nil_iff.mp hnil |>.1] at hmem
        cases hmem
      · obtain ⟨t, b, hclock, hcount⟩ := r.counting (loginChecks_ok hchecks).2.2 hmem hop
        exact ⟨_, t, b, ht, hclock, hcount⟩
  | verify ev => cases hask
  | redeem ev => cases hask

/-! ## What the caps promise -/

/-- What a bucket is for: the limiter, whom it limits, and when. -/
inductive Purpose where
  | window (address : String) (windowStart : Int)
  | daily (address : String) (day : Int)
  | loginIp (ip : String) (windowStart : Int)
deriving DecidableEq

/-- The address a `Create` counts; a phantom's made-up username stands in
for one, up to case. -/
def countedAddress (rt : Runtime) (ev : CreateAuthChallengeEvent) : String :=
  (recipient rt ev).getD (rt.toLowerCase ev.userName)

/-- What an update of an invocation at the clock `t` is for; of the updates
of a `Create`, only the window's sets a window start. -/
def Job.purpose (rt : Runtime) (t : Int) (u : CounterUpdate) : Job → Option Purpose
  | .create ev =>
      if u.windowStart.isSome then
        some (.window (countedAddress rt ev) (startOf rateLimitWindowMs t))
      else some (.daily (countedAddress rt ev) (IsoDate.day t))
  | .login ev => (clientIp ev).map (.loginIp · (startOf rateLimitWindowMs t))
  | _ => none

def purposeAt (rt : Runtime) (c : SignInConfig) (i : Nat) (u : CounterUpdate) :
    Option Purpose := do
  let thread ← c.threads[i]?
  let t ← namingClock (localLog c.log i)
  thread.job.purpose rt t u

def isMailTo (address : String) : Event Request Reply → Bool
  | ⟨.sendEmail mail, _⟩ => mail.toAddress == address
  | _ => false

/-- The mails to an address, whether the send was acknowledged or not, by
invocations whose clock is `when`. -/
def mailsTo (c : SignInConfig) (address : String) (when : Int → Bool) : Nat :=
  c.log.countP fun e =>
    isMailTo address e.ev && (namingClock (localLog c.log e.tid)).any when

/-- What the limiters are for: two caps, and rows that are not shared. -/
structure CapsHold (rt : Runtime) (c : SignInConfig) (sendsPerWindow sendsPerDay : Int) :
    Prop where
  perWindow : ∀ address windowStart,
    (mailsTo c address (fun t => startOf rateLimitWindowMs t == windowStart) : Int) ≤ sendsPerWindow
  perDay : ∀ address day,
    (mailsTo c address (fun t => IsoDate.day t == day) : Int) ≤ sendsPerDay
  separate : ∀ e ∈ c.log, ∀ e' ∈ c.log, ∀ u u', e.ev.op = .updateCounter u →
    e'.ev.op = .updateCounter u' → u.bucketId = u'.bucketId →
    ∃ p, purposeAt rt c e.tid u = some p ∧ purposeAt rt c e'.tid u' = some p

/-- The buckets named in a run. -/
def bucketsNamed (rt : Runtime) (c : SignInConfig) : Set BucketName :=
  { b | ∃ i thread t, c.threads[i]? = some thread ∧ namingClock (localLog c.log i) = some t ∧
    b ∈ thread.job.buckets rt t }

/-- What is taken for granted of a run: no two of the texts it hashes have
one digest; normalising an address leaves nothing to lower-case; and an
update reaches the table within a minute of the clock that named its
bucket. -/
structure CapsAssumed (D : Deployment) (c : SignInConfig) : Prop where
  digests : Set.InjOn (bucketDigest D.rt D.emailHmacKey)
    (BucketName.hashed D.rt '' bucketsNamed D.rt c)
  lower : ∀ raw address, normalizeEmail D.rt raw = some address →
    D.rt.toLowerCase address = address
  timely : ∀ e ∈ c.log, ∀ u t, e.ev.op = .updateCounter u →
    namingClock (localLog c.log e.tid) = some t → e.pre.now ≤ t + 60000

/-- Every daily bucket was named at a clock whose year has four digits. -/
def DatedInFourDigits (c : SignInConfig) : Prop :=
  ∀ e ∈ c.log, ∀ u t, e.ev.op = .updateCounter u → u.windowStart = none →
    namingClock (localLog c.log e.tid) = some t → IsoDate.FourDigitYear t

/-! ## Rows are not shared -/

theorem toLowerCase_subjectKey
    (hlower : ∀ raw address, normalizeEmail D.rt raw = some address →
      D.rt.toLowerCase address = address) (ev : CreateAuthChallengeEvent) :
    D.rt.toLowerCase (subjectKey D.rt ev) = countedAddress D.rt ev := by
  unfold subjectKey countedAddress
  cases hrec : recipient D.rt ev with
  | none => rfl
  | some address =>
      unfold recipient at hrec
      split at hrec
      · cases hrec
      · split at hrec
        · cases hrec
        · exact hlower _ _ hrec

/-- Updates of one row name one bucket. -/
theorem folded_eq (ha : CapsAssumed D c) {i j : Nat} {thread thread' : SignInThread} {t t' : Int}
    {b b' : BucketName} {u u' : CounterUpdate} (hi : c.threads[i]? = some thread)
    (hj : c.threads[j]? = some thread') (ht : namingClock (localLog c.log i) = some t)
    (ht' : namingClock (localLog c.log j) = some t') (h : Counting D t thread.job b u)
    (h' : Counting D t' thread'.job b' u') (hid : u.bucketId = u'.bucketId) :
    b.folded D.rt = b'.folded D.rt := by
  rw [h.bucketId, h'.bucketId, bucketId_eq, bucketId_eq] at hid
  have hmem : b.hashed D.rt ∈ BucketName.hashed D.rt '' bucketsNamed D.rt c :=
    ⟨b, ⟨i, thread, t, hi, ht, h.mem_buckets⟩, rfl⟩
  have hmem' : b'.hashed D.rt ∈ BucketName.hashed D.rt '' bucketsNamed D.rt c :=
    ⟨b', ⟨j, thread', t', hj, ht', h'.mem_buckets⟩, rfl⟩
  exact hashed_inj D.rt h.separable h'.separable (ha.digests hmem hmem' hid)

/-- What a bucket is for is what its name says, where a date is a day. -/
theorem Counting.purpose_eq (hlower : ∀ raw address, normalizeEmail D.rt raw = some address →
      D.rt.toLowerCase address = address) {t t' : Int} {job job' : Job} {b b' : BucketName}
    {u u' : CounterUpdate} (h : Counting D t job b u) (h' : Counting D t' job' b' u')
    (hyear : u.windowStart = none → IsoDate.FourDigitYear t)
    (hyear' : u'.windowStart = none → IsoDate.FourDigitYear t')
    (hfolded : b.folded D.rt = b'.folded D.rt) :
    ∃ p, job.purpose D.rt t u = some p ∧ job'.purpose D.rt t' u' = some p := by
  cases h with
  | @window ev cfg hcfg =>
      cases h' with
      | @window ev' cfg' hcfg' =>
          obtain ⟨haddr, hws⟩ := BucketName.window.inj hfolded
          rw [toLowerCase_subjectKey hlower, toLowerCase_subjectKey hlower] at haddr
          refine ⟨.window (countedAddress D.rt ev) (startOf rateLimitWindowMs t), rfl, ?_⟩
          rw [haddr, hws]
          rfl
      | daily _ _ => cases hfolded
      | loginIp _ => cases hfolded
  | @daily ev cfg date hcfg hdate =>
      cases h' with
      | window _ => cases hfolded
      | @daily ev' cfg' date' hcfg' hdate' =>
          obtain ⟨haddr, rfl⟩ := BucketName.dailyCap.inj hfolded
          rw [toLowerCase_subjectKey hlower, toLowerCase_subjectKey hlower] at haddr
          have hday := utcDate_inj (hyear rfl) (hyear' rfl) hdate hdate'
          refine ⟨.daily (countedAddress D.rt ev) (IsoDate.day t), rfl, ?_⟩
          rw [haddr, hday]
          rfl
      | loginIp _ => cases hfolded
  | @loginIp ev ip limit hip =>
      cases h' with
      | window _ => cases hfolded
      | daily _ _ => cases hfolded
      | @loginIp ev' ip' limit' hip' =>
          obtain ⟨rfl, hws⟩ := BucketName.loginIp.inj hfolded
          refine ⟨.loginIp ip (startOf rateLimitWindowMs t), ?_, ?_⟩
          · simp [Job.purpose, hip]
          · simp [Job.purpose, hip', hws]

/-! ## Every mail was counted twice -/

/-- The `Create` behind a mail: it had leave of both counters, at the clock
that names them. -/
structure Sender (D : Deployment) (c : SignInConfig) (i : Nat) (address : String) where
  ev : CreateAuthChallengeEvent
  prog : Handler Output
  cfg : CreateConfig
  clock : Int
  date : String
  thread : c.threads[i]? = some ⟨.create ev, prog⟩
  config : createConfig D.createEnv = some cfg
  recipient : recipient D.rt ev = some address
  naming : namingClock (localLog c.log i) = some clock
  dated : utcDate clock = some date
  byWindow : ⟨.updateCounter
    (rateLimitUpdate D.rt address D.emailHmacKey cfg.sendsPerWindow clock), .ok ()⟩ ∈
      localLog c.log i
  byDay : ⟨.updateCounter
    (dailyCapUpdate D.rt address D.emailHmacKey date cfg.sendsPerDay clock), .ok ()⟩ ∈
      localLog c.log i
  once : (localLog c.log i).countP (fun e => e.op.isMail) ≤ 1

theorem IssueOutcome.mail_eq {rt : Runtime} {cfg : CreateConfig} {ev : CreateAuthChallengeEvent}
    {now : Int} {token code : String} {g : Gathered} {es : List (Event Request Reply)}
    {out : ChallengeResponse} (ho : IssueOutcome rt cfg ev now token code g es out)
    {e : Event Request Reply} (he : e ∈ es) {mail : Mail} (hop : e.op = .sendEmail mail) :
    ∃ key, Ready rt ev g mail.toAddress key := by
  have hops := List.mem_map_of_mem (f := Event.op) he
  rw [hop] at hops
  cases ho with
  | suppressed email t => cases hops
  | unsent hready t => simp at hops
  | sendFailed hready t x =>
      simp only [List.map_cons, List.map_nil, List.mem_cons, List.not_mem_nil, or_false,
        reduceCtorEq, false_or, Request.sendEmail.injEq] at hops
      rw [hops]
      exact ⟨_, hready⟩
  | sent hready =>
      simp only [List.map_cons, List.map_nil, List.mem_cons, List.not_mem_nil, or_false,
        reduceCtorEq, false_or, Request.sendEmail.injEq] at hops
      rw [hops]
      exact ⟨_, hready⟩

theorem mail_sender (h : (signIn D).Reachable c) {e : Entry Request Reply World}
    (he : e ∈ c.log) {mail : Mail} (hop : e.ev.op = .sendEmail mail) :
    Nonempty (Sender D c e.tid mail.toAddress) := by
  have hissue : e.ev.op.isIssue = true := by rw [hop]; rfl
  obtain ⟨ev, q, fs, out, ht, ⟨r⟩⟩ := issue_entry h he hissue
  have hmem := Entry.mem_localLog he
  obtain ⟨key, hready⟩ :=
    r.outcome.mail_eq (List.mem_filter.mpr ⟨List.mem_append_left fs hmem, hissue⟩) hop
  have hpast : ∀ x ∈ r.reads, x ∈ localLog c.log e.tid := by
    intro x hx
    exact r.mem_of_issued hmem hissue (by simp [hx])
  have hkey := resolved_eq h (hpast _ (r.resolved hready.key))
  obtain ⟨hcap, date, hdate, hday⟩ := r.consumed hready
  rw [hkey] at hcap hday
  refine ⟨{ ev := ev, prog := q, cfg := r.cfg, clock := r.now, date := date, thread := ht,
            config := r.config, recipient := hready.recipient,
            naming := r.namingClock_eq hmem (by simp [hop]), dated := hdate,
            byWindow := hpast _ hcap, byDay := hpast _ hday, once := ?_ }⟩
  have hall := r.countP_isMail_le
  rw [List.countP_append] at hall
  omega

theorem isMailTo_some {address : String} {ev : Event Request Reply}
    (h : isMailTo address ev = true) :
    ∃ mail, ev.op = .sendEmail mail ∧ mail.toAddress = address := by
  obtain ⟨op, res⟩ := ev
  cases op with
  | sendEmail mail => exact ⟨mail, rfl, by simpa [isMailTo] using h⟩
  | _ => cases h

/-- Mails are no more than the acknowledged updates of a row that each of
their senders made one of. -/
theorem mailsTo_le_hits (h : (signIn D).Reachable c) {address k : String} {when : Int → Bool}
    (hcounted : ∀ i (s : Sender D c i address), when s.clock = true →
      ∃ e ∈ localLog c.log i, isHit k e = true) : mailsTo c address when ≤ hits k c := by
  unfold mailsTo hits
  apply countP_le_of_local (P := fun i ev =>
    isMailTo address ev && (namingClock (localLog c.log i)).any when) (Q := fun _ ev => isHit k ev)
  intro i
  by_cases hany : ∃ ev ∈ localLog c.log i,
      isMailTo address ev = true ∧ (namingClock (localLog c.log i)).any when = true
  · obtain ⟨ev, hev, hmail, hwhen⟩ := hany
    obtain ⟨e, he, rfl, rfl⟩ := mem_localLog.mp hev
    obtain ⟨mail, hop, rfl⟩ := isMailTo_some hmail
    obtain ⟨s⟩ := mail_sender h he hop
    rw [s.naming] at hwhen
    obtain ⟨x, hx, hhit⟩ := hcounted e.tid s (by simpa using hwhen)
    calc (localLog c.log e.tid).countP _
        ≤ (localLog c.log e.tid).countP (fun e => e.op.isMail) := by
          apply List.countP_mono_left
          intro y _ hy
          obtain ⟨mail', hop', -⟩ := isMailTo_some (Bool.and_eq_true_iff.mp hy).1
          rw [hop']
          rfl
      _ ≤ 1 := s.once
      _ ≤ (localLog c.log e.tid).countP (isHit k) := List.countP_pos_iff.mpr ⟨x, hx, hhit⟩
  · rw [List.countP_eq_zero.mpr]
    · exact Nat.zero_le _
    · intro ev hev hboth
      rw [Bool.and_eq_true] at hboth
      exact hany ⟨ev, hev, hboth⟩

theorem exists_sender (h : (signIn D).Reachable c) {address : String} {when : Int → Bool}
    (hpos : 0 < mailsTo c address when) :
    ∃ i, ∃ s : Sender D c i address, when s.clock = true := by
  obtain ⟨e, he, hboth⟩ := List.countP_pos_iff.mp hpos
  rw [Bool.and_eq_true] at hboth
  obtain ⟨mail, hop, rfl⟩ := isMailTo_some hboth.1
  obtain ⟨s⟩ := mail_sender h he hop
  have hwhen := hboth.2
  rw [s.naming] at hwhen
  exact ⟨e.tid, s, hwhen⟩

/-- A cap holds over the row that every sender of the mails was counted by,
if its updates are uniform. -/
theorem mailsTo_le (h : (signIn D).Reachable c) {address : String} {when : Int → Bool}
    {limit : Int} (hlimit : 1 ≤ limit)
    (hrow : ∀ i (s : Sender D c i address), when s.clock = true → ∃ k expiresAt,
      Uniform k limit expiresAt c.log ∧ ∀ j (s' : Sender D c j address), when s'.clock = true →
        ∃ e ∈ localLog c.log j, isHit k e = true) :
    (mailsTo c address when : Int) ≤ limit := by
  rcases Nat.eq_zero_or_pos (mailsTo c address when) with hzero | hpos
  · omega
  · obtain ⟨i, s, hs⟩ := exists_sender h hpos
    obtain ⟨k, expiresAt, huniform, hcounted⟩ := hrow i s hs
    have hle := mailsTo_le_hits h hcounted
    have hbound := (metered hlimit h huniform).bound hlimit
    omega

theorem Sender.countingWindow {i : Nat} {address : String} (s : Sender D c i address) :
    Counting D s.clock (.create s.ev) (.window address (startOf rateLimitWindowMs s.clock))
      (rateLimitUpdate D.rt address D.emailHmacKey s.cfg.sendsPerWindow s.clock) := by
  have hsubject : subjectKey D.rt s.ev = address := by
    rw [subjectKey, s.recipient]
    rfl
  have hcount : Counting D s.clock (.create s.ev) _ _ := .window s.config
  rwa [hsubject] at hcount

theorem Sender.countingDaily {i : Nat} {address : String} (s : Sender D c i address) :
    Counting D s.clock (.create s.ev) (.dailyCap address s.date)
      (dailyCapUpdate D.rt address D.emailHmacKey s.date s.cfg.sendsPerDay s.clock) := by
  have hsubject : subjectKey D.rt s.ev = address := by
    rw [subjectKey, s.recipient]
    rfl
  have hcount : Counting D s.clock (.create s.ev) _ _ := .daily s.config s.dated
  rwa [hsubject] at hcount

/-- The row of a window is updated by that window's `Create`s only, and by
none of them after its expiry. -/
theorem uniform_window (h : (signIn D).Reachable c) (ha : CapsAssumed D c) {cfg : CreateConfig}
    (hcfg : createConfig D.createEnv = some cfg) {limit : Int}
    (hlimit : cfg.sendsPerWindow = some limit) {i : Nat} {address : String}
    (s : Sender D c i address) :
    Uniform (rateLimitUpdate D.rt address D.emailHmacKey s.cfg.sendsPerWindow s.clock).bucketId
      limit ((startOf rateLimitWindowMs s.clock + rateLimitWindowMs) / 1000 + 60) c.log := by
  intro e he u hop hid
  obtain ⟨thread, t, b, ht, hclock, hcount⟩ := update_entry h he hop
  have hfolded := folded_eq ha ht s.thread hclock s.naming hcount s.countingWindow hid
  have htimely := ha.timely e he u t hop hclock
  generalize thread.job = job at hcount
  cases hcount with
  | @window ev cfg' hcfg' =>
      obtain ⟨-, hws⟩ := BucketName.window.inj hfolded
      rw [hcfg] at hcfg'
      cases hcfg'
      refine ⟨hlimit, ?_, ?_⟩
      · show (startOf rateLimitWindowMs t + rateLimitWindowMs) / 1000 + 60 = _
        rw [hws]
      · rw [← hws]
        unfold startOf rateLimitWindowMs
        omega
  | daily _ _ => cases hfolded
  | loginIp _ => cases hfolded

/-- So is the row of a day. -/
theorem uniform_daily (h : (signIn D).Reachable c) (ha : CapsAssumed D c)
    (hyear : DatedInFourDigits c) {cfg : CreateConfig}
    (hcfg : createConfig D.createEnv = some cfg) {i : Nat} {address : String}
    (s : Sender D c i address) (hs : IsoDate.FourDigitYear s.clock) :
    Uniform (dailyCapUpdate D.rt address D.emailHmacKey s.date s.cfg.sendsPerDay s.clock).bucketId
      cfg.sendsPerDay ((startOf dayMs s.clock + dayMs) / 1000 + 3600) c.log := by
  intro e he u hop hid
  obtain ⟨thread, t, b, ht, hclock, hcount⟩ := update_entry h he hop
  have hfolded := folded_eq ha ht s.thread hclock s.naming hcount s.countingDaily hid
  have htimely := ha.timely e he u t hop hclock
  have hdated := hyear e he u t hop
  generalize thread.job = job at hcount
  cases hcount with
  | window _ => cases hfolded
  | @daily ev cfg' date hcfg' hdate =>
      obtain ⟨-, hsame⟩ := BucketName.dailyCap.inj hfolded
      rw [hcfg] at hcfg'
      cases hcfg'
      rw [hsame] at hdate
      have hday := utcDate_inj (hdated rfl hclock) hs hdate s.dated
      have hstart : startOf dayMs t = startOf dayMs s.clock := by
        unfold IsoDate.day IsoDate.msPerDay at hday
        unfold startOf dayMs
        omega
      refine ⟨rfl, ?_, ?_⟩
      · show (startOf dayMs t + dayMs) / 1000 + 3600 = _
        rw [hstart]
      · rw [← hstart]
        unfold startOf dayMs
        omega
  | loginIp _ => cases hfolded

theorem createConfig_sendsPerDay {env : ProcessEnv} {cfg : CreateConfig}
    (h : createConfig env = some cfg) : 1 ≤ cfg.sendsPerDay := by
  simp only [createConfig, Option.bind_eq_bind, Option.bind_eq_some_iff,
    Option.ite_none_left_eq_some, Option.some.injEq] at h
  obtain ⟨_, _, _, _, _, _, _, _, _, _, _, _, hpos, rfl⟩ := h
  simp only
  omega

/-- The day's row is dated at a sender's clock. -/
theorem Sender.fourDigitYear (hyear : DatedInFourDigits c) {i : Nat} {address : String}
    (s : Sender D c i address) : IsoDate.FourDigitYear s.clock := by
  obtain ⟨e, he, rfl, hev⟩ := mem_localLog.mp s.byDay
  exact hyear e he _ s.clock (congrArg Event.op hev) rfl s.naming

/-- In every run whose daily buckets are dated in years of four digits, no
address is sent more mails than the caps allow, and no two buckets share a
row. -/
theorem send_caps (h : (signIn D).Reachable c) (ha : CapsAssumed D c)
    (hyear : DatedInFourDigits c) {cfg : CreateConfig}
    (hcfg : createConfig D.createEnv = some cfg) {sendsPerWindow : Int}
    (hwindow : cfg.sendsPerWindow = some sendsPerWindow) (hpos : 1 ≤ sendsPerWindow) :
    CapsHold D.rt c sendsPerWindow cfg.sendsPerDay where
  perWindow := by
    intro address ws
    apply mailsTo_le h hpos
    intro i s hs
    refine ⟨_, _, uniform_window h ha hcfg hwindow s, ?_⟩
    intro j s' hs'
    refine ⟨_, s'.byWindow, ?_⟩
    -- both clocks lie in the window, so both updates are of its row
    simp only [beq_iff_eq] at hs hs'
    simp [isHit, rateLimitUpdate, windowUpdate, hs, hs']
  perDay := by
    intro address day
    apply mailsTo_le h (createConfig_sendsPerDay hcfg)
    intro i s hs
    have hfour := s.fourDigitYear hyear
    refine ⟨_, _, uniform_daily h ha hyear hcfg s hfour, ?_⟩
    intro j s' hs'
    refine ⟨_, s'.byDay, ?_⟩
    simp only [beq_iff_eq] at hs hs'
    have hdate : s'.date = s.date := by
      rw [utcDate_fourDigit hfour s.dated, utcDate_fourDigit (s'.fourDigitYear hyear) s'.dated,
        hs, hs']
    simp [isHit, dailyCapUpdate, hdate]
  separate := by
    intro e he e' he' u u' hop hop' hid
    obtain ⟨thread, t, b, ht, hclock, hcount⟩ := update_entry h he hop
    obtain ⟨thread', t', b', ht', hclock', hcount'⟩ := update_entry h he' hop'
    have hfolded := folded_eq ha ht ht' hclock hclock' hcount hcount' hid
    obtain ⟨p, hp, hp'⟩ := hcount.purpose_eq ha.lower hcount'
      (fun hnone => hyear e he u t hop hnone hclock)
      (fun hnone => hyear e' he' u' t' hop' hnone hclock') hfolded
    refine ⟨p, ?_, ?_⟩
    · simp [purposeAt, ht, hclock, hp]
    · simp [purposeAt, ht', hclock', hp']

/-! ## Running the caps -/

/-- The buckets named in a run, as a list. -/
def namedList (rt : Runtime) (c : SignInConfig) : List BucketName :=
  (List.range c.threads.length).flatMap fun i =>
    match c.threads[i]?, namingClock (localLog c.log i) with
    | some thread, some t => thread.job.buckets rt t
    | _, _ => []

theorem bucketsNamed_subset {rt : Runtime} {b : BucketName} (h : b ∈ bucketsNamed rt c) :
    b ∈ namedList rt c := by
  obtain ⟨i, thread, t, hi, ht, hb⟩ := h
  have hlt := (List.getElem?_eq_some_iff.mp hi).1
  refine List.mem_flatMap.mpr ⟨i, List.mem_range.mpr hlt, ?_⟩
  rw [hi, ht]
  exact hb

/-- An update and the clock that named its bucket. -/
def clockedUpdate (c : SignInConfig) (e : Entry Request Reply World) :
    Option (CounterUpdate × Int) :=
  match e.ev.op, namingClock (localLog c.log e.tid) with
  | .updateCounter u, some t => some (u, t)
  | _, _ => none

theorem clockedUpdate_eq {e : Entry Request Reply World} {u : CounterUpdate} {t : Int}
    (hop : e.ev.op = .updateCounter u) (ht : namingClock (localLog c.log e.tid) = some t) :
    clockedUpdate c e = some (u, t) := by
  simp [clockedUpdate, hop, ht]

/-- The digests and the timing of a run, computed. -/
def capsChecked (D : Deployment) (c : SignInConfig) : Bool :=
  ((namedList D.rt c).all fun b => (namedList D.rt c).all fun b' =>
    b.hashed D.rt == b'.hashed D.rt ||
      bucketDigest D.rt D.emailHmacKey (b.hashed D.rt) !=
        bucketDigest D.rt D.emailHmacKey (b'.hashed D.rt)) &&
  c.log.all fun e => (clockedUpdate c e).all fun (_, t) => decide (e.pre.now ≤ t + 60000)

theorem capsAssumed_of_checked (h : capsChecked D c = true)
    (hlower : ∀ raw address, normalizeEmail D.rt raw = some address →
      D.rt.toLowerCase address = address) : CapsAssumed D c where
  digests := by
    rintro _ ⟨b, hb, rfl⟩ _ ⟨b', hb', rfl⟩ heq
    simp only [capsChecked, Bool.and_eq_true, List.all_eq_true, Bool.or_eq_true, beq_iff_eq,
      bne_iff_ne] at h
    exact (h.1 b (bucketsNamed_subset hb) b' (bucketsNamed_subset hb')).resolve_right
      (fun hne => hne heq)
  lower := hlower
  timely := by
    intro e he u t hop ht
    simp only [capsChecked, Bool.and_eq_true, List.all_eq_true] at h
    have hall := h.2 e he
    rw [clockedUpdate_eq hop ht] at hall
    simpa using hall

/-- Lower-casing ASCII text twice is lower-casing it once. -/
theorem lower_of_ascii {rt : Runtime}
    (hlower : ∀ s, rt.toLowerCase s = String.ofList (s.toList.map Char.toLower))
    (hnfc : ∀ s, rt.normalizeNfc s = s) (raw address : String)
    (h : normalizeEmail rt raw = some address) : rt.toLowerCase address = address := by
  have hvalue : address = rt.toLowerCase (String.ofList (trim raw.toList)) := by
    unfold normalizeEmail at h
    simp only [hnfc] at h
    split at h
    · cases h
    · split at h
      · cases h
      · split at h
        · split at h
          · cases h
          · exact (Option.some.inj h).symm
        · cases h
  rw [hvalue, hlower, hlower]
  simp [Function.comp_def]

theorem Small.lower : ∀ raw address, normalizeEmail Small.rt raw = some address →
    Small.rt.toLowerCase address = address :=
  lower_of_ascii (fun _ => rfl) (fun _ => rfl)

theorem Small.config : ∃ cfg, createConfig Small.env = some cfg ∧ cfg.sendsPerWindow = some 3 ∧
    cfg.sendsPerDay = 20 := by
  have hlimits : (createConfig Small.env).map (fun cfg => (cfg.sendsPerWindow, cfg.sendsPerDay)) =
      some (some 3, 20) := by decide +kernel
  obtain ⟨cfg, hcfg, hpair⟩ := Option.map_eq_some_iff.mp hlimits
  exact ⟨cfg, hcfg, congrArg Prod.fst hpair, congrArg Prod.snd hpair⟩

/-- One challenge, mailed. -/
def Small.oneMail : Small.Schedule := [.spawn (.create Small.createEvent)] ++ Small.answers 0 13

theorem send_caps_oneMail : ∃ c cfg, (signIn Small.deployment).Reachable c ∧
    CapsAssumed Small.deployment c ∧ DatedInFourDigits c ∧
    createConfig Small.deployment.createEnv = some cfg ∧ cfg.sendsPerWindow = some 3 ∧
    mailsTo c Small.email (fun t => startOf rateLimitWindowMs t == 1699999200000) = 1 ∧
    CapsHold Small.rt c 3 cfg.sendsPerDay := by
  obtain ⟨c, hc, hend⟩ := (interpreter Small.deployment).exists_reachable Small.world_init
    Small.oneMail (fun c => capsChecked Small.deployment c &&
      (c.log.all fun e => (clockedUpdate c e).all fun (_, t) => decide (IsoDate.FourDigitYear t)) &&
      mailsTo c Small.email (fun t => startOf rateLimitWindowMs t == 1699999200000) == 1)
    (by decide +kernel)
  simp only [Bool.and_eq_true, beq_iff_eq] at hend
  obtain ⟨⟨hchecked, hdated⟩, hmail⟩ := hend
  have hassumed := capsAssumed_of_checked hchecked Small.lower
  have hyear : DatedInFourDigits c := by
    intro e he u t hop _ ht
    have hall := List.all_eq_true.mp hdated e he
    rw [clockedUpdate_eq hop ht] at hall
    simpa using hall
  obtain ⟨cfg, hcfg, hwindow, -⟩ := Small.config
  exact ⟨c, cfg, hc, hassumed, hyear, hcfg, hwindow, hmail,
    send_caps hc hassumed hyear hcfg hwindow (by decide)⟩

/-- The outside on another day, with another token. -/
def Small.outsideAt (t : Int) (token : String) (w : World) : (op : Request) → Reply op
  | .now => t
  | .randomToken => token
  | op => Small.outside w op

/-- A challenge started and mailed at the time `t`, as thread `i`. -/
def Small.mailAt (i : Nat) (t : Int) (token : String) : Small.Schedule :=
  [.drift (.tick t), .spawn (.create Small.createEvent)] ++
    List.replicate 13 (.answer i (Small.outsideAt t token))

/-- A challenge on each of the first two days of the year 10000. -/
def Small.twoDays : Small.Schedule :=
  Small.mailAt 0 253402300800000 Small.token ++ Small.mailAt 1 253402387200000 Small.secondToken

/-- Two updates of one row for different purposes. -/
def sharesRow (rt : Runtime) (c : SignInConfig) : Bool :=
  c.log.any fun e => c.log.any fun e' =>
    (clockedUpdate c e).any fun (u, _) => (clockedUpdate c e').any fun (u', _) =>
      u.bucketId == u'.bucketId && purposeAt rt c e.tid u != purposeAt rt c e'.tid u'

theorem clockedUpdate_some {e : Entry Request Reply World} {p : CounterUpdate × Int}
    (h : clockedUpdate c e = some p) : e.ev.op = .updateCounter p.1 := by
  unfold clockedUpdate at h
  split at h
  · rename_i hop _
    rw [hop, ← Option.some.inj h]
  · cases h

theorem not_capsHold_of_sharesRow {rt : Runtime} {sendsPerWindow sendsPerDay : Int}
    (h : sharesRow rt c = true) : ¬ CapsHold rt c sendsPerWindow sendsPerDay := by
  intro hcaps
  simp only [sharesRow, List.any_eq_true, Option.any_eq_true, Bool.and_eq_true, beq_iff_eq,
    bne_iff_ne] at h
  obtain ⟨e, he, e', he', p, hp, p', hp', hid, hne⟩ := h
  obtain ⟨q, hq, hq'⟩ := hcaps.separate e he e' he' p.1 p'.1 (clockedUpdate_some hp)
    (clockedUpdate_some hp') hid
  exact hne (hq.trans hq'.symm)

/-- Without the condition the caps fail: the first ten characters of the
ISO text do not tell the days of the year 10000 apart. -/
theorem send_caps_year_10000 : ¬ ∀ (D : Deployment) (c : SignInConfig) (cfg : CreateConfig)
    (sendsPerWindow : Int), (signIn D).Reachable c → CapsAssumed D c →
    createConfig D.createEnv = some cfg → cfg.sendsPerWindow = some sendsPerWindow →
    1 ≤ sendsPerWindow → CapsHold D.rt c sendsPerWindow cfg.sendsPerDay := by
  intro hclaim
  obtain ⟨c, hc, hend⟩ := (interpreter Small.deployment).exists_reachable Small.world_init
    Small.twoDays (fun c => capsChecked Small.deployment c && sharesRow Small.rt c)
    (by decide +kernel)
  rw [Bool.and_eq_true] at hend
  obtain ⟨cfg, hcfg, hwindow, -⟩ := Small.config
  exact not_capsHold_of_sharesRow hend.2 (hclaim _ c cfg 3 hc
    (capsAssumed_of_checked hend.1 Small.lower) hcfg hwindow (by decide))

end SaasFoundation.Vestibulum.SignIn
