import Mathlib
import SaasFoundation.Foundation.Queue.SqsQueue

/-!
# What a batch reports

The loop of `sendBatch` is taken apart once, into the ways one round can go.
What SQS has accepted by the end, and what the caller is told, follow by
induction over the rounds.
-/

namespace SaasFoundation.Foundation.Queue

open Lib

/-! ## What SQS has accepted -/

def sentEntries : SqsEvent → List BatchRequestEntry
  | ⟨.sendMessageBatch _ entries, _⟩ => entries
  | _ => []

def reportedFailures : SqsEvent → List BatchResultErrorEntry
  | ⟨.sendMessageBatch _ _, .ok reported⟩ => reported.getD []
  | _ => []

/-- The ids of the messages that an executed request has put on the queue. -/
def acceptedIds : SqsEvent → List String
  | ⟨.sendMessageBatch _ entries, .ok reported⟩ => (entries.map BatchRequestEntry.Id).filter
      fun id => !((reported.getD []).map BatchResultErrorEntry.Id).contains (some id)
  | _ => []

/-- SQS reports on the entries it was sent. -/
def Documented (e : SqsEvent) : Prop :=
  ∀ f ∈ reportedFailures e, ∃ entry ∈ sentEntries e, f.Id = some entry.Id

/-- The report on a batch is right. -/
structure Accounted {T : Type} (queue : SqsQueue T) (messages : List (QueueBatchEntry T))
    (es : List SqsEvent) (out : Except QueueError Unit) : Prop where
  requests : ∀ e ∈ es, (sentEntries e).length ≤ 10 ∧
    ((sentEntries e).map BatchRequestEntry.Id).Nodup
  order : ∃ k, (es.flatMap sentEntries).map BatchRequestEntry.Id = (List.range k).map Nat.repr ∧
    (es.flatMap sentEntries).map (fun entry => .ok entry.MessageBody) =
      (messages.take k).map fun msg => queue.stringify msg.body
  sent : out = .ok () → ∀ i < messages.length, (es.flatMap acceptedIds).count (Nat.repr i) = 1
  failed : ∀ message failedIds, out = .error (.queueBatchError message failedIds) →
    (∀ id ∈ failedIds, ∃ i < messages.length, id = Nat.repr i) ∧
      ∀ i < messages.length, (es.flatMap acceptedIds).count (Nat.repr i) =
        if Nat.repr i ∈ failedIds then 0 else 1

/-- Where SQS refuses a message, no message comes behind the request. -/
def NoneBehind {T : Type} (messages : List (QueueBatchEntry T)) (es : List SqsEvent) : Prop :=
  ∀ j e, es[j]? = some e → reportedFailures e ≠ [] → messages.length ≤ 10 * (j + 1)

/-- The ids that the error names for a request. -/
def refusedIds (e : SqsEvent) : List String :=
  (reportedFailures e).map fun f => f.Id.getD "<unknown>"

/-! ## The rounds of the loop -/

/-- The ids of the messages from index `a` up to index `b`. -/
def idsBetween (a b : Nat) : List String := (List.range' a (b - a)).map Nat.repr

theorem mem_idsBetween {a b i : Nat} : Nat.repr i ∈ idsBetween a b ↔ a ≤ i ∧ i < b := by
  simp only [idsBetween, List.mem_map, List.mem_range'_1]
  constructor
  · rintro ⟨j, hj, heq⟩
    obtain rfl : j = i := Nat.repr_inj.mp heq
    omega
  · intro hi
    exact ⟨i, by omega, rfl⟩

theorem exists_of_mem_idsBetween {a b : Nat} {id : String} (h : id ∈ idsBetween a b) :
    ∃ i < b, id = Nat.repr i := by
  obtain ⟨i, hi, rfl⟩ := List.mem_map.mp h
  rw [List.mem_range'_1] at hi
  exact ⟨i, by omega, rfl⟩

theorem idsBetween_nodup (a b : Nat) : (idsBetween a b).Nodup :=
  List.Nodup.map (fun _ _ h => Nat.repr_inj.mp h) List.nodup_range'

theorem idsBetween_append {a b c : Nat} (hab : a ≤ b) (hbc : b ≤ c) :
    idsBetween a b ++ idsBetween b c = idsBetween a c := by
  rw [idsBetween, idsBetween, idsBetween, ← List.map_append]
  have hb : a + (b - a) = b := by omega
  have hlen : b - a + (c - b) = c - a := by omega
  have happ : List.range' a (b - a) ++ List.range' (a + (b - a)) (c - b) =
      List.range' a (b - a + (c - b)) := List.range'_append_1
  rw [hb, hlen] at happ
  rw [happ]

/-- The same where there are no more than `n` messages. -/
theorem idsBetween_append_min {a b c n : Nat} (hab : a ≤ b) (hbc : b ≤ c) :
    idsBetween a (min b n) ++ idsBetween b (min c n) = idsBetween a (min c n) := by
  rcases Nat.le_total b n with hb | hb
  · rw [Nat.min_eq_left hb]
    rcases Nat.le_total c n with hc | hc
    · rw [Nat.min_eq_left hc, idsBetween_append hab hbc]
    · rw [Nat.min_eq_right hc, idsBetween_append hab hb]
  · have hnil : idsBetween b (min c n) = [] := by
      simp only [idsBetween, List.map_eq_nil_iff, List.range'_eq_nil_iff]
      omega
    rw [hnil, Nat.min_eq_right hb, Nat.min_eq_right (Nat.le_trans hb hbc), List.append_nil]

theorem idsBetween_self (a : Nat) : idsBetween a a = [] := by
  simp [idsBetween]

section

variable {T : Type} (queue : SqsQueue T)

/-- The entries carry the ids of their messages and the texts of their bodies. -/
structure EntriesOf (msgs : List (QueueBatchEntry T)) (ids : List String)
    (entries : List BatchRequestEntry) : Prop where
  ids : entries.map BatchRequestEntry.Id = ids
  bodies : entries.map (fun entry => .ok entry.MessageBody) =
    msgs.map fun msg => queue.stringify msg.body

variable {queue} in
theorem EntriesOf.append {msgs msgs' : List (QueueBatchEntry T)} {ids ids' : List String}
    {entries entries' : List BatchRequestEntry} (h : EntriesOf queue msgs ids entries)
    (h' : EntriesOf queue msgs' ids' entries') :
    EntriesOf queue (msgs ++ msgs') (ids ++ ids') (entries ++ entries') := by
  refine ⟨?_, ?_⟩
  · rw [List.map_append, h.ids, h'.ids]
  · rw [List.map_append, List.map_append, h.bodies, h'.bodies]

theorem chunkEntries_spec {chunk : List (QueueBatchEntry T)} {offset : Nat}
    {entries : List BatchRequestEntry} (h : queue.chunkEntries offset chunk = .ok entries) :
    EntriesOf queue chunk (idsBetween offset (offset + chunk.length)) entries := by
  induction chunk generalizing offset entries with
  | nil =>
      cases h
      exact ⟨(idsBetween_self offset).symm, rfl⟩
  | cons msg chunk ih =>
      simp only [SqsQueue.chunkEntries, SqsQueue.batchEntry] at h
      cases hbody : queue.stringify msg.body with
      | error e =>
          rw [hbody] at h
          cases h
      | ok body =>
          rw [hbody] at h
          cases hrest : queue.chunkEntries (offset + 1) chunk with
          | error e =>
              rw [hrest] at h
              cases h
          | ok rest =>
              rw [hrest] at h
              cases h
              have hr := ih hrest
              have hids : idsBetween offset (offset + (chunk.length + 1)) =
                  Nat.repr offset :: idsBetween (offset + 1) (offset + 1 + chunk.length) := by
                rw [← idsBetween_append (b := offset + 1) (by omega) (by omega)]
                simp [idsBetween, Nat.add_assoc, Nat.add_comm 1]
              refine ⟨?_, ?_⟩
              · rw [List.length_cons, hids, List.map_cons, hr.ids]
              · rw [List.map_cons, List.map_cons, hr.bodies, hbody]

/-- The ways the loop can go, from the message it stands at. -/
inductive Rounds (messages : List (QueueBatchEntry T)) :
    Nat → List SqsEvent → Except QueueError Unit → Prop where
  | done {offset : Nat} (h : messages.length ≤ offset) : Rounds messages offset [] (.ok ())
  | unwritable {offset : Nat} (e : String) (h : offset < messages.length) :
      Rounds messages offset [] (.error (.thrown e))
  | rejected {offset : Nat} {entries : List BatchRequestEntry} (e : String)
      (h : offset < messages.length)
      (hentries : queue.chunkEntries offset ((messages.drop offset).take 10) = .ok entries) :
      Rounds messages offset [⟨.sendMessageBatch queue.queueUrl entries, .error e⟩]
        (.error (.thrown e))
  | refused {offset : Nat} {entries : List BatchRequestEntry}
      {reported : Option (List BatchResultErrorEntry)} (message : String)
      (h : offset < messages.length)
      (hentries : queue.chunkEntries offset ((messages.drop offset).take 10) = .ok entries)
      (hfailed : reported.getD [] ≠ []) :
      Rounds messages offset [⟨.sendMessageBatch queue.queueUrl entries, .ok reported⟩]
        (.error (.queueBatchError message
          ((reported.getD []).map fun f => f.Id.getD "<unknown>")))
  | accepted {offset : Nat} {entries : List BatchRequestEntry}
      {reported : Option (List BatchResultErrorEntry)} {es : List SqsEvent}
      {out : Except QueueError Unit} (h : offset < messages.length)
      (hentries : queue.chunkEntries offset ((messages.drop offset).take 10) = .ok entries)
      (hfailed : reported.getD [] = []) (hrest : Rounds messages (offset + 10) es out) :
      Rounds messages offset (⟨.sendMessageBatch queue.queueUrl entries, .ok reported⟩ :: es) out

theorem rounds_of_sendFrom {messages : List (QueueBatchEntry T)} {offset : Nat}
    {es : List SqsEvent} {out : Except QueueError Unit}
    (h : (queue.sendFrom messages offset).Finishes es out) :
    Rounds queue messages offset es out := by
  induction hk : messages.length - offset using Nat.strong_induction_on
    generalizing offset es with
  | _ k ih =>
      rw [SqsQueue.sendFrom] at h
      by_cases hlt : offset < messages.length
      · rw [if_pos hlt] at h
        cases hentries : queue.chunkEntries offset
            ((messages.drop offset).take sqsMaxBatchSize) with
        | error e =>
            rw [hentries] at h
            obtain ⟨rfl, rfl⟩ := Prog.finishes_ret.mp h
            exact .unwritable e hlt
        | ok entries =>
            rw [hentries] at h
            simp only [request, Prog.call_bind, Prog.finishes_ask] at h
            obtain ⟨result, fs, rfl, hrun⟩ := h
            cases result with
            | error e =>
                obtain ⟨rfl, rfl⟩ := Prog.finishes_ret.mp hrun
                exact .rejected e hlt hentries
            | ok reported =>
                change Prog.Finishes (if 0 < (reported.getD []).length then _ else _) _ _ at hrun
                by_cases hfailed : 0 < (reported.getD []).length
                · rw [if_pos hfailed] at hrun
                  obtain ⟨rfl, rfl⟩ := Prog.finishes_ret.mp hrun
                  exact .refused _ hlt hentries (List.length_pos_iff.mp hfailed)
                · rw [if_neg hfailed] at hrun
                  refine .accepted hlt hentries (by simpa using hfailed) ?_
                  exact ih (messages.length - (offset + 10)) (by omega) hrun rfl
      · rw [if_neg hlt] at h
        obtain ⟨rfl, rfl⟩ := Prog.finishes_ret.mp h
        exact .done (by omega)

theorem rounds_of_sendBatch {messages : List (QueueBatchEntry T)} {es : List SqsEvent}
    {out : Except QueueError Unit} (h : (queue.sendBatch messages).Finishes es out) :
    Rounds queue messages 0 es out := by
  unfold SqsQueue.sendBatch at h
  by_cases hnil : messages.length = 0
  · rw [if_pos hnil] at h
    obtain ⟨rfl, rfl⟩ := Prog.finishes_ret.mp h
    exact .done (by omega)
  · rw [if_neg hnil] at h
    exact rounds_of_sendFrom queue h

namespace Rounds

variable {queue} {messages : List (QueueBatchEntry T)} {offset : Nat} {es : List SqsEvent}
  {out : Except QueueError Unit}

theorem chunk_entries {entries : List BatchRequestEntry} (h : offset < messages.length)
    (hentries : queue.chunkEntries offset ((messages.drop offset).take 10) = .ok entries) :
    EntriesOf queue ((messages.drop offset).take 10)
      (idsBetween offset (min (offset + 10) messages.length)) entries := by
  have hs := chunkEntries_spec queue hentries
  have hlen : offset + ((messages.drop offset).take 10).length =
      min (offset + 10) messages.length := by
    rw [List.length_take, List.length_drop]
    omega
  rwa [hlen] at hs

theorem request_ok {entries : List BatchRequestEntry} (h : offset < messages.length)
    (hentries : queue.chunkEntries offset ((messages.drop offset).take 10) = .ok entries) :
    entries.length ≤ 10 ∧ (entries.map BatchRequestEntry.Id).Nodup := by
  have hids := (chunk_entries h hentries).ids
  refine ⟨?_, hids ▸ idsBetween_nodup _ _⟩
  have hlen := congrArg List.length hids
  simp only [List.length_map, idsBetween, List.length_range'] at hlen
  omega

theorem requests (h : Rounds queue messages offset es out) : ∀ e ∈ es,
    (sentEntries e).length ≤ 10 ∧ ((sentEntries e).map BatchRequestEntry.Id).Nodup := by
  induction h with
  | done h => simp
  | unwritable e h => simp
  | rejected e h hentries =>
      intro x hx
      rw [List.mem_singleton.mp hx]
      exact request_ok h hentries
  | refused message h hentries hfailed =>
      intro x hx
      rw [List.mem_singleton.mp hx]
      exact request_ok h hentries
  | accepted h hentries hfailed hrest ih =>
      intro x hx
      rcases List.mem_cons.mp hx with rfl | hx
      · exact request_ok h hentries
      · exact ih x hx

/-- What has been sent are the messages from the offset on, in order. -/
theorem order (h : Rounds queue messages offset es out) : ∃ k, offset ≤ k ∧
    EntriesOf queue ((messages.drop offset).take (k - offset))
      (idsBetween offset (min k messages.length)) (es.flatMap sentEntries) := by
  have hempty {offset : Nat} : EntriesOf queue ((messages.drop offset).take (offset - offset))
      (idsBetween offset (min offset messages.length)) [] := by
    refine ⟨?_, ?_⟩
    · symm
      simp only [idsBetween, List.map_nil, List.map_eq_nil_iff, List.range'_eq_nil_iff]
      omega
    · rw [Nat.sub_self, List.take_zero]
      rfl
  have hone {offset : Nat} {entries : List BatchRequestEntry} (h : offset < messages.length)
      (hentries : queue.chunkEntries offset ((messages.drop offset).take 10) = .ok entries) :
      EntriesOf queue ((messages.drop offset).take (offset + 10 - offset))
        (idsBetween offset (min (offset + 10) messages.length)) (entries ++ []) := by
    rw [Nat.add_sub_cancel_left, List.append_nil]
    exact chunk_entries h hentries
  induction h with
  | done h => exact ⟨_, Nat.le_refl _, hempty⟩
  | unwritable e h => exact ⟨_, Nat.le_refl _, hempty⟩
  | rejected e h hentries => exact ⟨_, Nat.le_add_right _ 10, hone h hentries⟩
  | refused message h hentries hfailed => exact ⟨_, Nat.le_add_right _ 10, hone h hentries⟩
  | @accepted offset entries reported es out h hentries hfailed hrest ih =>
      obtain ⟨k, hk, hrestEntries⟩ := ih
      refine ⟨k, by omega, ?_⟩
      have hsplit : (messages.drop offset).take (k - offset) =
          (messages.drop offset).take 10 ++ (messages.drop (offset + 10)).take (k - (offset + 10)) := by
        have hlen : k - offset = 10 + (k - (offset + 10)) := by omega
        rw [hlen, List.take_add, List.drop_drop]
      rw [hsplit, ← idsBetween_append_min (Nat.le_add_right offset 10) hk, List.flatMap_cons]
      exact (chunk_entries h hentries).append hrestEntries

/-- Only the error for a batch says that messages were refused. -/
theorem none_refused (h : Rounds queue messages offset es out)
    (hout : ∀ message failedIds, out ≠ .error (.queueBatchError message failedIds)) :
    ∀ e ∈ es, reportedFailures e = [] := by
  induction h with
  | done h => simp
  | unwritable e h => simp
  | rejected e h hentries =>
      intro x hx
      rw [List.mem_singleton.mp hx]
      rfl
  | refused message h hentries hfailed => exact absurd rfl (hout _ _)
  | accepted h hentries hfailed hrest ih =>
      exact List.forall_mem_cons.mpr ⟨hfailed, ih hout⟩

theorem accepted_request {entries : List BatchRequestEntry}
    {reported : Option (List BatchResultErrorEntry)} (h : offset < messages.length)
    (hentries : queue.chunkEntries offset ((messages.drop offset).take 10) = .ok entries)
    (hfailed : reported.getD [] = []) :
    acceptedIds ⟨.sendMessageBatch queue.queueUrl entries, .ok reported⟩ =
      idsBetween offset (min (offset + 10) messages.length) := by
  rw [acceptedIds, hfailed, (chunk_entries h hentries).ids]
  simp

/-- A batch that has gone through: every message has been accepted. -/
theorem all_accepted (h : Rounds queue messages offset es out) (hout : out = .ok ()) :
    es.flatMap acceptedIds = idsBetween offset messages.length := by
  induction h with
  | done h => simp [idsBetween, Nat.sub_eq_zero_of_le h]
  | unwritable e h => cases hout
  | rejected e h hentries => cases hout
  | refused message h hentries hfailed => cases hout
  | @accepted offset entries reported es out h hentries hfailed hrest ih =>
      rw [List.flatMap_cons, accepted_request h hentries hfailed, ih hout]
      rcases Nat.le_total (offset + 10) messages.length with hle | hle
      · rw [Nat.min_eq_left hle, idsBetween_append (Nat.le_add_right offset 10) hle]
      · rw [Nat.min_eq_right hle]
        simp [idsBetween, Nat.sub_eq_zero_of_le hle]

/-- A batch that has been refused: all of the chunks before the last one sent
have been accepted, and of that one what SQS did not refuse. -/
theorem refused_at (h : Rounds queue messages offset es out) {message : String}
    {failedIds : List String} (hout : out = .error (.queueBatchError message failedIds)) :
    ∃ front e k, es = front ++ [e] ∧ k = offset + 10 * front.length ∧ k < messages.length ∧
      (∀ x ∈ front, reportedFailures x = []) ∧ reportedFailures e ≠ [] ∧
      front.flatMap acceptedIds = idsBetween offset k ∧
      (sentEntries e).map BatchRequestEntry.Id = idsBetween k (min (k + 10) messages.length) ∧
      failedIds = refusedIds e := by
  induction h with
  | done h => cases hout
  | unwritable e h => cases hout
  | rejected e h hentries => cases hout
  | @refused offset entries reported message h hentries hfailed =>
      cases hout
      exact ⟨[], _, offset, rfl, rfl, h, by simp, hfailed, (idsBetween_self offset).symm,
        (chunk_entries h hentries).ids, rfl⟩
  | @accepted offset entries reported es out h hentries hfailed hrest ih =>
      obtain ⟨front, e, k, rfl, hk, hlt, hfront, he, haccepted, hids, hnames⟩ := ih hout
      refine ⟨_ :: front, e, k, rfl, ?_, hlt, List.forall_mem_cons.mpr ⟨hfailed, hfront⟩, he, ?_,
        hids, hnames⟩
      · rw [List.length_cons]
        omega
      · have hle : offset + 10 ≤ messages.length := by omega
        rw [List.flatMap_cons, accepted_request h hentries hfailed, haccepted,
          Nat.min_eq_left hle, idsBetween_append (Nat.le_add_right offset 10) (by omega)]

end Rounds

end

/-! ## What was refused -/

theorem some_mem_reported {e : SqsEvent} (hd : Documented e) {id : String} :
    some id ∈ (reportedFailures e).map BatchResultErrorEntry.Id ↔ id ∈ refusedIds e := by
  simp only [refusedIds, List.mem_map]
  constructor
  · rintro ⟨f, hf, hid⟩
    exact ⟨f, hf, by rw [hid, Option.getD_some]⟩
  · rintro ⟨f, hf, rfl⟩
    obtain ⟨entry, -, hentry⟩ := hd f hf
    exact ⟨f, hf, by rw [hentry, Option.getD_some]⟩

theorem refusedIds_subset {e : SqsEvent} (hd : Documented e) :
    refusedIds e ⊆ (sentEntries e).map BatchRequestEntry.Id := by
  intro id hid
  obtain ⟨f, hf, rfl⟩ := List.mem_map.mp hid
  obtain ⟨entry, hmem, hentry⟩ := hd f hf
  rw [hentry, Option.getD_some]
  exact List.mem_map_of_mem hmem

/-- Of a request with refusals, the rest has been accepted. -/
theorem mem_acceptedIds {e : SqsEvent} (hd : Documented e) (he : reportedFailures e ≠ [])
    {id : String} : id ∈ acceptedIds e ↔
      id ∈ (sentEntries e).map BatchRequestEntry.Id ∧ id ∉ refusedIds e := by
  obtain ⟨op, res⟩ := e
  cases op with
  | sendMessage => exact absurd rfl he
  | sendMessageBatch url entries =>
      cases res with
      | error e => exact absurd rfl he
      | ok reported =>
          rw [acceptedIds, List.mem_filter, ← some_mem_reported hd]
          simp [sentEntries, reportedFailures]

theorem acceptedIds_sublist (e : SqsEvent) :
    (acceptedIds e).Sublist ((sentEntries e).map BatchRequestEntry.Id) := by
  obtain ⟨op, res⟩ := e
  cases op with
  | sendMessage => exact List.Sublist.refl _
  | sendMessageBatch url entries =>
      cases res with
      | error e => exact List.nil_sublist _
      | ok reported => exact List.filter_sublist

section

variable {T : Type} {queue : SqsQueue T} {messages : List (QueueBatchEntry T)}
  {es : List SqsEvent}

theorem noneBehind_of_none (h : ∀ e ∈ es, reportedFailures e = []) : NoneBehind messages es := by
  intro j e hj hne
  exact absurd (h e (List.mem_of_getElem? hj)) hne

/-- The one request with refusals is the last. -/
theorem noneBehind_iff {front : List SqsEvent} {e : SqsEvent}
    (hfront : ∀ x ∈ front, reportedFailures x = []) (he : reportedFailures e ≠ []) :
    NoneBehind messages (front ++ [e]) ↔ messages.length ≤ 10 * front.length + 10 := by
  constructor
  · intro h
    exact h front.length e List.getElem?_concat_length he
  · intro hlen j x hj hne
    rcases List.mem_append.mp (List.mem_of_getElem? hj) with hx | hx
    · exact absurd (hfront x hx) hne
    · have hjlen : ¬ j < front.length := by
        intro hlt
        rw [List.getElem?_append_left hlt] at hj
        exact hne (hfront x (List.mem_of_getElem? hj))
      omega

/-- What has been accepted up to a request with refusals. -/
theorem mem_accepted {front : List SqsEvent} {e : SqsEvent} {k : Nat}
    (hd : Documented e) (he : reportedFailures e ≠ [])
    (haccepted : front.flatMap acceptedIds = idsBetween 0 k)
    (hids : (sentEntries e).map BatchRequestEntry.Id =
      idsBetween k (min (k + 10) messages.length)) {i : Nat} :
    Nat.repr i ∈ (front ++ [e]).flatMap acceptedIds ↔
      i < k ∨ (i < min (k + 10) messages.length ∧ Nat.repr i ∉ refusedIds e) := by
  rw [List.flatMap_append, List.flatMap_singleton, List.mem_append, haccepted,
    mem_acceptedIds hd he, hids, mem_idsBetween, mem_idsBetween]
  constructor
  · rintro (h | ⟨h, hnot⟩)
    · exact .inl h.2
    · exact .inr ⟨h.2, hnot⟩
  · rintro (h | ⟨h, hnot⟩)
    · exact .inl ⟨Nat.zero_le _, h⟩
    · rcases Nat.lt_or_ge i k with hlt | hge
      · exact .inl ⟨Nat.zero_le _, hlt⟩
      · exact .inr ⟨⟨hge, h⟩, hnot⟩

theorem accepted_nodup {front : List SqsEvent} {e : SqsEvent} {k : Nat}
    (hk : k ≤ messages.length) (haccepted : front.flatMap acceptedIds = idsBetween 0 k)
    (hids : (sentEntries e).map BatchRequestEntry.Id =
      idsBetween k (min (k + 10) messages.length)) :
    ((front ++ [e]).flatMap acceptedIds).Nodup := by
  have hsub := (List.Sublist.refl (idsBetween 0 k)).append (acceptedIds_sublist e)
  rw [hids, idsBetween_append (Nat.zero_le k) (by omega)] at hsub
  rw [List.flatMap_append, List.flatMap_singleton, haccepted]
  exact hsub.nodup (idsBetween_nodup _ _)

/-- The error is right about every message if and only if none is behind it. -/
theorem failed_accounted_iff {message : String} {failedIds : List String}
    (h : Rounds queue messages 0 es (.error (.queueBatchError message failedIds)))
    (hd : ∀ e ∈ es, Documented e) :
    ((∀ id ∈ failedIds, ∃ i < messages.length, id = Nat.repr i) ∧
      ∀ i < messages.length, (es.flatMap acceptedIds).count (Nat.repr i) =
        if Nat.repr i ∈ failedIds then 0 else 1) ↔ NoneBehind messages es := by
  obtain ⟨front, e, k, rfl, hk, hlt, hfront, he, haccepted, hids, hnames⟩ := h.refused_at rfl
  have hde := hd e (by simp)
  have hnodup := accepted_nodup (Nat.le_of_lt hlt) haccepted hids
  have hmem {i : Nat} := mem_accepted (i := i) hde he haccepted hids
  have hwithin : ∀ id ∈ failedIds, id ∈ idsBetween k (min (k + 10) messages.length) := by
    intro id hid
    rw [← hids]
    exact refusedIds_subset hde (hnames ▸ hid)
  rw [noneBehind_iff hfront he]
  constructor
  · rintro ⟨-, hcount⟩
    by_contra hbehind
    -- The first message behind the request is neither accepted nor named.
    have hnext := hcount (k + 10) (by omega)
    have hnot : Nat.repr (k + 10) ∉ failedIds := by
      intro hin
      have := mem_idsBetween.mp (hwithin _ hin)
      omega
    rw [if_neg hnot, hnodup.count] at hnext
    have hacc : Nat.repr (k + 10) ∈ (front ++ [e]).flatMap acceptedIds := by
      by_contra hno
      rw [if_neg hno] at hnext
      cases hnext
    rcases hmem.mp hacc with h | h <;> omega
  · intro hlen
    refine ⟨?_, ?_⟩
    · intro id hid
      obtain ⟨i, hi, rfl⟩ := exists_of_mem_idsBetween (hwithin id hid)
      exact ⟨i, by omega, rfl⟩
    · intro i hi
      rw [hnodup.count]
      by_cases hin : Nat.repr i ∈ failedIds
      · have hge := (mem_idsBetween.mp (hwithin _ hin)).1
        have hnot : Nat.repr i ∉ (front ++ [e]).flatMap acceptedIds := by
          intro hacc
          rcases hmem.mp hacc with h | ⟨-, h⟩
          · omega
          · exact h (hnames ▸ hin)
        rw [if_pos hin, if_neg hnot]
      · have hacc : Nat.repr i ∈ (front ++ [e]).flatMap acceptedIds := by
          refine hmem.mpr (.inr ⟨by omega, fun h => hin ?_⟩)
          rw [hnames]
          exact h
        rw [if_neg hin, if_pos hacc]

/-- What a run has sent, whatever came of it. -/
theorem sent_in_order {out : Except QueueError Unit} (h : Rounds queue messages 0 es out) :
    ∃ k, (es.flatMap sentEntries).map BatchRequestEntry.Id = (List.range k).map Nat.repr ∧
      (es.flatMap sentEntries).map (fun entry => .ok entry.MessageBody) =
        (messages.take k).map fun msg => queue.stringify msg.body := by
  obtain ⟨k, -, hids, hbodies⟩ := h.order
  refine ⟨min k messages.length, ?_, ?_⟩
  · rw [hids, List.range_eq_range']
    rfl
  · rw [hbodies, Nat.sub_zero, List.drop_zero, List.take_eq_take_min]

theorem accepted_once {out : Except QueueError Unit} (h : Rounds queue messages 0 es out)
    (hout : out = .ok ()) :
    ∀ i < messages.length, (es.flatMap acceptedIds).count (Nat.repr i) = 1 := by
  intro i hi
  rw [h.all_accepted hout, (idsBetween_nodup _ _).count, if_pos]
  exact mem_idsBetween.mpr ⟨Nat.zero_le i, hi⟩

end

/-- The report is right if and only if SQS refuses messages of no request but
the last. -/
theorem batch_accounted_iff {T : Type} (queue : SqsQueue T) (messages : List (QueueBatchEntry T))
    (es : List SqsEvent) (out : Except QueueError Unit)
    (h : (queue.sendBatch messages).Finishes es out) (hd : ∀ e ∈ es, Documented e) :
    Accounted queue messages es out ↔ NoneBehind messages es := by
  have hrounds := rounds_of_sendBatch queue h
  constructor
  · intro haccounted
    by_cases hout : ∃ message failedIds, out = .error (.queueBatchError message failedIds)
    · obtain ⟨message, failedIds, rfl⟩ := hout
      exact (failed_accounted_iff hrounds hd).mp (haccounted.failed message failedIds rfl)
    · refine noneBehind_of_none (hrounds.none_refused ?_)
      exact fun message failedIds heq => hout ⟨message, failedIds, heq⟩
  · intro hnone
    refine ⟨hrounds.requests, sent_in_order hrounds, accepted_once hrounds, ?_⟩
    rintro message failedIds rfl
    exact (failed_accounted_iff hrounds hd).mpr hnone

namespace Small

/-- Numbers up to ten as bodies. -/
def queue : SqsQueue Nat where
  queueUrl := "https://sqs.example/queue"
  stringify n := .ok (some (Nat.repr n))

def message (n : Nat) : QueueBatchEntry Nat := ⟨n, none⟩

def entry (n : Nat) : BatchRequestEntry := ⟨Nat.repr n, some (Nat.repr n), none⟩

def accepting : List SqsEvent :=
  [⟨.sendMessageBatch queue.queueUrl [entry 0], .ok none⟩]

theorem accepting_finishes : (queue.sendBatch [message 0]).Finishes accepting (.ok ()) := by
  rw [SqsQueue.sendBatch, if_neg (by decide), SqsQueue.sendFrom, if_pos (by decide)]
  refine ⟨_, rfl, ?_⟩
  change Prog.Finishes (queue.sendFrom [message 0] 10) [] (.ok ())
  rw [SqsQueue.sendFrom, if_neg (by decide)]
  rfl

/-- One message that is accepted. -/
theorem batch_accounted_one : Accounted queue [message 0] accepting (.ok ()) ↔
    NoneBehind [message 0] accepting :=
  batch_accounted_iff queue [message 0] accepting (.ok ())
    accepting_finishes (by simp [accepting, Documented, reportedFailures])

/-- The first of eleven messages is refused: the eleventh is never sent. -/
def refusing : List SqsEvent :=
  [⟨.sendMessageBatch queue.queueUrl ((List.range 10).map entry), .ok (some [⟨some "0"⟩])⟩]

def behind : Except QueueError Unit :=
  .error (.queueBatchError "SQS batch send had 1 failure(s)" ["0"])

theorem eleventh_lost :
    (queue.sendBatch ((List.range 11).map message)).Finishes refusing behind ∧
      (∀ e ∈ refusing, Documented e) ∧
      ¬ Accounted queue ((List.range 11).map message) refusing behind := by
  refine ⟨?_, ?_, ?_⟩
  · rw [SqsQueue.sendBatch, if_neg (by decide), SqsQueue.sendFrom, if_pos (by decide)]
    exact ⟨_, rfl, rfl⟩
  · intro e he f hf
    rw [List.mem_singleton.mp he] at hf ⊢
    exact ⟨entry 0, by decide, congrArg BatchResultErrorEntry.Id (List.mem_singleton.mp hf)⟩
  · intro haccounted
    have hcount := (haccounted.failed _ _ rfl).2 10 (by decide)
    exact absurd hcount (by decide)

end Small

end SaasFoundation.Foundation.Queue
