import SaasFoundation.Foundation.Kv.Encoding
import SaasFoundation.Foundation.Kv.DynamoRuns

/-!
# Requests that are sent again

`transientRetry` sends a request again whenever it comes back with an error
that may be transient. DynamoDB may have carried out the request and only the
answer was lost: an increment is then made twice, and a conditional write
that has already won fails its own condition and is reported as refused.
-/

namespace SaasFoundation.Foundation.Kv.Retries

open Lib DynamoKvStore

abbrev KvConfig := Config Request Reply World Op Result

abbrev KvEntry := Entry Request Reply World

/-- Any operations at once; requests and answers may be lost. -/
def clients (layout : DynamoKvLayout) (p : Platform) (calls : Nat) :
    System Request Reply World Op Result :=
  dynamoSystem layout True True (start layout p calls) fun _ _ => True

/-- The request has put or removed an item under the key. -/
def changes (pk : String) (e : KvEntry) : Bool :=
  (e.post.past pk).length != (e.pre.past pk).length || e.post.removals pk != e.pre.removals pk

/-- The requests of a thread that took effect. -/
def effects (log : List KvEntry) (i : Nat) (pk : String) : List KvEntry :=
  log.filter fun e => e.tid == i && changes pk e

/-- The client did not get the answer. -/
def lost : Event Request Reply → Bool
  | ⟨.dynamo _, .error .transient⟩ => true
  | _ => false

def counterAt (w : World) (pk field : String) : Option ℚ :=
  ((w.table pk).map fun item => counterOf item field).getD (some 0)

def Applied (result : Result) : Prop := ∃ record, result = .cas true record

/-- One request has taken effect, and it has added `delta`. -/
def AddsOnce (log : List KvEntry) (i : Nat) (pk field : String) (delta : ℚ) : Prop :=
  ∃ e, effects log i pk = [e] ∧
    counterAt e.post pk field = (counterAt e.pre pk field).map (· + delta)

/-- What the operation reports is what it has done. -/
def Exact (layout : DynamoKvLayout) (log : List KvEntry) (i : Nat) (op : Op) (result : Result) :
    Prop :=
  match op with
  | .increment key field delta _ => AddsOnce log i (pkOf layout key) field delta
  | .putIfAbsent key _ _ => Applied result ↔ effects log i (pkOf layout key) ≠ []
  | .compareAndSet key _ _ _ => Applied result ↔ effects log i (pkOf layout key) ≠ []
  | .delete key (some _) => result = .deleted true ↔ effects log i (pkOf layout key) ≠ []
  | _ => True

/-- Of an increment that took effect no answer was lost; of a conditional
write that took effect one answer came through. -/
def Answered (layout : DynamoKvLayout) (log : List KvEntry) (i : Nat) (op : Op) : Prop :=
  match op with
  | .increment key _ _ _ => ∀ e ∈ effects log i (pkOf layout key), lost e.ev = false
  | .putIfAbsent key _ _ => effects log i (pkOf layout key) = [] ∨
      ∃ e ∈ effects log i (pkOf layout key), lost e.ev = false
  | .compareAndSet key _ _ _ => effects log i (pkOf layout key) = [] ∨
      ∃ e ∈ effects log i (pkOf layout key), lost e.ev = false
  | .delete key (some _) => effects log i (pkOf layout key) = [] ∨
      ∃ e ∈ effects log i (pkOf layout key), lost e.ev = false
  | _ => True

/-! ## One request -/

section Requests

variable {layout : DynamoKvLayout} {w w' : World} {pk : String}

theorem changes_put {e : KvEntry} {item : Item} (h : e.post = e.pre.put pk item) :
    changes pk e = true := by
  simp [changes, h, World.put]

theorem changes_remove {e : KvEntry} (h : e.post = e.pre.remove pk) : changes pk e = true := by
  simp [changes, h, World.remove]

theorem not_changes {e : KvEntry} (h : e.post = e.pre) : changes pk e = false := by
  simp [changes, h]

theorem addTo_error {item : Item} {attr : String} {n : ℚ} {e : KvError}
    (h : addTo item attr n = .error e) : e = .validation := by
  unfold addTo at h
  split at h <;> cases h
  rfl

theorem updated_error {field : String} {delta : ℚ} {expiresAt : Option ℚ} {existing : Option Item}
    {e : KvError} (h : updated layout pk field delta expiresAt existing = .error e) :
    e = .validation := by
  unfold updated at h
  split at h
  · cases h
    rfl
  · cases hadded : addTo (existing.getD (keyItem layout pk)) field delta with
    | error e' =>
        rw [hadded] at h
        cases h
        exact addTo_error hadded
    | ok added =>
        cases hbumped : addTo added layout.versionAttr 1 with
        | error e' =>
            simp only [hadded, hbumped, bind, Except.bind] at h
            cases h
            exact addTo_error hbumped
        | ok bumped =>
            simp only [hadded, hbumped, bind, Except.bind] at h
            split at h <;> cases h

/-- DynamoDB itself gives no transient error, and with an error it has done
nothing. -/
theorem apply_error_effect {table : DynamoTable} {command : Command} {e : KvError}
    (h : (apply layout table command).1 = .error e) :
    effect layout table command = none ∧ e ≠ .transient := by
  cases command with
  | getItem _ _ => cases h
  | query indexValue =>
      simp only [apply] at h
      split at h
      · cases h
        exact ⟨rfl, by simp⟩
      · cases h
  | putItem pk item condition =>
      simp only [apply] at h
      simp only [effect]
      split at h
      · cases h
        exact ⟨by simp [*], by simp⟩
      · split at h
        · cases h
        · cases h
          exact ⟨by simp [*], by simp⟩
  | updateItem pk field delta expiresAt =>
      simp only [apply] at h
      simp only [effect]
      split at h
      · cases h
      · rename_i e' he'
        cases h
        have hkind := updated_error he'
        exact ⟨by simp [he'], by simp [hkind]⟩
  | deleteItem pk condition =>
      simp only [apply] at h
      simp only [effect]
      split at h
      · cases h
      · cases h
        exact ⟨by simp [*], by simp⟩

/-- A request that has come back with an error and has taken effect has lost
its answer. -/
theorem lost_of_error {e : KvEntry} (hserve : serve layout True e.pre e.ev.op e.ev.res e.post)
    {command : Command} {err : KvError} (hev : e.ev = ⟨.dynamo command, .error err⟩)
    (hchanges : changes pk e = true) : lost e.ev = true := by
  rw [hev] at hserve ⊢
  rcases hserve with ⟨hanswer, hpost⟩ | ⟨-, herr, -⟩
  · have herror : (apply layout e.pre.table command).1 = .error err := by
      cases command with
      | getItem key consistent =>
          cases consistent with
          | true => exact hanswer.symm
          | false =>
              obtain ⟨item, hitem, -⟩ := hanswer
              cases hitem
      | _ => exact hanswer.symm
    have hsame : e.post = e.pre := by
      rw [hpost, World.carriedOut, (apply_error_effect herror).1]
      rfl
    rw [not_changes hsame] at hchanges
    cases hchanges
  · cases herr
    rfl

/-- Requests that take no effect, unless their answer is lost. -/
def Harmless (ev : Event Request Reply) : Prop :=
  ev.op = .now ∨ (∃ pk consistent, ev.op = .dynamo (.getItem pk consistent)) ∨
    ∃ command e, ev = ⟨.dynamo command, .error e⟩

theorem lost_of_harmless {e : KvEntry} (hserve : serve layout True e.pre e.ev.op e.ev.res e.post)
    (hev : Harmless e.ev) (hchanges : changes pk e = true) : lost e.ev = true := by
  rcases hev with hnow | ⟨pk', consistent, hget⟩ | ⟨command, err, herr⟩
  · have hsame : e.post = e.pre := by
      obtain ⟨i, pre, ⟨op, r⟩, post⟩ := e
      cases hnow
      exact hserve.2
    rw [not_changes hsame] at hchanges
    cases hchanges
  · have hsame : e.post = e.pre := by
      rcases serve_cases hserve with hsame | ⟨command, hcommand, hdone⟩
      · exact hsame
      · rw [hget] at hcommand
        cases hcommand
        exact hdone
    rw [not_changes hsame] at hchanges
    cases hchanges
  · exact lost_of_error hserve herr hchanges

/-- An acknowledged update has put the new item. -/
theorem update_ok {field : String} {delta : ℚ} {expiresAt : Option ℚ} {attrs : Item}
    (hserve : serve layout True w (.dynamo (.updateItem pk field delta expiresAt)) (.ok attrs) w') :
    updated layout pk field delta expiresAt (w.table pk) = .ok attrs ∧ w' = w.put pk attrs := by
  obtain ⟨hanswer, rfl⟩ := serve_ok hserve
  have hok : (.ok attrs : Except KvError Item) =
      (apply layout w.table (.updateItem pk field delta expiresAt)).1 := hanswer
  simp only [apply] at hok
  simp only [World.carriedOut, effect]
  split at hok
  · rename_i item hitem
    cases hok
    rw [hitem]
    exact ⟨rfl, rfl⟩
  · cases hok

/-- An acknowledged guarded delete has removed the item. -/
theorem delete_ok {version : ℤ} {old : Option Item}
    (hserve : serve layout True w (.dynamo (.deleteItem pk (.versionIs version))) (.ok old) w') :
    old.isSome = true ∧ w' = w.remove pk := by
  obtain ⟨hanswer, rfl⟩ := serve_ok hserve
  have hok : (.ok old : Except KvError (Option Item)) =
      (apply layout w.table (.deleteItem pk (.versionIs version))).1 := hanswer
  simp only [apply] at hok
  split at hok
  · rename_i hholds
    obtain ⟨item, hitem, -⟩ := versionOf_of_holds hholds
    cases hok
    rw [hitem] at hholds
    simp [World.carriedOut, effect, hholds, hitem, World.change]
  · cases hok

end Requests

/-! ## Operations -/

section Operations

variable {layout : DynamoKvLayout} {p : Platform} {key pk : String}
  {es : List (Event Request Reply)} {result : Result}

theorem harmless_failed {command : Command} {ev : Event Request Reply} (h : Failed command ev) :
    Harmless ev := by
  obtain ⟨e, -, rfl⟩ := h
  exact .inr (.inr ⟨command, e, rfl⟩)

theorem refused_harmless (hnormal : ∀ e, result ≠ .failed e)
    (h : (refused layout p pk).Finishes es result) : ∀ ev ∈ es, Harmless ev := by
  rcases attempt_finishes h with ⟨es₁, es₂, current, rfl, hread, hrest⟩ | ⟨e, -, rfl⟩
  · obtain ⟨fs, rfl, hfs⟩ := send_finishes hread
    have hread : ∀ ev ∈ fs ++ [⟨.dynamo (.getItem pk true), .ok current⟩], Harmless ev := by
      intro ev hev
      rcases List.mem_append.mp hev with hev | hev
      · exact harmless_failed (hfs ev hev)
      · rw [List.mem_singleton.mp hev]
        exact .inr (.inl ⟨pk, true, rfl⟩)
    have hlast : ∀ ev ∈ es₂, Harmless ev := by
      cases current with
      | none =>
          obtain ⟨rfl, -⟩ := Prog.finishes_ret.mp hrest
          simp
      | some item =>
          obtain ⟨now, es₃, rfl, hret⟩ := Prog.finishes_ask.mp hrest
          obtain ⟨rfl, -⟩ := Prog.finishes_ret.mp hret
          intro ev hev
          rw [List.mem_singleton.mp hev]
          exact .inl rfl
    intro ev hev
    rcases List.mem_append.mp hev with hev | hev
    · exact hread ev hev
    · exact hlast ev hev
  · exact absurd rfl (hnormal e)

theorem conditionalPut_harmless {item : Item} {condition : Condition} {lost : Handler Result}
    (hnormal : ∀ e, result ≠ .failed e) (hrefused : ¬ Applied result)
    (h : (conditionalPut layout p pk item condition lost).Finishes es result)
    (hlost : ∀ es₂, lost.Finishes es₂ result → ∀ ev ∈ es₂, Harmless ev) :
    ∀ ev ∈ es, Harmless ev := by
  rcases conditionalPut_finishes h with ⟨fs, rfl, -, rfl⟩ | ⟨fs, es₂, rfl, hfs, hrest⟩ | ⟨e, rfl⟩
  · exact absurd ⟨_, rfl⟩ hrefused
  · intro ev hev
    rcases List.mem_append.mp hev with hev | hev
    · exact harmless_failed (hfs ev hev)
    · rcases List.mem_cons.mp hev with rfl | hev
      · exact .inr (.inr ⟨_, _, rfl⟩)
      · exact hlost es₂ hrest ev hev
  · exact absurd rfl (hnormal e)

theorem compareAndSet_harmless {expectedVersion : ℤ} {value : Fields} {opts : KvWriteOptions}
    (hnormal : ∀ e, result ≠ .failed e) (hrefused : ¬ Applied result)
    (h : (compareAndSet layout p key expectedVersion value opts).Finishes es result) :
    ∀ ev ∈ es, Harmless ev := by
  obtain ⟨now, es₁, rfl, hcheck⟩ := Prog.finishes_ask.mp h
  rcases checked_finishes hcheck with ⟨built, hbuilt, hput⟩ | ⟨e, rfl⟩
  · have hrest := conditionalPut_harmless hnormal hrefused hput fun es₂ hlost =>
      refused_harmless hnormal hlost
    intro ev hev
    rcases List.mem_cons.mp hev with rfl | hev
    · exact .inl rfl
    · exact hrest ev hev
  · exact absurd rfl (hnormal e)

theorem putIfAbsent_harmless {value : Fields} {opts : KvWriteOptions} {calls : Nat}
    (hnormal : ∀ e, result ≠ .failed e) (hrefused : ¬ Applied result)
    (h : (putIfAbsent layout p key value opts calls).Finishes es result) :
    ∀ ev ∈ es, Harmless ev := by
  induction calls generalizing es with
  | zero => exact absurd (Prog.finishes_ret.mp h).2.symm (hnormal _)
  | succ calls ih =>
      obtain ⟨now, es₁, rfl, hcheck⟩ := Prog.finishes_ask.mp h
      rcases checked_finishes hcheck with ⟨create, hcreate, hput⟩ | ⟨e, rfl⟩
      · have hrest := conditionalPut_harmless hnormal hrefused hput fun es₂ hlost => by
          rcases attempt_finishes hlost with ⟨es₃, es₄, current, rfl, hread, hfound⟩ | ⟨e, -, rfl⟩
          · obtain ⟨fs, rfl, hfs⟩ := send_finishes hread
            have hrest : ∀ ev ∈ es₄, Harmless ev := by
              cases current with
              | none => exact ih hfound
              | some current =>
                  obtain ⟨now', es₅, rfl, hexpired⟩ := Prog.finishes_ask.mp hfound
                  replace hexpired : Prog.Finishes (if !isExpiredItem layout now' current then _
                    else _) es₅ result := hexpired
                  have hlast : ∀ ev ∈ es₅, Harmless ev := by
                    split at hexpired
                    · obtain ⟨rfl, -⟩ := Prog.finishes_ret.mp hexpired
                      simp
                    · rcases checked_finishes hexpired with ⟨takeover, -, hput⟩ | ⟨e, rfl⟩
                      · exact conditionalPut_harmless hnormal hrefused hput fun es₆ hlost =>
                          refused_harmless hnormal hlost
                      · exact absurd rfl (hnormal e)
                  intro ev hev
                  rcases List.mem_cons.mp hev with rfl | hev
                  · exact .inl rfl
                  · exact hlast ev hev
            intro ev hev
            rcases List.mem_append.mp hev with hev | hev
            · rcases List.mem_append.mp hev with hev | hev
              · exact harmless_failed (hfs ev hev)
              · rw [List.mem_singleton.mp hev]
                exact .inr (.inl ⟨create.1, true, rfl⟩)
            · exact hrest ev hev
          · exact absurd rfl (hnormal e)
        intro ev hev
        rcases List.mem_cons.mp hev with rfl | hev
        · exact .inl rfl
        · exact hrest ev hev
      · exact absurd rfl (hnormal e)

/-- A guarded delete is acknowledged, or refused. -/
theorem delete_finishes {version : ℤ} (hnormal : ∀ e, result ≠ .failed e)
    (h : (delete layout key (some version)).Finishes es result) :
    ∃ pk, buildPk layout key = .ok pk ∧
      ((∃ old, ⟨.dynamo (.deleteItem pk (.versionIs version)), .ok old⟩ ∈ es ∧
          result = .deleted old.isSome) ∨
        result = .deleted false ∧ ∀ ev ∈ es, Harmless ev) := by
  rcases checked_finishes h with ⟨pk, hpk, hdelete⟩ | ⟨e, rfl⟩
  · refine ⟨pk, hpk, ?_⟩
    obtain ⟨es₁, es₂, reply, rfl, hsend, hrest⟩ := Prog.finishes_bind.mp hdelete
    obtain ⟨fs, rfl, hfs⟩ := send_finishes hsend
    rcases reply with (_ | _ | _ | _ | _) | old
    · exact absurd (Prog.finishes_ret.mp hrest).2.symm (hnormal _)
    · exact absurd (Prog.finishes_ret.mp hrest).2.symm (hnormal _)
    · obtain ⟨rfl, rfl⟩ := Prog.finishes_ret.mp hrest
      refine .inr ⟨rfl, ?_⟩
      intro ev hev
      rw [List.append_nil] at hev
      rcases List.mem_append.mp hev with hev | hev
      · exact harmless_failed (hfs ev hev)
      · rw [List.mem_singleton.mp hev]
        exact .inr (.inr ⟨_, _, rfl⟩)
    · exact absurd (Prog.finishes_ret.mp hrest).2.symm (hnormal _)
    · exact absurd (Prog.finishes_ret.mp hrest).2.symm (hnormal _)
    · obtain ⟨rfl, rfl⟩ := Prog.finishes_ret.mp hrest
      exact .inl ⟨old, by simp, rfl⟩
  · exact absurd rfl (hnormal e)

/-- An increment that returns is acknowledged by its last attempt. -/
theorem increment_finishes {field : String} {delta : ℚ} {opts : KvWriteOptions}
    (hnormal : ∀ e, result ≠ .failed e)
    (h : (increment layout p key field delta opts).Finishes es result) :
    ∃ pk now fs attrs, buildPk layout key = .ok pk ∧
      es = fs ++ [⟨.dynamo (.updateItem pk field delta (resolveExpiry now opts)), .ok attrs⟩] ∧
      ∀ ev ∈ fs, Harmless ev := by
  unfold increment at h
  split at h
  · exact absurd (Prog.finishes_ret.mp h).2.symm (hnormal _)
  · obtain ⟨now, es₁, rfl, hcheck⟩ := Prog.finishes_ask.mp h
    rcases checked_finishes hcheck with ⟨pk, hpk, hsend⟩ | ⟨e, rfl⟩
    · rcases attempt_finishes hsend with ⟨es₂, es₃, attrs, rfl, hupdate, hret⟩ | ⟨e, -, rfl⟩
      · obtain ⟨fs, rfl, hfs⟩ := send_finishes hupdate
        obtain ⟨rfl, -⟩ := Prog.finishes_ret.mp hret
        refine ⟨pk, now, ⟨.now, now⟩ :: fs, attrs, hpk, by simp, ?_⟩
        intro ev hev
        rcases List.mem_cons.mp hev with rfl | hev
        · exact .inl rfl
        · exact harmless_failed (hfs ev hev)
      · exact absurd rfl (hnormal e)
    · exact absurd rfl (hnormal e)

end Operations

/-! ## Runs -/

section Runs

variable {layout : DynamoKvLayout} {p : Platform} {calls : Nat} {c : KvConfig} {i : Nat}
  {key : String} {result : Result}

theorem mem_effects {log : List KvEntry} {pk : String} {e : KvEntry} :
    e ∈ effects log i pk ↔ e ∈ log ∧ e.tid = i ∧ changes pk e = true := by
  simp [effects]

/-- A thread that has seen only harmless answers has taken effect only where
an answer was lost. -/
theorem effects_lost (h : (clients layout p calls).Reachable c) {l₁ l₂ : List KvEntry}
    (hlog : c.log = l₁ ++ l₂) {pk : String} (hharmless : ∀ ev ∈ localLog l₁ i, Harmless ev) :
    ∀ e ∈ effects l₁ i pk, lost e.ev = true := by
  intro e he
  obtain ⟨hmem, rfl, hchanges⟩ := mem_effects.mp he
  have hserve : serve layout True e.pre e.ev.op e.ev.res e.post :=
    h.served e (by rw [hlog]; exact List.mem_append_left _ hmem)
  exact lost_of_harmless hserve (hharmless _ (Entry.mem_localLog hmem)) hchanges

/-- An acknowledged put is an effect whose answer was not lost. -/
theorem put_effect (h : (clients layout p calls).Reachable c) {pk : String} {item : Item}
    {condition : Condition}
    (hmem : ⟨.dynamo (.putItem pk item condition), .ok ()⟩ ∈ localLog c.log i) :
    ∃ e ∈ effects c.log i pk, lost e.ev = false := by
  obtain ⟨e, he, hi, hev⟩ := mem_localLog.mp hmem
  have hserve : serve layout True e.pre e.ev.op e.ev.res e.post := h.served e he
  rw [hev] at hserve
  have hput := put_ok hserve
  exact ⟨e, mem_effects.mpr ⟨he, hi, changes_put hput⟩, by rw [hev]; rfl⟩

/-- What is reported is what happened iff some answer came through. -/
theorem reported_iff {reported : Prop} {own : List KvEntry}
    (htrue : reported → ∃ e ∈ own, lost e.ev = false)
    (hfalse : ¬ reported → ∀ e ∈ own, lost e.ev = true) :
    (reported ↔ own ≠ []) ↔ own = [] ∨ ∃ e ∈ own, lost e.ev = false := by
  by_cases hreported : reported
  · obtain ⟨e, he, hlost⟩ := htrue hreported
    have hne : own ≠ [] := List.ne_nil_of_mem he
    exact ⟨fun _ => .inr ⟨e, he, hlost⟩, fun _ => ⟨fun _ => hne, fun _ => hreported⟩⟩
  · have hall := hfalse hreported
    constructor
    · intro h
      left
      by_contra hne
      exact hreported (h.mpr hne)
    · rintro (rfl | ⟨e, he, hlost⟩)
      · simp [hreported]
      · rw [hall e he] at hlost
        cases hlost

theorem delete_effects (h : (clients layout p calls).Reachable c) {version : ℤ}
    (hnormal : ∀ e, result ≠ .failed e)
    (hrun : (delete layout key (some version)).Finishes (localLog c.log i) result) :
    (result = .deleted true → ∃ e ∈ effects c.log i (pkOf layout key), lost e.ev = false) ∧
      (¬ result = .deleted true → ∀ e ∈ effects c.log i (pkOf layout key), lost e.ev = true) := by
  obtain ⟨pk, hpk, hdone⟩ := delete_finishes hnormal hrun
  rw [buildPk_eq hpk] at hdone
  rcases hdone with ⟨old, hmem, rfl⟩ | ⟨rfl, hharmless⟩
  · obtain ⟨e, he, hi, hev⟩ := mem_localLog.mp hmem
    have hserve : serve layout True e.pre e.ev.op e.ev.res e.post := h.served e he
    rw [hev] at hserve
    obtain ⟨hsome, hremove⟩ := delete_ok hserve
    have heffect : e ∈ effects c.log i (pkOf layout key) :=
      mem_effects.mpr ⟨he, hi, changes_remove hremove⟩
    refine ⟨fun _ => ⟨e, heffect, by rw [hev]; rfl⟩, ?_⟩
    intro hfalse
    exact absurd (congrArg Result.deleted hsome) hfalse
  · refine ⟨fun htrue => (by cases htrue), fun _ => ?_⟩
    exact effects_lost h (List.append_nil c.log).symm hharmless

theorem counterAt_updated {w : World} {pk field : String} {delta : ℚ} {expiresAt : Option ℚ}
    {attrs : Item} (h : updated layout pk field delta expiresAt (w.table pk) = .ok attrs) :
    counterAt (w.put pk attrs) pk field = (counterAt w pk field).map (· + delta) := by
  unfold counterAt
  rw [show (w.put pk attrs).table pk = some attrs from Table.put_self _ _ _]
  exact counterOf_updated h

theorem increment_effects (h : (clients layout p calls).Reachable c) {field : String} {delta : ℚ}
    {opts : KvWriteOptions} (hnormal : ∀ e, result ≠ .failed e)
    (hrun : (increment layout p key field delta opts).Finishes (localLog c.log i) result) :
    AddsOnce c.log i (pkOf layout key) field delta ↔
      ∀ e ∈ effects c.log i (pkOf layout key), lost e.ev = false := by
  obtain ⟨pk, now, fs, attrs, hpk, hes, hfs⟩ := increment_finishes hnormal hrun
  rw [buildPk_eq hpk] at hes
  obtain ⟨l₁, e, l₂, hlog, hi, hev, hl₁, hl₂⟩ := localLog_split hes
  have hserve : serve layout True e.pre e.ev.op e.ev.res e.post :=
    h.served e (by rw [hlog]; simp)
  rw [hev] at hserve
  obtain ⟨hupdated, hput⟩ := update_ok hserve
  have hadds : counterAt e.post (pkOf layout key) field =
      (counterAt e.pre (pkOf layout key) field).map (· + delta) := by
    rw [hput]
    exact counterAt_updated hupdated
  have hchanges : changes (pkOf layout key) e = true := changes_put hput
  have hafter : effects l₂ i (pkOf layout key) = [] := by
    rw [List.eq_nil_iff_forall_not_mem]
    intro x hx
    obtain ⟨hmem, rfl, -⟩ := mem_effects.mp hx
    have := Entry.mem_localLog hmem
    rw [hl₂] at this
    cases this
  have hown : effects c.log i (pkOf layout key) = effects l₁ i (pkOf layout key) ++ [e] := by
    unfold effects at hafter ⊢
    rw [hlog, List.filter_append, List.filter_cons_of_pos (by simp [hi, hchanges]), hafter]
  -- the attempts before the last one have taken effect only if they were lost
  have hbefore : ∀ x ∈ effects l₁ i (pkOf layout key), lost x.ev = true :=
    effects_lost h hlog (by rw [hl₁]; exact hfs)
  constructor
  · rintro ⟨x, hx, -⟩ e' he'
    rw [hown] at hx he'
    have hnil : effects l₁ i (pkOf layout key) = [] := by
      have hlength := congrArg List.length hx
      simp only [List.length_append, List.length_singleton] at hlength
      exact List.eq_nil_of_length_eq_zero (by omega)
    rw [hnil, List.nil_append, List.mem_singleton] at he'
    rw [he', hev]
    rfl
  · intro hall
    have hnil : effects l₁ i (pkOf layout key) = [] := by
      rw [List.eq_nil_iff_forall_not_mem]
      intro x hx
      have hanswered := hall x (by rw [hown]; exact List.mem_append_left _ hx)
      rw [hbefore x hx] at hanswered
      cases hanswered
    exact ⟨e, by rw [hown, hnil, List.nil_append], hadds⟩

/-- In every run: an operation that returns has done what it reports exactly
if the answers of its own effects came through, all of them for an increment
and one of them for a conditional write. -/
theorem exact_iff_answered (h : (clients layout p calls).Reachable c) {op : Op}
    (ht : c.threads[i]? = some ⟨op, .ret result⟩) (hnormal : ∀ e, result ≠ .failed e) :
    Exact layout c.log i op result ↔ Answered layout c.log i op := by
  have hrun : (start layout p calls op).Finishes (localLog c.log i) result := h.local_run i _ ht
  have hall : c.log = c.log ++ [] := (List.append_nil c.log).symm
  cases op with
  | increment key field delta opts => exact increment_effects h hnormal hrun
  | putIfAbsent key value opts =>
      refine reported_iff ?_ fun hrefused =>
        effects_lost h hall (putIfAbsent_harmless hnormal hrefused hrun)
      rintro ⟨written, rfl⟩
      obtain ⟨pk, item, condition, hpk, -, hmem, -⟩ := putIfAbsent_applied hrun
      rw [buildPk_eq hpk] at hmem
      exact put_effect h hmem
  | compareAndSet key expectedVersion value opts =>
      refine reported_iff ?_ fun hrefused =>
        effects_lost h hall (compareAndSet_harmless hnormal hrefused hrun)
      rintro ⟨written, rfl⟩
      obtain ⟨pk, item, hpk, -, hmem⟩ := compareAndSet_applied hrun
      rw [buildPk_eq hpk] at hmem
      exact put_effect h hmem
  | delete key expectedVersion =>
      cases expectedVersion with
      | none => exact Iff.rfl
      | some version =>
          obtain ⟨htrue, hfalse⟩ := delete_effects h hnormal hrun
          exact reported_iff htrue hfalse
  | _ => exact Iff.rfl

end Runs

/-! ## Two small runs -/

namespace Small

open Kv.Small

def schedules := responder layout (start layout platform 1)
  (fun _ _ => True) (fun _ _ => true) (fun _ _ _ => trivial)

/-- The first update gets this delivery, the second one is answered. -/
def twice (first : Delivery) : List (Turn Op Delivery Move) :=
  [.spawn (.increment "job" "hits" 5 (expires 60)), .answer 0 .answered, .answer 0 first,
    .answer 0 .answered]

/-- What an increment has done that has returned a number. -/
def incremented (c : KvConfig) : Option (List KvEntry) :=
  match (c.threads[0]? : Option (Thread Request Reply Op Result)) with
  | some ⟨.increment key _ _ _, .ret (.number _)⟩ => some (effects c.log 0 (pkOf layout key))
  | _ => none

theorem incremented_thread {c : KvConfig} {own : List KvEntry} (h : incremented c = some own) :
    ∃ key field delta opts n,
      c.threads[0]? = some ⟨.increment key field delta opts, .ret (.number n)⟩ ∧
        effects c.log 0 (pkOf layout key) = own := by
  unfold incremented at h
  split at h
  · rename_i key field delta opts n ht
    exact ⟨key, field, delta, opts, n, ht, Option.some.inj h⟩
  · cases h

/-- The first update was not carried out. -/
theorem exact_iff_answered_requestLost : ∃ c, (clients layout platform 1).Reachable c ∧
    ∃ op result, c.threads[0]? = some ⟨op, .ret result⟩ ∧ c.log.length = 3 ∧
      Exact layout c.log 0 op result := by
  obtain ⟨c, hc, hchecks⟩ := schedules.exists_reachable (w := emptyWorld 0) ⟨0, rfl⟩
    (twice .requestLost) (fun c => c.log.length == 3 &&
      (incremented c).any fun own => own.all fun e => !lost e.ev) (by decide +kernel)
  obtain ⟨hlength, hany⟩ := Bool.and_eq_true_iff.mp hchecks
  obtain ⟨own, hown, hall⟩ := (Option.any_eq_true _ _).mp hany
  obtain ⟨key, field, delta, opts, n, ht, rfl⟩ := incremented_thread hown
  refine ⟨c, hc, _, _, ht, beq_iff_eq.mp hlength, ?_⟩
  refine (exact_iff_answered hc ht (fun _ h => nomatch h)).mpr fun e he => ?_
  simpa using List.all_eq_true.mp hall e he

/-- The first update was carried out and its answer lost: the increment has
added twice. -/
theorem retries_exact_fails : ¬ ∀ layout p calls c i op result,
    (clients layout p calls).Reachable c → c.threads[i]? = some ⟨op, .ret result⟩ →
      (∀ e, result ≠ .failed e) → Exact layout c.log i op result := by
  intro hall
  obtain ⟨c, hc, hchecks⟩ := schedules.exists_reachable (w := emptyWorld 0) ⟨0, rfl⟩
    (twice .replyLost) (fun c => (incremented c).any fun own => own.length == 2)
    (by decide +kernel)
  obtain ⟨own, hown, hlength⟩ := (Option.any_eq_true _ _).mp hchecks
  obtain ⟨key, field, delta, opts, n, ht, rfl⟩ := incremented_thread hown
  obtain ⟨e, he, -⟩ := hall _ _ _ c 0 _ _ hc ht (fun _ h => nomatch h)
  rw [he] at hlength
  cases hlength

end Small

end SaasFoundation.Foundation.Kv.Retries
