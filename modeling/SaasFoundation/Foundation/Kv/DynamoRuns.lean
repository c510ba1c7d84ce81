import SaasFoundation.Foundation.Kv.DynamoSystem

/-!
# How the operations go

What each DynamoDB operation asks for and what it knows when it asks,
whatever is answered.
-/

namespace SaasFoundation.Foundation.Kv

open Lib

variable {layout : DynamoKvLayout} {p : Platform}

/-! ## One command -/

section Send

variable {command : Command} {P : Request → Prop} {J : List (Event Request Reply) → Request → Prop}
  {past es : List (Event Request Reply)}

/-- An attempt that came back with an error that is tried again. -/
def Failed (command : Command) (ev : Event Request Reply) : Prop :=
  ∃ e, e ≠ .conditionalCheckFailed ∧ ev = ⟨.dynamo command, .error e⟩

theorem execute_uses (h : P (.dynamo command)) (retries : Nat) :
    (execute command retries).Uses P := by
  induction retries with
  | zero => exact ⟨h, fun _ => trivial⟩
  | succ retries ih =>
      refine ⟨h, fun reply => ?_⟩
      rcases reply with (_ | _ | _ | _ | _) | a
      all_goals first
        | exact ih
        | trivial

theorem send_uses (h : P (.dynamo command)) : (send command).Uses P := execute_uses h _

/-- The last attempt gives the result. -/
theorem execute_finishes {retries : Nat} {r : Except KvError (Answer command)}
    (h : (execute command retries).Finishes es r) :
    ∃ fs, es = fs ++ [⟨.dynamo command, r⟩] ∧ ∀ ev ∈ fs, Failed command ev := by
  induction retries generalizing es with
  | zero =>
      obtain ⟨reply, fs, rfl, hfs⟩ := Prog.finishes_ask.mp h
      obtain ⟨rfl, rfl⟩ := Prog.finishes_ret.mp hfs
      exact ⟨[], rfl, by simp⟩
  | succ retries ih =>
      obtain ⟨reply, fs, rfl, hfs⟩ := Prog.finishes_ask.mp h
      have hretry : ∀ e : KvError, e ≠ .conditionalCheckFailed →
          (execute command retries).Finishes fs r →
            ∃ gs, (⟨.dynamo command, .error e⟩ : Event Request Reply) :: fs =
              gs ++ [⟨.dynamo command, r⟩] ∧ ∀ ev ∈ gs, Failed command ev := by
        intro e he hrest
        obtain ⟨gs, rfl, hgs⟩ := ih hrest
        refine ⟨⟨.dynamo command, .error e⟩ :: gs, rfl, ?_⟩
        intro ev hev
        rcases List.mem_cons.mp hev with rfl | hev
        · exact ⟨e, he, rfl⟩
        · exact hgs ev hev
      rcases reply with (_ | _ | _ | _ | _) | a
      · exact hretry _ (by simp) hfs
      · exact hretry _ (by simp) hfs
      · obtain ⟨rfl, rfl⟩ := Prog.finishes_ret.mp hfs
        exact ⟨[], rfl, by simp⟩
      · exact hretry _ (by simp) hfs
      · exact hretry _ (by simp) hfs
      · obtain ⟨rfl, rfl⟩ := Prog.finishes_ret.mp hfs
        exact ⟨[], rfl, by simp⟩

theorem send_finishes {r : Except KvError (Answer command)} (h : (send command).Finishes es r) :
    ∃ fs, es = fs ++ [⟨.dynamo command, r⟩] ∧ ∀ ev ∈ fs, Failed command ev :=
  execute_finishes h

theorem execute_asks {retries : Nat}
    (h : ∀ fs, (∀ ev ∈ fs, Failed command ev) → J (past ++ fs) (.dynamo command)) :
    Prog.Asks J past (execute command retries) := by
  induction retries generalizing past with
  | zero =>
      refine ⟨?_, fun _ => trivial⟩
      have := h [] (by simp)
      rwa [List.append_nil] at this
  | succ retries ih =>
      refine ⟨by simpa using h [] (by simp), fun reply => ?_⟩
      have hretry : ∀ e : KvError, e ≠ .conditionalCheckFailed →
          Prog.Asks J (past ++ [⟨.dynamo command, .error e⟩]) (execute command retries) := by
        intro e he
        apply ih
        intro fs hfs
        rw [List.append_assoc]
        apply h
        intro ev hev
        rcases List.mem_cons.mp hev with rfl | hev
        · exact ⟨e, he, rfl⟩
        · exact hfs ev hev
      rcases reply with (_ | _ | _ | _ | _) | a
      · exact hretry _ (by simp)
      · exact hretry _ (by simp)
      · trivial
      · exact hretry _ (by simp)
      · exact hretry _ (by simp)
      · trivial

theorem send_asks (h : ∀ fs, (∀ ev ∈ fs, Failed command ev) → J (past ++ fs) (.dynamo command)) :
    Prog.Asks J past (send command) :=
  execute_asks h

end Send

/-! ## Sequences -/

section Attempt

open DynamoKvStore

variable {α : Type} {q : Handler (Except KvError α)} {f : α → Handler Result}
  {P : Request → Prop} {J : List (Event Request Reply) → Request → Prop}
  {past es : List (Event Request Reply)} {r : Result}

theorem attempt_uses (hq : q.Uses P) (hf : ∀ a, (f a).Uses P) : (attempt q f).Uses P := by
  refine Prog.Uses.bind hq fun result => ?_
  cases result with
  | ok a => exact hf a
  | error e => trivial

theorem checked_uses {result : Except KvError α} (hf : ∀ a, result = .ok a → (f a).Uses P) :
    (checked result f).Uses P := by
  cases result with
  | ok a => exact hf a rfl
  | error e => trivial

theorem attempt_asks (hq : Prog.Asks J past q)
    (hf : ∀ es a, q.Finishes es (.ok a) → Prog.Asks J (past ++ es) (f a)) :
    Prog.Asks J past (attempt q f) := by
  refine Prog.Asks.bind hq fun es result hrun => ?_
  cases result with
  | ok a => exact hf es a hrun
  | error e => trivial

theorem checked_asks {result : Except KvError α}
    (hf : ∀ a, result = .ok a → Prog.Asks J past (f a)) : Prog.Asks J past (checked result f) := by
  cases result with
  | ok a => exact hf a rfl
  | error e => trivial

theorem attempt_finishes (h : (attempt q f).Finishes es r) :
    (∃ es₁ es₂ a, es = es₁ ++ es₂ ∧ q.Finishes es₁ (.ok a) ∧ (f a).Finishes es₂ r) ∨
      ∃ e, q.Finishes es (.error e) ∧ r = .failed e := by
  obtain ⟨es₁, es₂, result, rfl, hq, hf⟩ := Prog.finishes_bind.mp h
  cases result with
  | ok a => exact .inl ⟨es₁, es₂, a, rfl, hq, hf⟩
  | error e =>
      obtain ⟨rfl, rfl⟩ := Prog.finishes_ret.mp hf
      rw [List.append_nil]
      exact .inr ⟨e, hq, rfl⟩

theorem checked_finishes {result : Except KvError α} (h : (checked result f).Finishes es r) :
    (∃ a, result = .ok a ∧ (f a).Finishes es r) ∨ ∃ e, r = .failed e := by
  cases result with
  | ok a => exact .inl ⟨a, rfl, h⟩
  | error e => exact .inr ⟨e, (Prog.finishes_ret.mp h).2.symm⟩

end Attempt

/-! ## Conditional puts -/

section ConditionalPut

open DynamoKvStore

variable {pk : String} {item : Item} {condition : Condition} {lost : Handler Result}
  {P : Request → Prop} {J : List (Event Request Reply) → Request → Prop}
  {past es : List (Event Request Reply)} {r : Result}

theorem conditionalPut_uses (hput : P (.dynamo (.putItem pk item condition)))
    (hlost : lost.Uses P) : (conditionalPut layout p pk item condition lost).Uses P := by
  refine Prog.Uses.bind (send_uses hput) fun reply => ?_
  rcases reply with (_ | _ | _ | _ | _) | a
  all_goals first
    | exact hlost
    | trivial

theorem conditionalPut_asks (hput : ∀ fs, (∀ ev ∈ fs, Failed (.putItem pk item condition) ev) →
      J (past ++ fs) (.dynamo (.putItem pk item condition)))
    (hlost : ∀ es, Prog.Asks J (past ++ es) lost) :
    Prog.Asks J past (conditionalPut layout p pk item condition lost) := by
  refine Prog.Asks.bind (send_asks hput) fun es reply _ => ?_
  rcases reply with (_ | _ | _ | _ | _) | a
  all_goals first
    | exact hlost es
    | trivial

/-- A conditional put wins by its last attempt, or loses, or fails. -/
theorem conditionalPut_finishes
    (h : (conditionalPut layout p pk item condition lost).Finishes es r) :
    (∃ fs, es = fs ++ [⟨.dynamo (.putItem pk item condition), .ok ()⟩] ∧
        (∀ ev ∈ fs, Failed (.putItem pk item condition) ev) ∧
        r = .cas true (some (toRecord layout p item))) ∨
      (∃ fs es₂, es = fs ++ ⟨.dynamo (.putItem pk item condition),
          .error .conditionalCheckFailed⟩ :: es₂ ∧
        (∀ ev ∈ fs, Failed (.putItem pk item condition) ev) ∧ lost.Finishes es₂ r) ∨
      ∃ e, r = .failed e := by
  obtain ⟨es₁, es₂, reply, rfl, hsend, hrest⟩ := Prog.finishes_bind.mp h
  obtain ⟨fs, rfl, hfs⟩ := send_finishes hsend
  rcases reply with (_ | _ | _ | _ | _) | a
  · exact .inr (.inr ⟨_, (Prog.finishes_ret.mp hrest).2.symm⟩)
  · exact .inr (.inr ⟨_, (Prog.finishes_ret.mp hrest).2.symm⟩)
  · refine .inr (.inl ⟨fs, es₂, by simp, hfs, hrest⟩)
  · exact .inr (.inr ⟨_, (Prog.finishes_ret.mp hrest).2.symm⟩)
  · exact .inr (.inr ⟨_, (Prog.finishes_ret.mp hrest).2.symm⟩)
  · obtain ⟨rfl, rfl⟩ := Prog.finishes_ret.mp hrest
    exact .inl ⟨fs, by simp, hfs, rfl⟩

end ConditionalPut

/-! ## The operations -/

section Operations

open DynamoKvStore

theorem buildItem_cases {key : String} {value : Fields} {version : ℤ} {expiresAt : Option ℚ}
    {indexedKey : Option String} {built : String × Item}
    (h : buildItem layout key value version expiresAt indexedKey = .ok built) :
    buildPk layout key = .ok built.1 ∧ versionOf layout built.2 = version ∧
      ttlOf layout built.2 = expiresAt := by
  unfold buildItem at h
  split at h
  · cases h
  · cases hpk : buildPk layout key with
    | error e =>
        rw [hpk] at h
        cases h
    | ok pk =>
        rw [hpk] at h
        cases h
        exact ⟨rfl, versionOf_assemble _ _ _ _ _ _, ttlOf_assemble _ _ _ _ _ _⟩

theorem refused_uses {P : Request → Prop} {pk : String} (hget : P (.dynamo (.getItem pk true)))
    (hnow : P .now) : (refused layout p pk).Uses P := by
  refine attempt_uses (send_uses hget) fun current => ?_
  cases current with
  | none => trivial
  | some item => exact ⟨hnow, fun _ => trivial⟩

theorem refused_finishes {pk : String} {es : List (Event Request Reply)} {record : Option KvRecord} :
    ¬ (refused layout p pk).Finishes es (.cas true record) := by
  intro h
  rcases attempt_finishes h with ⟨es₁, es₂, current, rfl, -, hrest⟩ | ⟨e, -, hr⟩
  · cases current with
    | none => cases (Prog.finishes_ret.mp hrest).2
    | some item =>
        obtain ⟨now, es₃, rfl, hret⟩ := Prog.finishes_ask.mp hrest
        cases (Prog.finishes_ret.mp hret).2
  · cases hr

theorem get_uses {P : Request → Prop} {key : String} {consistent includeExpired : Bool}
    (hnow : P .now)
    (hget : ∀ pk, buildPk layout key = .ok pk → P (.dynamo (.getItem pk consistent))) :
    (get layout p key consistent includeExpired).Uses P := by
  refine checked_uses fun pk hpk => attempt_uses (send_uses (hget pk hpk)) fun item => ?_
  cases item with
  | none => trivial
  | some item =>
      refine ⟨hnow, fun now => ?_⟩
      show (if !includeExpired && isExpiredItem layout now item then _ else _ :
        Handler Result).Uses _
      split <;> trivial

/-- Create, look, take over, look. -/
theorem putIfAbsent_uses {P : Request → Prop} {key : String} {value : Fields}
    {opts : KvWriteOptions} (hnow : P .now)
    (hget : ∀ pk, buildPk layout key = .ok pk → P (.dynamo (.getItem pk true)))
    (hcreate : ∀ expiresAt built, buildItem layout key value 1 expiresAt opts.indexedKey =
      .ok built → P (.dynamo (.putItem built.1 built.2 .notExists)))
    (htakeover : ∀ version expiresAt built, buildItem layout key value (version + 1) expiresAt
      opts.indexedKey = .ok built → P (.dynamo (.putItem built.1 built.2 (.versionIs version))))
    (calls : Nat) : (putIfAbsent layout p key value opts calls).Uses P := by
  induction calls with
  | zero => trivial
  | succ calls ih =>
      refine ⟨hnow, fun now => checked_uses fun create hbuilt => ?_⟩
      refine conditionalPut_uses (hcreate _ _ hbuilt) ?_
      refine attempt_uses (send_uses (hget _ (buildItem_cases hbuilt).1)) fun current => ?_
      cases current with
      | none => exact ih
      | some current =>
          refine ⟨hnow, fun now => ?_⟩
          show (if !isExpiredItem layout now current then _ else _ : Handler Result).Uses _
          split
          · trivial
          · refine checked_uses fun takeover hbuilt' => ?_
            exact conditionalPut_uses (htakeover _ _ _ hbuilt')
              (refused_uses (hget _ (buildItem_cases hbuilt').1) hnow)

/-- Versioned requests that remove nothing. -/
def Writing (layout : DynamoKvLayout) (op : Request) : Prop :=
  Versioned layout op ∧ ∀ pk condition, op ≠ .dynamo (.deleteItem pk condition)

theorem writing_now : Writing layout .now := ⟨trivial, fun _ _ h => nomatch h⟩

theorem writing_getItem (pk : String) (consistent : Bool) :
    Writing layout (.dynamo (.getItem pk consistent)) := ⟨trivial, fun _ _ h => nomatch h⟩

theorem get_writing (key : String) (consistent includeExpired : Bool) :
    (get layout p key consistent includeExpired).Uses (Writing layout) :=
  get_uses writing_now fun pk _ => writing_getItem pk consistent

theorem putIfAbsent_writing (key : String) (value : Fields) (opts : KvWriteOptions)
    (calls : Nat) : (putIfAbsent layout p key value opts calls).Uses (Writing layout) := by
  refine putIfAbsent_uses writing_now (fun pk _ => writing_getItem pk true) ?_ ?_ calls
  · intro expiresAt built hbuilt
    exact ⟨(buildItem_cases hbuilt).2.1, fun _ _ h => nomatch h⟩
  · intro version expiresAt built hbuilt
    exact ⟨(buildItem_cases hbuilt).2.1, fun _ _ h => nomatch h⟩

theorem putIfAbsent_versioned (key : String) (value : Fields) (opts : KvWriteOptions)
    (calls : Nat) : (putIfAbsent layout p key value opts calls).Uses (Versioned layout) :=
  (putIfAbsent_writing key value opts calls).mono fun _ => And.left

theorem compareAndSet_writing (key : String) (expectedVersion : ℤ) (value : Fields)
    (opts : KvWriteOptions) :
    (compareAndSet layout p key expectedVersion value opts).Uses (Writing layout) := by
  refine ⟨writing_now, fun now => checked_uses fun built hbuilt => ?_⟩
  refine conditionalPut_uses ⟨?_, fun _ _ h => nomatch h⟩
    (refused_uses (writing_getItem _ _) writing_now)
  have hversion := (buildItem_cases hbuilt).2.1
  by_cases hzero : expectedVersion = 0
  · rw [if_pos hzero]
    show versionOf layout built.2 = 1
    rw [hversion, hzero, zero_add]
  · rw [if_neg hzero]
    exact hversion

theorem increment_writing {field : String} (hfield : field ∉ layout.reserved) (key : String)
    (delta : ℚ) (opts : KvWriteOptions) :
    (increment layout p key field delta opts).Uses (Writing layout) := by
  unfold increment
  split
  · trivial
  · exact ⟨writing_now, fun now => checked_uses fun pk _ => attempt_uses
      (send_uses ⟨hfield, fun _ _ h => nomatch h⟩) fun _ => trivial⟩

theorem delete_versioned (key : String) (expectedVersion : Option ℤ) :
    (delete layout key expectedVersion).Uses (Versioned layout) := by
  refine checked_uses fun pk _ => Prog.Uses.bind (send_uses trivial) fun reply => ?_
  rcases reply with (_ | _ | _ | _ | _) | a <;> trivial

end Operations

/-! ## What a result rests on -/

section Results

open DynamoKvStore

variable {key pk : String} {es : List (Event Request Reply)} {result : Result} {record : KvRecord}

theorem compareAndSet_applied {expectedVersion : ℤ} {value : Fields} {opts : KvWriteOptions}
    {written : Option KvRecord}
    (h : (compareAndSet layout p key expectedVersion value opts).Finishes es (.cas true written)) :
    ∃ pk item, buildPk layout key = .ok pk ∧ written = some (toRecord layout p item) ∧
      ⟨.dynamo (.putItem pk item (if expectedVersion = 0 then .notExists
        else .versionIs expectedVersion)), .ok ()⟩ ∈ es := by
  obtain ⟨now, es₁, rfl, hcheck⟩ := Prog.finishes_ask.mp h
  rcases checked_finishes hcheck with ⟨built, hbuilt, hput⟩ | ⟨e, hr⟩
  · rcases conditionalPut_finishes hput with ⟨fs, rfl, -, hr⟩ | ⟨fs, es₂, rfl, -, hlost⟩ | ⟨e, hr⟩
    · cases hr
      exact ⟨built.1, built.2, (buildItem_cases hbuilt).1, rfl, by simp⟩
    · exact absurd hlost refused_finishes
    · cases hr
  · cases hr

/-- What a `putIfAbsent` may overwrite: nothing, or what it has read and
found to be expired. -/
def Overwrites (layout : DynamoKvLayout) (pk : String) (es : List (Event Request Reply))
    (condition : Condition) : Prop :=
  condition = .notExists ∨ ∃ current now, condition = .versionIs (versionOf layout current) ∧
    ⟨.dynamo (.getItem pk true), .ok (some current)⟩ ∈ es ∧ ⟨.now, now⟩ ∈ es ∧
    isExpiredItem layout now current = true

theorem Overwrites.mono {es es' : List (Event Request Reply)} {condition : Condition}
    (h : Overwrites layout pk es condition) (hsub : es ⊆ es') :
    Overwrites layout pk es' condition := by
  rcases h with h | ⟨current, now, hcondition, hread, hnow, hexpired⟩
  · exact .inl h
  · exact .inr ⟨current, now, hcondition, hsub hread, hsub hnow, hexpired⟩

theorem putIfAbsent_applied {value : Fields} {opts : KvWriteOptions} {calls : Nat}
    {written : Option KvRecord}
    (h : (putIfAbsent layout p key value opts calls).Finishes es (.cas true written)) :
    ∃ pk item condition, buildPk layout key = .ok pk ∧
      written = some (toRecord layout p item) ∧
      ⟨.dynamo (.putItem pk item condition), .ok ()⟩ ∈ es ∧
      Overwrites layout pk es condition := by
  induction calls generalizing es with
  | zero => cases (Prog.finishes_ret.mp h).2
  | succ calls ih =>
      obtain ⟨now, es₁, rfl, hcheck⟩ := Prog.finishes_ask.mp h
      rcases checked_finishes hcheck with ⟨create, hcreate, hput⟩ | ⟨e, hr⟩
      · rcases conditionalPut_finishes hput with
          ⟨fs, rfl, -, hr⟩ | ⟨fs, es₂, rfl, -, hlost⟩ | ⟨e, hr⟩
        · cases hr
          exact ⟨create.1, create.2, .notExists, (buildItem_cases hcreate).1, rfl, by simp,
            .inl rfl⟩
        · rcases attempt_finishes hlost with ⟨es₃, es₄, current, rfl, hread, hfound⟩ | ⟨e, -, hr⟩
          · cases current with
            | none =>
                -- the item has vanished: the call once more
                obtain ⟨pk, item, condition, hpk, hrecord, hmem, hover⟩ := ih hfound
                exact ⟨pk, item, condition, hpk, hrecord, by simp [hmem],
                  hover.mono fun ev hev => by simp [hev]⟩
            | some current =>
                obtain ⟨now', es₅, rfl, hexpired⟩ := Prog.finishes_ask.mp hfound
                replace hexpired : Prog.Finishes (if !isExpiredItem layout now' current then _
                  else _) es₅ (Result.cas true written) := hexpired
                split at hexpired
                · cases (Prog.finishes_ret.mp hexpired).2
                · rename_i hstale
                  obtain ⟨gs, rfl, -⟩ := send_finishes hread
                  rcases checked_finishes hexpired with ⟨takeover, htakeover, hput⟩ | ⟨e, hr⟩
                  · have hpk := (buildItem_cases htakeover).1
                    have hsame : takeover.1 = create.1 := by
                      have hcreated := (buildItem_cases hcreate).1
                      rw [hpk] at hcreated
                      exact Except.ok.inj hcreated
                    rcases conditionalPut_finishes hput with
                      ⟨fs', rfl, -, hr⟩ | ⟨fs', es₆, rfl, -, hlost⟩ | ⟨e, hr⟩
                    · cases hr
                      refine ⟨takeover.1, takeover.2, _, hpk, rfl, by simp, .inr ⟨current, now',
                        rfl, ?_, by simp, by simpa using hstale⟩⟩
                      simp [hsame]
                    · exact absurd hlost refused_finishes
                    · cases hr
                  · cases hr
          · cases hr
        · cases hr
      · cases hr

/-- The item was read or written under the key. -/
def Met (pk : String) (item : Item) (es : List (Event Request Reply)) : Prop :=
  (∃ consistent, ⟨.dynamo (.getItem pk consistent), .ok (some item)⟩ ∈ es) ∨
    ∃ condition, ⟨.dynamo (.putItem pk item condition), .ok ()⟩ ∈ es

theorem Met.mono {item : Item} {es es' : List (Event Request Reply)} (h : Met pk item es)
    (hsub : es ⊆ es') : Met pk item es' := by
  rcases h with ⟨consistent, h⟩ | ⟨condition, h⟩
  · exact .inl ⟨consistent, hsub h⟩
  · exact .inr ⟨condition, hsub h⟩

/-- A read that has found an item has met it. -/
theorem read_met {consistent : Bool} {f : Option Item → Handler Result}
    (h : (attempt (getRawItem pk consistent) f).Finishes es result) :
    (∃ es₂, (f none).Finishes es₂ result) ∨
      (∃ item es₂, Met pk item es ∧ (f (some item)).Finishes es₂ result) ∨
      ∃ e, result = .failed e := by
  rcases attempt_finishes h with ⟨es₁, es₂, current, rfl, hread, hrest⟩ | ⟨e, -, rfl⟩
  · obtain ⟨gs, rfl, -⟩ := send_finishes hread
    cases current with
    | none => exact .inl ⟨es₂, hrest⟩
    | some item => exact .inr (.inl ⟨item, es₂, .inl ⟨consistent, by simp⟩, hrest⟩)
  · exact .inr (.inr ⟨e, rfl⟩)

theorem refused_met (h : (refused layout p pk).Finishes es result)
    (hrecord : result.record = some record) :
    ∃ item, record = toRecord layout p item ∧ Met pk item es := by
  rcases read_met h with ⟨es₂, hrest⟩ | ⟨item, es₂, hmet, hrest⟩ | ⟨e, rfl⟩
  · obtain ⟨-, rfl⟩ := Prog.finishes_ret.mp hrest
    cases hrecord
  · obtain ⟨now, es₃, rfl, hret⟩ := Prog.finishes_ask.mp hrest
    obtain ⟨rfl, rfl⟩ := Prog.finishes_ret.mp hret
    refine ⟨item, ?_, hmet⟩
    replace hrecord : (if isExpiredItem layout now item = true then none
      else some (toRecord layout p item)) = some record := hrecord
    split at hrecord
    · cases hrecord
    · exact (Option.some.inj hrecord).symm
  · cases hrecord

theorem conditionalPut_met {item : Item} {condition : Condition} {lost : Handler Result}
    (h : (conditionalPut layout p pk item condition lost).Finishes es result)
    (hrecord : result.record = some record)
    (hlost : ∀ es₂, lost.Finishes es₂ result →
      ∃ item, record = toRecord layout p item ∧ Met pk item es₂) :
    ∃ item, record = toRecord layout p item ∧ Met pk item es := by
  rcases conditionalPut_finishes h with ⟨fs, rfl, -, rfl⟩ | ⟨fs, es₂, rfl, -, hrest⟩ | ⟨e, rfl⟩
  · exact ⟨item, (Option.some.inj hrecord).symm, .inr ⟨condition, by simp⟩⟩
  · obtain ⟨item', hitem', hmet⟩ := hlost es₂ hrest
    exact ⟨item', hitem', hmet.mono fun ev hev => by simp [hev]⟩
  · cases hrecord

theorem get_met {consistent includeExpired : Bool}
    (h : (get layout p key consistent includeExpired).Finishes es result)
    (hrecord : result.record = some record) :
    ∃ pk item, buildPk layout key = .ok pk ∧ record = toRecord layout p item ∧ Met pk item es := by
  rcases checked_finishes h with ⟨pk, hpk, hget⟩ | ⟨e, rfl⟩
  · rcases read_met hget with ⟨es₂, hrest⟩ | ⟨item, es₂, hmet, hrest⟩ | ⟨e, rfl⟩
    · obtain ⟨-, rfl⟩ := Prog.finishes_ret.mp hrest
      cases hrecord
    · obtain ⟨now, es₃, rfl, hret⟩ := Prog.finishes_ask.mp hrest
      refine ⟨pk, item, hpk, ?_, hmet⟩
      replace hret : Prog.Finishes (if !includeExpired && isExpiredItem layout now item then _
        else _) es₃ result := hret
      split at hret
      · obtain ⟨-, rfl⟩ := Prog.finishes_ret.mp hret
        cases hrecord
      · obtain ⟨-, rfl⟩ := Prog.finishes_ret.mp hret
        exact (Option.some.inj hrecord).symm
    · cases hrecord
  · cases hrecord

theorem compareAndSet_met {expectedVersion : ℤ} {value : Fields} {opts : KvWriteOptions}
    (h : (compareAndSet layout p key expectedVersion value opts).Finishes es result)
    (hrecord : result.record = some record) :
    ∃ pk item, buildPk layout key = .ok pk ∧ record = toRecord layout p item ∧ Met pk item es := by
  obtain ⟨now, es₁, rfl, hcheck⟩ := Prog.finishes_ask.mp h
  rcases checked_finishes hcheck with ⟨built, hbuilt, hput⟩ | ⟨e, rfl⟩
  · obtain ⟨item, hitem, hmet⟩ := conditionalPut_met hput hrecord fun es₂ hlost =>
      refused_met hlost hrecord
    exact ⟨built.1, item, (buildItem_cases hbuilt).1, hitem,
      hmet.mono (List.subset_cons_self _ _)⟩
  · cases hrecord

theorem putIfAbsent_met {value : Fields} {opts : KvWriteOptions} {calls : Nat}
    (h : (putIfAbsent layout p key value opts calls).Finishes es result)
    (hrecord : result.record = some record) :
    ∃ pk item, buildPk layout key = .ok pk ∧ record = toRecord layout p item ∧ Met pk item es := by
  induction calls generalizing es with
  | zero =>
      obtain ⟨-, rfl⟩ := Prog.finishes_ret.mp h
      cases hrecord
  | succ calls ih =>
      obtain ⟨now, es₁, rfl, hcheck⟩ := Prog.finishes_ask.mp h
      rcases checked_finishes hcheck with ⟨create, hcreate, hput⟩ | ⟨e, rfl⟩
      · have hpk := (buildItem_cases hcreate).1
        obtain ⟨item, hitem, hmet⟩ := conditionalPut_met hput hrecord fun es₂ hlost => by
          rcases attempt_finishes hlost with ⟨es₃, es₄, current, rfl, hread, hfound⟩ | ⟨e, -, rfl⟩
          · obtain ⟨gs, rfl, -⟩ := send_finishes hread
            cases current with
            | none =>
                obtain ⟨pk, item, hpk', hitem, hmet⟩ := ih hfound
                rw [hpk] at hpk'
                cases hpk'
                exact ⟨item, hitem, hmet.mono fun ev hev => by simp [hev]⟩
            | some current =>
                obtain ⟨now', es₅, rfl, hexpired⟩ := Prog.finishes_ask.mp hfound
                replace hexpired : Prog.Finishes (if !isExpiredItem layout now' current then _
                  else _) es₅ result := hexpired
                split at hexpired
                · obtain ⟨rfl, rfl⟩ := Prog.finishes_ret.mp hexpired
                  exact ⟨current, (Option.some.inj hrecord).symm, .inl ⟨true, by simp⟩⟩
                · rcases checked_finishes hexpired with ⟨takeover, htakeover, hput⟩ | ⟨e, rfl⟩
                  · have hsame := (buildItem_cases htakeover).1
                    rw [hpk] at hsame
                    obtain ⟨item, hitem, hmet⟩ := conditionalPut_met hput hrecord
                      fun es₆ hlost => refused_met hlost hrecord
                    rw [← Except.ok.inj hsame] at hmet
                    exact ⟨item, hitem, hmet.mono fun ev hev => by simp [hev]⟩
                  · cases hrecord
          · cases hrecord
        exact ⟨create.1, item, hpk, hitem, hmet.mono (List.subset_cons_self _ _)⟩
      · cases hrecord

end Results

end SaasFoundation.Foundation.Kv
