import SaasFoundation.Foundation.Kv.Dynamo
import SaasFoundation.Lib.Evolution
import SaasFoundation.Lib.Script

/-!
# Clients on one table

Any number of operations at once over one DynamoDB table. Every request is
carried out at once, or its answer or the request itself is lost and the
client sees a transient error. A read that is not consistent may lag.

The world remembers what each key has held and how often its item was
removed, which the table does not.
-/

namespace SaasFoundation.Foundation.Kv

open Lib

section Commands

variable (layout : DynamoKvLayout)

/-- What a command changes: the item under a key, or none. -/
def effect (table : DynamoTable) : Command → Option (String × Option Item)
  | .putItem pk item condition =>
      if emptyIndexKey layout item then none
      else if condition.holds layout (table pk) then some (pk, some item)
      else none
  | .updateItem pk field delta expiresAt =>
      match updated layout pk field delta expiresAt (table pk) with
      | .ok item => some (pk, some item)
      | .error _ => none
  | .deleteItem pk condition =>
      if condition.holds layout (table pk) && (table pk).isSome then some (pk, none) else none
  | _ => none

variable {layout} {table : DynamoTable} {command : Command} {pk : String}

/-- The changes that a command can make. -/
inductive ItemChange (layout : DynamoKvLayout) (table : DynamoTable) :
    Command → String → Option Item → Prop
  | put {pk : String} {item : Item} {condition : Condition}
      (hindex : emptyIndexKey layout item = false)
      (hholds : condition.holds layout (table pk) = true) :
      ItemChange layout table (.putItem pk item condition) pk (some item)
  | updated {pk field : String} {delta : ℚ} {expiresAt : Option ℚ} {item : Item}
      (hupdated : updated layout pk field delta expiresAt (table pk) = .ok item) :
      ItemChange layout table (.updateItem pk field delta expiresAt) pk (some item)
  | deleted {pk : String} {condition : Condition}
      (hholds : condition.holds layout (table pk) = true) (hpresent : (table pk).isSome = true) :
      ItemChange layout table (.deleteItem pk condition) pk none

theorem effect_cases {item : Option Item} (h : effect layout table command = some (pk, item)) :
    ItemChange layout table command pk item := by
  cases command with
  | getItem _ _ => cases h
  | query _ => cases h
  | putItem pk' item' condition =>
      simp only [effect] at h
      split at h
      · cases h
      · rename_i hindex
        split at h
        · rename_i hholds
          cases h
          exact .put (Bool.eq_false_iff.mpr hindex) hholds
        · cases h
  | updateItem pk' field delta expiresAt =>
      simp only [effect] at h
      split at h
      · rename_i item' hupdated
        cases h
        exact .updated hupdated
      · cases h
  | deleteItem pk' condition =>
      simp only [effect] at h
      split at h
      · rename_i hholds
        cases h
        rw [Bool.and_eq_true] at hholds
        exact .deleted hholds.1 hholds.2
      · cases h

end Commands

/-! ## The world -/

structure World where
  table : DynamoTable
  /-- The clock, in milliseconds. -/
  now : ℤ
  /-- The items that were put under a key, newest first. -/
  past : String → List Item
  /-- How often the item of a key was removed. -/
  removals : String → Nat

namespace World

def put (w : World) (pk : String) (item : Item) : World :=
  { w with
    table := Table.put w.table pk item
    past := Function.update w.past pk (item :: w.past pk) }

def remove (w : World) (pk : String) : World :=
  { w with
    table := Table.erase w.table pk
    removals := Function.update w.removals pk (w.removals pk + 1) }

def change (w : World) : Option (String × Option Item) → World
  | none => w
  | some (pk, some item) => w.put pk item
  | some (pk, none) => w.remove pk

/-- The world after a command. -/
def carriedOut (layout : DynamoKvLayout) (w : World) (command : Command) : World :=
  w.change (effect layout w.table command)

theorem carriedOut_table (layout : DynamoKvLayout) (w : World) (command : Command) :
    (w.carriedOut layout command).table = (apply layout w.table command).2 := by
  unfold carriedOut
  cases command with
  | getItem pk consistent => rfl
  | query indexValue =>
      simp only [effect, change, apply]
      split <;> rfl
  | putItem pk item condition =>
      simp only [effect, apply]
      split
      · rfl
      · split <;> rfl
  | updateItem pk field delta expiresAt =>
      simp only [effect, apply]
      split
      · rename_i item h
        simp [h, change, put]
      · rename_i e h
        simp [h, change]
  | deleteItem pk condition =>
      simp only [effect, apply]
      by_cases hholds : condition.holds layout (w.table pk) = true
      · rw [if_pos hholds, hholds]
        cases hitem : w.table pk with
        | none => exact (Table.erase_absent hitem).symm
        | some item => rfl
      · rw [if_neg hholds]
        simp [hholds, change]

theorem change_now (w : World) (e : Option (String × Option Item)) : (w.change e).now = w.now := by
  rcases e with _ | ⟨pk, _ | item⟩ <;> rfl

/-- Only the item that a command is about changes. -/
theorem change_cases (w : World) (e : Option (String × Option Item)) (pk : String) :
    (w.change e).table pk = w.table pk ∨ ∃ item, e = some (pk, item) := by
  rcases e with _ | ⟨pk', item⟩
  · exact .inl rfl
  · by_cases hpk : pk = pk'
    · subst hpk
      exact .inr ⟨item, rfl⟩
    · left
      cases item with
      | none => exact Table.erase_of_ne _ hpk
      | some item => exact Table.put_of_ne _ _ hpk

end World

/-! ## Requests -/

section Serve

variable (layout : DynamoKvLayout) (lossy : Prop)

/-- What a read that is not consistent may give. -/
def Lagging (w : World) (pk : String) (item : Option Item) : Prop :=
  item = w.table pk ∨ item = none ∨ ∃ old ∈ w.past pk, item = some old

def Answers (w : World) : (command : Command) → Except KvError (Answer command) → Prop
  | .getItem pk false, reply => ∃ item, reply = .ok item ∧ Lagging w pk item
  | command, reply => reply = (apply layout w.table command).1

/-- All clients have the same clock. -/
def serve (w : World) : (op : Request) → Reply op → World → Prop
  | .now, reply, w' => reply = w.now ∧ w' = w
  | .dynamo command, reply, w' =>
      Answers layout w command reply ∧ w' = w.carriedOut layout command ∨
      lossy ∧ reply = .error .transient ∧ (w' = w ∨ w' = w.carriedOut layout command)

/-- Time passes. -/
def TimePasses (w w' : World) : Prop := ∃ now, w.now ≤ now ∧ w' = { w with now := now }

/-- DynamoDB deletes an item that has expired. -/
def TtlDeletes (w w' : World) : Prop :=
  ∃ pk item, w.table pk = some item ∧ DynamoKvStore.isExpiredItem layout w.now item = true ∧
    w' = w.remove pk

end Serve

def emptyWorld (now : ℤ) : World := ⟨Table.empty, now, fun _ => [], fun _ => 0⟩

/-- The clients, and whether requests may be lost and items expire away. -/
def dynamoSystem {Job : Type} (layout : DynamoKvLayout) (lossy expiring : Prop)
    (start : Job → Handler Result) (permits : List (Thread Request Reply Job Result) → Job → Prop) :
    System Request Reply World Job Result where
  start := start
  permits := permits
  serve := serve layout lossy
  drift := fun w w' => TimePasses w w' ∨ expiring ∧ TtlDeletes layout w w'
  init := fun w => ∃ now, w = emptyWorld now

section Steps

variable {layout : DynamoKvLayout} {lossy : Prop} {w w' : World}

theorem serve_cases {op : Request} {r : Reply op} (h : serve layout lossy w op r w') :
    w' = w ∨ ∃ command, op = .dynamo command ∧ w' = w.carriedOut layout command := by
  cases op with
  | now => exact .inl h.2
  | dynamo command =>
      rcases h with ⟨-, h⟩ | ⟨-, -, h | h⟩
      · exact .inr ⟨command, rfl, h⟩
      · exact .inl h
      · exact .inr ⟨command, rfl, h⟩

/-- A command that was answered without an error has taken effect. -/
theorem serve_ok {command : Command} {a : Answer command}
    (h : serve layout lossy w (.dynamo command) (.ok a) w') :
    Answers layout w command (.ok a) ∧ w' = w.carriedOut layout command := by
  rcases h with h | ⟨-, h, -⟩
  · exact h
  · cases h

theorem put_ne (w : World) (pk : String) (item : Item) : w.put pk item ≠ w := by
  intro h
  have hlength := congrArg (fun w => (w.past pk).length) h
  simp [World.put] at hlength

/-- A put that took effect met its condition. -/
theorem put_holds {w w' : World} {pk : String} {item : Item} {condition : Condition}
    {r : Reply (.dynamo (.putItem pk item condition))}
    (hserve : serve layout lossy w (.dynamo (.putItem pk item condition)) r w')
    (hput : w' = w.put pk item) : condition.holds layout (w.table pk) = true := by
  rcases serve_cases hserve with hsame | ⟨command, hcommand, hdone⟩
  · exact absurd (hput.symm.trans hsame) (put_ne w pk item)
  · cases hcommand
    by_contra hholds
    have heffect : effect layout w.table (.putItem pk item condition) = none := by
      simp [effect, hholds]
    rw [World.carriedOut, heffect] at hdone
    exact put_ne w pk item (hput.symm.trans hdone)

/-- A put that was acknowledged took effect. -/
theorem put_ok {w w' : World} {pk : String} {item : Item} {condition : Condition}
    (hserve : serve layout lossy w (.dynamo (.putItem pk item condition)) (.ok ()) w') :
    w' = w.put pk item := by
  obtain ⟨hanswer, rfl⟩ := serve_ok hserve
  have hok : (.ok () : Except KvError Unit) =
      (apply layout w.table (.putItem pk item condition)).1 := hanswer
  simp only [apply] at hok
  simp only [World.carriedOut, effect]
  split at hok
  · cases hok
  · split at hok
    · rename_i hempty hholds
      simp [hempty, hholds, World.change]
    · cases hok

end Steps

/-! ## Versions -/

section Versions

variable (layout : DynamoKvLayout)

/-- The version under a key; 0 where there is no item. -/
def versionAt (w : World) (pk : String) : ℤ :=
  ((w.table pk).map (DynamoKvStore.versionOf layout)).getD 0

/-- Requests that write the version after the one they expect. -/
def Versioned : Request → Prop
  | .dynamo (.putItem _ item .notExists) => DynamoKvStore.versionOf layout item = 1
  | .dynamo (.putItem _ item (.versionIs version)) =>
      DynamoKvStore.versionOf layout item = version + 1
  | .dynamo (.putItem _ _ _) => False
  | .dynamo (.updateItem _ field _ _) => field ∉ layout.reserved
  | _ => True

variable {layout}

theorem versionOf_of_holds {item : Option Item} {version : ℤ}
    (h : (Condition.versionIs version).holds layout item = true) :
    ∃ old, item = some old ∧ DynamoKvStore.versionOf layout old = version := by
  cases item with
  | none => simp [Condition.holds] at h
  | some old =>
      refine ⟨old, rfl, ?_⟩
      simp only [Condition.holds, Option.bind_some] at h
      unfold DynamoKvStore.versionOf
      split at h
      · rename_i n hn
        rw [of_decide_eq_true h, Int.floor_intCast]
      · cases h

theorem versionOf_set_of_ne {item : Item} {attr : String} (h : layout.versionAttr ≠ attr)
    (v : Json) : DynamoKvStore.versionOf layout (item.set attr v) =
      DynamoKvStore.versionOf layout item := by
  unfold DynamoKvStore.versionOf
  rw [Fields.set_of_ne _ _ h]

/-- `ADD #v :one`. -/
theorem versionOf_addTo {item item' : Item} (h : addTo item layout.versionAttr 1 = .ok item') :
    DynamoKvStore.versionOf layout item' = DynamoKvStore.versionOf layout item + 1 := by
  unfold addTo at h
  split at h
  · rename_i hnone
    cases h
    simp [DynamoKvStore.versionOf, Fields.set_self, hnone]
  · rename_i m hm
    cases h
    simp [DynamoKvStore.versionOf, Fields.set_self, hm]
  · cases h

theorem addTo_of_ne {item item' : Item} {attr name : String} {n : ℚ}
    (h : addTo item attr n = .ok item') (hne : name ≠ attr) : item' name = item name := by
  unfold addTo at h
  split at h
  · cases h
    exact Fields.set_of_ne _ _ hne
  · cases h
    exact Fields.set_of_ne _ _ hne
  · cases h

/-- What an update does: the field, the version, and the expiry if there is
none. -/
theorem updated_cases {pk field : String} {delta : ℚ} {expiresAt : Option ℚ}
    {existing : Option Item} {item : Item}
    (h : updated layout pk field delta expiresAt existing = .ok item) :
    ∃ added bumped, addTo (existing.getD (keyItem layout pk)) field delta = .ok added ∧
      addTo added layout.versionAttr 1 = .ok bumped ∧
      ((expiresAt = none ∨ bumped layout.ttlAttr ≠ none) ∧ item = bumped ∨ ∃ e, expiresAt = some e ∧ bumped layout.ttlAttr = none ∧
        item = bumped.set layout.ttlAttr (.num e)) := by
  unfold updated at h
  split at h
  · cases h
  · cases hadded : addTo (existing.getD (keyItem layout pk)) field delta with
    | error e =>
        rw [hadded] at h
        cases h
    | ok added =>
        cases hbumped : addTo added layout.versionAttr 1 with
        | error e =>
            simp only [hadded, hbumped, bind, Except.bind] at h
            cases h
        | ok bumped =>
            simp only [hadded, hbumped, bind, Except.bind] at h
            refine ⟨added, bumped, rfl, hbumped, ?_⟩
            cases expiresAt with
            | none =>
                cases h
                exact .inl ⟨.inl rfl, rfl⟩
            | some e =>
                cases httl : bumped layout.ttlAttr with
                | none =>
                    rw [httl] at h
                    cases h
                    exact .inr ⟨e, rfl, rfl, rfl⟩
                | some v =>
                    rw [httl] at h
                    cases h
                    exact .inl ⟨.inr (Option.some_ne_none v), rfl⟩

/-- A field as a number that can be added to. -/
def counterOf (item : Item) (field : String) : Option ℚ :=
  match item field with
  | none => some 0
  | some (.num n) => some n
  | some _ => none

theorem counterOf_addTo {item item' : Item} {field : String} {delta : ℚ}
    (h : addTo item field delta = .ok item') :
    counterOf item' field = (counterOf item field).map (· + delta) := by
  unfold addTo at h
  unfold counterOf
  split at h
  · rename_i hnone
    cases h
    simp [Fields.set_self, hnone]
  · rename_i m hm
    cases h
    simp [Fields.set_self, hm]
  · cases h

theorem keyItem_free {pk field : String} (h : field ∉ layout.reserved ∨ field = layout.ttlAttr) :
    keyItem layout pk field = none := by
  have hne : field ≠ partitionAttr ∧ layout.skName ≠ some field := by
    rcases h with h | rfl
    · simp only [DynamoKvLayout.reserved, reservedOf, List.cons_append, List.nil_append,
        List.mem_cons, List.mem_append, Option.mem_toList, not_or] at h
      exact ⟨h.1, h.2.2.2.1⟩
    · exact ⟨(layout_distinct layout).2.1, fun hsk => (skName_attr hsk).2.2 rfl⟩
  unfold keyItem
  cases hsk : layout.skName with
  | none => exact Fields.set_of_ne _ _ hne.1
  | some skName =>
      have hskName : field ≠ skName := by
        rintro rfl
        exact hne.2 hsk
      show Fields.set _ skName _ field = none
      rw [Fields.set_of_ne _ _ hskName, Fields.set_of_ne _ _ hne.1]

/-- Which fields can be incremented. -/
theorem updated_field {pk field : String} {delta : ℚ} {expiresAt : Option ℚ}
    {existing : Option Item} {item : Item}
    (h : updated layout pk field delta expiresAt existing = .ok item) :
    field ∉ layout.reserved ∨ field = layout.ttlAttr ∧ expiresAt = none := by
  by_contra hnot
  rw [not_or, not_not] at hnot
  rw [updated, if_pos hnot] at h
  cases h

/-- An update adds to its field. -/
theorem counterOf_updated {pk field : String} {delta : ℚ} {expiresAt : Option ℚ}
    {existing : Option Item} {item : Item}
    (h : updated layout pk field delta expiresAt existing = .ok item) :
    counterOf item field =
      ((existing.map fun old => counterOf old field).getD (some 0)).map (· + delta) := by
  have hfield := updated_field h
  obtain ⟨added, bumped, hadded, hbumped, hitem⟩ := updated_cases h
  have hversion : field ≠ layout.versionAttr := by
    rintro rfl
    rcases hfield with hfield | hfield
    · exact hfield (by simp [DynamoKvLayout.reserved, reservedOf])
    · exact (layout_distinct layout).2.2 hfield.1.symm
  have hbase : counterOf (existing.getD (keyItem layout pk)) field =
      (existing.map fun old => counterOf old field).getD (some 0) := by
    cases existing with
    | none => simp [counterOf, keyItem_free (hfield.imp id And.left)]
    | some old => rfl
  have hbump : counterOf bumped field = counterOf added field := by
    unfold counterOf
    rw [addTo_of_ne hbumped hversion]
  have hlast : counterOf item field = counterOf bumped field := by
    rcases hitem with ⟨-, rfl⟩ | ⟨e, rfl, -, rfl⟩
    · rfl
    · have httl : field ≠ layout.ttlAttr := by
        rintro rfl
        rcases hfield with hfield | ⟨-, hnone⟩
        · exact hfield (by simp [DynamoKvLayout.reserved, reservedOf])
        · cases hnone
      unfold counterOf
      rw [Fields.set_of_ne _ _ httl]
  rw [hlast, hbump, counterOf_addTo hadded, hbase]

theorem versionOf_updated {pk field : String} {delta : ℚ} {expiresAt : Option ℚ}
    {existing : Option Item} {item : Item}
    (h : updated layout pk field delta expiresAt existing = .ok item) :
    DynamoKvStore.versionOf layout item =
      (existing.map (DynamoKvStore.versionOf layout)).getD 0 + 1 := by
  have hne : layout.versionAttr ≠ field := by
    rintro rfl
    rcases updated_field h with hfield | hfield
    · exact hfield (by simp [DynamoKvLayout.reserved, reservedOf])
    · exact (layout_distinct layout).2.2 hfield.1.symm
  obtain ⟨added, bumped, hadded, hbumped, hitem⟩ := updated_cases h
  have hbefore : DynamoKvStore.versionOf layout added =
      (existing.map (DynamoKvStore.versionOf layout)).getD 0 := by
    unfold DynamoKvStore.versionOf
    rw [addTo_of_ne hadded hne]
    cases existing with
    | none => simp [keyItem_version]
    | some old => rfl
  have hafter : DynamoKvStore.versionOf layout item = DynamoKvStore.versionOf layout bumped := by
    rcases hitem with ⟨-, rfl⟩ | ⟨e, -, -, rfl⟩
    · rfl
    · exact versionOf_set_of_ne (Ne.symm (layout_distinct layout).2.2) _
  rw [hafter, versionOf_addTo hbumped, hbefore]

/-- Every write that takes effect raises the version by one. -/
theorem effect_version {w : World} {command : Command} {pk : String} {item : Item}
    (hversioned : Versioned layout (.dynamo command))
    (heffect : effect layout w.table command = some (pk, some item)) :
    DynamoKvStore.versionOf layout item = versionAt layout w pk + 1 := by
  cases effect_cases heffect with
  | updated hupdated => exact versionOf_updated hupdated
  | @put _ _ condition _ hholds =>
      unfold versionAt
      cases condition with
      | always => exact hversioned.elim
      | fresher _ => exact hversioned.elim
      | notExists =>
          have hnone : w.table pk = none := by simpa [Condition.holds] using hholds
          rw [hnone]
          exact hversioned
      | versionIs version =>
          obtain ⟨old, hold, hversion⟩ := versionOf_of_holds hholds
          rw [hold]
          simp only [Option.map_some, Option.getD_some, hversion]
          exact hversioned

/-- As long as the item of a key is not removed, it is the same or one of a
higher version. -/
structure Evolves (layout : DynamoKvLayout) (pk : String) (w w' : World) : Prop where
  clock : w.now ≤ w'.now
  removals : w.removals pk ≤ w'.removals pk
  kept : w.removals pk = w'.removals pk → ∀ item, w.table pk = some item →
    ∃ item', w'.table pk = some item' ∧
      (item' = item ∨ DynamoKvStore.versionOf layout item < DynamoKvStore.versionOf layout item')

theorem Evolves.refl (pk : String) (w : World) : Evolves layout pk w w :=
  ⟨le_refl _, le_refl _, fun _ item hitem => ⟨item, hitem, .inl rfl⟩⟩

theorem Evolves.trans {pk : String} {u v w : World} (h : Evolves layout pk u v)
    (h' : Evolves layout pk v w) : Evolves layout pk u w := by
  refine ⟨h.clock.trans h'.clock, h.removals.trans h'.removals, ?_⟩
  intro hsame item hitem
  have huv := h.removals
  have hvw := h'.removals
  obtain ⟨item₁, hitem₁, hle₁⟩ := h.kept (by omega) item hitem
  obtain ⟨item₂, hitem₂, hle₂⟩ := h'.kept (by omega) item₁ hitem₁
  refine ⟨item₂, hitem₂, ?_⟩
  rcases hle₁ with rfl | hlt₁
  · exact hle₂
  · rcases hle₂ with rfl | hlt₂
    · exact .inr hlt₁
    · exact .inr (hlt₁.trans hlt₂)

theorem Evolves.put {w : World} {pk' : String} {item : Item}
    (hversion : DynamoKvStore.versionOf layout item = versionAt layout w pk' + 1) (pk : String) :
    Evolves layout pk w (w.put pk' item) := by
  refine ⟨le_refl _, le_refl _, ?_⟩
  intro _ old hold
  by_cases hpk : pk = pk'
  · subst hpk
    refine ⟨item, by simp [World.put], .inr ?_⟩
    rw [hversion, versionAt, hold]
    simp
  · refine ⟨old, ?_, .inl rfl⟩
    show Table.put w.table pk' item pk = some old
    rw [Table.put_of_ne _ _ hpk, hold]

theorem Evolves.remove (w : World) (pk' pk : String) : Evolves layout pk w (w.remove pk') := by
  by_cases hpk : pk = pk'
  · subst hpk
    have hmore : (w.remove pk).removals pk = w.removals pk + 1 := by simp [World.remove]
    refine ⟨le_refl _, by omega, ?_⟩
    intro hsame
    omega
  · have hsame : (w.remove pk').removals pk = w.removals pk := by simp [World.remove, hpk]
    refine ⟨le_refl _, le_of_eq hsame.symm, ?_⟩
    intro _ item hitem
    refine ⟨item, ?_, .inl rfl⟩
    show Table.erase w.table pk' pk = some item
    rw [Table.erase_of_ne _ hpk, hitem]

theorem Evolves.carriedOut {w : World} {command : Command}
    (hversioned : Versioned layout (.dynamo command)) (pk : String) :
    Evolves layout pk w (w.carriedOut layout command) := by
  unfold World.carriedOut
  cases heffect : effect layout w.table command with
  | none => exact Evolves.refl pk w
  | some change =>
      obtain ⟨pk', item⟩ := change
      cases item with
      | none => exact Evolves.remove w pk' pk
      | some item => exact Evolves.put (effect_version hversioned heffect) pk

theorem evolves_directed {Job : Type} {lossy expiring : Prop} {start : Job → Handler Result}
    {permits : List (Thread Request Reply Job Result) → Job → Prop}
    (huses : ∀ job, (start job).Uses (Versioned layout)) (pk : String) :
    (dynamoSystem layout lossy expiring start permits).Directed (Versioned layout)
      (Evolves layout pk) where
  uses := huses
  refl := Evolves.refl pk
  trans := fun _ _ _ => Evolves.trans
  serve := by
    intro w op r w' hop hserve
    rcases serve_cases hserve with rfl | ⟨command, rfl, rfl⟩
    · exact Evolves.refl pk _
    · exact Evolves.carriedOut hop pk
  drift := by
    rintro w w' (⟨now, hle, rfl⟩ | ⟨-, pk', item, -, -, rfl⟩)
    · exact ⟨hle, le_refl _, fun _ item hitem => ⟨item, hitem, .inl rfl⟩⟩
    · exact Evolves.remove w pk' pk

end Versions

/-! ## Schedules -/

/-- What may happen to a request. -/
inductive Delivery where
  | answered
  | requestLost
  | replyLost
deriving DecidableEq, Repr

/-- A moment that comes, or a key whose expired item is deleted. -/
inductive Move where
  | clock (now : ℤ)
  | expire (pk : String)

def respond (layout : DynamoKvLayout) (w : World) (delivery : Delivery) :
    (op : Request) → Reply op × World
  | .now => (w.now, w)
  | .dynamo command =>
      match delivery with
      | .answered => ((apply layout w.table command).1, w.carriedOut layout command)
      | .requestLost => (.error .transient, w)
      | .replyLost => (.error .transient, w.carriedOut layout command)

theorem answers_apply (layout : DynamoKvLayout) (w : World) (command : Command) :
    Answers layout w command (apply layout w.table command).1 := by
  unfold Answers
  split
  · exact ⟨_, rfl, .inl rfl⟩
  · rfl

theorem respond_sound (layout : DynamoKvLayout) (w : World) (delivery : Delivery) (op : Request) :
    serve layout True w op (respond layout w delivery op).1 (respond layout w delivery op).2 := by
  cases op with
  | now => exact ⟨rfl, rfl⟩
  | dynamo command =>
      cases delivery with
      | answered => exact .inl ⟨answers_apply layout w command, rfl⟩
      | requestLost => exact .inr ⟨trivial, rfl, .inl rfl⟩
      | replyLost => exact .inr ⟨trivial, rfl, .inr rfl⟩

def move (layout : DynamoKvLayout) (w : World) : Move → Option World
  | .clock now => if w.now ≤ now then some { w with now := now } else none
  | .expire pk => (w.table pk).bind fun item =>
      if DynamoKvStore.isExpiredItem layout w.now item then some (w.remove pk) else none

theorem move_sound {layout : DynamoKvLayout} {w w' : World} {m : Move}
    (h : move layout w m = some w') : TimePasses w w' ∨ True ∧ TtlDeletes layout w w' := by
  cases m with
  | clock now =>
      simp only [move, Option.ite_none_right_eq_some, Option.some.injEq] at h
      exact .inl ⟨now, h.1, h.2.symm⟩
  | expire pk =>
      obtain ⟨item, hitem, h⟩ := Option.bind_eq_some_iff.mp h
      simp only [Option.ite_none_right_eq_some, Option.some.injEq] at h
      exact .inr ⟨trivial, pk, item, hitem, h.1, h.2.symm⟩

/-- The responder of a table with losses and expiry. -/
def responder {Job : Type} (layout : DynamoKvLayout) (start : Job → Handler Result)
    (permits : List (Thread Request Reply Job Result) → Job → Prop)
    (permitted : List (Thread Request Reply Job Result) → Job → Bool)
    (hpermitted : ∀ ts job, permitted ts job = true → permits ts job) :
    Responder (dynamoSystem layout True True start permits) Delivery Move where
  permits := permitted
  respond := respond layout
  drift := move layout
  permits_sound := hpermitted
  respond_sound := respond_sound layout
  drift_sound := fun _ _ _ h => move_sound h

end SaasFoundation.Foundation.Kv
