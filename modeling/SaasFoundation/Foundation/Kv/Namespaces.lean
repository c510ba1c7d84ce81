import SaasFoundation.Foundation.Kv.DynamoRuns
import SaasFoundation.Foundation.Kv.Encoding
import SaasFoundation.Lib.Text

/-!
# Namespaces on one table

Several stores may keep their records in one table. What keeps them apart is
the text in front of the key: the prefix, then `:` or `#`. A prefix without
either character can be read back from any partition key, whatever the key
is; that is why keys of one store never meet those of another, and why a
query of a shared index can tell whose rows it has found.
-/

namespace SaasFoundation.Foundation.Kv

open Lib

/-! ## Partition keys -/

def kvNamespaces : List String :=
  ["costtrack", "costbudget", "discexposure", "invitations", "idem", "claims", "agent-refresh",
    "device", "job", "cron"]

def IsSeparator (c : Char) : Prop := ∃ separator : PkSeparator, c = separator.char

/-- A prefix without separators. -/
def Plain (text : String) : Prop := ':' ∉ text.toList ∧ '#' ∉ text.toList

instance (text : String) : Decidable (Plain text) := inferInstanceAs (Decidable (_ ∧ _))

namespace DynamoKvStore

def stripPk (layout : DynamoKvLayout) (pk : String) : String :=
  Text.stripStart (nsPrefix layout) pk

end DynamoKvStore

namespace DynamoKv

def buildPk (ns key : String) : String := ns ++ ":" ++ key

def stripPrefix (ns pk : String) : String :=
  Text.stripStart (ns ++ ":") pk

end DynamoKv

theorem Plain.not_separator {text : String} (h : Plain text) :
    ∀ c ∈ text.toList, ¬ IsSeparator c := by
  rintro c hc ⟨separator, rfl⟩
  cases separator with
  | colon => exact h.1 hc
  | hash => exact h.2 hc

theorem char_injective : Function.Injective PkSeparator.char := by
  intro s s' h
  cases s <;> cases s' <;> first | rfl | cases h

theorem pkOf_toList (layout : DynamoKvLayout) (key : String) : (pkOf layout key).toList =
    layout.pkPrefix.toList ++ layout.pkSeparator.char :: key.toList := by
  simp [pkOf, DynamoKvStore.nsPrefix]

/-- A partition key tells its namespace and its key. -/
theorem pkOf_inj {layout layout' : DynamoKvLayout} {key key' : String}
    (hplain : Plain layout.pkPrefix) (hplain' : Plain layout'.pkPrefix)
    (h : pkOf layout key = pkOf layout' key') : layout.pkPrefix = layout'.pkPrefix ∧
      layout.pkSeparator = layout'.pkSeparator ∧ key = key' := by
  have hlist := congrArg String.toList h
  rw [pkOf_toList, pkOf_toList] at hlist
  obtain ⟨hfront, hseparator, hkey⟩ := Text.append_first_sep_inj hlist ⟨_, rfl⟩ ⟨_, rfl⟩
    hplain.not_separator hplain'.not_separator
  exact ⟨String.toList_inj.mp hfront, char_injective hseparator, String.toList_inj.mp hkey⟩

theorem stripPk_buildPk {layout : DynamoKvLayout} {key pk : String}
    (h : DynamoKvStore.buildPk layout key = .ok pk) : DynamoKvStore.stripPk layout pk = key := by
  rw [buildPk_eq h]
  exact Text.stripStart_append _ _

theorem stripPrefix_buildPk (ns key : String) :
    DynamoKv.stripPrefix ns (DynamoKv.buildPk ns key) = key :=
  Text.stripStart_append _ _

theorem dynamoKv_inj {ns ns' key key' : String} (hns : ':' ∉ ns.toList) (hns' : ':' ∉ ns'.toList)
    (h : DynamoKv.buildPk ns key = DynamoKv.buildPk ns' key') : ns = ns' ∧ key = key' := by
  have hlist := congrArg String.toList h
  simp only [DynamoKv.buildPk, String.toList_append, List.append_assoc] at hlist
  obtain ⟨hsame, -, hkey⟩ := Text.append_first_sep_inj (S := fun c => c = ':') hlist rfl rfl
    (fun c hc he => hns (he ▸ hc)) (fun c hc he => hns' (he ▸ hc))
  exact ⟨String.toList_inj.mp hsame, String.toList_inj.mp hkey⟩

/-! ## Stores on one table -/

/-- Stores whose prefixes or separators differ. -/
structure SharedTable (ι : Type) where
  layouts : ι → DynamoKvLayout
  plain : ∀ i, Plain (layouts i).pkPrefix
  apart : ∀ i j, i ≠ j → (layouts i).pkPrefix ≠ (layouts j).pkPrefix ∨
    (layouts i).pkSeparator ≠ (layouts j).pkSeparator

namespace SharedTable

variable {ι : Type} (stores : SharedTable ι)

theorem pkOf_store {i j : ι} {key key' : String}
    (h : pkOf (stores.layouts i) key = pkOf (stores.layouts j) key') : i = j := by
  obtain ⟨hfront, hseparator, -⟩ := pkOf_inj (stores.plain i) (stores.plain j) h
  by_contra hne
  rcases stores.apart i j hne with hdiffers | hdiffers
  · exact hdiffers hfront
  · exact hdiffers hseparator

/-- The table, and who has put what under a key. -/
structure World (ι : Type) where
  table : DynamoTable
  writers : String → List (ι × Item)

/-- A request, and the store that makes it. -/
abbrev Asked (ι : Type) := ι × Request

abbrev Told (asked : Asked ι) : Type := Reply asked.2

def World.change (w : World ι) (i : ι) : Option (String × Option Item) → World ι
  | none => w
  | some (pk, some item) =>
      ⟨Table.put w.table pk item, Function.update w.writers pk ((i, item) :: w.writers pk)⟩
  | some (pk, none) => { w with table := Table.erase w.table pk }

def carriedOut (w : World ι) (i : ι) (command : Command) : World ι :=
  w.change i (effect (stores.layouts i) w.table command)

/-- Reads of an index and reads that are not consistent may lag. -/
def Answers (w : World ι) (i : ι) : (command : Command) → Except KvError (Answer command) → Prop
  | .getItem pk false, reply => reply = (apply (stores.layouts i) w.table (.getItem pk false)).1 ∨
      ∃ item, reply = .ok item ∧ ∀ old, item = some old → ∃ j, (j, old) ∈ w.writers pk
  | .query indexValue, reply => reply = (apply (stores.layouts i) w.table (.query indexValue)).1 ∨
      ∃ items : Table String Item, reply = .ok items ∧
        ∀ pk old, items pk = some old → ∃ j, (j, old) ∈ w.writers pk
  | command, reply => reply = (apply (stores.layouts i) w.table command).1

/-- Every store has clocks of its own; requests and replies may be lost. -/
def serve (w : World ι) : (asked : Asked ι) → Told asked → World ι → Prop
  | (_, .now), _, w' => w' = w
  | (i, .dynamo command), reply, w' =>
      stores.Answers w i command reply ∧ w' = stores.carriedOut w i command ∨
      reply = .error .transient ∧ (w' = w ∨ w' = stores.carriedOut w i command)

/-- Any operations of any of the stores at once; items may vanish. -/
def system (p : Platform) (calls : Nat) : System (Asked ι) Told (World ι) (ι × Op) Result where
  start := fun job => (DynamoKvStore.start (stores.layouts job.1) p calls job.2).embed
    fun op => (job.1, op)
  permits := fun _ _ => True
  serve := stores.serve
  drift := fun w w' => ∃ pk, w' = { w with table := Table.erase w.table pk }
  init := fun w => w = ⟨Table.empty, fun _ => []⟩

/-! ## What a store addresses -/

/-- Requests under partition keys that the store builds. -/
def Addresses (layout : DynamoKvLayout) : Request → Prop
  | .now => True
  | .dynamo (.getItem pk _) => ∃ key, DynamoKvStore.buildPk layout key = .ok pk
  | .dynamo (.putItem pk _ _) => ∃ key, DynamoKvStore.buildPk layout key = .ok pk
  | .dynamo (.updateItem pk _ _ _) => ∃ key, DynamoKvStore.buildPk layout key = .ok pk
  | .dynamo (.deleteItem pk _) => ∃ key, DynamoKvStore.buildPk layout key = .ok pk
  | .dynamo (.query _) => True

section Addresses

open DynamoKvStore

variable {layout : DynamoKvLayout} {p : Platform}

theorem built_addresses {key : String} {value : Fields} {version : ℤ} {expiresAt : Option ℚ}
    {indexedKey : Option String} {built : String × Item}
    (h : buildItem layout key value version expiresAt indexedKey = .ok built) :
    ∃ key, buildPk layout key = .ok built.1 :=
  ⟨key, (buildItem_cases h).1⟩

theorem refused_addresses {pk : String} (h : ∃ key, buildPk layout key = .ok pk) :
    (refused layout p pk).Uses (Addresses layout) :=
  refused_uses h trivial

/-- Every request of every operation. -/
theorem start_addresses (calls : Nat) (op : Op) :
    (start layout p calls op).Uses (Addresses layout) := by
  cases op with
  | get key consistent includeExpired =>
      exact get_uses trivial fun pk hpk => ⟨key, hpk⟩
  | put key value opts =>
      refine checked_uses fun pk hpk => attempt_uses (send_uses ⟨key, hpk⟩) fun current => ?_
      refine ⟨trivial, fun now => checked_uses fun built hbuilt => ?_⟩
      exact attempt_uses (send_uses (built_addresses hbuilt)) fun _ => trivial
  | putIfAbsent key value opts =>
      exact putIfAbsent_uses trivial (fun pk hpk => ⟨key, hpk⟩)
        (fun _ _ hbuilt => built_addresses hbuilt) (fun _ _ _ hbuilt => built_addresses hbuilt) calls
  | compareAndSet key expectedVersion value opts =>
      exact ⟨trivial, fun now => checked_uses fun built hbuilt => conditionalPut_uses
        (built_addresses hbuilt) (refused_addresses (built_addresses hbuilt))⟩
  | putIfFresher key value expiresAt indexedKey =>
      exact checked_uses fun built hbuilt => conditionalPut_uses
        (built_addresses hbuilt) (refused_addresses (built_addresses hbuilt))
  | increment key field delta opts =>
      show (increment layout p key field delta opts).Uses _
      unfold increment
      split
      · trivial
      · exact ⟨trivial, fun now => checked_uses fun pk hpk =>
          attempt_uses (send_uses ⟨key, hpk⟩) fun _ => trivial⟩
  | delete key expectedVersion =>
      refine checked_uses fun pk hpk => Prog.Uses.bind (send_uses ⟨key, hpk⟩) fun reply => ?_
      rcases reply with (_ | _ | _ | _ | _) | a
      all_goals trivial
  | queryByIndex indexValue =>
      show (queryByIndex layout p indexValue).Uses _
      unfold queryByIndex
      split
      · trivial
      · exact attempt_uses (send_uses trivial) fun items => ⟨trivial, fun now => trivial⟩

/-- Where a command puts an item. -/
theorem effect_addresses {table : DynamoTable} {command : Command} {pk : String} {item : Item}
    (haddresses : Addresses layout (.dynamo command))
    (heffect : effect layout table command = some (pk, some item)) :
    ∃ key, buildPk layout key = .ok pk := by
  cases effect_cases heffect with
  | put _ _ => exact haddresses
  | updated _ => exact haddresses

end Addresses

/-! ## Who has written what -/

/-- Items in the table were written, and only under the writer's own
partition keys. -/
structure Owned (w : World ι) : Prop where
  written : ∀ pk item, w.table pk = some item → ∃ i, (i, item) ∈ w.writers pk
  address : ∀ pk i item, (i, item) ∈ w.writers pk →
    ∃ key, DynamoKvStore.buildPk (stores.layouts i) key = .ok pk

variable {stores}

theorem Owned.erase {w : World ι} (h : stores.Owned w) (pk : String) :
    stores.Owned { w with table := Table.erase w.table pk } where
  written := fun pk' item hitem => h.written pk' item (Table.erase_some hitem).2
  address := h.address

theorem Owned.put {w : World ι} (h : stores.Owned w) {i : ι} {pk key : String}
    (hpk : DynamoKvStore.buildPk (stores.layouts i) key = .ok pk) (item : Item) :
    stores.Owned (w.change i (some (pk, some item))) where
  written := by
    intro pk' item' hitem'
    by_cases hsame : pk' = pk
    · subst hsame
      have hput : some item = some item' := by simpa [World.change] using hitem'
      cases hput
      exact ⟨i, by simp [World.change]⟩
    · have hold : w.table pk' = some item' := by
        rw [← hitem']
        exact (Table.put_of_ne _ _ hsame).symm
      obtain ⟨j, hj⟩ := h.written pk' item' hold
      exact ⟨j, by simpa [World.change, hsame] using hj⟩
  address := by
    intro pk' j item' hmem
    by_cases hsame : pk' = pk
    · subst hsame
      simp only [World.change, Function.update_self, List.mem_cons] at hmem
      rcases hmem with hnew | hold
      · cases hnew
        exact ⟨key, hpk⟩
      · exact h.address pk' j item' hold
    · simp only [World.change, Function.update_of_ne hsame] at hmem
      exact h.address pk' j item' hmem

theorem Owned.carriedOut {w : World ι} (h : stores.Owned w) {i : ι} {command : Command}
    (haddresses : Addresses (stores.layouts i) (.dynamo command)) :
    stores.Owned (stores.carriedOut w i command) := by
  unfold SharedTable.carriedOut
  cases heffect : effect (stores.layouts i) w.table command with
  | none => exact h
  | some change =>
      obtain ⟨pk, item⟩ := change
      cases item with
      | none => exact h.erase pk
      | some item =>
          obtain ⟨key, hpk⟩ := effect_addresses haddresses heffect
          exact h.put hpk item

theorem writers_carriedOut (w : World ι) (i : ι) (command : Command) (pk : String) :
    w.writers pk ⊆ (stores.carriedOut w i command).writers pk := by
  unfold SharedTable.carriedOut
  rcases effect (stores.layouts i) w.table command with _ | ⟨pk', _ | item⟩
  · exact List.Subset.refl _
  · exact List.Subset.refl _
  · by_cases hpk : pk = pk'
    · subst hpk
      simp [World.change]
    · simp [World.change, hpk]

/-- Nothing that was written is forgotten. -/
def Grows (stores : SharedTable ι) (w w' : World ι) : Prop :=
  (stores.Owned w → stores.Owned w') ∧ ∀ pk, w.writers pk ⊆ w'.writers pk

theorem grows_directed (p : Platform) (calls : Nat) : (stores.system p calls).Directed
    (fun asked => Addresses (stores.layouts asked.1) asked.2) stores.Grows where
  uses := fun job => Prog.Uses.embed (f := fun op => (job.1, op))
    (@start_addresses (stores.layouts job.1) p calls job.2)
  refl := fun w => ⟨id, fun pk => List.Subset.refl _⟩
  trans := fun u v w huv hvw =>
    ⟨fun h => hvw.1 (huv.1 h), fun pk => List.Subset.trans (huv.2 pk) (hvw.2 pk)⟩
  serve := by
    rintro w ⟨i, op⟩ r w' haddresses hserve
    have hsame : stores.Grows w w := ⟨id, fun pk => List.Subset.refl _⟩
    cases op with
    | now =>
        have hw : w' = w := hserve
        rw [hw]
        exact hsame
    | dynamo command =>
        have hdone : stores.Grows w (stores.carriedOut w i command) :=
          ⟨fun h => h.carriedOut haddresses, fun pk => writers_carriedOut w i command pk⟩
        rcases hserve with ⟨-, rfl⟩ | ⟨-, rfl | rfl⟩
        · exact hdone
        · exact hsame
        · exact hdone
  drift := by
    rintro w w' ⟨pk, rfl⟩
    exact ⟨fun h => h.erase pk, fun pk' => List.Subset.refl _⟩

theorem reachable_owned {p : Platform} {calls : Nat}
    {c : Config (Asked ι) Told (World ι) (ι × Op) Result}
    (h : (stores.system p calls).Reachable c) : stores.Owned c.world := by
  obtain ⟨w, hw, hgrows⟩ := (grows_directed p calls).started h
  have hinit : w = ⟨Table.empty, fun _ => []⟩ := hw
  subst hinit
  exact hgrows.1 ⟨fun pk item hitem => (nomatch hitem), fun pk i item hmem => (nomatch hmem)⟩

/-! ## Queries -/

theorem queryByIndex_rows {layout : DynamoKvLayout} {p : Platform} {indexValue : String}
    {es : List (Event Request Reply)} {rows : Table String KvRecord}
    (h : (DynamoKvStore.queryByIndex layout p indexValue).Finishes es (.rows rows)) :
    ∃ (items : Table String Item) (now : ℤ), rows = DynamoKvStore.rowsOf layout p now items ∧
      (⟨.dynamo (.query indexValue), .ok items⟩ : Event Request Reply) ∈ es := by
  unfold DynamoKvStore.queryByIndex at h
  split at h
  · cases (Prog.finishes_ret.mp h).2
  · rcases attempt_finishes h with ⟨es₁, es₂, items, rfl, hsend, hrest⟩ | ⟨e, -, hfailed⟩
    · obtain ⟨fs, rfl, -⟩ := send_finishes hsend
      obtain ⟨now, es₃, rfl, hret⟩ := Prog.finishes_ask.mp hrest
      refine ⟨items, now, ?_, by simp⟩
      cases (Prog.finishes_ret.mp hret).2
      rfl
    · cases hfailed

/-- What a query finds was written. -/
theorem Answers.written {w : World ι} (h : stores.Owned w) {i : ι} {indexValue : String}
    {items : Table String Item} (hanswer : stores.Answers w i (.query indexValue) (.ok items))
    {pk : String} {item : Item} (hitem : items pk = some item) :
    ∃ j, (j, item) ∈ w.writers pk := by
  rcases hanswer with happly | ⟨items', heq, hlag⟩
  · simp only [apply] at happly
    split at happly
    · cases happly
    · cases happly
      exact h.written pk item (Option.filter_eq_some_iff.mp hitem).1
  · cases heq
    exact hlag pk item hitem

abbrev SharedConfig (ι : Type) := Config (Asked ι) Told (World ι) (ι × Op) Result

theorem sole_writer {p : Platform} {calls : Nat} {c : SharedConfig ι}
    (h : (stores.system p calls).Reachable c) {i j : ι} {key : String} {item : Item}
    (hwriter : (j, item) ∈ c.world.writers (pkOf (stores.layouts i) key)) : j = i := by
  obtain ⟨key', hpk⟩ := (reachable_owned h).address _ j item hwriter
  exact (stores.pkOf_store (buildPk_eq hpk)).symm

theorem query_written {p : Platform} {calls : Nat} {c : SharedConfig ι}
    (h : (stores.system p calls).Reachable c) {n : Nat} {i : ι} {indexValue : String}
    {rows : Table String KvRecord}
    (ht : c.threads[n]? = some ⟨(i, .queryByIndex indexValue), .ret (.rows rows)⟩)
    {key : String} {record : KvRecord} (hrow : rows key = some record) :
    ∃ item, (i, item) ∈ c.world.writers (pkOf (stores.layouts i) key) ∧
      record = DynamoKvStore.toRecord (stores.layouts i) p item := by
  have hfinishes : ((DynamoKvStore.queryByIndex (stores.layouts i) p indexValue).embed
      fun op => ((i, op) : Asked ι)).Finishes (localLog c.log n) (.rows rows) := h.local_run n _ ht
  obtain ⟨fs, hlocal, hrun⟩ := Prog.finishes_embed.mp hfinishes
  obtain ⟨items, now, rfl, hquery⟩ := queryByIndex_rows hrun
  -- the entry that answered the query
  have hmem := List.mem_map_of_mem (f := Event.embed fun op => (i, op)) hquery
  rw [← hlocal] at hmem
  obtain ⟨e, he, -, hev⟩ := mem_localLog.mp hmem
  obtain ⟨l₁, l₂, hlog⟩ := List.append_of_mem he
  obtain ⟨d, hd, -, hworld⟩ := h.before l₁ e l₂ hlog
  have hserved := h.served e he
  rw [hev] at hserved
  have hanswer : stores.Answers e.pre i (.query indexValue) (.ok items) := by
    rcases hserved with ⟨hanswer, -⟩ | ⟨hlost, -⟩
    · exact hanswer
    · cases hlost
  obtain ⟨item, hitem, hrecord⟩ := Option.bind_eq_some_iff.mp hrow
  obtain ⟨j, hj⟩ := hanswer.written (hworld ▸ reachable_owned hd) hitem
  have hlater := ((grows_directed p calls).reaches h e he).1.2 _ hj
  obtain rfl := sole_writer h hlater
  refine ⟨item, hlater, ?_⟩
  split at hrecord
  · cases hrecord
  · exact (Option.some.inj hrecord).symm

/-! ## Isolation -/

structure Isolated (stores : SharedTable ι) (p : Platform) (calls : Nat) : Prop where
  /-- Keys of two stores never meet. -/
  apart : ∀ i j key key' pk, DynamoKvStore.buildPk (stores.layouts i) key = .ok pk →
    DynamoKvStore.buildPk (stores.layouts j) key' = .ok pk → i = j
  strips : ∀ i key pk, DynamoKvStore.buildPk (stores.layouts i) key = .ok pk →
    DynamoKvStore.stripPk (stores.layouts i) pk = key
  /-- A store asks for nothing but its own keys. -/
  requests : ∀ c, (stores.system p calls).Reachable c → ∀ e ∈ c.log,
    Addresses (stores.layouts e.ev.op.1) e.ev.op.2
  /-- The rows of a query were written by the store itself, and by no
  other. -/
  queries : ∀ c, (stores.system p calls).Reachable c → ∀ (n : Nat) i indexValue rows,
    c.threads[n]? = some ⟨(i, .queryByIndex indexValue), .ret (.rows rows)⟩ →
      ∀ key record, rows key = some record →
        (∃ item, (i, item) ∈ c.world.writers (pkOf (stores.layouts i) key) ∧
          record = DynamoKvStore.toRecord (stores.layouts i) p item) ∧
        ∀ j item, (j, item) ∈ c.world.writers (pkOf (stores.layouts i) key) → j = i

theorem namespaces_isolated (stores : SharedTable ι) (p : Platform) (calls : Nat) :
    stores.Isolated p calls ∧
      (∀ ns ns' key key' : String, ':' ∉ ns.toList → ':' ∉ ns'.toList → ns ≠ ns' →
        DynamoKv.buildPk ns key ≠ DynamoKv.buildPk ns' key') ∧
      ∀ ns ∈ kvNamespaces, Plain ns := by
  refine ⟨⟨?_, ?_, ?_, ?_⟩, ?_, by decide⟩
  · intro i j key key' pk hpk hpk'
    exact stores.pkOf_store ((buildPk_eq hpk).symm.trans (buildPk_eq hpk'))
  · exact fun i key pk hpk => stripPk_buildPk hpk
  · exact fun c hc => hc.requests (grows_directed p calls).uses
  · intro c hc n i indexValue rows ht key record hrow
    exact ⟨query_written hc ht hrow, fun j item hwriter => sole_writer hc hwriter⟩
  · exact fun ns ns' key key' hns hns' hne h => hne (dynamoKv_inj hns hns' h).1

/-! ## Two small stores -/

/-- A small schedule's answers are prompt. -/
def respond (stores : SharedTable ι) (w : World ι) : (asked : Asked ι) → Told asked × World ι
  | (_, .now) => (0, w)
  | (i, .dynamo command) =>
      ((apply (stores.layouts i) w.table command).1, stores.carriedOut w i command)

theorem respond_sound (w : World ι) (asked : Asked ι) :
    stores.serve w asked (stores.respond w asked).1 (stores.respond w asked).2 := by
  obtain ⟨i, op⟩ := asked
  cases op with
  | now => rfl
  | dynamo command =>
      refine .inl ⟨?_, rfl⟩
      unfold Answers
      split
      · exact .inl rfl
      · exact .inl rfl
      · rfl

def responder (stores : SharedTable ι) (p : Platform) (calls : Nat) :
    Responder (stores.system p calls) Unit Empty where
  permits := fun _ _ => true
  respond := fun w _ asked => stores.respond w asked
  drift := fun _ move => nomatch move
  permits_sound := fun _ _ _ => trivial
  respond_sound := fun w _ asked => respond_sound w asked
  drift_sound := fun _ move => nomatch move

end SharedTable

namespace Small

/-- Two stores that differ by their separator only and share an index. -/
def indexed (pkSeparator : PkSeparator) : DynamoKvLayout where
  pkPrefix := "job"
  pkSeparator := pkSeparator
  allowSeparatorInKey := true
  skName := none
  skValue := ""
  ttlAttr := "expiresAt"
  versionAttr := "_v"
  index := some ⟨"byOwner", "owner", none⟩
  distinct := by decide

def stores : SharedTable PkSeparator where
  layouts := indexed
  plain := fun _ => (by decide : Plain "job")
  apart := fun _ _ hne => .inr hne

def owned : KvWriteOptions := ⟨none, none, some "me"⟩

/-- Each store writes a record of the same owner, one under a key with
separators; then the first asks for the owner's records. -/
def query : List (Turn (PkSeparator × Op) Unit Empty) :=
  [.spawn (.colon, .compareAndSet "a:b#c" 0 noFields owned), .answer 0 (), .answer 0 (),
    .spawn (.hash, .compareAndSet "d" 0 noFields owned), .answer 1 (), .answer 1 (),
    .spawn (.colon, .queryByIndex "me"), .answer 2 (), .answer 2 ()]

/-- The query of the third thread and the rows it has returned. -/
def queried (c : SharedTable.SharedConfig PkSeparator) :
    Option (PkSeparator × String × Table String KvRecord) :=
  match (c.threads[2]? : Option (Thread _ _ (PkSeparator × Op) Result)) with
  | some ⟨(i, .queryByIndex indexValue), .ret (.rows rows)⟩ => some (i, indexValue, rows)
  | _ => none

theorem queried_thread {c : SharedTable.SharedConfig PkSeparator} {i : PkSeparator}
    {indexValue : String} {rows : Table String KvRecord}
    (h : queried c = some (i, indexValue, rows)) :
    c.threads[2]? = some ⟨(i, .queryByIndex indexValue), .ret (.rows rows)⟩ := by
  unfold queried at h
  split at h
  · rename_i ht
    cases h
    exact ht
  · cases h

/-- Both wrote a record of the owner, and the query has found the one of its
own store. -/
theorem namespaces_isolated_query : ∃ c, (stores.system platform 1).Reachable c ∧
    ∃ i indexValue rows record, queried c = some (i, indexValue, rows) ∧
      rows "a:b#c" = some record ∧ (c.world.writers "job#d").length = 1 ∧
      ∀ key record, rows key = some record →
        ∃ item, (i, item) ∈ c.world.writers (pkOf (indexed i) key) := by
  obtain ⟨c, hc, hchecks⟩ := (stores.responder platform 1).exists_reachable
    (w := ⟨Table.empty, fun _ => []⟩) rfl query
    (fun c => (c.world.writers "job#d").length == 1 &&
      (queried c).any fun found => (found.2.2 "a:b#c").isSome) (by decide +kernel)
  obtain ⟨hother, hany⟩ := Bool.and_eq_true_iff.mp hchecks
  obtain ⟨⟨i, indexValue, rows⟩, hqueried, hsome⟩ := (Option.any_eq_true _ _).mp hany
  obtain ⟨record, hrecord⟩ := Option.isSome_iff_exists.mp hsome
  refine ⟨c, hc, i, indexValue, rows, record, hqueried, hrecord, beq_iff_eq.mp hother, ?_⟩
  intro key record' hrecord'
  obtain ⟨⟨item, hitem, -⟩, -⟩ := (SharedTable.namespaces_isolated stores platform 1).1.queries
    c hc 2 i indexValue rows (queried_thread hqueried) key record' hrecord'
  exact ⟨item, hitem⟩

end Small

end SaasFoundation.Foundation.Kv
