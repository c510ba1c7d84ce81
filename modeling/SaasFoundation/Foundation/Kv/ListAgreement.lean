import Mathlib.Algebra.Order.Field.Rat
import Mathlib.Data.String.Basic
import SaasFoundation.Foundation.Kv.Cursors
import SaasFoundation.Lib.BigStep
import SaasFoundation.Lib.Pages

/-!
# What is listed and what is read

`list` and `get` each leave out what has expired, and each with a comparison
of its own. Followed from cursor to cursor, `list` names every key of the
prefix that `get` has a value for, and each once, unless an item expires in
this very second: `get` still returns it, `list` does not name it any more.

The table does not change here and the clock stands still. A query answers
with some of the rows that are left, in key order, and with the key of the
last one unless nothing is left.
-/

namespace SaasFoundation.Foundation.Kv

open Lib

namespace DynamoKv

/-! ## The namespace -/

structure KvNamespaceOptions where
  ns : String
  cursorSecret : Option String

structure KvListOptions where
  keyPrefix : Option String
  limit : Option Nat
  cursor : Option String

structure KvKey where
  name : String
  expiration : Option ℚ

structure KvListResult where
  keys : List KvKey
  listComplete : Bool
  cursor : Option String

/-- An item, its key apart. -/
structure KvItem where
  value : String
  ttl : Option ℚ

abbrev KvRow := String × KvItem

structure QueryOutput where
  items : List KvRow
  lastEvaluatedKey : Option LastEvaluatedKey

inductive ListRequest (N : Type) where
  | getItem (pk : String)
  | query (pkPrefix : String) (limit : Nat) (startKey : Option (CursorKey N))
  | now

/-- `ValidationException`, on a start key that is no key of the table. -/
inductive QueryError where
  | validation
deriving DecidableEq, Repr

abbrev ListReply {N : Type} : ListRequest N → Type
  | .getItem _ => Option KvItem
  | .query _ _ _ => Except QueryError QueryOutput
  | .now => ℤ

abbrev ask {N : Type} (op : ListRequest N) : Prog (ListRequest N) ListReply (ListReply op) :=
  Prog.call op

/-- `Math.floor(Date.now() / 1000)`. -/
def seconds (nowMs : ℤ) : ℤ := nowMs / 1000

/-- `list` keeps what expires after this second. -/
def isListed (now : ℤ) (item : KvItem) : Bool :=
  match item.ttl with
  | none => true
  | some ttl => decide ((now : ℚ) < ttl)

section Handlers

variable (N : Type)

def get (kv : KvNamespaceOptions) (key : String) :
    Prog (ListRequest N) ListReply (Option String) := do
  let found : Option KvItem ← ask (.getItem (buildPk kv.ns key))
  match found with
  | none => pure none
  | some item =>
      match item.ttl with
      | none => pure (some item.value)
      | some ttl => do
          let nowMs : ℤ ← ask .now
          if ttl < seconds nowMs then pure none else pure (some item.value)

def listedKey (ns : String) (row : KvRow) : KvKey := ⟨stripPrefix ns row.1, row.2.ttl⟩

/-- What `begins_with` is asked for. -/
def queryPrefix (kv : KvNamespaceOptions) (keyPrefix : Option String) : String :=
  kv.ns ++ ":" ++ keyPrefix.getD ""

variable [JsNumbers N]

/-- What `list` makes of a page. -/
def listPage (crypto : Crypto) (kv : KvNamespaceOptions) (now : ℤ) (output : QueryOutput) :
    KvListResult where
  keys := (output.items.filter fun row => isListed now row.2).map (listedKey kv.ns)
  listComplete := output.lastEvaluatedKey.isNone
  cursor := output.lastEvaluatedKey.map (nextCursor N crypto kv.cursorSecret)

def list (crypto : Crypto) (kv : KvNamespaceOptions) (options : KvListOptions) :
    Prog (ListRequest N) ListReply (Except QueryError KvListResult) := do
  let startKey := options.cursor.bind fun raw => parseCursor crypto raw kv.cursorSecret
  let reply : Except QueryError QueryOutput ←
    ask (.query (queryPrefix kv options.keyPrefix) (options.limit.getD 1000) startKey)
  match reply with
  | .error e => pure (.error e)
  | .ok output => do
      let nowMs : ℤ ← ask .now
      pure (.ok (listPage N crypto kv (seconds nowMs) output))

end Handlers

/-! ## The table -/

/-- A table and a time. -/
structure ListWorld where
  rows : List KvRow
  ordered : KeyOrdered rows
  nowMs : ℤ

def beginsWith (text pk : String) : Bool := text.toList.isPrefixOf pk.toList

def rowsWith (rows : List KvRow) (text : String) : List KvRow :=
  rows.filter fun row => beginsWith text row.1

/-- The partition key of a start key; every sort key is `v`. -/
def startPosition {N : Type} : CursorKey N → Option String
  | ⟨some (.attribute (.S pk)), some (.attribute (.S sk))⟩ => if sk = "v" then some pk else none
  | _ => none

/-- The last key that is named, attribute by attribute. -/
def IsKeyOf : Option LastEvaluatedKey → Option String → Prop
  | none, none => True
  | some key, some pk => key.attributes.get "pk" = some (.S pk) ∧
      key.attributes.get "sk" = some (.S "v")
  | _, _ => False

/-- A page of the rows behind the start. -/
def PageAnswers (rows : List KvRow) (limit : Nat) (start : Option String) (output : QueryOutput) :
    Prop :=
  ∃ last, PageOf limit (rowsAfter rows start) output.items last ∧
    IsKeyOf output.lastEvaluatedKey last

def QueryAnswers {N : Type} (rows : List KvRow) (limit : Nat) (startKey : Option (CursorKey N))
    (reply : Except QueryError QueryOutput) : Prop :=
  match startKey with
  | none => ∃ output, reply = .ok output ∧ PageAnswers rows limit none output
  | some key =>
      match startPosition key with
      | none => reply = .error .validation
      | some pk => ∃ output, reply = .ok output ∧ PageAnswers rows limit (some pk) output

def serveList {N : Type} (w : ListWorld) : (op : ListRequest N) → ListReply op → ListWorld → Prop
  | .getItem pk, reply, w' => reply = w.rows.lookup pk ∧ w' = w
  | .query text limit startKey, reply, w' =>
      QueryAnswers (rowsWith w.rows text) limit startKey reply ∧ w' = w
  | .now, reply, w' => reply = w.nowMs ∧ w' = w

/-! ## Following the cursors -/

section Following

variable (N : Type) [JsNumbers N] (crypto : Crypto) (kv : KvNamespaceOptions)
  (keyPrefix : Option String) (limit : Option Nat) (w : ListWorld)

/-- `list` may answer with this page. -/
def Lists (cursor : Option String) (page : KvListResult) : Prop :=
  (list N crypto kv ⟨keyPrefix, limit, cursor⟩).Completes serveList w (.ok page) w

/-- The pages from a cursor to the end. -/
inductive Follows : Option String → List KvListResult → Prop
  | last {cursor : Option String} {page : KvListResult} :
      Lists N crypto kv keyPrefix limit w cursor page → page.listComplete = true →
      Follows cursor [page]
  | next {cursor : Option String} {page : KvListResult} {following : String}
      {pages : List KvListResult} :
      Lists N crypto kv keyPrefix limit w cursor page → page.listComplete = false →
      page.cursor = some following → Follows (some following) pages →
      Follows cursor (page :: pages)

def names (pages : List KvListResult) : List String :=
  pages.flatMap fun page => page.keys.map KvKey.name

/-- `get` returns a value. -/
def Gets (key : String) : Prop :=
  ∃ value, (get N kv key).Completes serveList w (some value) w

/-- Whatever the limit, the cursors lead to an end; and wherever they do, the
keys that were named are those of the prefix that `get` has a value for, each
once. -/
def ListAgrees : Prop :=
  ∀ limit : Option Nat, (∀ n, limit = some n → 0 < n) →
    (∃ pages, Follows N crypto kv keyPrefix limit w none pages) ∧
    ∀ pages, Follows N crypto kv keyPrefix limit w none pages →
      (names pages).Nodup ∧
      ∀ key, key ∈ names pages ↔
        beginsWith (keyPrefix.getD "") key = true ∧ Gets N kv w key

end Following

/-! ## One page, one read -/

section Pages

variable {N : Type} [JsNumbers N] {crypto : Crypto} {kv : KvNamespaceOptions}
  {keyPrefix : Option String} {limit : Option Nat} {w : ListWorld} {cursor : Option String}
  {start : Option String} {page : KvListResult} {pages : List KvListResult}

omit [JsNumbers N] in
theorem gets_iff {key : String} : Gets N kv w key ↔
    ∃ item, w.rows.lookup (buildPk kv.ns key) = some item ∧
      ∀ ttl, item.ttl = some ttl → ¬ ttl < seconds w.nowMs := by
  unfold Gets get
  simp only [Prog.call_bind, Prog.completes_ask]
  constructor
  · rintro ⟨value, found, v, ⟨hfound, rfl⟩, h⟩
    split at h
    · cases h.1
    · rename_i item
      refine ⟨item, hfound.symm, ?_⟩
      split at h
      · rename_i hnone
        intro ttl httl
        rw [hnone] at httl
        cases httl
      · rename_i ttl httl
        simp only [Prog.completes_ask] at h
        obtain ⟨nowMs, v, ⟨rfl, rfl⟩, h⟩ := h
        intro ttl' httl'
        rw [httl] at httl'
        cases httl'
        split at h
        · cases h.1
        · assumption
  · rintro ⟨item, hitem, halive⟩
    refine ⟨item.value, some item, w, ⟨hitem.symm, rfl⟩, ?_⟩
    simp only
    split
    · exact ⟨rfl, rfl⟩
    · rename_i ttl httl
      simp only [Prog.completes_ask]
      refine ⟨w.nowMs, w, ⟨rfl, rfl⟩, ?_⟩
      rw [if_neg (halive ttl httl)]
      exact ⟨rfl, rfl⟩

/-- Where a cursor makes the query start. -/
def StartsAt (N : Type) [JsNumbers N] (crypto : Crypto) (kv : KvNamespaceOptions)
    (cursor start : Option String) : Prop :=
  match cursor.bind fun raw => (parseCursor crypto raw kv.cursorSecret : Option (CursorKey N)) with
  | none => start = none
  | some key => ∃ pk, startPosition key = some pk ∧ start = some pk

theorem startsAt_none : StartsAt N crypto kv none none := rfl

/-- The cursor of a page starts the next one behind its last key. -/
theorem startsAt_next {key : LastEvaluatedKey} {pk : String} (h : IsKeyOf (some key) (some pk)) :
    StartsAt N crypto kv (some (nextCursor N crypto kv.cursorSecret key)) (some pk) := by
  rw [StartsAt, Option.bind_some, parseCursor_nextCursor]
  refine ⟨pk, ?_, rfl⟩
  rw [LastEvaluatedKey.toCursorKey, h.1, h.2]
  rfl

theorem lists_iff (hstart : StartsAt N crypto kv cursor start) :
    Lists N crypto kv keyPrefix limit w cursor page ↔
      ∃ output, PageAnswers (rowsWith w.rows (queryPrefix kv keyPrefix)) (limit.getD 1000) start
        output ∧ page = listPage N crypto kv (seconds w.nowMs) output := by
  have hanswers : ∀ reply, QueryAnswers (rowsWith w.rows (queryPrefix kv keyPrefix))
      (limit.getD 1000) (cursor.bind fun raw =>
        (parseCursor crypto raw kv.cursorSecret : Option (CursorKey N))) reply ↔
      ∃ output, reply = .ok output ∧ PageAnswers (rowsWith w.rows (queryPrefix kv keyPrefix))
        (limit.getD 1000) start output := by
    intro reply
    unfold StartsAt at hstart
    unfold QueryAnswers
    split at hstart
    · rw [hstart]
    · obtain ⟨pk, hpk, rfl⟩ := hstart
      simp only [hpk]
  unfold Lists list
  simp only [Prog.call_bind, Prog.completes_ask]
  constructor
  · rintro ⟨reply, v, ⟨hreply, rfl⟩, h⟩
    obtain ⟨output, rfl, houtput⟩ := (hanswers reply).mp hreply
    simp only [Prog.completes_ask] at h
    obtain ⟨nowMs, v, ⟨rfl, rfl⟩, h⟩ := h
    exact ⟨output, houtput, Except.ok.inj h.1⟩
  · rintro ⟨output, houtput, rfl⟩
    exact ⟨.ok output, w, ⟨(hanswers _).mpr ⟨output, rfl, houtput⟩, rfl⟩,
      w.nowMs, w, ⟨rfl, rfl⟩, rfl, rfl⟩

/-- The names of listed rows. -/
def namesOf (kv : KvNamespaceOptions) (now : ℤ) (rows : List KvRow) : List String :=
  (rows.filter fun row => isListed now row.2).map fun row => stripPrefix kv.ns row.1

theorem names_listPage (now : ℤ) (output : QueryOutput) :
    (listPage N crypto kv now output).keys.map KvKey.name = namesOf kv now output.items := by
  simp [listPage, namesOf, listedKey, Function.comp_def]

theorem limit_pos {limit : Option Nat} (h : ∀ n, limit = some n → 0 < n) :
    0 < limit.getD 1000 := by
  cases limit with
  | none => exact Nat.succ_pos _
  | some n => exact h n rfl

/-- Pages that are followed are a reading of the rows. -/
theorem Follows.reads (hlimit : ∀ n, limit = some n → 0 < n)
    (h : Follows N crypto kv keyPrefix limit w cursor pages)
    (hstart : StartsAt N crypto kv cursor start) :
    ∃ items, Reads (rowsWith w.rows (queryPrefix kv keyPrefix)) start items ∧
      names pages = namesOf kv (seconds w.nowMs) items.flatten := by
  have hpos := limit_pos hlimit
  induction h generalizing start with
  | last hlists hcomplete =>
      obtain ⟨output, ⟨last, hpage, hkey⟩, rfl⟩ := (lists_iff hstart).mp hlists
      have hnone : output.lastEvaluatedKey = none := Option.isNone_iff_eq_none.mp hcomplete
      rw [hnone] at hkey
      cases last with
      | none =>
          refine ⟨[output.items], .last hpos hpage, ?_⟩
          simp [names, names_listPage]
      | some k => exact hkey.elim
  | next hlists hcomplete hcursor _ ih =>
      obtain ⟨output, ⟨last, hpage, hkey⟩, rfl⟩ := (lists_iff hstart).mp hlists
      obtain ⟨key, hlast, rfl⟩ := Option.map_eq_some_iff.mp hcursor
      rw [hlast] at hkey
      cases last with
      | none => exact hkey.elim
      | some k =>
          obtain ⟨items, hreads, hnames⟩ := ih (startsAt_next hkey)
          refine ⟨output.items :: items, .next hpos hpage hreads, ?_⟩
          rw [names, List.flatMap_cons, names_listPage, ← names, hnames]
          simp [namesOf]

/-- The last key of a page, as the table names it. -/
def keyAt (pk : String) : LastEvaluatedKey where
  attributes := (JsObject.empty.define "pk" (.S pk)).define "sk" (.S "v")
  names_key := by
    intro name hname
    rcases JsObject.mem_names_define.mp hname with rfl | hname
    · exact .inr rfl
    · rcases JsObject.mem_names_define.mp hname with rfl | hname
      · exact .inl rfl
      · simp [JsObject.names, JsObject.empty] at hname
  nonempty := by
    intro hnil
    have hmem : "sk" ∈ ((JsObject.empty.define "pk" (.S pk)).define "sk"
      (AttributeValue.S "v")).names := JsObject.mem_names_define.mpr (.inl rfl)
    rw [hnil] at hmem
    cases hmem

theorem keyAt_isKeyOf (pk : String) : IsKeyOf (some (keyAt pk)) (some pk) := by
  refine ⟨?_, JsObject.get_define⟩
  rw [keyAt, JsObject.get_define_of_ne (by decide), JsObject.get_define]

/-- From wherever a cursor starts, the cursors lead to an end. -/
theorem exists_follows (hlimit : ∀ n, limit = some n → 0 < n)
    (hstart : StartsAt N crypto kv cursor start) :
    ∃ pages, Follows N crypto kv keyPrefix limit w cursor pages := by
  have hpos := limit_pos hlimit
  have hordered : KeyOrdered (rowsWith w.rows (queryPrefix kv keyPrefix)) := w.ordered.filter _
  -- by the number of rows that are left
  induction hn : (rowsAfter (rowsWith w.rows (queryPrefix kv keyPrefix)) start).length using
    Nat.strongRecOn generalizing cursor start with
  | ind n ih =>
      obtain ⟨items, last, hpage⟩ := PageOf.exists hpos
        (rowsAfter (rowsWith w.rows (queryPrefix kv keyPrefix)) start)
      cases last with
      | none =>
          -- nothing is left, so this page is the last
          have hlists : Lists N crypto kv keyPrefix limit w cursor _ :=
            (lists_iff hstart).mpr ⟨⟨items, none⟩, ⟨none, hpage, trivial⟩, rfl⟩
          exact ⟨_, .last hlists rfl⟩
      | some k =>
          have hlists : Lists N crypto kv keyPrefix limit w cursor _ := (lists_iff hstart).mpr
            ⟨⟨items, some (keyAt k)⟩, ⟨some k, hpage, keyAt_isKeyOf k⟩, rfl⟩
          -- the page has rows, so fewer are left behind it
          have hrest := congrArg List.length (hpage.rest hordered)
          have hitems := hpage.pos
          rw [List.length_append] at hrest
          obtain ⟨pages, hpages⟩ := ih _ (by omega) (startsAt_next (keyAt_isKeyOf k)) rfl
          exact ⟨_, .next hlists rfl rfl hpages⟩

end Pages

/-! ## The names -/

section Names

variable {kv : KvNamespaceOptions} {keyPrefix : Option String} {w : ListWorld} {key : String}
  {now : ℤ}

theorem beginsWith_iff {text pk : String} : beginsWith text pk = true ↔ ∃ rest, pk = text ++ rest := by
  rw [beginsWith, List.isPrefixOf_iff_prefix]
  constructor
  · rintro ⟨rest, hrest⟩
    refine ⟨String.ofList rest, String.toList_inj.mp ?_⟩
    rw [String.toList_append, String.toList_ofList, hrest]
  · rintro ⟨rest, rfl⟩
    rw [String.toList_append]
    exact List.prefix_append _ _

/-- The partition keys that are asked for are those of the keys with the
prefix. -/
theorem beginsWith_queryPrefix : beginsWith (queryPrefix kv keyPrefix) (buildPk kv.ns key) = true ↔
    beginsWith (keyPrefix.getD "") key = true := by
  have hfront : ∀ a b c : String, a ++ b = a ++ c ↔ b = c := by
    intro a b c
    rw [← String.toList_inj, String.toList_append, String.toList_append, List.append_right_inj,
      String.toList_inj]
  rw [beginsWith_iff, beginsWith_iff]
  simp only [queryPrefix, buildPk, String.append_assoc, hfront]

/-- Every row that is asked for has a key. -/
theorem rowsWith_key {row : KvRow} (h : row ∈ rowsWith w.rows (queryPrefix kv keyPrefix)) :
    row ∈ w.rows ∧ ∃ key, row.1 = buildPk kv.ns key ∧ beginsWith (keyPrefix.getD "") key = true := by
  obtain ⟨hmem, hbegins⟩ := List.mem_filter.mp h
  obtain ⟨rest, hrest⟩ := beginsWith_iff.mp hbegins
  refine ⟨hmem, keyPrefix.getD "" ++ rest, ?_, beginsWith_iff.mpr ⟨rest, rfl⟩⟩
  rw [hrest, queryPrefix, buildPk, String.append_assoc]

theorem lookup_of_mem {rows : List KvRow} (h : KeyOrdered rows) {row : KvRow} (hrow : row ∈ rows) :
    rows.lookup row.1 = some row.2 := by
  induction rows with
  | nil => cases hrow
  | cons r rows ih =>
      rw [List.lookup_cons]
      rcases List.mem_cons.mp hrow with rfl | hrow
      · rw [beq_self_eq_true]
      · have hlt := (List.pairwise_cons.mp h).1 row hrow
        rw [beq_eq_false_iff_ne.mpr (ne_of_gt hlt)]
        exact ih (List.pairwise_cons.mp h).2 hrow

theorem mem_of_lookup {rows : List KvRow} {pk : String} {item : KvItem}
    (h : rows.lookup pk = some item) : (pk, item) ∈ rows := by
  induction rows with
  | nil => cases h
  | cons r rows ih =>
      rw [List.lookup_cons] at h
      by_cases hpk : pk = r.1
      · rw [hpk, beq_self_eq_true] at h
        rw [hpk, ← Option.some.inj h]
        exact List.mem_cons_self
      · rw [beq_eq_false_iff_ne.mpr hpk] at h
        exact List.mem_cons_of_mem _ (ih h)

theorem mem_namesOf :
    key ∈ namesOf kv now (rowsWith w.rows (queryPrefix kv keyPrefix)) ↔
      beginsWith (keyPrefix.getD "") key = true ∧
      ∃ item, w.rows.lookup (buildPk kv.ns key) = some item ∧ isListed now item = true := by
  simp only [namesOf, List.mem_map, List.mem_filter]
  constructor
  · rintro ⟨row, ⟨hrow, hlisted⟩, rfl⟩
    obtain ⟨hmem, key, hpk, hbegins⟩ := rowsWith_key hrow
    rw [hpk, stripPrefix_buildPk, ← hpk]
    exact ⟨hbegins, row.2, lookup_of_mem w.ordered hmem, hlisted⟩
  · rintro ⟨hbegins, item, hitem, hlisted⟩
    refine ⟨(buildPk kv.ns key, item), ⟨List.mem_filter.mpr ⟨mem_of_lookup hitem, ?_⟩, hlisted⟩,
      stripPrefix_buildPk _ _⟩
    exact beginsWith_queryPrefix.mpr hbegins

theorem namesOf_nodup : (namesOf kv now (rowsWith w.rows (queryPrefix kv keyPrefix))).Nodup := by
  have hordered : KeyOrdered ((rowsWith w.rows (queryPrefix kv keyPrefix)).filter
      fun row => isListed now row.2) := (w.ordered.filter _).filter _
  refine List.pairwise_map.mpr (hordered.imp_of_mem ?_)
  intro row row' hrow hrow' hlt hsame
  obtain ⟨-, key, hpk, -⟩ := rowsWith_key (List.mem_filter.mp hrow).1
  obtain ⟨-, key', hpk', -⟩ := rowsWith_key (List.mem_filter.mp hrow').1
  rw [hpk, hpk', stripPrefix_buildPk, stripPrefix_buildPk] at hsame
  rw [hpk, hpk', hsame] at hlt
  exact lt_irrefl _ hlt

theorem isListed_iff {item : KvItem} : isListed now item = true ↔
    (∀ ttl, item.ttl = some ttl → ¬ ttl < now) ∧ item.ttl ≠ some (now : ℚ) := by
  unfold isListed
  split
  · rename_i hnone
    simp [hnone]
  · rename_i ttl httl
    simp only [httl, decide_eq_true_eq, Option.some.injEq, forall_eq', not_lt, ne_eq]
    exact ⟨fun h => ⟨le_of_lt h, ne_of_gt h⟩, fun h => lt_of_le_of_ne h.1 (Ne.symm h.2)⟩

end Names

/-! ## Agreement -/

section Agreement

variable {N : Type} [JsNumbers N] {crypto : Crypto} {kv : KvNamespaceOptions}
  {keyPrefix : Option String} {w : ListWorld}

/-- Some item with the prefix expires in this very second. -/
def ExpiresNow (kv : KvNamespaceOptions) (keyPrefix : Option String) (w : ListWorld) : Prop :=
  ∃ row ∈ w.rows, beginsWith (queryPrefix kv keyPrefix) row.1 = true ∧
    row.2.ttl = some (seconds w.nowMs : ℚ)

theorem names_eq {limit : Option Nat} (hlimit : ∀ n, limit = some n → 0 < n)
    {pages : List KvListResult} (h : Follows N crypto kv keyPrefix limit w none pages) :
    names pages = namesOf kv (seconds w.nowMs) (rowsWith w.rows (queryPrefix kv keyPrefix)) := by
  obtain ⟨items, hreads, hnames⟩ := h.reads hlimit startsAt_none
  rw [hnames, hreads.flatten (w.ordered.filter _)]
  rfl

theorem listAgrees_of (h : ¬ ExpiresNow kv keyPrefix w) : ListAgrees N crypto kv keyPrefix w := by
  intro limit hlimit
  refine ⟨exists_follows hlimit startsAt_none, fun pages hpages => ?_⟩
  rw [names_eq hlimit hpages]
  refine ⟨namesOf_nodup, fun key => ?_⟩
  rw [mem_namesOf, gets_iff]
  refine and_congr_right fun hbegins => exists_congr fun item => and_congr_right fun hitem => ?_
  rw [isListed_iff]
  refine and_iff_left fun hnow => h ⟨_, mem_of_lookup hitem, ?_, hnow⟩
  exact beginsWith_queryPrefix.mpr hbegins

/-- An item that expires now is read, and on no page. -/
theorem not_listAgrees (h : ExpiresNow kv keyPrefix w) : ¬ ListAgrees N crypto kv keyPrefix w := by
  intro hagrees
  obtain ⟨row, hrow, hbegins, hnow⟩ := h
  obtain ⟨-, key, hpk, hkey⟩ := rowsWith_key (List.mem_filter.mpr ⟨hrow, hbegins⟩)
  have hlookup := lookup_of_mem w.ordered hrow
  rw [hpk] at hlookup
  have hlimit : ∀ n, (none : Option Nat) = some n → 0 < n := fun n hn => (nomatch hn)
  obtain ⟨⟨pages, hpages⟩, hall⟩ := hagrees none hlimit
  obtain ⟨-, hmem⟩ := hall pages hpages
  have hgets : Gets N kv w key := by
    refine gets_iff.mpr ⟨row.2, hlookup, fun ttl httl => ?_⟩
    rw [hnow] at httl
    cases httl
    exact lt_irrefl _
  have hnamed := (hmem key).mpr ⟨hkey, hgets⟩
  rw [names_eq hlimit hpages, mem_namesOf] at hnamed
  obtain ⟨-, item, hitem, hlisted⟩ := hnamed
  rw [hlookup] at hitem
  cases hitem
  exact (isListed_iff.mp hlisted).2 hnow

end Agreement

namespace Small

/-- Zero and one are numbers enough. -/
scoped instance : JsNumbers Bool where
  ofLiteral lit := lit == ['1']
  isFinite _ := true
  text n := if n then ['1'] else ['0']
  text_literal := by decide

def crypto : Crypto where
  hmacSha256Hex _ _ := String.ofList (List.replicate 64 '0')
  hmacSha256Hex_digest _ _ := by decide

def kv : KvNamespaceOptions := ⟨"cron", none⟩

/-- One item, which expires at 2023-11-14T22:13:20Z, and that time. -/
def world : ListWorld where
  rows := [("cron:job", ⟨"run", some 1700000000⟩)]
  ordered := List.pairwise_singleton _ _
  nowMs := 1700000000000

end Small

end DynamoKv

end SaasFoundation.Foundation.Kv
