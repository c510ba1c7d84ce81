import SaasFoundation.Lib.Later
import SaasFoundation.Vestibulum.SharedDistribution.Triggers
import SaasFoundation.Vestibulum.SharedDistribution.TtlCache

/-!
# Lookups of tenants

`loadClientConfigByClientId` and `loadClientConfigBySubdomain` in one
container, while rows are created. The two caches have one TTL and are one
cache over both kinds of key. What a read finds is up to DynamoDB and
comes in as a parameter; the read of a load is answered some time after the
load is started, and the load settles some time after that.
-/

namespace SaasFoundation.Vestibulum.SharedDistribution.ClientConfigLoader

open Lib
open Triggers (parseRow configTtlMs)

/-! ## The lookups -/

inductive LookupKey where
  | byClientId (clientId : String)
  | bySubdomain (subdomain : String)
deriving DecidableEq, Repr

/-- The row is one of this key. -/
def LookupKey.Matches : LookupKey → ClientConfigRow → Prop
  | .byClientId clientId, item => item.clientId = clientId
  | .bySubdomain subdomain, item => item.subdomain = subdomain

instance (key : LookupKey) (item : ClientConfigRow) : Decidable (key.Matches item) := by
  cases key with
  | byClientId s => exact inferInstanceAs (Decidable (item.clientId = s))
  | bySubdomain s => exact inferInstanceAs (Decidable (item.subdomain = s))

/-- An index read takes the client id from the item. -/
def LookupKey.parse : LookupKey → ClientConfigRow → Except Triggers.Thrown ClientConfigRow
  | .byClientId clientId, item => parseRow clientId item
  | .bySubdomain _, item => parseRow item.clientId item

abbrev Response := Except SignIn.SdkError (Option ClientConfigRow)

/-- What the loader makes of the response. -/
def LookupKey.loaded (key : LookupKey) : Response → Except Triggers.Thrown (Option ClientConfigRow)
  | .error e => .error (.aws e)
  | .ok none => .ok none
  | .ok (some item) => (key.parse item).map some

inductive Request where
  | getOrLoad (key : LookupKey)
  | await (promise : Nat)
deriving DecidableEq, Repr

abbrev Reply : Request → Type
  | .getOrLoad _ => Nat
  | .await _ => Except Triggers.Thrown (Option ClientConfigRow)

abbrev Handler (α : Type) := Prog Request Reply α

/-- Make one request. -/
abbrev request (op : Request) : Handler (Reply op) := Prog.call op

/-- `return cache.getOrLoad(…)` in an async function. -/
def lookup (key : LookupKey) : Handler (Except Triggers.Thrown (Option ClientConfigRow)) := do
  let promise : Nat ← request (.getOrLoad key)
  request (.await promise)

def loadClientConfigByClientId (clientId : String) :
    Handler (Except Triggers.Thrown (Option ClientConfigRow)) :=
  lookup (.byClientId clientId)

def loadClientConfigBySubdomain (subdomain : String) :
    Handler (Except Triggers.Thrown (Option ClientConfigRow)) :=
  lookup (.bySubdomain subdomain)

def LookupKey.load : LookupKey → Handler (Except Triggers.Thrown (Option ClientConfigRow))
  | .byClientId clientId => loadClientConfigByClientId clientId
  | .bySubdomain subdomain => loadClientConfigBySubdomain subdomain

theorem LookupKey.load_eq (key : LookupKey) : key.load = lookup key := by
  cases key with
  | byClientId _ | bySubdomain _ => rfl

/-! ## The container and the table -/

abbrev Cache := TtlCache LookupKey (Option ClientConfigRow)

structure World where
  table : List ClientConfigRow
  cache : Cache
  /-- What the reads of the loads were answered, by the loads' numbers. -/
  responses : Table Nat Response
  now : ℚ

def ttlMs : ℚ := configTtlMs

/-- What the promise has settled to. -/
def World.Settled (w : World) (promise : Nat)
    (result : Except Triggers.Thrown (Option ClientConfigRow)) : Prop :=
  ∃ l, w.cache.loads[promise]? = some l ∧
    match result with
    | .ok value => l.outcome = .resolved value
    | .error e => l.outcome = .rejected ∧
        ∃ resp, w.responses promise = some resp ∧ l.key.loaded resp = .error e

def serve (w : World) : (op : Request) → Reply op → World → Prop
  | .getOrLoad key, promise, w' =>
      (promise, w'.cache) = w.cache.getOrLoad ttlMs w.now key ∧ w' = { w with cache := w'.cache }
  | .await promise, result, w' => w.Settled promise result ∧ w' = w

/-- The cache once the load of `key` has got this response. -/
def afterResponse (cache : Cache) (promise : Nat) (key : LookupKey) (resp : Response) : Cache :=
  match key.loaded resp with
  | .ok value => cache.resolve promise value
  | .error _ => cache.reject promise

/-- What a read may find. -/
abbrev Finds := List ClientConfigRow → LookupKey → Option ClientConfigRow → Prop

inductive Drift (finds : Finds) : World → World → Prop
  | tick {w : World} (now : ℚ) : Drift finds w { w with now := now }
  | create {w : World} (item : ClientConfigRow) :
      Drift finds w { w with table := w.table ++ [item] }
  /-- The read of a load is answered. -/
  | respond {w : World} {p : Nat} {l : Load LookupKey (Option ClientConfigRow)} {resp : Response} :
      w.cache.loads[p]? = some l → w.responses p = none →
      (∀ found, resp = .ok found → finds w.table l.key found) →
      Drift finds w { w with responses := w.responses.put p resp }
  /-- The load settles. -/
  | settle {w : World} {p : Nat} {l : Load LookupKey (Option ClientConfigRow)} {resp : Response} :
      w.cache.loads[p]? = some l → l.outcome = .pending → w.responses p = some resp →
      Drift finds w { w with cache := afterResponse w.cache p l.key resp }

/-- Lookups in one new container. -/
def container (finds : Finds) :
    System Request Reply World LookupKey (Except Triggers.Thrown (Option ClientConfigRow)) where
  start := LookupKey.load
  permits := fun _ _ => True
  serve := serve
  drift := Drift finds
  init := fun w => w.cache = .empty ∧ w.responses = Table.empty

abbrev LookupThread :=
  Thread Request Reply LookupKey (Except Triggers.Thrown (Option ClientConfigRow))

abbrev LookupConfig :=
  Config Request Reply World LookupKey (Except Triggers.Thrown (Option ClientConfigRow))

/-- Reads reflect every row there is. Neither read of the loaders asks for
consistency; one that lags is another way to a null, whatever is cached. -/
structure UpToDate (finds : Finds) : Prop where
  found : ∀ rows key item, finds rows key (some item) → item ∈ rows ∧ key.Matches item
  missed : ∀ rows key, finds rows key none → ∀ item ∈ rows, ¬ key.Matches item

/-! ## The property -/

/-- The cache would answer a lookup with a null that has been loaded. -/
def HoldsNull (w : World) (key : LookupKey) : Prop :=
  ∃ entry l, w.cache.live w.now key = some entry ∧ w.cache.loads[entry.promise]? = some l ∧
    l.outcome = .resolved none

/-- Lookup `j` is made while the cache holds a null for its key. -/
def MeetsNull (c : LookupConfig) (j : Nat) (key : LookupKey) : Prop :=
  ∃ e ∈ c.log, e.tid = j ∧ e.ev.op = .getOrLoad key ∧ HoldsNull e.pre key

/-- The value is the row of an item of the table. -/
def IsRow (c : LookupConfig) (key : LookupKey) (value : Option ClientConfigRow) : Prop :=
  ∃ item ∈ c.world.table, key.Matches item ∧ ∃ row, key.parse item = .ok row ∧ value = some row

/-- What was served to lookup `j` from the cache is positive, if it has been
loaded. -/
def ServedPositive (c : LookupConfig) (j : Nat) (key : LookupKey) : Prop :=
  ∀ e ∈ c.log, e.tid = j → ∀ p, e.ev = ⟨.getOrLoad key, p⟩ → ∀ l,
    e.pre.cache.loads[p]? = some l → ∀ cached, l.outcome = .resolved cached → cached ≠ none

variable {finds : Finds} {c d : LookupConfig} {key : LookupKey}

/-! ## What the world keeps -/

def outcome : Except Triggers.Thrown (Option ClientConfigRow) → Outcome (Option ClientConfigRow)
  | .ok value => .resolved value
  | .error _ => .rejected

theorem afterResponse_loads {cache : Cache} {p : Nat} {l : Load LookupKey (Option ClientConfigRow)}
    (hl : cache.loads[p]? = some l) (resp : Response) :
    (afterResponse cache p l.key resp).loads =
      (cache.settle p (outcome (l.key.loaded resp))).loads := by
  unfold afterResponse
  cases l.key.loaded resp with
  | ok value => rfl
  | error e =>
      change (cache.reject p).loads = _
      rw [TtlCache.reject_of_some hl]
      simp [TtlCache.settle, outcome]

/-- Rows, settled loads and responses stay, and a read that finds nothing
was answered when there was nothing. -/
structure Grows (w w' : World) : Prop where
  rows : ∀ item ∈ w.table, item ∈ w'.table
  loads : ∀ (p : Nat) (l : Load LookupKey (Option ClientConfigRow)), w.cache.loads[p]? = some l →
    ∃ l', w'.cache.loads[p]? = some l' ∧ l'.key = l.key ∧ (l.outcome ≠ .pending → l' = l)
  responses : ∀ p resp, w.responses p = some resp → w'.responses p = some resp
  missed : ∀ p, w.responses p = none → w'.responses p = some (.ok none) →
    ∃ l, w'.cache.loads[p]? = some l ∧ ∀ item ∈ w.table, ¬ l.key.Matches item

theorem Grows.refl (w : World) : Grows w w where
  rows := fun _ h => h
  loads := fun _ l h => ⟨l, h, rfl, fun _ => rfl⟩
  responses := fun _ _ h => h
  missed := by
    intro p hnone hsome
    rw [hnone] at hsome
    cases hsome

theorem Grows.trans {u v w : World} (h : Grows u v) (h' : Grows v w) : Grows u w where
  rows := fun item hitem => h'.rows item (h.rows item hitem)
  loads := by
    intro p l hl
    obtain ⟨m, hm, hkey, hsame⟩ := h.loads p l hl
    obtain ⟨n, hn, hkey', hsame'⟩ := h'.loads p m hm
    refine ⟨n, hn, hkey'.trans hkey, ?_⟩
    intro hout
    obtain rfl := hsame hout
    exact hsame' hout
  responses := fun p resp hresp => h'.responses p resp (h.responses p resp hresp)
  missed := by
    intro p hnone hmissed
    cases hv : v.responses p with
    | none =>
        obtain ⟨l, hl, hrows⟩ := h'.missed p hv hmissed
        exact ⟨l, hl, fun item hitem => hrows item (h.rows item hitem)⟩
    | some resp =>
        -- it was answered on the way to `v`
        have hsame := h'.responses p resp hv
        rw [hmissed, Option.some.injEq] at hsame
        obtain ⟨l, hl, hrows⟩ := h.missed p hnone (by rw [hv, hsame])
        obtain ⟨l', hl', hkey, -⟩ := h'.loads p l hl
        exact ⟨l', hl', by rwa [hkey]⟩

theorem serve_grows {w w' : World} {op : Request} {r : Reply op} (h : serve w op r w') :
    Grows w w' := by
  cases op with
  | await p =>
      rw [h.2]
      exact .refl w
  | getOrLoad key =>
      obtain ⟨hcache, hw⟩ := h
      rw [hw]
      refine { Grows.refl w with loads := ?_, missed := ?_ }
      · intro p l hl
        rw [show w'.cache = _ from (Prod.mk.inj hcache).2]
        exact ⟨l, TtlCache.getOrLoad_kept hl, rfl, fun _ => rfl⟩
      · intro p hnone hsome
        rw [show w.responses p = _ from hsome] at hnone
        cases hnone

theorem drift_grows (hreads : UpToDate finds) {w w' : World} (h : Drift finds w w') :
    Grows w w' := by
  cases h with
  | tick now =>
      exact { Grows.refl w with }
  | create item =>
      exact { Grows.refl w with
        rows := fun _ h => List.mem_append_left _ h
        missed := by
          intro p hnone hsome
          rw [show w.responses p = _ from hsome] at hnone
          cases hnone }
  | @respond p l resp hl hnone hfinds =>
      refine { Grows.refl w with responses := ?_, missed := ?_ }
      · intro q resp' hq
        have hne : q ≠ p := by
          rintro rfl
          rw [hnone] at hq
          cases hq
        exact (Table.put_of_ne _ _ hne).trans hq
      · intro q hq hmissed
        rcases Table.put_some hmissed with ⟨rfl, rfl⟩ | ⟨-, hold⟩
        · exact ⟨l, hl, hreads.missed _ _ (hfinds none rfl)⟩
        · rw [hq] at hold
          cases hold
  | @settle p l resp hl hpending hresp =>
      refine { Grows.refl w with loads := ?_, missed := ?_ }
      · intro q m hm
        obtain ⟨m', hm', hkey, -, hsame⟩ := TtlCache.settle_kept p (outcome (l.key.loaded resp)) hm
        refine ⟨m', by rwa [afterResponse_loads hl], hkey, ?_⟩
        intro hout
        apply hsame
        rintro rfl
        rw [hl] at hm
        cases hm
        exact hout hpending
      · intro q hnone hsome
        rw [show w.responses q = _ from hsome] at hnone
        cases hnone

theorem directed (hreads : UpToDate finds) :
    (container finds).Directed (fun _ => True) Grows where
  uses := by
    intro key
    change key.load.Uses _
    rw [LookupKey.load_eq]
    exact ⟨trivial, fun _ => ⟨trivial, fun _ => trivial⟩⟩
  refl := .refl
  trans := fun _ _ _ => .trans
  serve := fun _ _ _ _ _ => serve_grows
  drift := fun _ _ => drift_grows hreads

/-! ## The invariant -/

structure Sound (w : World) : Prop where
  filed : w.cache.Filed ttlMs
  /-- Only loads that were started have read. -/
  started : ∀ p resp, w.responses p = some resp → ∃ l, w.cache.loads[p]? = some l
  found : ∀ (p : Nat) (l : Load LookupKey (Option ClientConfigRow)) item,
    w.cache.loads[p]? = some l → w.responses p = some (.ok (some item)) →
      item ∈ w.table ∧ l.key.Matches item
  resolved : ∀ (p : Nat) (l : Load LookupKey (Option ClientConfigRow)) value,
    w.cache.loads[p]? = some l → l.outcome = .resolved value →
      ∃ resp, w.responses p = some resp ∧ l.key.loaded resp = .ok value

theorem Sound.getOrLoad {w : World} (h : Sound w) (key : LookupKey) :
    Sound { w with cache := (w.cache.getOrLoad ttlMs w.now key).2 } where
  filed := h.filed.getOrLoad
  started := by
    intro p resp hresp
    obtain ⟨l, hl⟩ := h.started p resp hresp
    exact ⟨l, TtlCache.getOrLoad_kept hl⟩
  found := by
    intro p l item hl hresp
    obtain ⟨l', hl'⟩ := h.started p _ hresp
    obtain rfl : l' = l := Option.some.inj ((TtlCache.getOrLoad_kept hl').symm.trans hl)
    exact h.found p l' item hl' hresp
  resolved := by
    intro p l value hl hout
    rcases TtlCache.getOrLoad_cases ttlMs w.now key w.cache with ⟨entry, -, heq⟩ | ⟨-, heq⟩
    · rw [heq] at hl
      exact h.resolved p l value hl hout
    · rw [heq] at hl
      rcases Slots.snoc_cases hl with hl | ⟨-, rfl⟩
      · exact h.resolved p l value hl hout
      · cases hout

theorem Sound.drift (hreads : UpToDate finds) {w w' : World} (h : Sound w)
    (hd : Drift finds w w') : Sound w' := by
  cases hd with
  | tick now => exact { h with }
  | create item =>
      refine { h with found := ?_ }
      intro p l found hl hresp
      obtain ⟨hmem, hmatch⟩ := h.found p l found hl hresp
      exact ⟨List.mem_append_left _ hmem, hmatch⟩
  | @respond p l resp hl hnone hfinds =>
      refine { h with started := ?_, found := ?_, resolved := ?_ }
      · intro q resp' hq
        rcases Table.put_some hq with ⟨rfl, rfl⟩ | ⟨-, hold⟩
        · exact ⟨l, hl⟩
        · exact h.started q resp' hold
      · intro q m item hm hq
        rcases Table.put_some hq with ⟨rfl, hresp⟩ | ⟨-, hold⟩
        · rw [hl, Option.some.injEq] at hm
          obtain rfl := hm
          exact hreads.found _ _ _ (hfinds _ hresp.symm)
        · exact h.found q m item hm hold
      · intro q m value hm hout
        obtain ⟨resp', hresp', hloaded⟩ := h.resolved q m value hm hout
        have hne : q ≠ p := by
          rintro rfl
          rw [hnone] at hresp'
          cases hresp'
        exact ⟨resp', (Table.put_of_ne _ _ hne).trans hresp', hloaded⟩
  | @settle p l resp hl hpending hresp =>
      refine ⟨?_, ?_, ?_, ?_⟩
      · change (afterResponse w.cache p l.key resp).Filed ttlMs
        unfold afterResponse
        cases l.key.loaded resp with
        | ok value => exact h.filed.resolve p value
        | error e => exact h.filed.reject p
      · intro q resp' hq
        obtain ⟨m, hm⟩ := h.started q resp' hq
        obtain ⟨m', hm', -⟩ := TtlCache.settle_kept p (outcome (l.key.loaded resp)) hm
        exact ⟨m', by rwa [afterResponse_loads hl]⟩
      · intro q m item hm hq
        rw [afterResponse_loads hl] at hm
        obtain ⟨m', hm', hkey, -⟩ := TtlCache.settle_some hm
        rw [hkey]
        exact h.found q m' item hm' hq
      · intro q m value hm hout
        rw [afterResponse_loads hl] at hm
        obtain ⟨m', hm', hkey, -, hout'⟩ := TtlCache.settle_some hm
        rw [hout'] at hout
        by_cases hpq : p = q
        · subst hpq
          rw [hl, Option.some.injEq] at hm'
          subst hm'
          rw [if_pos rfl] at hout
          refine ⟨resp, hresp, ?_⟩
          rw [hkey]
          cases hloaded : l.key.loaded resp with
          | ok value' =>
              rw [hloaded] at hout
              cases hout
              rfl
          | error e =>
              rw [hloaded] at hout
              cases hout
        · rw [if_neg hpq] at hout
          rw [hkey]
          exact h.resolved q m' value hm' hout

theorem sound (hreads : UpToDate finds) (h : (container finds).Reachable c) : Sound c.world := by
  induction h with
  | @init w hw =>
      obtain ⟨hcache, hresponses⟩ := hw
      refine ⟨?_, ?_, ?_, ?_⟩
      · rw [hcache]
        exact TtlCache.empty_filed ttlMs
      · simp [hresponses, Table.empty]
      · simp [hresponses, Table.empty]
      · simp [hcache, TtlCache.empty]
  | @step c d _ hs ih =>
      cases hs with
      | spawn _ => exact ih
      | drift hd => exact ih.drift hreads hd
      | @request i job op k r w hi hserve =>
          cases op with
          | await p =>
              rw [show w = _ from hserve.2]
              exact ih
          | getOrLoad key =>
              obtain ⟨hcache, hw⟩ := hserve
              rw [show w = _ from hw, (Prod.mk.inj hcache).2]
              exact ih.getOrLoad key

/-- Every load was started by a lookup of its key. -/
theorem load_started (h : (container finds).Reachable c) : ∀ (p : Nat)
    (l : Load LookupKey (Option ClientConfigRow)), c.world.cache.loads[p]? = some l →
      ∃ e ∈ c.log, e.ev = ⟨.getOrLoad l.key, p⟩ := by
  induction h with
  | @init w hw =>
      rw [show w.cache = _ from hw.1]
      simp [TtlCache.empty]
  | @step c d _ hs ih =>
      cases hs with
      | spawn _ => exact ih
      | @drift w hd =>
          intro p l hl
          have hold : ∃ l', c.world.cache.loads[p]? = some l' ∧ l.key = l'.key := by
            cases hd with
            | tick _ | create _ | respond _ _ _ => exact ⟨l, hl, rfl⟩
            | settle hq _ _ =>
                rw [afterResponse_loads hq] at hl
                obtain ⟨l', hl', hkey, -⟩ := TtlCache.settle_some hl
                exact ⟨l', hl', hkey⟩
          obtain ⟨l', hl', hkey⟩ := hold
          rw [hkey]
          exact ih p l' hl'
      | @request i job op k r w hi hserve =>
          intro p l hl
          have hold : c.world.cache.loads[p]? = some l →
              ∃ e ∈ c.log ++ [⟨i, c.world, ⟨op, r⟩, w⟩], e.ev = ⟨.getOrLoad l.key, p⟩ := by
            intro hl
            obtain ⟨e, he, hev⟩ := ih p l hl
            exact ⟨e, List.mem_append_left _ he, hev⟩
          cases op with
          | await q =>
              rw [show w = _ from hserve.2] at hl
              exact hold hl
          | getOrLoad key =>
              have hserve' := hserve.1
              rcases TtlCache.getOrLoad_cases ttlMs c.world.now key c.world.cache with
                ⟨entry, -, heq⟩ | ⟨-, heq⟩
              · rw [heq, Prod.mk.injEq] at hserve'
                exact hold (by rw [← hserve'.2]; exact hl)
              · rw [heq, Prod.mk.injEq] at hserve'
                have hnew : w.cache.loads[p]? = some l := hl
                rw [hserve'.2] at hnew
                rcases Slots.snoc_cases hnew with hl | ⟨rfl, rfl⟩
                · exact hold hl
                · refine ⟨_, List.mem_append_right _ List.mem_cons_self, ?_⟩
                  rw [show r = _ from hserve'.1]

/-! ## Null is cached -/

theorem lookup_returns {es : List (Event Request Reply)}
    {r : Except Triggers.Thrown (Option ClientConfigRow)} (h : key.load.Finishes es r) :
    ∃ p, es = [⟨.getOrLoad key, p⟩, ⟨.await p, r⟩] := by
  rw [LookupKey.load_eq] at h
  change (Prog.ask (.getOrLoad key) fun p => Prog.ask (.await p) Prog.ret).Finishes es r at h
  simp only [Prog.finishes_ask, Prog.finishes_ret] at h
  obtain ⟨p, _, rfl, value, _, rfl, rfl, rfl⟩ := h
  exact ⟨p, rfl⟩

theorem lookup_asks (key : LookupKey) :
    Prog.Asks (fun _ op => ∀ key', op = .getOrLoad key' → key' = key) [] key.load := by
  rw [LookupKey.load_eq]
  refine ⟨?_, fun p => ⟨by simp, fun _ => trivial⟩⟩
  intro key' hop
  cases hop
  rfl

/-- The load of a lookup that has returned a value has resolved to it. -/
theorem returned_resolved (hreads : UpToDate finds) (h : (container finds).Reachable c)
    {i : Nat} {t : LookupThread} {value : Option ClientConfigRow} (ht : c.threads[i]? = some t)
    (hjob : t.job = key) (hret : t.prog = .ret (.ok value)) :
    ∃ p, localLog c.log i = [⟨.getOrLoad key, p⟩, ⟨.await p, .ok value⟩] ∧
      ∃ l, c.world.cache.loads[p]? = some l ∧ l.outcome = .resolved value := by
  have hrun := h.local_run i t ht
  rw [hret, hjob] at hrun
  obtain ⟨p, hlocal⟩ := lookup_returns hrun
  refine ⟨p, hlocal, ?_⟩
  obtain ⟨e, he, -, hev⟩ := mem_localLog.mp (by rw [hlocal]; simp :
    (⟨.await p, .ok value⟩ : Event Request Reply) ∈ localLog c.log i)
  have hserve := h.served e he
  rw [hev] at hserve
  obtain ⟨⟨l, hl, hout⟩, -⟩ := hserve
  -- the promise had settled then, and keeps its value
  obtain ⟨l', hl', -, hsame⟩ := ((directed hreads).reaches h e he).1.loads p l hl
  have hout' : l.outcome = .resolved value := hout
  obtain rfl := hsame (by rw [hout']; simp)
  exact ⟨l', hl', hout'⟩

/-- The load of a call is one for its key. -/
theorem called_key (hreads : UpToDate finds) (h : (container finds).Reachable c)
    {e : Entry Request Reply World} (he : e ∈ c.log) {p : Nat} (hev : e.ev = ⟨.getOrLoad key, p⟩) :
    ∃ l, c.world.cache.loads[p]? = some l ∧ l.key = key := by
  have hserve := h.served e he
  rw [hev] at hserve
  obtain ⟨hcache, -⟩ := hserve
  have hpost : ∃ l, e.post.cache.loads[p]? = some l ∧ l.key = key := by
    rcases TtlCache.getOrLoad_cases ttlMs e.pre.now key e.pre.cache with
      ⟨entry, hlive, heq⟩ | ⟨-, heq⟩
    · rw [heq, Prod.mk.injEq] at hcache
      obtain ⟨l₁, l₂, hlog⟩ := List.append_of_mem he
      obtain ⟨b, hb, -, hpre⟩ := h.before l₁ e l₂ hlog
      have hfiled := (sound hreads hb).filed
      rw [hpre] at hfiled
      obtain ⟨l, hl, hkey, -⟩ := hfiled.listed key entry (TtlCache.live_some hlive).1
      exact ⟨l, by rw [hcache.2, show p = _ from hcache.1, hl], hkey⟩
    · rw [heq, Prod.mk.injEq] at hcache
      exact ⟨⟨key, e.pre.now, .pending⟩, by rw [hcache.2, show p = _ from hcache.1]; simp, rfl⟩
  obtain ⟨l, hl, hkey⟩ := hpost
  obtain ⟨l', hl', hkey', -⟩ := ((directed hreads).reaches h e he).2.loads p l hl
  exact ⟨l', hl', hkey'.trans hkey⟩

/-- A call whose promise is there already has hit it. -/
theorem called_live {w w' : World} {p : Nat} (h : serve w (.getOrLoad key) p w')
    {l : Load LookupKey (Option ClientConfigRow)} (hl : w.cache.loads[p]? = some l) :
    ∃ entry, w.cache.live w.now key = some entry ∧ entry.promise = p := by
  have hcache := h.1
  rcases TtlCache.getOrLoad_cases ttlMs w.now key w.cache with ⟨entry, hlive, heq⟩ | ⟨-, heq⟩
  · rw [heq, Prod.mk.injEq] at hcache
    exact ⟨entry, hlive, hcache.1.symm⟩
  · rw [heq, Prod.mk.injEq] at hcache
    have := Slots.lt_of_some hl
    have hp : p = w.cache.loads.length := hcache.1
    omega

/-- Where every lookup of the key has returned null, so have its loads. -/
theorem null_resolved (hreads : UpToDate finds) (h : (container finds).Reachable c)
    (hnull : ∀ t ∈ c.threads, t.job = key → t.prog = .ret (.ok none)) {p : Nat}
    {l : Load LookupKey (Option ClientConfigRow)} (hl : c.world.cache.loads[p]? = some l)
    (hkey : l.key = key) : ∃ l, c.world.cache.loads[p]? = some l ∧ l.outcome = .resolved none := by
  obtain ⟨e, he, hev⟩ := load_started h p l hl
  obtain ⟨l₁, l₂, hlog⟩ := List.append_of_mem he
  obtain ⟨t, ht, hjob⟩ := h.asked lookup_asks l₁ e l₂ hlog
  rw [hkey] at hev
  have hjob := hjob key (by rw [hev])
  obtain ⟨q, hlocal, hresolved⟩ := returned_resolved hreads h ht hjob.symm
    (hnull t (List.mem_of_getElem? ht) hjob.symm)
  -- a lookup makes one call
  have hmem := Entry.mem_localLog he
  rw [hev, hlocal] at hmem
  simp only [List.mem_cons, Event.mk.injEq, heq_eq_eq, true_and, reduceCtorEq, false_and,
    List.not_mem_nil, or_false] at hmem
  rwa [hmem]

/-- A lookup is served a null from the cache exactly when it meets one. -/
theorem servedPositive_iff (h : (container finds).Reachable d) (j : Nat) (key : LookupKey) :
    ServedPositive d j key ↔ ¬ MeetsNull d j key := by
  constructor
  · rintro hpositive ⟨e, he, htid, hop, entry, l, hlive, hl, hout⟩
    have hserve := h.served e he
    obtain ⟨tid, pre, ⟨op, p⟩, post⟩ := e
    obtain rfl : op = .getOrLoad key := hop
    have hcache := hserve.1
    rw [TtlCache.getOrLoad, show TtlCache.live _ _ _ = _ from hlive, Prod.mk.injEq] at hcache
    rw [← show p = _ from hcache.1] at hl
    exact hpositive _ he htid p rfl l hl none hout rfl
  · rintro hmeets e he htid p hev l hl cached hcached rfl
    have hserve := h.served e he
    rw [hev] at hserve
    obtain ⟨entry, hlive, rfl⟩ := called_live hserve hl
    exact hmeets ⟨e, he, htid, by rw [hev], entry, l, hlive, hl, hcached⟩

/-- A lookup that meets a null returns it. -/
theorem meetsNull_returns (hreads : UpToDate finds) (h : (container finds).Reachable d) {j : Nat}
    {t : LookupThread} {value : Option ClientConfigRow} (ht : d.threads[j]? = some t)
    (hjob : t.job = key) (hret : t.prog = .ret (.ok value)) (hmeets : MeetsNull d j key) :
    value = none := by
  obtain ⟨p, hlocal, l, hl, hout⟩ := returned_resolved hreads h ht hjob hret
  by_contra hvalue
  refine absurd hmeets ((servedPositive_iff h j key).mp ?_)
  rintro e he rfl q hev m hm cached hcached rfl
  have hmem := Entry.mem_localLog he
  rw [hev, hlocal] at hmem
  simp only [List.mem_cons, Event.mk.injEq, heq_eq_eq, true_and, reduceCtorEq, false_and,
    List.not_mem_nil, or_false] at hmem
  subst hmem
  -- the promise has kept what it had resolved to
  obtain ⟨m', hm', -, hsame⟩ := ((directed hreads).reaches h e he).1.loads q m hm
  obtain rfl := hsame (by rw [hcached]; simp)
  rw [hl, Option.some.injEq] at hm'
  subst hm'
  rw [hcached, Outcome.resolved.injEq] at hout
  exact hvalue hout.symm

/-- A lookup that is started when there is a row, after lookups that have
all returned null, returns the row if it meets no null in the cache. -/
theorem returns_row (hreads : UpToDate finds) (hc : (container finds).Reachable c)
    (hlater : (container finds).Later c d) {item : ClientConfigRow} (hitem : item ∈ c.world.table)
    (hmatch : key.Matches item)
    (hnull : ∀ t ∈ c.threads, t.job = key → t.prog = .ret (.ok none))
    {j : Nat} {t : LookupThread} {value : Option ClientConfigRow} (hj : c.threads.length ≤ j)
    (ht : d.threads[j]? = some t) (hjob : t.job = key) (hret : t.prog = .ret (.ok value))
    (hmeets : ¬ MeetsNull d j key) : IsRow d key value := by
  have hd := hlater.reachable hc
  obtain ⟨p, hlocal, l, hl, hout⟩ := returned_resolved hreads hd ht hjob hret
  obtain ⟨new, hsince⟩ := hlater.since
  rw [hsince.localLog_new hc hj] at hlocal
  obtain ⟨e, hnew, htid, hev⟩ := mem_localLog.mp (by rw [hlocal]; simp :
    (⟨.getOrLoad key, p⟩ : Event Request Reply) ∈ localLog new j)
  have he : e ∈ d.log := by rw [hsince.log]; exact List.mem_append_right _ hnew
  obtain ⟨l', hl', hkey⟩ := called_key hreads hd he hev
  obtain rfl : l' = l := Option.some.inj (hl'.symm.trans hl)
  obtain ⟨resp, hresp, hloaded⟩ := (sound hreads hd).resolved p l' value hl hout
  rcases resp with e' | (_ | found)
  · cases hloaded
  · -- the read has found nothing: it was answered before the row was there
    exfalso
    cases hloaded
    have hgrows := (directed hreads).later hc hlater
    cases hold : c.world.responses p with
    | none =>
        obtain ⟨m, hm, hnone⟩ := hgrows.missed p hold hresp
        obtain rfl : m = l' := Option.some.inj (hm.symm.trans hl)
        rw [hkey] at hnone
        exact hnone item hitem hmatch
    | some resp =>
        -- the load is that of an earlier lookup, which has returned null
        obtain ⟨m, hm⟩ := (sound hreads hc).started p resp hold
        obtain ⟨m', hm', hmkey, -⟩ := hgrows.loads p m hm
        obtain rfl : m' = l' := Option.some.inj (hm'.symm.trans hl)
        rw [hkey] at hmkey
        obtain ⟨l₀, hl₀, hout₀⟩ := null_resolved hreads hc hnull hm hmkey.symm
        -- it had resolved before lookup `j` was made
        obtain ⟨n₁, n₂, rfl⟩ := List.append_of_mem hnew
        obtain ⟨b, hcb, -, -, hpre⟩ := hlater.before n₁ e n₂ hsince.log
        obtain ⟨l₁, hl₁, -, hsame⟩ := ((directed hreads).later hc hcb).loads p l₀ hl₀
        obtain rfl := hsame (by rw [hout₀]; simp)
        rw [hpre] at hl₁
        exact (servedPositive_iff hd j key).mpr hmeets e he htid p hev l₁ hl₁ none hout₀ rfl
  · obtain ⟨hmem, hmatch'⟩ := (sound hreads hd).found p l' found hl hresp
    rw [hkey] at hmatch' hloaded
    cases hparse : key.parse found with
    | error e =>
        simp [LookupKey.loaded, hparse, Except.map] at hloaded
    | ok row =>
        simp only [LookupKey.loaded, hparse, Except.map, Except.ok.injEq] at hloaded
        exact ⟨found, hmem, hmatch', row, hparse, hloaded.symm⟩

/-- A lookup is served what is positive, and one that is started when there
is a row after lookups that have returned null returns the row, exactly when
it does not meet a null in the cache. -/
theorem sees_row (hreads : UpToDate finds) (hd : (container finds).Reachable d) :
    (∀ j key, ServedPositive d j key ↔ ¬ MeetsNull d j key) ∧
      ∀ (c : LookupConfig) (key : LookupKey) (item : ClientConfigRow) (j : Nat) (t : LookupThread)
        (value : Option ClientConfigRow), (container finds).Reachable c →
        (container finds).Later c d → item ∈ c.world.table → key.Matches item →
        (∀ t ∈ c.threads, t.job = key → t.prog = .ret (.ok none)) → c.threads.length ≤ j →
        d.threads[j]? = some t → t.job = key → t.prog = .ret (.ok value) →
          (IsRow d key value ↔ ¬ MeetsNull d j key) := by
  refine ⟨servedPositive_iff hd, ?_⟩
  intro c key item j t value hc hlater hitem hmatch hnull hj ht hjob hret
  constructor
  · rintro ⟨_, -, -, _, -, rfl⟩ hmeets
    cases meetsNull_returns hreads hd ht hjob hret hmeets
  · exact returns_row hreads hc hlater hitem hmatch hnull hj ht hjob hret

/-! ## A tenant created after a lookup -/

namespace Small

/-- Reads of a table that is up to date. -/
def findRow : Finds := fun rows key found =>
  found = rows.find? fun item => decide (key.Matches item)

theorem findRow_upToDate : UpToDate findRow where
  found := by
    intro rows key item h
    exact ⟨List.mem_of_find?_eq_some h.symm, by simpa using List.find?_some h.symm⟩
  missed := by
    intro rows key h item hitem
    simpa using List.find?_eq_none.mp h.symm item hitem

def settled (w : World) (p : Nat) : Option (Except Triggers.Thrown (Option ClientConfigRow)) :=
  match w.cache.loads[p]? with
  | some ⟨_, _, .resolved value⟩ => some (.ok value)
  | some ⟨key, _, .rejected⟩ =>
      match (w.responses p).map key.loaded with
      | some (.error e) => some (.error e)
      | _ => none
  | _ => none

theorem settled_sound {w : World} {p : Nat}
    {result : Except Triggers.Thrown (Option ClientConfigRow)} (h : settled w p = some result) :
    w.Settled p result := by
  unfold settled at h
  split at h
  · rename_i value hl
    cases h
    exact ⟨_, hl, rfl⟩
  · rename_i hl
    split at h
    · rename_i e he
      cases h
      obtain ⟨resp, hresp, hloaded⟩ := Option.map_eq_some_iff.mp he
      exact ⟨_, hl, rfl, resp, hresp, hloaded⟩
    · cases h
  · cases h

inductive Move where
  | tick (now : ℚ)
  | create (item : ClientConfigRow)
  | respond (promise : Nat)
  | settle (promise : Nat)

def drift (w : World) : Move → Option World
  | .tick now => some { w with now := now }
  | .create item => some { w with table := w.table ++ [item] }
  | .respond p =>
      match w.cache.loads[p]?, w.responses p with
      | some l, none =>
          let found := w.table.find? fun item => decide (l.key.Matches item)
          some { w with responses := w.responses.put p (.ok found) }
      | _, _ => none
  | .settle p =>
      match w.cache.loads[p]?, w.responses p with
      | some l, some resp =>
          if l.outcome = .pending then
            some { w with cache := afterResponse w.cache p l.key resp }
          else none
      | _, _ => none

def serveEvent (w : World) : Event Request Reply → Option World
  | ⟨.getOrLoad key, p⟩ =>
      let called := w.cache.getOrLoad ttlMs w.now key
      if called.1 = p then some { w with cache := called.2 } else none
  | ⟨.await p, result⟩ => if settled w p = some result then some w else none

def interpreter : Interpreter (container findRow) Move where
  permits := fun _ _ => true
  serve := serveEvent
  drift := drift
  permits_sound := fun _ _ _ => trivial
  serve_sound := by
    intro w e w' h
    obtain ⟨op, r⟩ := e
    cases op with
    | getOrLoad key =>
        simp only [serveEvent, Option.ite_none_right_eq_some, Option.some.injEq] at h
        obtain ⟨rfl, rfl⟩ := h
        exact ⟨rfl, rfl⟩
    | await p =>
        simp only [serveEvent, Option.ite_none_right_eq_some, Option.some.injEq] at h
        exact ⟨settled_sound h.1, h.2.symm⟩
  drift_sound := by
    intro w m w' h
    cases m with
    | tick now =>
        cases h
        exact .tick now
    | create item =>
        cases h
        exact .create item
    | respond p =>
        simp only [drift] at h
        split at h
        · rename_i l hl hnone
          cases h
          refine .respond hl hnone ?_
          intro found hfound
          exact (Except.ok.inj hfound).symm
        · cases h
    | settle p =>
        simp only [drift] at h
        split at h
        · rename_i l resp hl hresp
          simp only [Option.ite_none_right_eq_some, Option.some.injEq] at h
          obtain ⟨hpending, rfl⟩ := h
          exact .settle hl hpending hresp
        · cases h

def outside (w : World) : (op : Request) → Reply op
  | .getOrLoad key => (w.cache.getOrLoad ttlMs w.now key).1
  | .await p => (settled w p).getD (.ok none)

abbrev Schedule := List (Action Request Reply World LookupKey Move)

def acme : LookupKey := .bySubdomain "acme"

def row : ClientConfigRow :=
  ⟨"client-1", "acme", "tenant-1", "https://acme.example.com", [], "2026-01-01T00:00:00.000Z", none⟩

def start : World := ⟨[], .empty, Table.empty, 0⟩

/-- Lookup 0 finds no row; then the row is created. -/
def before : Schedule :=
  [.spawn acme, .answer 0 outside, .drift (.respond 0), .drift (.settle 0), .answer 0 outside,
    .drift (.create row)]

/-- Lookup 1, a second later. -/
def soon : Schedule :=
  [.drift (.tick 1000), .spawn acme, .answer 1 outside, .answer 1 outside]

/-- Lookup 1, when the TTL is over. -/
def late : Schedule :=
  [.drift (.tick 300000), .spawn acme, .answer 1 outside, .drift (.respond 1), .drift (.settle 1),
    .answer 1 outside]

def returned (value : Option ClientConfigRow) (t : LookupThread) : Bool :=
  match t.prog with
  | .ret (.ok v) => t.job == acme && v == value
  | _ => false

theorem returned_prog {value : Option ClientConfigRow} {t : LookupThread}
    (h : returned value t = true) : t.job = acme ∧ t.prog = .ret (.ok value) := by
  unfold returned at h
  split at h
  · rename_i v heq
    simp only [Bool.and_eq_true, beq_iff_eq] at h
    exact ⟨h.1, by rw [heq, h.2]⟩
  · cases h

def holdsNull (w : World) : Bool :=
  match w.cache.live w.now acme with
  | some entry => (w.cache.loads[entry.promise]?).any fun l => l.outcome == .resolved none
  | none => false

theorem holdsNull_of {w : World} (h : HoldsNull w acme) : holdsNull w = true := by
  obtain ⟨entry, l, hlive, hl, hout⟩ := h
  simp [holdsNull, hlive, hl, hout]

/-- One lookup has returned null, and there is a row now. -/
def scene (c d : LookupConfig) (value : Option ClientConfigRow) : Bool :=
  c.threads.length == 1 && c.threads.all (returned none) && c.world.table == [row] &&
    d.threads[1]?.any (returned value)

theorem null_cached : ¬ ∀ (finds : Finds) (c d : LookupConfig) (key : LookupKey)
    (item : ClientConfigRow) (j : Nat) (t : LookupThread) (value : Option ClientConfigRow),
    UpToDate finds → (container finds).Reachable c → (container finds).Later c d →
      item ∈ c.world.table → key.Matches item →
        (∀ t ∈ c.threads, t.job = key → t.prog = .ret (.ok none)) → c.threads.length ≤ j →
          d.threads[j]? = some t → t.job = key → t.prog = .ret (.ok value) →
            IsRow d key value := by
  intro hall
  obtain ⟨c, d, hc, hlater, hscene⟩ := interpreter.exists_later (w := start) ⟨rfl, rfl⟩ before soon
    (fun c d => scene c d none) (by decide +kernel)
  simp only [scene, Bool.and_eq_true, beq_iff_eq, List.all_eq_true, Option.any_eq_true] at hscene
  obtain ⟨⟨⟨hlen, hnull⟩, htable⟩, t, ht, hret⟩ := hscene
  obtain ⟨hjob, hprog⟩ := returned_prog hret
  have hsees := hall findRow c d acme row 1 t none findRow_upToDate hc hlater (by simp [htable]) rfl
    (fun t ht _ => (returned_prog (hnull t ht)).2) (by omega) ht hjob hprog
  obtain ⟨_, -, -, _, -, hvalue⟩ := hsees
  cases hvalue

theorem sees_row_late : ∃ c d, (container findRow).Reachable c ∧ (container findRow).Later c d ∧
    row ∈ c.world.table ∧ ServedPositive d 1 acme ∧ IsRow d acme (some row) := by
  obtain ⟨c, d, hc, hlater, hscene⟩ := interpreter.exists_later (w := start) ⟨rfl, rfl⟩ before late
    (fun c d => scene c d (some row) && d.log.all fun e => e.tid != 1 || !holdsNull e.pre)
    (by decide +kernel)
  simp only [scene, Bool.and_eq_true, beq_iff_eq, List.all_eq_true, Option.any_eq_true] at hscene
  obtain ⟨⟨⟨⟨hlen, hnull⟩, htable⟩, t, ht, hret⟩, hlog⟩ := hscene
  obtain ⟨hjob, hprog⟩ := returned_prog hret
  obtain ⟨hpositive, hrow⟩ := sees_row findRow_upToDate (hlater.reachable hc)
  have hmeets : ¬ MeetsNull d 1 acme := by
    rintro ⟨e, he, htid, -, hholds⟩
    have := hlog e he
    simp [htid, holdsNull_of hholds] at this
  refine ⟨c, d, hc, hlater, by simp [htable], (hpositive 1 acme).mpr hmeets, ?_⟩
  exact (hrow c acme row 1 t (some row) hc hlater (by simp [htable]) rfl
    (fun t ht _ => (returned_prog (hnull t ht)).2) (by omega) ht hjob hprog).mpr hmeets

end Small

end SaasFoundation.Vestibulum.SharedDistribution.ClientConfigLoader
