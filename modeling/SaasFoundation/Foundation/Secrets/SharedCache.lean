import SaasFoundation.Foundation.Secrets.CacheKeys
import SaasFoundation.Foundation.Secrets.Intact

/-!
# One cache for all resolvers

Any number of calls of the three resolvers, in any order of their steps,
share one cache. A buffer that a call returns was stored under its key, and
the call that stored it had fetched it by a request for that key.
-/

namespace SaasFoundation.Foundation.Secrets

open Lib SecretCache

/-! ## The calls -/

inductive SharedJob where
  | resolve (ref : Reference) (fresh : Bool) (secretKey : Option String)
  | invalidate (key : String)
  | clear

def Output.shared : Output → SharedOutput
  | .buffer value => .buffer value
  | .thrown e => .thrown (.resolve e)
  | .done => .done

/-- A call of the AWS resolvers. -/
def onAws (p : Handler Output) : SharedHandler SharedOutput := do
  let out : Output ← p.embed .aws
  pure out.shared

def resolveReference (baseUrl : String) (secretKey : Option String) (fresh : Bool) :
    Reference → SharedHandler SharedOutput
  | .secret ref _ => onAws (resolveSecret ref fresh)
  | .parameter name withDecryption => onAws (resolveParameter name (some withDecryption) fresh)
  | .scaleway ref _ => resolveScalewaySecret baseUrl secretKey ref fresh

def startShared (baseUrl : String) : SharedJob → SharedHandler SharedOutput
  | .resolve ref fresh secretKey => resolveReference baseUrl secretKey fresh ref
  | .invalidate key => onAws (start (.invalidate key))
  | .clear => onAws (start .clear)

def serveShared (options : SecretCacheOptions) (w : World) :
    (op : SharedRequest) → SharedReply op → World → Prop
  | .aws op, r, w' => serve options w op r w'
  | .environmentKey, _, w' => w' = w
  | .access _ _, _, w' => w' = w

def sharedProcess (options : SecretCacheOptions) (baseUrl : String) :
    System SharedRequest SharedReply World SharedJob SharedOutput where
  start := startShared baseUrl
  permits := fun _ _ => True
  serve := serveShared options
  drift := fun w w' => ∃ now, w' = w.tick now
  init := fun w => w.cache = .empty ∧ w.latest = w.now

abbrev SharedConfig := Config SharedRequest SharedReply World SharedJob SharedOutput

/-! ## What a call stores -/

/-- Bytes that came of a request. -/
def FetchedBy (past : List (Event SharedRequest SharedReply)) :
    ProviderRequest → List UInt8 → Prop
  | .getSecretValue secretId versionId, bytes => ∃ response,
      secretBytes ⟨secretId, versionId⟩ response = .ok bytes ∧
        ⟨.aws (.getSecretValue ⟨secretId, versionId⟩), response⟩ ∈ past
  | .getParameter name withDecryption, bytes => ∃ response, parameterBytes name response = .ok bytes ∧
      ⟨.aws (.getParameter name withDecryption), response⟩ ∈ past
  | .access url, bytes => ∃ ref token access, scalewayBytes ref access = .ok bytes ∧
      ⟨.access url token, access⟩ ∈ past

/-- A call stores under its own key what it has fetched. -/
def StoresOwn (baseUrl : String) (job : SharedJob) (past : List (Event SharedRequest SharedReply))
    (op : SharedRequest) : Prop :=
  ∀ key bytes, op = .aws (.store key bytes) → ∃ ref fresh secretKey,
    job = .resolve ref fresh secretKey ∧ ref.key = key ∧
      FetchedBy past (ref.request baseUrl) bytes

section Calls

variable {baseUrl : String} {job : SharedJob} {past : List (Event SharedRequest SharedReply)}

/-- A call of AWS, where only its store has anything to show. -/
theorem resolve_asksOwn {key : String} {fresh : Bool} {fetch : Request}
    {finish : Reply fetch → Except SecretsResolveError (List UInt8)}
    {J : List (Event Request Reply) → Request → Prop}
    (hcache : ∀ es, J es (.invalidate key) ∧ J es (.get key)) (hfetch : ∀ es, J es fetch)
    (hstore : ∀ es response bytes, finish response = .ok bytes →
      J (es ++ [⟨fetch, response⟩]) (.store key bytes)) :
    Prog.Asks J [] (resolve key fresh fetch finish) := by
  have hload : ∀ es, Prog.Asks J es (load key fetch finish) := by
    intro es
    simp only [load, Prog.call_bind, Prog.asks_ask]
    refine ⟨hfetch es, fun response => ?_⟩
    split
    · trivial
    · rename_i bytes hok
      exact ⟨hstore es response bytes hok, fun _ => trivial⟩
  unfold resolve
  split
  · exact ⟨(hcache []).1, fun _ => hload _⟩
  · refine ⟨(hcache []).2, fun hit => ?_⟩
    cases hit with
    | some value => trivial
    | none => exact hload _

theorem onAws_asks {p : Handler Output}
    (h : Prog.Asks (fun es op => StoresOwn baseUrl job (es.map (Event.embed .aws)) (.aws op)) [] p) :
    Prog.Asks (StoresOwn baseUrl job) [] (onAws p) := by
  have hembed : Prog.Asks (StoresOwn baseUrl job)
      ([] ++ ([] : List (Event Request Reply)).map (Event.embed .aws))
      (p.embed SharedRequest.aws) := Prog.Asks.embed h
  exact hembed.bind fun _ _ _ => trivial

theorem storesOwn_of_ne {op : SharedRequest} (h : ∀ key bytes, op ≠ .aws (.store key bytes)) :
    StoresOwn baseUrl job past op := fun key bytes hop => absurd hop (h key bytes)

theorem loadScaleway_asks {ref : ScalewaySecretRef} (haccepted : scalewaySecretRef ref = .ok ref)
    (fresh : Bool) (secretKey : Option String) :
    Prog.Asks (StoresOwn baseUrl (.resolve (.scaleway ref haccepted) fresh secretKey)) past
      (loadScaleway baseUrl secretKey ref) := by
  simp only [loadScaleway, Prog.call_bind, Prog.asks_ask]
  refine ⟨storesOwn_of_ne (by simp), fun environment => ?_⟩
  cases present (secretKey.or environment) with
  | none => trivial
  | some token =>
      simp only [Prog.asks_ask]
      refine ⟨storesOwn_of_ne (by simp), fun access => ?_⟩
      cases hok : scalewayBytes ref access with
      | error e => trivial
      | ok bytes =>
          refine ⟨?_, fun _ => trivial⟩
          intro key' bytes' hop
          cases hop
          refine ⟨.scaleway ref haccepted, fresh, secretKey, rfl, rfl, ref, token, access, hok, ?_⟩
          exact List.mem_append_right _ List.mem_cons_self

theorem startShared_asks (baseUrl : String) (job : SharedJob) :
    Prog.Asks (StoresOwn baseUrl job) [] (startShared baseUrl job) := by
  cases job with
  | resolve ref fresh secretKey =>
      cases ref with
      | secret ref haccepted =>
          refine onAws_asks (resolve_asksOwn ?_ ?_ ?_)
          · exact fun es => ⟨storesOwn_of_ne (by simp), storesOwn_of_ne (by simp)⟩
          · exact fun es => storesOwn_of_ne (by simp)
          · intro es response bytes hok key' bytes' hop
            cases hop
            refine ⟨.secret ref haccepted, fresh, secretKey, rfl, rfl, response, hok, ?_⟩
            rw [List.map_append]
            exact List.mem_append_right _ List.mem_cons_self
      | parameter name withDecryption =>
          refine onAws_asks (resolve_asksOwn ?_ ?_ ?_)
          · exact fun es => ⟨storesOwn_of_ne (by simp), storesOwn_of_ne (by simp)⟩
          · exact fun es => storesOwn_of_ne (by simp)
          · intro es response bytes hok key' bytes' hop
            cases hop
            refine ⟨.parameter name withDecryption, fresh, secretKey, rfl, rfl, response, hok, ?_⟩
            rw [List.map_append]
            exact List.mem_append_right _ List.mem_cons_self
      | scaleway ref haccepted =>
          show Prog.Asks _ [] (resolveScalewaySecret baseUrl secretKey ref fresh)
          simp only [resolveScalewaySecret, haccepted]
          split
          · exact ⟨storesOwn_of_ne (by simp), fun _ => loadScaleway_asks haccepted fresh secretKey⟩
          · refine ⟨storesOwn_of_ne (by simp), fun hit => ?_⟩
            cases hit with
            | some value => trivial
            | none => exact loadScaleway_asks haccepted fresh secretKey
  | invalidate key => exact onAws_asks ⟨storesOwn_of_ne (by simp), fun _ => trivial⟩
  | clear => exact onAws_asks ⟨storesOwn_of_ne (by simp), fun _ => trivial⟩

/-- A buffer that is returned was a hit or has just been stored. -/
def GivesShared (es : List (Event SharedRequest SharedReply)) (key : String) (value : Nat) : Prop :=
  ⟨.aws (.get key), some value⟩ ∈ es ∨ ∃ bytes, ⟨.aws (.store key bytes), value⟩ ∈ es

theorem onAws_finishes {p : Handler Output} {es : List (Event SharedRequest SharedReply)}
    {value : Nat} (h : (onAws p).Finishes es (.buffer value)) :
    ∃ fs, es = fs.map (Event.embed .aws) ∧ p.Finishes fs (.buffer value) := by
  obtain ⟨es₁, es₂, out, rfl, hrun, hout⟩ := Prog.finishes_bind.mp h
  obtain ⟨rfl, hvalue⟩ := Prog.finishes_ret.mp hout
  obtain ⟨fs, rfl, hfs⟩ := Prog.finishes_embed.mp hrun
  refine ⟨fs, List.append_nil _, ?_⟩
  cases out with
  | buffer found =>
      cases hvalue
      exact hfs
  | thrown e => cases hvalue
  | done => cases hvalue

theorem GivesShared.of_gives {fs : List (Event Request Reply)} {key : String} {value : Nat}
    (h : Gives fs key value) : GivesShared (fs.map (Event.embed .aws)) key value := by
  rcases h with hget | ⟨bytes, hstore⟩
  · exact .inl (List.mem_map_of_mem hget)
  · exact .inr ⟨bytes, List.mem_map_of_mem hstore⟩

theorem GivesShared.cons {es : List (Event SharedRequest SharedReply)} {key : String} {value : Nat}
    (h : GivesShared es key value) (ev : Event SharedRequest SharedReply) :
    GivesShared (ev :: es) key value := by
  rcases h with hget | ⟨bytes, hstore⟩
  · exact .inl (List.mem_cons_of_mem _ hget)
  · exact .inr ⟨bytes, List.mem_cons_of_mem _ hstore⟩

theorem loadScaleway_gives {ref : ScalewaySecretRef} {secretKey : Option String}
    {es : List (Event SharedRequest SharedReply)} {value : Nat}
    (h : (loadScaleway baseUrl secretKey ref).Finishes es (.buffer value)) :
    GivesShared es ref.cacheKey value := by
  simp only [loadScaleway, Prog.call_bind, Prog.finishes_ask] at h
  obtain ⟨environment, es₁, rfl, h⟩ := h
  split at h
  · simp at h
  · simp only [Prog.finishes_ask] at h
    obtain ⟨access, es₂, rfl, h⟩ := h
    split at h
    · simp at h
    · rename_i bytes _
      simp only [Prog.finishes_ask, Prog.pure_def, Prog.finishes_ret] at h
      obtain ⟨stored, es₃, rfl, rfl, hvalue⟩ := h
      cases hvalue
      exact .inr ⟨bytes, by simp⟩

theorem startShared_gives {es : List (Event SharedRequest SharedReply)} {value : Nat}
    (h : (startShared baseUrl job).Finishes es (.buffer value)) :
    ∃ ref fresh secretKey, job = .resolve ref fresh secretKey ∧ GivesShared es ref.key value := by
  cases job with
  | resolve ref fresh secretKey =>
      refine ⟨ref, fresh, secretKey, rfl, ?_⟩
      cases ref with
      | secret ref haccepted =>
          obtain ⟨fs, rfl, hfs⟩ := onAws_finishes h
          exact .of_gives (resolve_gives hfs)
      | parameter name withDecryption =>
          obtain ⟨fs, rfl, hfs⟩ := onAws_finishes h
          exact .of_gives (resolve_gives hfs)
      | scaleway ref haccepted =>
          change (resolveScalewaySecret baseUrl secretKey ref fresh).Finishes _ _ at h
          simp only [resolveScalewaySecret, haccepted] at h
          split at h
          · simp only [Prog.call_bind, Prog.finishes_ask] at h
            obtain ⟨_, es₁, rfl, h⟩ := h
            exact (loadScaleway_gives h).cons _
          · simp only [Prog.call_bind, Prog.finishes_ask] at h
            obtain ⟨hit, es₁, rfl, h⟩ := h
            cases hit with
            | some found =>
                simp only [Prog.pure_def, Prog.finishes_ret] at h
                obtain ⟨rfl, hvalue⟩ := h
                cases hvalue
                exact .inl List.mem_cons_self
            | none => exact (loadScaleway_gives h).cons _
  | invalidate key =>
      obtain ⟨fs, -, hfs⟩ := onAws_finishes h
      simp [start] at hfs
  | clear =>
      obtain ⟨fs, -, hfs⟩ := onAws_finishes h
      simp [start] at hfs

end Calls

/-! ## All runs -/

/-- Entries come from stores, and hits return buffers of stores. -/
structure Stored (c : SharedConfig) : Prop where
  entries : ∀ p ∈ c.world.cache.entries, ∃ e ∈ c.log, ∃ bytes,
    e.ev = ⟨.aws (.store p.1 bytes), p.2.value⟩
  hits : ∀ e ∈ c.log, ∀ key value, e.ev = ⟨.aws (.get key), some value⟩ →
    ∃ e' ∈ c.log, ∃ bytes, e'.ev = ⟨.aws (.store key bytes), value⟩

/-- No two references of the calls are confused. -/
def Clear (c : SharedConfig) : Prop :=
  ∀ t ∈ c.threads, ∀ t' ∈ c.threads, ∀ ref fresh secretKey ref' fresh' secretKey',
    t.job = .resolve ref fresh secretKey → t'.job = .resolve ref' fresh' secretKey' →
      ¬ ref.Confused ref'

/-- Every buffer that was returned was made of a reply to the caller's own
request. -/
def Own (baseUrl : String) (c : SharedConfig) : Prop :=
  ∀ t ∈ c.threads, ∀ ref fresh secretKey value, t.job = .resolve ref fresh secretKey →
    t.prog = .ret (.buffer value) → ∃ l₁ e l₂ bytes, c.log = l₁ ++ e :: l₂ ∧
      e.ev = ⟨.aws (.store ref.key bytes), value⟩ ∧
        FetchedBy (localLog l₁ e.tid) (ref.request baseUrl) bytes

section Runs

variable {options : SecretCacheOptions} {baseUrl : String} {c : SharedConfig}

theorem Stored.request {i : Nat} {op : SharedRequest} {r : SharedReply op} {w : World}
    (h : Stored c) (hserve : serveShared options c.world op r w)
    {threads : List (Thread SharedRequest SharedReply SharedJob SharedOutput)} :
    Stored ⟨w, threads, c.log ++ [⟨i, c.world, ⟨op, r⟩, w⟩]⟩ := by
  have hmem : ∀ e ∈ c.log, e ∈ c.log ++ [⟨i, c.world, ⟨op, r⟩, w⟩] :=
    fun e he => List.mem_append_left _ he
  have hlast : (⟨i, c.world, ⟨op, r⟩, w⟩ : Lib.Entry SharedRequest SharedReply World) ∈
      c.log ++ [⟨i, c.world, ⟨op, r⟩, w⟩] := List.mem_append_right _ List.mem_cons_self
  constructor
  · intro p hp
    have hold : p ∈ c.world.cache.entries → ∃ e ∈ c.log ++ [⟨i, c.world, ⟨op, r⟩, w⟩], ∃ bytes,
        e.ev = ⟨.aws (.store p.1 bytes), p.2.value⟩ := by
      intro hp
      obtain ⟨e, he, hrest⟩ := h.entries p hp
      exact ⟨e, hmem e he, hrest⟩
    cases op with
    | aws op =>
        rcases serve_entries hserve p hp with hp | ⟨bytes, hev, -⟩
        · exact hold hp
        · cases hev
          exact ⟨_, hlast, bytes, rfl⟩
    | environmentKey | access url token =>
        cases hserve
        exact hold hp
  · intro e he key value hev
    rcases List.mem_append.mp he with he | he
    · obtain ⟨e', he', hrest⟩ := h.hits e he key value hev
      exact ⟨e', hmem e' he', hrest⟩
    · -- the hit is the new one: the entry it met had been stored
      rw [List.mem_singleton.mp he] at hev
      cases hev
      obtain ⟨entry, hentry, rfl⟩ := get_hit hserve.1.symm
      obtain ⟨e', he', bytes, hev'⟩ := h.entries _ hentry
      exact ⟨e', hmem e' he', bytes, hev'⟩

theorem Reachable.stored (h : (sharedProcess options baseUrl).Reachable c) : Stored c := by
  induction h with
  | @init w hw =>
      refine ⟨?_, by simp⟩
      intro p hp
      rw [hw.1] at hp
      cases hp
  | step _ hs ih =>
      cases hs with
      | spawn _ => exact ⟨ih.entries, ih.hits⟩
      | request _ hserve => exact ih.request hserve
      | drift hd =>
          obtain ⟨now, rfl⟩ := hd
          exact ⟨ih.entries, ih.hits⟩

/-- A buffer was stored under the caller's key, by a call of a reference
with that key. -/
theorem Reachable.own (h : (sharedProcess options baseUrl).Reachable c) (hclear : Clear c) :
    Own baseUrl c := by
  intro t ht ref fresh secretKey value hjob hret
  obtain ⟨i, hi⟩ := List.getElem?_of_mem ht
  have hrun := h.local_run i t hi
  rw [hret] at hrun
  obtain ⟨ref₁, fresh₁, secretKey₁, hjob₁, hgives⟩ := startShared_gives hrun
  rw [hjob] at hjob₁
  cases hjob₁
  have hstore : ∃ e ∈ c.log, ∃ bytes, e.ev = ⟨.aws (.store ref.key bytes), value⟩ := by
    rcases hgives with hget | ⟨bytes, hput⟩
    · obtain ⟨e, he, -, hev⟩ := mem_localLog.mp hget
      exact (Reachable.stored h).hits e he ref.key value hev
    · obtain ⟨e, he, -, hev⟩ := mem_localLog.mp hput
      exact ⟨e, he, bytes, hev⟩
  obtain ⟨e, he, bytes, hev⟩ := hstore
  obtain ⟨l₁, l₂, hlog⟩ := List.append_of_mem he
  obtain ⟨t', ht', hJ⟩ := h.asked (J := StoresOwn baseUrl) (startShared_asks baseUrl) l₁ e l₂ hlog
  obtain ⟨ref', fresh', secretKey', hjob', hkey, hfetched⟩ := hJ ref.key bytes (by rw [hev])
  refine ⟨l₁, e, l₂, bytes, hlog, hev, ?_⟩
  rcases Reference.of_key_eq baseUrl hkey with hsame | hconfused
  · rwa [← hsame]
  · exact absurd hconfused (hclear t' (List.mem_of_getElem? ht') t ht ref' fresh' secretKey' ref fresh
      secretKey hjob' hjob)

end Runs

/-- Different requests have different keys exactly for references that are
not confused; and while no two references of the calls are, every call gets
what its own request has brought. -/
theorem cache_keys_sound_iff (options : SecretCacheOptions) (baseUrl : String) :
    (∀ r s : Reference,
      (r.request baseUrl ≠ s.request baseUrl → r.key ≠ s.key) ↔ ¬ r.Confused s) ∧
    ∀ c, (sharedProcess options baseUrl).Reachable c → Clear c → Own baseUrl c :=
  ⟨Reference.keys_apart_iff baseUrl, fun _ h hclear => Reachable.own h hclear⟩

namespace Small

def arn : String := "arn:aws:secretsmanager:eu-central-1:123456789012:secret:db-AbCdEf"

/-- The current version, and a version that is called `AWSCURRENT`. -/
def current : Reference := .secret ⟨arn, none⟩ (by decide +kernel)

def pinned : Reference := .secret ⟨arn, some "AWSCURRENT"⟩ (by decide +kernel)

/-- One text, cut at either of its colons. -/
def inFolder : Reference :=
  .scaleway ⟨none, some "b:c", some "/a", none, "fr-par", none⟩ (by decide +kernel)

def inOtherFolder : Reference :=
  .scaleway ⟨none, some "c", some "/a:b", none, "fr-par", none⟩ (by decide +kernel)

theorem keys_shared :
    current.key = pinned.key ∧ inFolder.key = inOtherFolder.key ∧
      ¬ ∀ r s : Reference, r.request "https://api.scaleway.com" ≠ s.request "https://api.scaleway.com" →
        r.key ≠ s.key := by
  have haws : current.key = pinned.key := by decide +kernel
  refine ⟨haws, by decide +kernel, ?_⟩
  intro hall
  have hrequest : current.request "https://api.scaleway.com" ≠
      pinned.request "https://api.scaleway.com" := by decide +kernel
  exact hall current pinned hrequest haws

end Small

end SaasFoundation.Foundation.Secrets
