import Mathlib.Algebra.Order.Field.Rat
import Mathlib.Data.List.Nodup

/-!
# `SecretCache`

An LRU cache with a TTL per entry. The values are buffers on a heap; the
cache hands out references to its own and fills a buffer with zeros when
its entry goes. Which buffers were zeroed, and why, is a ghost.
-/

namespace SaasFoundation.Foundation.Secrets

structure SecretCacheOptions where
  maxEntries : Option ℚ
  ttlSeconds : Option ℚ

def SecretCacheOptions.limit (options : SecretCacheOptions) : ℚ := options.maxEntries.getD 100

def SecretCacheOptions.ttlMs (options : SecretCacheOptions) : ℚ :=
  options.ttlSeconds.getD 300 * 1000

structure Entry where
  /-- The address of the buffer. -/
  value : Nat
  expiresAt : ℚ
deriving DecidableEq

/-- Why a buffer was zeroed. -/
inductive Cause where
  | expired
  | replaced
  | overflow
  | invalidated
  | cleared
deriving DecidableEq, Repr

/-- The cache and the heap of buffers it lives on. -/
structure SecretCache where
  buffers : List (List UInt8)
  /-- In the order of a JavaScript `Map`, oldest first. -/
  entries : List (String × Entry)
  zeroed : List (Nat × Cause)

namespace SecretCache

def empty : SecretCache := ⟨[], [], []⟩

variable (c : SecretCache)

/-- `Buffer.from(bytes)`. -/
def alloc (bytes : List UInt8) : Nat × SecretCache :=
  (c.buffers.length, { c with buffers := c.buffers ++ [bytes] })

/-- `value.fill(0)`. -/
def fill0 (cause : Cause) (value : Nat) : SecretCache :=
  { c with
    buffers := c.buffers.modify value (List.map fun _ => 0)
    zeroed := (value, cause) :: c.zeroed }

/-- `this.entries.delete(key)`. -/
def delete (key : String) : SecretCache :=
  { c with entries := c.entries.filter fun p => p.1 ≠ key }

/-- `this.entries.set` of a key that is not there. -/
def append (key : String) (entry : Entry) : SecretCache :=
  { c with entries := c.entries ++ [(key, entry)] }

def evictKey (cause : Cause) (key : String) : Bool × SecretCache :=
  match c.entries.lookup key with
  | none => (false, c)
  | some entry => (true, (c.fill0 cause entry.value).delete key)

def get (now : ℚ) (key : String) : Option Nat × SecretCache :=
  match c.entries.lookup key with
  | none => (none, c)
  | some entry =>
      if entry.expiresAt ≤ now then (none, (c.evictKey .expired key).2)
      else (some entry.value, (c.delete key).append key entry)

/-- Evict the oldest entries, at most `n` of them. -/
def evictOldest (limit : ℚ) : Nat → SecretCache → SecretCache
  | 0, c => c
  | n + 1, c =>
      match c.entries with
      | [] => c
      | (oldest, _) :: _ =>
          if limit < c.entries.length then evictOldest limit n (c.evictKey .overflow oldest).2
          else c

def evictOverflow (limit : ℚ) : SecretCache := evictOldest limit c.entries.length c

/-- The entry that `set` finds goes first, and its buffer with it. -/
def replace (key : String) : SecretCache :=
  match c.entries.lookup key with
  | none => c
  | some existing => (c.delete key).fill0 .replaced existing.value

def set (options : SecretCacheOptions) (now : ℚ) (key : String) (value : Nat) : SecretCache :=
  ((c.replace key).append key ⟨value, now + options.ttlMs⟩).evictOverflow options.limit

def invalidate (key : String) : Bool × SecretCache := c.evictKey .invalidated key

def clear : SecretCache :=
  { c.entries.foldl (fun c p => c.fill0 .cleared p.2.value) c with entries := [] }

/-! ## Entries keep their buffers -/

/-- One entry for each key, one buffer for each entry. -/
structure WF : Prop where
  keys : (c.entries.map Prod.fst).Nodup
  values : (c.entries.map fun p => p.2.value).Nodup
  allocated : ∀ p ∈ c.entries, p.2.value < c.buffers.length

theorem empty_wf : empty.WF := ⟨List.nodup_nil, List.nodup_nil, by simp [empty]⟩

/-- The reasons for which a buffer may be zeroed although its TTL has not
passed. -/
def Cause.isAnnounced : Cause → Bool
  | .overflow => true
  | .invalidated => true
  | .cleared => true
  | _ => false

/-- The term of a buffer is over: its TTL has passed at some time up to
`latest`, or the entry was evicted, invalidated or cleared. -/
def Over (latest : ℚ) (value : Nat) (expiresAt : ℚ) : Prop :=
  expiresAt ≤ latest ∨ ∃ cause, Cause.isAnnounced cause = true ∧ (value, cause) ∈ c.zeroed

/-- Entries of `c` are in `c'` with their buffers as they were, or their
term is over. -/
structure Keeps (latest : ℚ) (c c' : SecretCache) : Prop where
  wf : c'.WF
  kept : ∀ p ∈ c.entries, (p ∈ c'.entries ∧ c'.buffers[p.2.value]? = c.buffers[p.2.value]?) ∨
    c'.Over latest p.2.value p.2.expiresAt
  zeroed : ∀ z ∈ c.zeroed, z ∈ c'.zeroed

variable {c} {c' c'' : SecretCache} {latest : ℚ} {key : String}

theorem Over.mono {latest' : ℚ} {value : Nat} {expiresAt : ℚ} (h : c.Over latest value expiresAt)
    (hle : latest ≤ latest') (hsub : ∀ z ∈ c.zeroed, z ∈ c'.zeroed) :
    c'.Over latest' value expiresAt := by
  rcases h with h | ⟨cause, hcause, hz⟩
  · exact .inl (h.trans hle)
  · exact .inr ⟨cause, hcause, hsub _ hz⟩

theorem Keeps.refl (h : c.WF) : Keeps latest c c where
  wf := h
  kept := fun _ hp => .inl ⟨hp, rfl⟩
  zeroed := fun _ hz => hz

theorem Keeps.trans (h : Keeps latest c c') (h' : Keeps latest c' c'') : Keeps latest c c'' where
  wf := h'.wf
  kept := by
    intro p hp
    rcases h.kept p hp with ⟨hmem, hbuf⟩ | hover
    · rcases h'.kept p hmem with ⟨hmem', hbuf'⟩ | hover
      · exact .inl ⟨hmem', hbuf'.trans hbuf⟩
      · exact .inr hover
    · exact .inr (hover.mono le_rfl h'.zeroed)
  zeroed := fun z hz => h'.zeroed z (h.zeroed z hz)

theorem mem_delete {p : String × Entry} :
    p ∈ (c.delete key).entries ↔ p ∈ c.entries ∧ p.1 ≠ key := by
  simp [delete]

theorem lookup_mem {entry : Entry} (h : c.entries.lookup key = some entry) :
    (key, entry) ∈ c.entries := by
  obtain ⟨l₁, l₂, heq, -⟩ := List.lookup_eq_some_iff.mp h
  simp [heq]

/-- The entry a lookup finds is the one of the key. -/
theorem WF.entry_eq (h : c.WF) {p : String × Entry} {entry : Entry}
    (hlookup : c.entries.lookup key = some entry) (hp : p ∈ c.entries) (hkey : p.1 = key) :
    p = (key, entry) :=
  List.inj_on_of_nodup_map h.keys hp (lookup_mem hlookup) hkey

theorem lookup_none {p : String × Entry} (h : c.entries.lookup key = none) (hp : p ∈ c.entries) :
    p.1 ≠ key := by
  intro hkey
  have := List.lookup_eq_none_iff.mp h p hp
  simp [hkey] at this

theorem WF.delete (h : c.WF) (key : String) : (c.delete key).WF where
  keys := h.keys.sublist (List.filter_sublist.map _)
  values := h.values.sublist (List.filter_sublist.map _)
  allocated := fun p hp => h.allocated p (mem_delete.mp hp).1

/-- An entry that is not there is put at the end. -/
theorem WF.append (h : c.WF) {entry : Entry} (hkey : ∀ p ∈ c.entries, p.1 ≠ key)
    (hvalue : ∀ p ∈ c.entries, p.2.value ≠ entry.value) (hlt : entry.value < c.buffers.length) :
    (c.append key entry).WF where
  keys := by
    simp only [SecretCache.append, List.map_append, List.map_cons, List.map_nil]
    refine h.keys.append (List.nodup_singleton _) ?_
    intro k hk hk'
    obtain ⟨p, hp, rfl⟩ := List.mem_map.mp hk
    exact hkey p hp (List.mem_singleton.mp hk')
  values := by
    simp only [SecretCache.append, List.map_append, List.map_cons, List.map_nil]
    refine h.values.append (List.nodup_singleton _) ?_
    intro v hv hv'
    obtain ⟨p, hp, rfl⟩ := List.mem_map.mp hv
    exact hvalue p hp (List.mem_singleton.mp hv')
  allocated := by
    intro p hp
    rcases List.mem_append.mp hp with hp | hp
    · exact h.allocated p hp
    · rw [List.mem_singleton.mp hp]
      exact hlt

@[simp] theorem fill0_entries (cause : Cause) (value : Nat) :
    (c.fill0 cause value).entries = c.entries := rfl

@[simp] theorem delete_buffers : (c.delete key).buffers = c.buffers := rfl

@[simp] theorem delete_zeroed : (c.delete key).zeroed = c.zeroed := rfl

theorem fill0_other (cause : Cause) {value other : Nat} (h : other ≠ value) :
    (c.fill0 cause value).buffers[other]? = c.buffers[other]? := by
  simp [fill0, Ne.symm h]

theorem WF.fill0 (h : c.WF) (cause : Cause) (value : Nat) : (c.fill0 cause value).WF where
  keys := h.keys
  values := h.values
  allocated := by
    intro p hp
    have := h.allocated p hp
    simpa [SecretCache.fill0] using this

/-- An entry can be taken with its buffer where its term ends by it. -/
theorem evict_keeps (h : c.WF) {cause : Cause} {entry : Entry}
    (hlookup : c.entries.lookup key = some entry)
    (hend : Cause.isAnnounced cause = true ∨ entry.expiresAt ≤ latest) :
    Keeps latest c ((c.fill0 cause entry.value).delete key) where
  wf := (h.fill0 cause entry.value).delete key
  kept := by
    intro p hp
    by_cases hkey : p.1 = key
    · rw [h.entry_eq hlookup hp hkey]
      rcases hend with hcause | hexpired
      · exact .inr (.inr ⟨cause, hcause, List.mem_cons_self⟩)
      · exact .inr (.inl hexpired)
    · refine .inl ⟨mem_delete.mpr ⟨hp, hkey⟩, fill0_other cause ?_⟩
      intro hsame
      have := List.inj_on_of_nodup_map h.values hp (lookup_mem hlookup) hsame
      exact hkey (by rw [this])
  zeroed := fun _ hz => List.mem_cons_of_mem _ hz

theorem evictKey_keeps (h : c.WF) {cause : Cause} (hcause : Cause.isAnnounced cause = true) :
    Keeps latest c (c.evictKey cause key).2 := by
  unfold evictKey
  split
  · exact .refl h
  · rename_i entry hlookup
    exact evict_keeps h hlookup (.inl hcause)

theorem get_keeps (h : c.WF) {now : ℚ} (hnow : now ≤ latest) :
    Keeps latest c (c.get now key).2 := by
  unfold get
  split
  · exact .refl h
  · rename_i entry hlookup
    split
    · rename_i hexpired
      simp only [evictKey, hlookup]
      exact evict_keeps h hlookup (.inr (hexpired.trans hnow))
    · -- the entry moves to the end
      have hother : ∀ p ∈ (c.delete key).entries, p.2.value ≠ entry.value := by
        intro p hp hsame
        obtain ⟨hp, hkey⟩ := mem_delete.mp hp
        have := List.inj_on_of_nodup_map h.values hp (lookup_mem hlookup) hsame
        exact hkey (by rw [this])
      refine ⟨(h.delete key).append (fun p hp => (mem_delete.mp hp).2) hother
        (h.allocated _ (lookup_mem hlookup)), ?_, fun _ hz => hz⟩
      intro p hp
      refine .inl ⟨?_, rfl⟩
      by_cases hkey : p.1 = key
      · rw [h.entry_eq hlookup hp hkey]
        exact List.mem_append_right _ List.mem_cons_self
      · exact List.mem_append_left _ (mem_delete.mpr ⟨hp, hkey⟩)

theorem evictOldest_keeps (limit : ℚ) (n : Nat) (h : c.WF) :
    Keeps latest c (evictOldest limit n c) := by
  induction n generalizing c with
  | zero => exact .refl h
  | succ n ih =>
      unfold evictOldest
      split
      · exact .refl h
      · rename_i oldest _ _ _
        split
        · have hone : Keeps latest c (c.evictKey .overflow oldest).2 := evictKey_keeps h rfl
          exact hone.trans (ih hone.wf)
        · exact .refl h

theorem alloc_keeps (h : c.WF) (bytes : List UInt8) : Keeps latest c (c.alloc bytes).2 where
  wf := by
    refine ⟨h.keys, h.values, ?_⟩
    intro p hp
    have := h.allocated p hp
    simp only [alloc, List.length_append, List.length_singleton]
    omega
  kept := fun p hp => .inl ⟨hp, List.getElem?_append_left (h.allocated p hp)⟩
  zeroed := fun _ hz => hz

/-- The condition under which `set` zeroes no buffer before its time. -/
def Vacant (latest : ℚ) (key : String) (c : SecretCache) : Prop :=
  ∀ entry, c.entries.lookup key = some entry → entry.expiresAt ≤ latest

theorem replace_keeps (h : c.WF) (hvacant : c.Vacant latest key) :
    Keeps latest c (c.replace key) := by
  unfold replace
  split
  · exact .refl h
  · rename_i existing hlookup
    exact evict_keeps h hlookup (.inr (hvacant existing hlookup))

theorem replace_key {p : String × Entry} (hp : p ∈ (c.replace key).entries) :
    p ∈ c.entries ∧ p.1 ≠ key := by
  unfold replace at hp
  split at hp
  · rename_i hlookup
    exact ⟨hp, lookup_none hlookup hp⟩
  · exact mem_delete.mp hp

theorem replace_buffers_length : (c.replace key).buffers.length = c.buffers.length := by
  unfold replace
  split
  · rfl
  · simp [fill0]

theorem replace_buffer {value : Nat} (hvalue : ∀ p ∈ c.entries, p.2.value ≠ value) :
    (c.replace key).buffers[value]? = c.buffers[value]? := by
  unfold replace
  split
  · rfl
  · rename_i existing hlookup
    exact fill0_other .replaced (hvalue _ (lookup_mem hlookup)).symm

/-- What `set` does with a buffer that no entry has: the other entries keep
theirs, and so does the new one, unless it is evicted at once. -/
theorem set_keeps (h : c.WF) (hvacant : c.Vacant latest key) (options : SecretCacheOptions)
    (now : ℚ) {value : Nat} (hvalue : ∀ p ∈ c.entries, p.2.value ≠ value)
    (hlt : value < c.buffers.length) :
    Keeps latest c (c.set options now key value) ∧
      (((key, ⟨value, now + options.ttlMs⟩) ∈ (c.set options now key value).entries ∧
        (c.set options now key value).buffers[value]? = c.buffers[value]?) ∨
          (c.set options now key value).Over latest value (now + options.ttlMs)) := by
  have hfirst : Keeps latest c (c.replace key) := replace_keeps h hvacant
  have hput : Keeps latest (c.replace key)
      ((c.replace key).append key ⟨value, now + options.ttlMs⟩) :=
    ⟨hfirst.wf.append (fun p hp => (replace_key hp).2) (fun p hp => hvalue p (replace_key hp).1)
      (by rwa [replace_buffers_length]),
      fun p hp => .inl ⟨List.mem_append_left _ hp, rfl⟩, fun _ hz => hz⟩
  have hlast : Keeps latest _ (c.set options now key value) :=
    evictOldest_keeps options.limit _ hput.wf
  refine ⟨(hfirst.trans hput).trans hlast, ?_⟩
  have hnew := hlast.kept (key, ⟨value, now + options.ttlMs⟩)
    (List.mem_append_right _ List.mem_cons_self)
  rcases hnew with ⟨hmem, hbuf⟩ | hover
  · exact .inl ⟨hmem, hbuf.trans (replace_buffer hvalue)⟩
  · exact .inr hover

/-! ## No entry comes from elsewhere -/

theorem evictKey_entries {cause : Cause} :
    ∀ p ∈ (c.evictKey cause key).2.entries, p ∈ c.entries := by
  intro p hp
  unfold evictKey at hp
  split at hp
  · exact hp
  · exact (mem_delete.mp hp).1

theorem get_entries {now : ℚ} : ∀ p ∈ (c.get now key).2.entries, p ∈ c.entries := by
  intro p hp
  unfold get at hp
  split at hp
  · exact hp
  · rename_i entry hlookup
    split at hp
    · exact evictKey_entries p hp
    · rcases List.mem_append.mp hp with hp | hp
      · exact (mem_delete.mp hp).1
      · rw [List.mem_singleton.mp hp]
        exact lookup_mem hlookup

/-- What a hit returns is the buffer of the key's entry. -/
theorem get_hit {now : ℚ} {value : Nat} (h : (c.get now key).1 = some value) :
    ∃ entry, (key, entry) ∈ c.entries ∧ entry.value = value := by
  unfold get at h
  split at h
  · cases h
  · rename_i entry hlookup
    split at h
    · cases h
    · exact ⟨entry, lookup_mem hlookup, Option.some.inj h⟩

theorem evictOldest_entries (limit : ℚ) (n : Nat) (c : SecretCache) :
    ∀ p ∈ (evictOldest limit n c).entries, p ∈ c.entries := by
  induction n generalizing c with
  | zero => exact fun _ hp => hp
  | succ n ih =>
      intro p hp
      unfold evictOldest at hp
      split at hp
      · exact hp
      · split at hp
        · exact evictKey_entries p (ih _ p hp)
        · exact hp

theorem set_entries {options : SecretCacheOptions} {now : ℚ} {value : Nat} :
    ∀ p ∈ (c.set options now key value).entries,
      p ∈ c.entries ∨ p = (key, ⟨value, now + options.ttlMs⟩) := by
  intro p hp
  rcases List.mem_append.mp (evictOldest_entries _ _ _ p hp) with hp | hp
  · exact .inl (replace_key hp).1
  · exact .inr (List.mem_singleton.mp hp)

theorem foldl_zeroed (entries : List (String × Entry)) (c : SecretCache) :
    (∀ z ∈ c.zeroed, z ∈ (entries.foldl (fun c p => c.fill0 .cleared p.2.value) c).zeroed) ∧
      ∀ p ∈ entries, (p.2.value, Cause.cleared) ∈
        (entries.foldl (fun c p => c.fill0 .cleared p.2.value) c).zeroed := by
  induction entries generalizing c with
  | nil => simp
  | cons q entries ih =>
      obtain ⟨hold, hnew⟩ := ih (c.fill0 .cleared q.2.value)
      refine ⟨fun z hz => hold z (List.mem_cons_of_mem _ hz), ?_⟩
      intro p hp
      rcases List.mem_cons.mp hp with rfl | hp
      · exact hold _ List.mem_cons_self
      · exact hnew p hp

theorem clear_keeps : Keeps latest c c.clear where
  wf := ⟨List.nodup_nil, List.nodup_nil, by simp [clear]⟩
  kept := by
    intro p hp
    exact .inr (.inr ⟨.cleared, rfl, (foldl_zeroed c.entries c).2 p hp⟩)
  zeroed := (foldl_zeroed c.entries c).1

end SecretCache

end SaasFoundation.Foundation.Secrets
