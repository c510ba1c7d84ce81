import SaasFoundation.Foundation.Secrets.SecretCache
import SaasFoundation.Lib.Lru

/-!
# `SecretCache` is an LRU cache with a time to live

The `Map` of the cache lists the cells of the abstract cache in the order of
their use. On the heap, the buffers of its entries are as they were handed
over, and those that have left it are zero.
-/

namespace SaasFoundation.Foundation.Secrets

open Lib

namespace SecretCache

def size (c : SecretCache) : Nat := c.entries.length

/-- One operation at a time; `set` takes the address of a buffer. -/
def step (options : SecretCacheOptions) (c : SecretCache) : ℚ × CacheOp String Nat → SecretCache
  | (now, .get key) => (c.get now key).2
  | (now, .set key value) => c.set options now key value
  | (_, .invalidate key) => (c.invalidate key).2
  | (_, .clear) => c.clear

def run (options : SecretCacheOptions) (c : SecretCache) (ops : List (ℚ × CacheOp String Nat)) :
    SecretCache :=
  ops.foldl (step options) c

/-- A new cache, on a heap that has buffers already. -/
def start (buffers : List (List UInt8)) : SecretCache := ⟨buffers, [], []⟩

/-- The buffers that are handed over. -/
def handed (ops : List (ℚ × CacheOp String Nat)) : List Nat :=
  ops.filterMap fun op =>
    match op.2 with
    | .set _ value => some value
    | _ => none

/-! ## The order of use -/

/-- The entry of a cell. -/
def entryOf (options : SecretCacheOptions) (p : String × Cell Nat ℚ) : String × Entry :=
  (p.1, ⟨p.2.value, p.2.setAt + options.ttlMs⟩)

/-- The entries are the cells in the order of their use. -/
def Represents (options : SecretCacheOptions) (c : SecretCache) (s : Lru String Nat ℚ) : Prop :=
  ∃ l, Lru.Lists l s ∧ c.entries = l.map (entryOf options)

section Order

variable {options : SecretCacheOptions} {c : SecretCache} {s : Lru String Nat ℚ} {key : String}
  {now : ℚ}

theorem Represents.lookup (h : Represents options c s) (key : String) :
    c.entries.lookup key =
      (s.held key).map fun cell => ⟨cell.value, cell.setAt + options.ttlMs⟩ := by
  obtain ⟨l, hl, hentries⟩ := h
  cases hlookup : c.entries.lookup key with
  | none =>
      cases hcell : s.held key with
      | none => rfl
      | some cell =>
          have hmem : entryOf options (key, cell) ∈ c.entries := by
            rw [hentries]
            exact List.mem_map_of_mem ((hl.held key cell).mp hcell)
          exact absurd rfl (lookup_none hlookup hmem)
  | some entry =>
      have hmem := lookup_mem hlookup
      rw [hentries] at hmem
      obtain ⟨p, hp, hentry⟩ := List.mem_map.mp hmem
      cases hentry
      rw [(hl.held p.1 p.2).mpr hp]
      rfl

theorem delete_map (l : List (String × Cell Nat ℚ)) :
    (l.map (entryOf options)).filter (fun p => p.1 ≠ key) =
      (l.filter fun p => p.1 ≠ key).map (entryOf options) := by
  rw [List.filter_map]
  rfl

theorem Represents.erase (h : Represents options c s) {c' : SecretCache}
    (hentries : c'.entries = c.entries.filter fun p => p.1 ≠ key) :
    Represents options c' ⟨s.held.erase key, s.uses⟩ := by
  obtain ⟨l, hl, hc⟩ := h
  exact ⟨_, hl.erase key, by rw [hentries, hc, delete_map]⟩

theorem Represents.put (h : Represents options c s) {value : Nat} {setAt : ℚ} {c' : SecretCache}
    (hentries : c'.entries = c.entries.filter (fun p => p.1 ≠ key) ++
      [(key, ⟨value, setAt + options.ttlMs⟩)]) :
    Represents options c' ⟨s.held.put key ⟨value, setAt, s.uses⟩, s.uses + 1⟩ := by
  obtain ⟨l, hl, hc⟩ := h
  refine ⟨_, hl.put key value setAt, ?_⟩
  rw [hentries, hc, delete_map, List.map_append]
  rfl

theorem filter_absent (h : c.entries.lookup key = none) :
    c.entries = c.entries.filter fun p => p.1 ≠ key := by
  symm
  rw [List.filter_eq_self]
  intro p hp
  simpa using lookup_none h hp

theorem evictKey_filter (cause : Cause) (key : String) :
    (c.evictKey cause key).2.entries = c.entries.filter fun p => p.1 ≠ key := by
  unfold evictKey
  split
  · rename_i hnone
    exact filter_absent hnone
  · rfl

theorem replace_filter (key : String) :
    (c.replace key).entries = c.entries.filter fun p => p.1 ≠ key := by
  unfold replace
  split
  · rename_i hnone
    exact filter_absent hnone
  · rfl

/-- The oldest entries go, as long as there are too many. -/
theorem evictOldest_split (limit : ℚ) (n : Nat) (hn : c.entries.length ≤ n)
    (hkeys : (c.entries.map Prod.fst).Nodup) :
    ∃ front, c.entries = front ++ (evictOldest limit n c).entries ∧
      (((evictOldest limit n c).entries.length : ℚ) ≤ limit ∨ (evictOldest limit n c).entries = []) ∧
      (front ≠ [] → limit < (evictOldest limit n c).entries.length + 1) := by
  induction n generalizing c with
  | zero =>
      have hempty : c.entries = [] := List.length_eq_zero_iff.mp (Nat.le_zero.mp hn)
      exact ⟨[], rfl, .inr hempty, fun h => absurd rfl h⟩
  | succ n ih =>
      cases hentries : c.entries with
      | nil =>
          have hsame : evictOldest limit (n + 1) c = c := by simp [evictOldest, hentries]
          rw [hsame, hentries]
          exact ⟨[], rfl, .inr rfl, fun h => absurd rfl h⟩
      | cons oldest rest =>
          by_cases hmany : limit < c.entries.length
          · have hevict : (c.evictKey .overflow oldest.1).2.entries = rest := by
              rw [evictKey_filter, hentries]
              rw [hentries, List.map_cons, List.nodup_cons] at hkeys
              rw [List.filter_cons, if_neg (by simp), List.filter_eq_self]
              intro p hp
              have hne : p.1 ≠ oldest.1 := fun hsame =>
                hkeys.1 (hsame ▸ List.mem_map_of_mem hp)
              simpa using hne
            have hstep : evictOldest limit (n + 1) c =
                evictOldest limit n (c.evictKey .overflow oldest.1).2 := by
              simp only [evictOldest, hentries]
              rw [← hentries, if_pos hmany]
            rw [hentries, List.length_cons] at hn
            rw [hentries, List.map_cons, List.nodup_cons] at hkeys
            obtain ⟨front, hsplit, hback, hfront⟩ := ih (c := (c.evictKey .overflow oldest.1).2)
              (by rw [hevict]; omega) (by rw [hevict]; exact hkeys.2)
            rw [hevict] at hsplit
            rw [hstep]
            refine ⟨oldest :: front, by rw [List.cons_append, ← hsplit], hback, fun _ => ?_⟩
            cases front with
            | nil =>
                rw [List.nil_append] at hsplit
                rw [← hsplit]
                rw [hentries, List.length_cons] at hmany
                exact_mod_cast hmany
            | cons p front => exact hfront (List.cons_ne_nil p front)
          · have hsame : evictOldest limit (n + 1) c = c := by
              simp only [evictOldest, hentries]
              rw [← hentries, if_neg hmany]
            rw [hsame, hentries]
            rw [hentries] at hmany
            exact ⟨[], rfl, .inl (not_lt.mp hmany), fun h => absurd rfl h⟩

theorem Represents.keys (h : Represents options c s) : (c.entries.map Prod.fst).Nodup := by
  obtain ⟨l, hl, hc⟩ := h
  have hkeys := hl.keys
  rwa [hc, List.map_map]

theorem Represents.evictOverflow (h : Represents options c s) (limit : ℚ) :
    Represents options (c.evictOverflow limit) ⟨Lru.keepRecent limit s.held, s.uses⟩ := by
  obtain ⟨front, hsplit, hback, hfront⟩ := evictOldest_split limit c.entries.length le_rfl h.keys
  obtain ⟨l, hl, hc⟩ := h
  obtain ⟨old, recent, rfl, hold, hrecent⟩ := List.map_eq_append_iff.mp (hc.symm.trans hsplit)
  refine ⟨recent, hl.keepRecent ?_ ?_, hrecent.symm⟩
  · rcases hback with hback | hback
    · left
      rwa [← hrecent, List.length_map] at hback
    · right
      rwa [← hrecent, List.map_eq_nil_iff] at hback
  · intro hne
    have hmany := hfront (by rwa [← hold, ne_eq, List.map_eq_nil_iff])
    rwa [← hrecent, List.length_map] at hmany

/-- What a get returns. -/
theorem Represents.get_found (h : Represents options c s) :
    (c.get now key).1 = Lru.found options.ttlMs now s key := by
  unfold SecretCache.get Lru.found
  rw [h.lookup]
  cases s.held key with
  | none => rfl
  | some cell =>
      simp only [Option.map_some]
      split
      · rfl
      · rfl

theorem Represents.get (h : Represents options c s) :
    Represents options (c.get now key).2
      (Lru.step options.limit options.ttlMs s (now, .get key)) := by
  have hlookup := h.lookup key
  cases hcell : s.held key with
  | none =>
      rw [hcell] at hlookup
      rw [Lru.step_get_miss hcell]
      simpa [SecretCache.get, hlookup] using h
  | some cell =>
      rw [hcell, Option.map_some] at hlookup
      by_cases hexpired : cell.setAt + options.ttlMs ≤ now
      · rw [Lru.step_get_expired hcell hexpired]
        simp only [SecretCache.get, hlookup, if_pos hexpired]
        exact h.erase (evictKey_filter .expired key)
      · rw [Lru.step_get_hit hcell hexpired]
        simp only [SecretCache.get, hlookup, if_neg hexpired]
        exact h.put rfl

theorem Represents.step (h : Represents options c s) (op : ℚ × CacheOp String Nat) :
    Represents options (c.step options op) (Lru.step options.limit options.ttlMs s op) := by
  obtain ⟨now, op⟩ := op
  cases op with
  | get key => exact h.get
  | set key value =>
      have hput : Represents options ((c.replace key).append key ⟨value, now + options.ttlMs⟩)
          ⟨s.held.put key ⟨value, now, s.uses⟩, s.uses + 1⟩ := by
        refine h.put ?_
        rw [append, replace_filter]
      exact hput.evictOverflow options.limit
  | invalidate key => exact h.erase (evictKey_filter .invalidated key)
  | clear => exact ⟨[], Lru.lists_clear s.uses, rfl⟩

theorem Represents.run (h : Represents options c s) (ops : List (ℚ × CacheOp String Nat)) :
    Represents options (c.run options ops) (Lru.run options.limit options.ttlMs s ops) := by
  induction ops generalizing c s with
  | nil => exact h
  | cons op ops ih => exact ih (h.step op)

theorem start_represents (options : SecretCacheOptions) (buffers : List (List UInt8)) :
    Represents options (start buffers) Lru.empty := ⟨[], Lru.lists_clear 0, rfl⟩

end Order

/-! ## The heap -/

/-- The buffers of the entries are as they were, and what was handed over
and has left is zero. -/
structure Heap (buffers : List (List UInt8)) (given : List Nat) (c : SecretCache) : Prop where
  keys : (c.entries.map Prod.fst).Nodup
  values : (c.entries.map fun p => p.2.value).Nodup
  mem_given : ∀ p ∈ c.entries, p.2.value ∈ given
  intact : ∀ p ∈ c.entries, c.buffers[p.2.value]? = buffers[p.2.value]?
  zero : ∀ a ∈ given, (∀ p ∈ c.entries, p.2.value ≠ a) →
    c.buffers[a]? = buffers[a]?.map (List.map fun _ => 0)
  other : ∀ a ∉ given, c.buffers[a]? = buffers[a]?

section Heap

variable {options : SecretCacheOptions} {c : SecretCache} {key : String} {now : ℚ}
  {buffers : List (List UInt8)} {given : List Nat}

theorem start_heap (buffers : List (List UInt8)) : Heap buffers [] (start buffers) where
  keys := List.nodup_nil
  values := List.nodup_nil
  mem_given := fun _ hp => nomatch hp
  intact := fun _ hp => nomatch hp
  zero := fun _ ha => nomatch ha
  other := fun _ _ => rfl

theorem fill0_self (cause : Cause) (value : Nat) :
    (c.fill0 cause value).buffers[value]? = c.buffers[value]?.map (List.map fun _ => 0) := by
  simp [fill0]

theorem Heap.entry_eq (h : Heap buffers given c) {p : String × Entry} {entry : Entry}
    (hlookup : c.entries.lookup key = some entry) (hp : p ∈ c.entries) (hkey : p.1 = key) :
    p = (key, entry) :=
  List.inj_on_of_nodup_map h.keys hp (lookup_mem hlookup) hkey

/-- An entry goes, and its buffer is zeroed. -/
theorem Heap.evict (h : Heap buffers given c) (cause : Cause) {entry : Entry}
    (hlookup : c.entries.lookup key = some entry) :
    Heap buffers given ((c.fill0 cause entry.value).delete key) where
  keys := h.keys.sublist (List.filter_sublist.map _)
  values := h.values.sublist (List.filter_sublist.map _)
  mem_given := fun p hp => h.mem_given p (mem_delete.mp hp).1
  intact := by
    intro p hp
    obtain ⟨hp, hkey⟩ := mem_delete.mp hp
    have hother : p.2.value ≠ entry.value := by
      intro hsame
      have hentry := List.inj_on_of_nodup_map h.values hp (lookup_mem hlookup) hsame
      exact hkey (congrArg Prod.fst hentry)
    exact (fill0_other cause hother).trans (h.intact p hp)
  zero := by
    intro a ha hgone
    by_cases hvalue : a = entry.value
    · subst hvalue
      exact (fill0_self cause _).trans (congrArg _ (h.intact _ (lookup_mem hlookup)))
    · refine (fill0_other cause hvalue).trans (h.zero a ha fun p hp hpa => ?_)
      by_cases hkey : p.1 = key
      · rw [h.entry_eq hlookup hp hkey] at hpa
        exact hvalue hpa.symm
      · exact hgone p (mem_delete.mpr ⟨hp, hkey⟩) hpa
  other := by
    intro a ha
    have hvalue : a ≠ entry.value := fun hsame => ha (hsame ▸ h.mem_given _ (lookup_mem hlookup))
    exact (fill0_other cause hvalue).trans (h.other a ha)

theorem Heap.evictKey (h : Heap buffers given c) (cause : Cause) (key : String) :
    Heap buffers given (c.evictKey cause key).2 := by
  unfold SecretCache.evictKey
  split
  · exact h
  · rename_i entry hlookup
    exact h.evict cause hlookup

theorem Heap.replace (h : Heap buffers given c) (key : String) :
    Heap buffers given (c.replace key) := by
  unfold SecretCache.replace
  split
  · exact h
  · rename_i existing hlookup
    exact h.evict .replaced hlookup

theorem Heap.evictOldest (h : Heap buffers given c) (limit : ℚ) (n : Nat) :
    Heap buffers given (evictOldest limit n c) := by
  induction n generalizing c with
  | zero => exact h
  | succ n ih =>
      unfold SecretCache.evictOldest
      split
      · exact h
      · rename_i oldest _ _ _
        split
        · exact ih (h.evictKey .overflow oldest)
        · exact h

/-- A buffer that is new to the cache comes in. -/
theorem Heap.append (h : Heap buffers given c) {value : Nat} {expiresAt : ℚ}
    (hkey : ∀ p ∈ c.entries, p.1 ≠ key) (hnew : value ∉ given) :
    Heap buffers (given ++ [value]) (c.append key ⟨value, expiresAt⟩) where
  keys := by
    rw [SecretCache.append, List.map_append, List.map_singleton]
    refine h.keys.append (List.nodup_singleton _) ?_
    intro k hk hk'
    obtain ⟨p, hp, rfl⟩ := List.mem_map.mp hk
    exact hkey p hp (List.mem_singleton.mp hk')
  values := by
    rw [SecretCache.append, List.map_append, List.map_singleton]
    refine h.values.append (List.nodup_singleton _) ?_
    intro a ha ha'
    obtain ⟨p, hp, rfl⟩ := List.mem_map.mp ha
    have hsame : p.2.value = value := List.mem_singleton.mp ha'
    exact hnew (hsame ▸ h.mem_given p hp)
  mem_given := by
    intro p hp
    rcases List.mem_append.mp hp with hp | hp
    · exact List.mem_append_left _ (h.mem_given p hp)
    · rw [List.mem_singleton.mp hp]
      exact List.mem_append_right _ (List.mem_singleton_self value)
  intact := by
    intro p hp
    rcases List.mem_append.mp hp with hp | hp
    · exact h.intact p hp
    · rw [List.mem_singleton.mp hp]
      exact h.other value hnew
  zero := by
    intro a ha hgone
    rcases List.mem_append.mp ha with ha | ha
    · exact h.zero a ha fun p hp => hgone p (List.mem_append_left _ hp)
    · have hin := hgone (key, ⟨value, expiresAt⟩)
        (List.mem_append_right _ (List.mem_singleton_self _))
      exact absurd (List.mem_singleton.mp ha).symm hin
  other := fun a ha => h.other a fun hmem => ha (List.mem_append_left _ hmem)

/-- A hit moves an entry to the end. -/
theorem touch_perm {entry : Entry} (hkeys : (c.entries.map Prod.fst).Nodup)
    (hlookup : c.entries.lookup key = some entry) :
    ((c.delete key).append key entry).entries.Perm c.entries := by
  obtain ⟨before, after, hsplit⟩ := List.append_of_mem (lookup_mem hlookup)
  rw [hsplit, List.map_append, List.map_cons, List.nodup_middle, List.nodup_cons,
    List.mem_append] at hkeys
  have hothers : (c.delete key).entries = before ++ after := by
    rw [delete, hsplit, List.filter_append, List.filter_cons, if_neg (by simp)]
    have hkeep : ∀ l : List (String × Entry), key ∉ l.map Prod.fst →
        l.filter (fun p => p.1 ≠ key) = l := by
      intro l hl
      rw [List.filter_eq_self]
      intro p hp
      simpa using fun hsame : p.1 = key => hl (hsame ▸ List.mem_map_of_mem hp)
    rw [hkeep before fun hmem => hkeys.1 (.inl hmem), hkeep after fun hmem => hkeys.1 (.inr hmem)]
  rw [SecretCache.append, hothers, hsplit, List.append_assoc]
  exact (List.perm_append_singleton _ after).append_left before

/-- A hit changes the order only. -/
theorem Heap.touch (h : Heap buffers given c) {entry : Entry}
    (hlookup : c.entries.lookup key = some entry) :
    Heap buffers given ((c.delete key).append key entry) := by
  have hperm := touch_perm h.keys hlookup
  exact ⟨(hperm.map _).nodup_iff.mpr h.keys, (hperm.map _).nodup_iff.mpr h.values,
    fun p hp => h.mem_given p (hperm.mem_iff.mp hp), fun p hp => h.intact p (hperm.mem_iff.mp hp),
    fun a ha hgone => h.zero a ha fun p hp => hgone p (hperm.mem_iff.mpr hp), h.other⟩

theorem Heap.get (h : Heap buffers given c) : Heap buffers given (c.get now key).2 := by
  unfold SecretCache.get
  split
  · exact h
  · rename_i entry hlookup
    split
    · exact h.evictKey .expired key
    · exact h.touch hlookup

theorem foldl_fill0 (entries : List (String × Entry)) (c : SecretCache) (a : Nat) :
    (entries.foldl (fun c p => c.fill0 .cleared p.2.value) c).buffers[a]? =
      if a ∈ entries.map (fun p => p.2.value) then c.buffers[a]?.map (List.map fun _ => 0)
      else c.buffers[a]? := by
  induction entries generalizing c with
  | nil => simp
  | cons p entries ih =>
      rw [List.foldl_cons, ih]
      by_cases hp : a = p.2.value
      · subst hp
        rw [fill0_self, List.map_cons, if_pos List.mem_cons_self]
        cases c.buffers[p.2.value]? with
        | none => simp
        | some bytes => simp
      · rw [fill0_other .cleared hp, List.map_cons]
        simp only [List.mem_cons, hp, false_or]

theorem Heap.clear (h : Heap buffers given c) : Heap buffers given c.clear where
  keys := List.nodup_nil
  values := List.nodup_nil
  mem_given := fun _ hp => nomatch hp
  intact := fun _ hp => nomatch hp
  zero := by
    intro a ha _
    refine (foldl_fill0 c.entries c a).trans ?_
    split
    · rename_i hmem
      obtain ⟨p, hp, rfl⟩ := List.mem_map.mp hmem
      rw [h.intact p hp]
    · rename_i hmem
      refine h.zero a ha fun p hp hpa => hmem ?_
      exact hpa ▸ List.mem_map_of_mem hp
  other := by
    intro a ha
    refine (foldl_fill0 c.entries c a).trans ?_
    rw [if_neg, h.other a ha]
    intro hmem
    obtain ⟨p, hp, rfl⟩ := List.mem_map.mp hmem
    exact ha (h.mem_given p hp)

theorem Heap.step (h : Heap buffers given c) {op : ℚ × CacheOp String Nat}
    (hnew : ∀ value ∈ handed [op], value ∉ given) :
    Heap buffers (given ++ handed [op]) (c.step options op) := by
  obtain ⟨now, op⟩ := op
  cases op with
  | get key => simpa [handed, SecretCache.step] using h.get
  | set key value =>
      have hput : Heap buffers (given ++ [value])
          ((c.replace key).append key ⟨value, now + options.ttlMs⟩) :=
        (h.replace key).append (fun p hp => (replace_key hp).2)
          (hnew value (List.mem_singleton_self value))
      exact hput.evictOldest options.limit _
  | invalidate key => simpa [handed, SecretCache.step, invalidate] using h.evictKey .invalidated key
  | clear => simpa [handed, SecretCache.step] using h.clear

theorem Heap.run (ops : List (ℚ × CacheOp String Nat)) (hdistinct : (handed ops).Nodup) :
    Heap buffers (handed ops) ((start buffers).run options ops) := by
  induction ops using List.reverseRecOn with
  | nil => exact start_heap buffers
  | append_singleton ops op ih =>
      have hsplit : handed (ops ++ [op]) = handed ops ++ handed [op] := List.filterMap_append
      rw [hsplit] at hdistinct ⊢
      obtain ⟨hfirst, -, hdisjoint⟩ := List.nodup_append.mp hdistinct
      rw [SecretCache.run, List.foldl_append]
      exact (ih hfirst).step fun value hvalue hmem => hdisjoint value hmem value hvalue rfl

end Heap

/-! ## Histories -/

/-- What is true after a history. -/
structure Refines (options : SecretCacheOptions) (buffers : List (List UInt8))
    (ops : List (ℚ × CacheOp String Nat)) : Prop where
  found : ∀ now key value, (∀ op ∈ ops, op.1 ≤ now) →
    ((((start buffers).run options ops).get now key).1 = some value ↔
      Lru.Live options.limit options.ttlMs ops now key value)
  size : (((start buffers).run options ops).size : ℚ) ≤ options.limit
  left : ∀ a ∈ handed ops, (∀ p ∈ ((start buffers).run options ops).entries, p.2.value ≠ a) →
    ((start buffers).run options ops).buffers[a]? = buffers[a]?.map (List.map fun _ => 0)
  held : ∀ p ∈ ((start buffers).run options ops).entries,
    ((start buffers).run options ops).buffers[p.2.value]? = buffers[p.2.value]?

section Histories

variable {options : SecretCacheOptions} {c : SecretCache}

theorem size_get (hkeys : (c.entries.map Prod.fst).Nodup) (now : ℚ) (key : String) :
    (c.get now key).2.size ≤ c.size := by
  unfold SecretCache.get
  split
  · exact le_rfl
  · rename_i entry hlookup
    split
    · rw [size, evictKey_filter]
      exact List.length_filter_le _ _
    · exact (touch_perm hkeys hlookup).length_eq.le

theorem size_set (hkeys : (c.entries.map Prod.fst).Nodup) (hlimit : 0 ≤ options.limit) (now : ℚ)
    (key : String) (value : Nat) : ((c.set options now key value).size : ℚ) ≤ options.limit := by
  have hput : (((c.replace key).append key
      ⟨value, now + options.ttlMs⟩).entries.map Prod.fst).Nodup := by
    rw [append, replace_filter, List.map_append, List.map_singleton]
    refine (hkeys.sublist (List.filter_sublist.map _)).append (List.nodup_singleton _) ?_
    intro k hk hk'
    obtain ⟨p, hp, rfl⟩ := List.mem_map.mp hk
    exact of_decide_eq_true (List.mem_filter.mp hp).2 (List.mem_singleton.mp hk')
  obtain ⟨front, -, hsize | hempty, -⟩ := evictOldest_split options.limit _ le_rfl hput
  · exact hsize
  · rw [SecretCache.set, size, evictOverflow, hempty]
    exact_mod_cast hlimit

theorem size_run (hlimit : 0 ≤ options.limit) (buffers : List (List UInt8))
    (ops : List (ℚ × CacheOp String Nat)) :
    (((start buffers).run options ops).size : ℚ) ≤ options.limit := by
  induction ops using List.reverseRecOn with
  | nil => exact_mod_cast hlimit
  | append_singleton ops op ih =>
      have hkeys := ((start_represents options buffers).run ops).keys
      have hless : ∀ c' : SecretCache, c'.size ≤ ((start buffers).run options ops).size →
          (c'.size : ℚ) ≤ options.limit := fun c' hc' => le_trans (by exact_mod_cast hc') ih
      rw [SecretCache.run, List.foldl_append]
      obtain ⟨now, op⟩ := op
      cases op with
      | get key => exact hless _ (size_get hkeys now key)
      | set key value => exact size_set hkeys hlimit now key value
      | invalidate key =>
          refine hless _ ?_
          show (SecretCache.evictKey _ .invalidated key).2.size ≤ _
          rw [size, evictKey_filter]
          exact List.length_filter_le _ _
      | clear => exact hless _ (Nat.zero_le _)

end Histories

/-- Every history that hands over each buffer once. -/
theorem cache_refines_lru (options : SecretCacheOptions) (buffers : List (List UInt8))
    (ops : List (ℚ × CacheOp String Nat)) (hlimit : 1 ≤ options.limit)
    (hdistinct : (handed ops).Nodup) : Refines options buffers ops where
  found := by
    intro now key value hclock
    rw [((start_represents options buffers).run ops).get_found]
    exact Lru.found_iff_live hlimit hclock
  size := size_run (le_trans zero_le_one hlimit) buffers ops
  left := (Heap.run ops hdistinct).zero
  held := (Heap.run ops hdistinct).intact

namespace Small

/-- Room for one entry: the second set evicts the first. -/
theorem cache_refines_lru_evicts :
    Refines ⟨some 1, none⟩ [[115], [116]] [(0, .set "db" 0), (1, .set "api" 1)] :=
  cache_refines_lru ⟨some 1, none⟩ [[115], [116]] [(0, .set "db" 0), (1, .set "api" 1)]
    (le_refl (1 : ℚ)) (by decide)

end Small

end SecretCache

end SaasFoundation.Foundation.Secrets
