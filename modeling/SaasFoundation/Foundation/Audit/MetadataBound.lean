import SaasFoundation.Foundation.Audit.AuditLog
import SaasFoundation.Lib.Fitting

/-!
# The bound on the metadata

What the loop drops: the longest ending of the entries, ordered by their size,
that fits. The mark that says so is set afterwards and is not counted, so the
persisted metadata keep the bound exactly where it leaves room for the mark.
-/

namespace SaasFoundation.Foundation.Audit

open Lib Lib.JsonText

variable {N : Type} {entries front ahead : List (Entry N)} {dropped : List String}

/-! ## What is rebuilt -/

def Entry.property (e : Entry N) : String × JsonValue N := (e.key, e.value)

/-- The properties of a rebuilt object are those that were not dropped. -/
theorem rebuild_properties (hnodup : ((entries.map Entry.property).map Prod.fst).Nodup)
    (hproto : JsObject.proto ∉ (entries.map Entry.property).map Prod.fst) :
    (rebuild entries dropped).properties =
      (entries.map Entry.property).filter fun q => q.1 ∉ dropped := by
  have hfold : rebuild entries dropped =
      ((entries.map Entry.property).filter fun q => q.1 ∉ dropped).foldl
        (fun o q => o.assign q.1 q.2) .empty := by
    rw [List.foldl_filter, List.foldl_map, rebuild]
    congr 1
    funext acc e
    by_cases he : e.key ∈ dropped <;> simp [Entry.property, he]
  rw [hfold, JsObject.assignAll_properties, List.filter_eq_self]
  · intro q hq
    have hne : q.1 ≠ JsObject.proto := by
      rintro hq'
      exact hproto (hq' ▸ List.mem_map_of_mem (List.mem_of_mem_filter hq))
    simpa using hne
  · exact hnodup.sublist (List.filter_sublist.map _)

theorem filter_ahead {α : Type} {l front ahead : List (String × α)} (hsplit : front ++ ahead = l)
    (hnodup : (l.map Prod.fst).Nodup) : l.filter (fun q => q.1 ∉ front.map Prod.fst) = ahead := by
  subst hsplit
  rw [List.map_append, List.nodup_append] at hnodup
  have hfront : front.filter (fun q => q.1 ∉ front.map Prod.fst) = [] := by
    rw [List.filter_eq_nil_iff]
    intro q hq
    have hmem := List.mem_map_of_mem (f := Prod.fst) hq
    simpa using hmem
  have hahead : ahead.filter (fun q => q.1 ∉ front.map Prod.fst) = ahead := by
    rw [List.filter_eq_self]
    intro q hq
    rw [decide_eq_true_eq]
    exact fun hmem => hnodup.2.2 q.1 hmem q.1 (List.mem_map_of_mem hq) rfl
  rw [List.filter_append, hfront, hahead, List.nil_append]

/-- When the loop has dropped the keys behind it, what is ahead is left. -/
theorem rebuild_ahead (hnodup : (((front ++ ahead).map Entry.property).map Prod.fst).Nodup)
    (hproto : JsObject.proto ∉ ((front ++ ahead).map Entry.property).map Prod.fst) :
    (rebuild (front ++ ahead) ((front.map Entry.property).map Prod.fst)).properties =
      ahead.map Entry.property := by
  rw [rebuild_properties hnodup hproto]
  exact filter_ahead List.map_append.symm hnodup

theorem withMarker_true (metadata : JsObject (JsonValue N)) :
    withMarker metadata true = metadata.define truncatedMarker (.bool true) := by
  rw [withMarker, if_pos rfl, JsObject.spread_empty]

variable [JsNumbers N] {metadata : JsObject (JsonValue N)} {maxBytes : WithTop ℚ}

theorem encodedSize_define (name : String) (v : JsonValue N) :
    encodedSize (metadata.define name v) =
      jsonSize (.obj (setProperty name v metadata.properties)) := rfl

/-! ## The order of the entries -/

theorem Fits.mono {m n : Nat} (h : Fits maxBytes n) (hle : m ≤ n) : Fits maxBytes m := by
  have hcast : (m : ℚ) ≤ n := by exact_mod_cast hle
  exact le_trans (WithTop.coe_le_coe.mpr hcast) h

/-- The properties, the largest first. -/
def bySize (metadata : JsObject (JsonValue N)) : List (String × JsonValue N) :=
  (sizedEntries metadata).map Entry.property

theorem bySize_perm (metadata : JsObject (JsonValue N)) :
    (bySize metadata).Perm metadata.properties := by
  have hsort := (List.mergeSort_perm (metadata.properties.map fun q =>
    (⟨q.1, q.2, jsonSize (.obj [q])⟩ : Entry N)) fun a b => decide (b.size ≤ a.size)).map
      Entry.property
  rw [List.map_map] at hsort
  have hid : Entry.property ∘ (fun q : String × JsonValue N =>
      (⟨q.1, q.2, jsonSize (.obj [q])⟩ : Entry N)) = id := rfl
  rw [hid, List.map_id] at hsort
  exact hsort

theorem bySize_sorted (metadata : JsObject (JsonValue N)) :
    (bySize metadata).Pairwise fun a b => jsonSize (.obj [b]) ≤ jsonSize (.obj [a]) := by
  have hsize : ∀ e ∈ sizedEntries metadata, e.size = jsonSize (.obj [e.property]) := by
    intro e he
    rw [sizedEntries, List.mem_mergeSort] at he
    obtain ⟨q, -, rfl⟩ := List.mem_map.mp he
    rfl
  have hsorted : (sizedEntries metadata).Pairwise fun a b => decide (b.size ≤ a.size) = true := by
    apply List.pairwise_mergeSort
    · intro a b c hab hbc
      simp only [decide_eq_true_eq] at hab hbc ⊢
      omega
    · intro a b
      simp only [Bool.or_eq_true, decide_eq_true_eq]
      omega
  rw [bySize, List.pairwise_map]
  refine hsorted.imp_of_mem fun {a b} ha hb hab => ?_
  rw [← hsize a ha, ← hsize b hb]
  exact of_decide_eq_true hab

theorem bySize_nodup (metadata : JsObject (JsonValue N)) :
    ((bySize metadata).map Prod.fst).Nodup :=
  ((bySize_perm metadata).map Prod.fst).nodup_iff.mpr metadata.distinct

/-! ## The loop -/

/-- An object with these properties fits. -/
def fitsAs (maxBytes : WithTop ℚ) (qs : List (String × JsonValue N)) : Bool :=
  decide (Fits maxBytes (jsonSize (.obj qs)))

theorem dropLargest_eq (front : List (Entry N))
    (hnodup : (((front ++ ahead).map Entry.property).map Prod.fst).Nodup)
    (hproto : JsObject.proto ∉ ((front ++ ahead).map Entry.property).map Prod.fst) :
    dropLargest maxBytes (front ++ ahead) ahead ((front.map Entry.property).map Prod.fst) =
      (front.map Entry.property).map Prod.fst ++
        (droppedToFit (fitsAs maxBytes) (ahead.map Entry.property)).map Prod.fst := by
  induction ahead generalizing front with
  | nil => rw [dropLargest, List.map_nil, droppedToFit, List.map_nil, List.append_nil]
  | cons e ahead ih =>
      have hleft := rebuild_ahead hnodup hproto
      have hmove : front ++ e :: ahead = (front ++ [e]) ++ ahead := by simp
      rw [dropLargest, List.map_cons, droppedToFit]
      simp only [encodedSize, hleft, List.map_cons, fitsAs, decide_eq_true_eq]
      split
      · simp
      · rw [hmove] at hnodup hproto ⊢
        have hrest := ih (front ++ [e]) hnodup hproto
        have hkeys : (front.map Entry.property).map Prod.fst ++ [e.key] =
            ((front ++ [e]).map Entry.property).map Prod.fst := by
          simp [Entry.property]
        rw [hkeys, hrest, List.map_cons]
        simp

section Kept

variable {log : AuditLog} (hproto : JsObject.proto ∉ metadata.names)
include hproto

theorem proto_bySize : JsObject.proto ∉ (bySize metadata).map Prod.fst :=
  fun hmem => hproto (((bySize_perm metadata).map Prod.fst).mem_iff.mp hmem)

theorem droppedKeys_eq (log : AuditLog) : log.droppedKeys metadata =
    (droppedToFit (fitsAs log.metadataMaxBytes) (bySize metadata)).map Prod.fst :=
  dropLargest_eq [] (bySize_nodup metadata) (proto_bySize hproto)

/-- The longest ending that fits is kept. -/
theorem rebuild_droppedKeys :
    (rebuild (sizedEntries metadata) (log.droppedKeys metadata)).properties =
      dropToFit (fitsAs log.metadataMaxBytes) (bySize metadata) := by
  have hsplit := dropped_append_dropToFit (fitsAs log.metadataMaxBytes) (bySize metadata)
  rw [rebuild_properties (bySize_nodup metadata) (proto_bySize hproto), droppedKeys_eq hproto]
  exact filter_ahead hsplit (bySize_nodup metadata)

end Kept

/-! ## The size check -/

section Enforced

variable {p : Platform N} {log : AuditLog} {scrubbed : JsObject (JsonValue N)}

theorem enforced_fits (h : Fits log.metadataMaxBytes (encodedSize scrubbed)) :
    log.enforceMetadataSize p scrubbed = .ok (scrubbed, false) := if_pos h

variable (h : ¬Fits log.metadataMaxBytes (encodedSize scrubbed))
include h

theorem enforced_reject (hpolicy : log.oversizePolicy = .reject) :
    ∃ message issues,
      log.enforceMetadataSize p scrubbed = .error (.validation message issues) := by
  simp only [AuditLog.enforceMetadataSize, h, if_false, hpolicy]
  exact ⟨_, _, rfl⟩

theorem enforced_truncate (hpolicy : log.oversizePolicy = .truncate) :
    log.enforceMetadataSize p scrubbed =
      .ok (rebuild (sizedEntries scrubbed) (log.droppedKeys scrubbed), true) := by
  simp only [AuditLog.enforceMetadataSize, h, if_false, hpolicy]

end Enforced

/-! ## The event -/

section Event

variable {p : Platform N} {log : AuditLog} {nowMs : ℚ} {input validated : EmitInput N}
  {event : AuditEvent N}

/-- An id and a timestamp are minted. -/
def Mints (p : Platform N) (nowMs : ℚ) : Prop :=
  (∃ id, p.ulid nowMs = .ok id) ∧ ∃ timestamp, p.toISOString nowMs = .ok timestamp

variable {scrubbed : JsObject (JsonValue N)} (hvalid : p.safeParse input = .ok validated)
  (hmetadata : validated.metadata = some metadata)
  (hscrubbed : log.piiFilter.apply p.toLowerCase metadata = scrubbed)
include hvalid hmetadata hscrubbed

theorem buildEvent_eq : log.buildEvent p nowMs input = (do
    let checked ← log.enforceMetadataSize p scrubbed
    let id ← (p.ulid nowMs).mapError .range
    let timestamp ← (p.toISOString nowMs).mapError .range
    return { validated with
      id, timestamp, metadata := some (withMarker checked.1 checked.2) }) := by
  unfold AuditLog.buildEvent
  rw [hvalid]
  change (log.metadataOf p validated >>= fun _ => _) = _
  unfold AuditLog.metadataOf
  rw [hmetadata]
  dsimp only
  rw [hscrubbed]
  cases log.enforceMetadataSize p scrubbed <;> rfl

/-- Once the metadata have passed, only the clock can stop the event. -/
theorem buildEvent_checked {kept : JsObject (JsonValue N)} {truncated : Bool}
    (hsize : log.enforceMetadataSize p scrubbed = .ok (kept, truncated)) :
    (Mints p nowMs ∧ ∃ event, log.buildEvent p nowMs input = .ok event ∧
      event.metadata = some (withMarker kept truncated)) ∨
    (¬Mints p nowMs ∧ ∃ message, log.buildEvent p nowMs input = .error (.range message)) := by
  rw [buildEvent_eq hvalid hmetadata hscrubbed, hsize]
  cases hid : p.ulid nowMs with
  | error message =>
      refine .inr ⟨?_, message, rfl⟩
      rintro ⟨⟨id, hid'⟩, -⟩
      rw [hid] at hid'
      cases hid'
  | ok id =>
      cases htimestamp : p.toISOString nowMs with
      | error message =>
          refine .inr ⟨?_, message, rfl⟩
          rintro ⟨-, timestamp, htimestamp'⟩
          rw [htimestamp] at htimestamp'
          cases htimestamp'
      | ok timestamp => exact .inl ⟨⟨⟨id, hid⟩, timestamp, htimestamp⟩, _, rfl, rfl⟩

theorem buildEvent_mints {kept : JsObject (JsonValue N)} {truncated : Bool} (hmints : Mints p nowMs)
    (hsize : log.enforceMetadataSize p scrubbed = .ok (kept, truncated)) :
    ∃ event, log.buildEvent p nowMs input = .ok event ∧
      event.metadata = some (withMarker kept truncated) := by
  rcases buildEvent_checked hvalid hmetadata hscrubbed hsize with ⟨-, hevent⟩ | ⟨hnot, -⟩
  · exact hevent
  · exact absurd hmints hnot

theorem buildEvent_reject (nowMs : ℚ)
    (hlarge : ¬Fits log.metadataMaxBytes (encodedSize scrubbed))
    (hpolicy : log.oversizePolicy = .reject) :
    ∃ message issues, log.buildEvent p nowMs input = .error (.validation message issues) := by
  obtain ⟨message, issues, hreject⟩ := enforced_reject (p := p) hlarge hpolicy
  rw [buildEvent_eq hvalid hmetadata hscrubbed, hreject]
  exact ⟨message, issues, rfl⟩

/-- What an event carries. -/
theorem event_cases (h : log.buildEvent p nowMs input = .ok event) :
    event.metadata = some scrubbed ∧ Fits log.metadataMaxBytes (encodedSize scrubbed) ∨
      event.metadata = some ((rebuild (sizedEntries scrubbed) (log.droppedKeys scrubbed)).define
        truncatedMarker (.bool true)) ∧
      log.oversizePolicy = .truncate ∧ ¬Fits log.metadataMaxBytes (encodedSize scrubbed) ∧
      Mints p nowMs := by
  have hcarries {kept : JsObject (JsonValue N)} {truncated : Bool}
      (hsize : log.enforceMetadataSize p scrubbed = .ok (kept, truncated)) :
      Mints p nowMs ∧ event.metadata = some (withMarker kept truncated) := by
    rcases buildEvent_checked hvalid hmetadata hscrubbed hsize with
      ⟨hmints, event', hbuilt, hevent⟩ | ⟨-, message, hrange⟩
    · rw [hbuilt] at h
      cases h
      exact ⟨hmints, hevent⟩
    · rw [hrange] at h
      cases h
  by_cases hfits : Fits log.metadataMaxBytes (encodedSize scrubbed)
  · exact .inl ⟨(hcarries (enforced_fits hfits)).2, hfits⟩
  · cases hpolicy : log.oversizePolicy with
    | reject =>
        obtain ⟨message, issues, hreject⟩ :=
          buildEvent_reject hvalid hmetadata hscrubbed nowMs hfits hpolicy
        rw [hreject] at h
        cases h
    | truncate =>
        obtain ⟨hmints, hevent⟩ := hcarries (enforced_truncate hfits hpolicy)
        rw [withMarker_true] at hevent
        exact .inr ⟨hevent, rfl, hfits, hmints⟩

/-- Metadata that fit are no reason to refuse a valid input. -/
theorem not_refused (hfits : Fits log.metadataMaxBytes (encodedSize scrubbed)) (message : String)
    (issues : List String) :
    log.buildEvent p nowMs input ≠ .error (.validation message issues) := by
  intro h
  rcases buildEvent_checked hvalid hmetadata hscrubbed (enforced_fits hfits) with
    ⟨-, event, hbuilt, -⟩ | ⟨-, message', hrange⟩
  · rw [hbuilt] at h
    cases h
  · rw [hrange] at h
    cases h

end Event

/-! ## The bound -/

/-- The mark replaces no property but itself, and there is room for it. -/
structure MarkerFits (maxBytes : WithTop ℚ) (kept : List (String × JsonValue N)) : Prop where
  same : ∀ v, (truncatedMarker, v) ∈ kept → v = .bool true
  room : Fits maxBytes (jsonSize (.obj (setProperty truncatedMarker (.bool true) kept)))

/-- However many of the smallest properties fit, they fit with the mark. -/
def RoomForMarker (maxBytes : WithTop ℚ) (metadata : JsObject (JsonValue N)) : Prop :=
  ∀ smallest, smallest <:+ bySize metadata → Fits maxBytes (jsonSize (.obj smallest)) →
    MarkerFits maxBytes smallest

/-- The persisted metadata keep the bound. Under `truncate`, what was not
dropped is as the filter left it, and no smaller than it was anything dropped.
Under `reject`, the event is refused exactly if the metadata are too large. -/
structure MetadataBound (log : AuditLog) (scrubbed : JsObject (JsonValue N))
    (result : Except AuditError (AuditEvent N)) : Prop where
  bounded : ∀ event, result = .ok event → ∀ metadata ∈ event.metadata,
    Fits log.metadataMaxBytes (encodedSize metadata)
  kept : log.oversizePolicy = .truncate → ∀ event, result = .ok event →
    ∀ name ∈ scrubbed.names, name ∉ log.droppedKeys scrubbed →
      ∃ metadata ∈ event.metadata, metadata.get name = scrubbed.get name
  largest : log.oversizePolicy = .truncate → ∀ q ∈ scrubbed.properties,
    ∀ r ∈ scrubbed.properties, q.1 ∈ log.droppedKeys scrubbed →
      r.1 ∉ log.droppedKeys scrubbed → jsonSize (.obj [r]) ≤ jsonSize (.obj [q])
  refused : log.oversizePolicy = .reject →
    ((∃ message issues, result = .error (.validation message issues)) ↔
      ¬Fits log.metadataMaxBytes (encodedSize scrubbed))

section Bound

variable {log : AuditLog} {scrubbed : JsObject (JsonValue N)}

/-- The mark fits beside the longest ending, if beside all. -/
theorem roomForMarker_iff (hempty : Fits maxBytes 2) : RoomForMarker maxBytes scrubbed ↔
    MarkerFits maxBytes (dropToFit (fitsAs maxBytes) (bySize scrubbed)) := by
  have hlongest := dropToFit_suffix (fitsAs maxBytes) (bySize scrubbed)
  constructor
  · intro h
    have hnil : fitsAs maxBytes ([] : List (String × JsonValue N)) = true := decide_eq_true hempty
    exact h _ hlongest (of_decide_eq_true (fits_dropToFit hnil _))
  · intro h smallest hsuffix hfits
    have hsub : smallest.Sublist (dropToFit (fitsAs maxBytes) (bySize scrubbed)) :=
      (suffix_dropToFit hsuffix (decide_eq_true hfits)).sublist
    have hnodup := (bySize_nodup scrubbed).sublist (hlongest.sublist.map Prod.fst)
    exact ⟨fun v hv => h.same v (hsub.subset hv), h.room.mono (jsonSize_setProperty_le hnodup hsub)⟩

section Dropped

variable (hproto : JsObject.proto ∉ scrubbed.names) {q r : String × JsonValue N}
include hproto

theorem mem_droppedKeys_iff (hq : q ∈ scrubbed.properties) : q.1 ∈ log.droppedKeys scrubbed ↔
    q ∉ dropToFit (fitsAs log.metadataMaxBytes) (bySize scrubbed) := by
  have hsplit := dropped_append_dropToFit (fitsAs log.metadataMaxBytes) (bySize scrubbed)
  have hkept := filter_ahead hsplit (bySize_nodup scrubbed)
  rw [← droppedKeys_eq hproto log] at hkept
  have hmem : q ∈ bySize scrubbed := (bySize_perm scrubbed).mem_iff.mpr hq
  rw [← hkept, List.mem_filter]
  simp [hmem]

theorem largest_dropped (hq : q ∈ scrubbed.properties) (hr : r ∈ scrubbed.properties)
    (hdropped : q.1 ∈ log.droppedKeys scrubbed) (hkept : r.1 ∉ log.droppedKeys scrubbed) :
    jsonSize (.obj [r]) ≤ jsonSize (.obj [q]) := by
  have hsplit := dropped_append_dropToFit (fitsAs log.metadataMaxBytes) (bySize scrubbed)
  have hmem : q ∈ bySize scrubbed := (bySize_perm scrubbed).mem_iff.mpr hq
  rw [mem_droppedKeys_iff hproto hq] at hdropped
  rw [mem_droppedKeys_iff hproto hr, not_not] at hkept
  rw [← hsplit, List.mem_append] at hmem
  exact le_of_dropped (bySize_sorted scrubbed) (hmem.resolve_right hdropped) hkept

theorem get_rebuild {name : String} (hname : name ∉ log.droppedKeys scrubbed) :
    (rebuild (sizedEntries scrubbed) (log.droppedKeys scrubbed)).get name = scrubbed.get name := by
  ext v
  rw [JsObject.get_eq_some_iff, JsObject.get_eq_some_iff, rebuild_droppedKeys hproto]
  constructor
  · intro hmem
    exact (bySize_perm scrubbed).mem_iff.mp ((dropToFit_suffix _ _).subset hmem)
  · intro hmem
    rw [mem_droppedKeys_iff (q := (name, v)) hproto hmem, not_not] at hname
    exact hname

/-- What is kept has its value, also under the mark. -/
theorem get_marked {name : String}
    (hmarks : MarkerFits log.metadataMaxBytes
      (dropToFit (fitsAs log.metadataMaxBytes) (bySize scrubbed)))
    (hmem : name ∈ scrubbed.names) (hname : name ∉ log.droppedKeys scrubbed) :
    ((rebuild (sizedEntries scrubbed) (log.droppedKeys scrubbed)).define truncatedMarker
      (.bool true)).get name = scrubbed.get name := by
  by_cases hmark : name = truncatedMarker
  · obtain ⟨⟨_, v⟩, hv, rfl⟩ := List.mem_map.mp hmem
    rw [mem_droppedKeys_iff hproto hv, not_not] at hname
    dsimp only at hmark
    subst hmark
    rw [JsObject.get_define, JsObject.get_eq_some_iff.mpr hv, hmarks.same v hname]
  · rw [JsObject.get_define_of_ne hmark, get_rebuild hproto hname]

end Dropped

end Bound

/-- The bound is kept unless properties are dropped and those that are left
leave no room for the mark, or have another value under its name. -/
theorem metadata_bounded_iff (p : Platform N) (log : AuditLog) (nowMs : ℚ)
    {input validated : EmitInput N} {metadata : JsObject (JsonValue N)}
    (hvalid : p.safeParse input = .ok validated) (hmetadata : validated.metadata = some metadata)
    (hmarker : Fits log.metadataMaxBytes
      (jsonSize (.obj [(truncatedMarker, .bool true)] : JsonValue N))) :
    MetadataBound log (log.piiFilter.apply p.toLowerCase metadata)
        (log.buildEvent p nowMs input) ↔
      (log.oversizePolicy = .truncate →
        ¬Fits log.metadataMaxBytes (encodedSize (log.piiFilter.apply p.toLowerCase metadata)) →
          Mints p nowMs →
            RoomForMarker log.metadataMaxBytes (log.piiFilter.apply p.toLowerCase metadata)) := by
  have hproto := PiiFilter.proto_apply p.toLowerCase log.piiFilter metadata
  generalize hscrubbed : log.piiFilter.apply p.toLowerCase metadata = scrubbed at hproto ⊢
  have hempty : Fits log.metadataMaxBytes 2 := by
    have hsize : jsonSize (.obj [(truncatedMarker, .bool true)] : JsonValue N) = 27 := rfl
    exact hmarker.mono (by omega)
  constructor
  · intro hbound hpolicy hlarge hmints
    obtain ⟨event, hbuilt, hevent⟩ := buildEvent_mints hvalid hmetadata hscrubbed hmints
      (enforced_truncate hlarge hpolicy)
    rw [withMarker_true] at hevent
    rw [roomForMarker_iff hempty]
    constructor
    · intro v hv
      have hmem := (bySize_perm scrubbed).mem_iff.mp ((dropToFit_suffix _ _).subset hv)
      have hname : truncatedMarker ∉ log.droppedKeys scrubbed := by
        rw [mem_droppedKeys_iff (q := (truncatedMarker, v)) hproto hmem, not_not]
        exact hv
      obtain ⟨persisted, hpersisted, hget⟩ :=
        hbound.kept hpolicy event hbuilt _ (List.mem_map_of_mem hmem) hname
      rw [hevent] at hpersisted
      cases hpersisted
      rw [JsObject.get_define, JsObject.get_eq_some_iff.mpr hmem] at hget
      exact (Option.some.inj hget).symm
    · have hroom := hbound.bounded event hbuilt _ hevent
      rw [← rebuild_droppedKeys hproto]
      exact hroom
  · intro hroom
    constructor
    · intro event hbuilt persisted hpersisted
      rcases event_cases hvalid hmetadata hscrubbed hbuilt with
        ⟨hevent, hfits⟩ | ⟨hevent, hpolicy, hlarge, hmints⟩
      · rw [hevent] at hpersisted
        cases hpersisted
        exact hfits
      · rw [hevent] at hpersisted
        cases hpersisted
        have hmarks := (roomForMarker_iff hempty).mp (hroom hpolicy hlarge hmints)
        rw [← rebuild_droppedKeys hproto] at hmarks
        exact hmarks.room
    · intro _ event hbuilt name hname hkept
      rcases event_cases hvalid hmetadata hscrubbed hbuilt with
        ⟨hevent, -⟩ | ⟨hevent, hpolicy, hlarge, hmints⟩
      · exact ⟨_, hevent, rfl⟩
      · have hmarks := (roomForMarker_iff hempty).mp (hroom hpolicy hlarge hmints)
        exact ⟨_, hevent, get_marked hproto hmarks hname hkept⟩
    · intro _ q hq r hr hdropped hkept
      exact largest_dropped hproto hq hr hdropped hkept
    · intro hpolicy
      constructor
      · rintro ⟨message, issues, hrefused⟩ hfits
        exact not_refused hvalid hmetadata hscrubbed hfits message issues hrefused
      · intro hlarge
        exact buildEvent_reject hvalid hmetadata hscrubbed nowMs hlarge hpolicy

namespace Small

theorem scanNumber_digit : ∀ n : Bool, true = true →
    JsonText.scanNumber (if n then ['1'] else ['0']) =
      some (if n then ['1'] else ['0'], []) := by decide

/-- No number is written here. -/
scoped instance : JsNumbers Bool where
  ofLiteral lit := lit == ['1']
  isFinite _ := true
  text n := if n then ['1'] else ['0']
  text_literal := scanNumber_digit

/-- At the epoch. -/
def platform : Platform Bool where
  toLowerCase s := String.ofList (s.toList.map Char.toLower)
  safeParse input := .ok input
  ulid _ := .ok "00000000000000000000000000"
  toISOString _ := .ok "1970-01-01T00:00:00.000Z"
  numberText _ := "27"

def log : AuditLog := .new platform
  { metadataMaxBytes := some (27 : ℚ), metadataOversizePolicy := some .truncate }

def login (metadata : JsObject (JsonValue Bool)) : EmitInput Bool where
  tenantId := none
  actor := .anonymous
  action := "auth.login"
  resource := none
  outcome := .success
  failureReason := none
  severity := .info
  requestId := none
  traceId := none
  ipAddress := none
  userAgent := none
  metadata := some metadata

theorem login_valid (metadata : JsObject (JsonValue Bool)) :
    platform.safeParse (login metadata) = .ok (login metadata) := rfl

def large : JsonValue Bool := .str "22222222222222222222"

/-- Two properties, the larger one first. -/
def padded : JsObject (JsonValue Bool) := ⟨[("b", large), ("a", .str "1")], by decide⟩

/-- One of them is named as the mark is. -/
def marked : JsObject (JsonValue Bool) :=
  ⟨[("b", large), (truncatedMarker, .str "no")], by decide⟩

theorem fits_log (n : Nat) : Fits log.metadataMaxBytes n ↔ n ≤ 27 := by
  change ((n : ℚ) : WithTop ℚ) ≤ ((27 : ℚ) : WithTop ℚ) ↔ n ≤ 27
  rw [WithTop.coe_le_coe]
  norm_cast

theorem padded_scrubbed : log.piiFilter.apply platform.toLowerCase padded = padded := rfl

theorem marked_scrubbed : log.piiFilter.apply platform.toLowerCase marked = marked := rfl

/-- The larger property comes first already. -/
theorem bySize_pair {metadata : JsObject (JsonValue Bool)} {q r : String × JsonValue Bool}
    (hpair : metadata.properties = [q, r])
    (hsize : jsonSize (.obj [r]) ≤ jsonSize (.obj [q])) : bySize metadata = [q, r] := by
  have hsorted : sizedEntries metadata =
      [⟨q.1, q.2, jsonSize (.obj [q])⟩, ⟨r.1, r.2, jsonSize (.obj [r])⟩] := by
    rw [sizedEntries, hpair]
    apply List.mergeSort_of_pairwise
    simp [hsize]
  rw [bySize, hsorted]
  rfl

/-- The large one is dropped, and the other one left. -/
theorem dropToFit_pair {metadata : JsObject (JsonValue Bool)} {q r : String × JsonValue Bool}
    (hpair : metadata.properties = [q, r])
    (hsize : jsonSize (.obj [r]) ≤ jsonSize (.obj [q]))
    (hboth : 27 < jsonSize (.obj [q, r])) (hone : jsonSize (.obj [r]) ≤ 27) :
    dropToFit (fitsAs log.metadataMaxBytes) (bySize metadata) = [r] := by
  have hlarge : fitsAs log.metadataMaxBytes [q, r] = false := by
    rw [fitsAs, decide_eq_false_iff_not, fits_log]
    omega
  have hsmall : fitsAs log.metadataMaxBytes [r] = true := by
    rw [fitsAs, decide_eq_true_iff, fits_log]
    exact hone
  rw [bySize_pair hpair hsize, dropToFit, hlarge]
  simp only [Bool.false_eq_true, if_false, dropToFit, hsmall, if_true]

theorem padded_kept : dropToFit (fitsAs log.metadataMaxBytes) (bySize padded) = [("a", .str "1")] :=
  dropToFit_pair rfl (by decide +kernel) (by decide +kernel) (by decide +kernel)

theorem marked_kept :
    dropToFit (fitsAs log.metadataMaxBytes) (bySize marked) = [(truncatedMarker, .str "no")] :=
  dropToFit_pair rfl (by decide +kernel) (by decide +kernel) (by decide +kernel)

theorem log_truncates : log.oversizePolicy = .truncate := rfl

theorem platform_mints : Mints platform 0 := ⟨⟨_, rfl⟩, _, rfl⟩

/-- What is persisted of metadata that is too large. -/
theorem persisted {metadata : JsObject (JsonValue Bool)}
    (hscrubbed : log.piiFilter.apply platform.toLowerCase metadata = metadata)
    (hlarge : ¬Fits log.metadataMaxBytes (encodedSize metadata)) :
    ∃ event, log.buildEvent platform 0 (login metadata) = .ok event ∧
      event.metadata = some ((rebuild (sizedEntries metadata) (log.droppedKeys metadata)).define
        truncatedMarker (.bool true)) := by
  obtain ⟨event, hbuilt, hevent⟩ := buildEvent_mints (login_valid metadata) rfl hscrubbed
    platform_mints (enforced_truncate hlarge log_truncates)
  rw [withMarker_true] at hevent
  exact ⟨event, hbuilt, hevent⟩

/-- With the mark, the metadata are larger than the bound; and the mark takes
the place of a property that was not dropped. -/
theorem mark_not_counted :
    (∃ event metadata, log.buildEvent platform 0 (login padded) = .ok event ∧
      event.metadata = some metadata ∧ ¬Fits log.metadataMaxBytes (encodedSize metadata)) ∧
    ∃ event metadata, log.buildEvent platform 0 (login marked) = .ok event ∧
      event.metadata = some metadata ∧
      truncatedMarker ∉ log.droppedKeys (log.piiFilter.apply platform.toLowerCase marked) ∧
      (log.piiFilter.apply platform.toLowerCase marked).get truncatedMarker = some (.str "no") ∧
      metadata.get truncatedMarker = some (.bool true) := by
  constructor
  · have hlarge : ¬Fits log.metadataMaxBytes (encodedSize padded) := by
      rw [fits_log]
      decide +kernel
    obtain ⟨event, hbuilt, hevent⟩ := persisted padded_scrubbed hlarge
    refine ⟨event, _, hbuilt, hevent, ?_⟩
    have hproto : JsObject.proto ∉ padded.names := by decide
    rw [encodedSize_define, rebuild_droppedKeys hproto, padded_kept, fits_log]
    decide +kernel
  · have hlarge : ¬Fits log.metadataMaxBytes (encodedSize marked) := by
      rw [fits_log]
      decide +kernel
    obtain ⟨event, hbuilt, hevent⟩ := persisted marked_scrubbed hlarge
    have hproto : JsObject.proto ∉ marked.names := by decide
    have hmem : (truncatedMarker, .str "no") ∈ marked.properties := by simp [marked]
    rw [marked_scrubbed]
    refine ⟨event, _, hbuilt, hevent, ?_, JsObject.get_eq_some_iff.mpr hmem, JsObject.get_define⟩
    rw [mem_droppedKeys_iff (q := (truncatedMarker, .str "no")) hproto hmem, not_not, marked_kept]
    exact List.mem_singleton_self _

/-- One property that is too large. -/
def alone : JsObject (JsonValue Bool) := ⟨[("b", large)], by decide⟩

theorem metadata_bounded_alone :
    MetadataBound log (log.piiFilter.apply platform.toLowerCase alone)
      (log.buildEvent platform 0 (login alone)) := by
  have hmarker : Fits log.metadataMaxBytes
      (jsonSize (.obj [(truncatedMarker, .bool true)] : JsonValue Bool)) := by
    rw [fits_log]
    decide +kernel
  apply (metadata_bounded_iff platform log 0 (login_valid alone) rfl hmarker).mpr
  intro _ _ _ smallest hsuffix hfits
  have hbySize : bySize (log.piiFilter.apply platform.toLowerCase alone) = [("b", large)] :=
    List.perm_singleton.mp (bySize_perm _)
  rw [hbySize, List.suffix_cons_iff] at hsuffix
  rcases hsuffix with rfl | hsuffix
  · rw [fits_log] at hfits
    exact absurd hfits (by decide +kernel)
  · cases List.suffix_nil.mp hsuffix
    exact ⟨nofun, hmarker⟩

end Small

end SaasFoundation.Foundation.Audit
