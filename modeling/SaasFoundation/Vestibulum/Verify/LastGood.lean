import SaasFoundation.Lib.BigStep
import SaasFoundation.Lib.JsonReread
import SaasFoundation.Vestibulum.Verify.JwksFallback

/-!
# The last good keys

Fetches one after another over a store that works as a map and a clock that
does not run backwards. What decides about writing is whether the delegate's
document is a JWKS; what decides about reading is whether one of its keys can
check a signature. An entry that would be read is therefore overwritten by a
document that no one can use.
-/

namespace SaasFoundation.Vestibulum.Verify

open Lib Lib.JsonText JsNumbers

open JsonNumbers (value)

/-- A number that is read from the text of another has its value. -/
class RereadValues (N : Type) [JsonNumbers N] : Prop where
  value_reread : ∀ n : N, isFinite n = true → value (ofLiteral (text n) : N) = value n
  text_reread : ∀ n : N, isFinite n = true → text (ofLiteral (text n) : N) = text n

instance (N : Type) [JsonNumbers N] [RereadValues N] : RereadNumbers N where
  isFinite_reread n hn := by
    rw [JsonNumbers.isFinite_eq, RereadValues.value_reread n hn, ← JsonNumbers.isFinite_eq, hn]
  text_reread := RereadValues.text_reread

section Model

variable {N : Type} [JsonNumbers N]

/-- What `aws-jwt-verify` documents of its parser and of `isJwks`, which
looks at no number. -/
structure Documented (lib : JwtVerify N) : Prop where
  safeJsonParse_eq : ∀ cs, lib.safeJsonParse cs = (parse cs).map stripPrototype
  isJwks_reread : ∀ v, lib.isJwks (reread v) = lib.isJwks v

/-! ## The store and the clock -/

structure Shelf where
  entries : String → Option String
  clock : ℚ

/-- A fetch, and what its delegate does. -/
structure FetchCall where
  deps : Deps
  uri : String
  reply : Except Thrown (List UInt8)

def Shelf.serve (reply : Except Thrown (List UInt8)) (w : Shelf) :
    (op : FetchRequest) → FetchReply N op → Shelf → Prop
  | .delegate _, r, v => r = reply ∧ v = w
  | .storeGet issuer, r, v => r = .ok (w.entries issuer) ∧ v = w
  | .storeSet issuer raw _, r, v =>
      r = .ok () ∧ v = { w with entries := Function.update w.entries issuer (some raw) }
  | .now, time, v => w.clock ≤ time.ms ∧ v = { w with clock := time.ms }

/-- A fetch of a run, with the store before and after it. -/
structure Visit where
  call : FetchCall
  before : Shelf
  after : Shelf

/-- Fetches one after another. -/
inductive Fetches (lib : JwtVerify N) (start : Shelf) : List Visit → Shelf → Prop
  | none : Fetches lib start [] start
  | more {visits : List Visit} {w w' : Shelf} {call : FetchCall} {r : Except Thrown (List UInt8)} :
      Fetches lib start visits w →
      (fetch lib call.deps call.uri).Completes (Shelf.serve call.reply) w r w' →
      Fetches lib start (visits ++ [⟨call, w, w'⟩]) w'

/-! ## What is to be kept -/

def Accepts (lib : JwtVerify N) (issuer uri : String) (maxStalenessSeconds nowMs : ℚ)
    (raw : String) : Prop :=
  ∃ jwks age, readCachedJwks lib (some raw) ⟨issuer, uri, nowMs, maxStalenessSeconds⟩ =
    .ok (jwks, age)

/-- The store holds an entry that was accepted at some time up to now. -/
def Held (lib : JwtVerify N) (w : Shelf) (issuer uri : String) (maxStalenessSeconds : ℚ) : Prop :=
  ∃ raw nowMs, w.entries issuer = some raw ∧ nowMs ≤ w.clock ∧
    Accepts lib issuer uri maxStalenessSeconds nowMs raw

/-- Such an entry stays, or is replaced by one that is accepted when it is
written. -/
def Preserves (lib : JwtVerify N) (visit : Visit) : Prop :=
  ∀ issuer uri maxStalenessSeconds, Held lib visit.before issuer uri maxStalenessSeconds →
    visit.after.entries issuer = visit.before.entries issuer ∨
      ∃ raw, visit.after.entries issuer = some raw ∧
        Accepts lib issuer uri maxStalenessSeconds visit.after.clock raw

/-- Where there is such an entry, the delegate gives no JWKS, or one for the
same address with a usable key, at a time after the epoch. -/
def Useful (lib : JwtVerify N) (visit : Visit) : Prop :=
  ∀ uri maxStalenessSeconds bytes jwks,
    Held lib visit.before visit.call.deps.issuer uri maxStalenessSeconds →
    visit.call.reply = .ok bytes → decodeJwks lib bytes = some jwks →
    uri = visit.call.uri ∧ 0 < visit.after.clock ∧
      ∃ key ∈ keysOf jwks, isUsableSigningJwk key = true

/-! ## Documents without prototypes -/

section Strip

omit [JsonNumbers N]

theorem stripFields_sublist (qs : List (String × Json N)) :
    ((stripFields qs).map Prod.fst).Sublist (qs.map Prod.fst) := by
  induction qs with
  | nil => exact List.Sublist.slnil
  | cons q qs ih =>
      obtain ⟨name, v⟩ := q
      rw [stripFields, List.map_cons]
      split
      · exact ih.cons _
      · rw [List.map_cons]
        exact ih.cons_cons _

mutual
theorem distinct_strip (v : Json N) (hv : DistinctNames v) : DistinctNames (stripPrototype v) := by
  match v with
  | .null | .bool _ | .str _ | .num _ => trivial
  | .arr xs => exact distinct_stripElements xs hv
  | .obj qs => exact ⟨hv.1.sublist (stripFields_sublist qs), distinct_stripFields qs hv.2⟩
theorem distinct_stripElements (xs : List (Json N)) (hxs : DistinctElements xs) :
    DistinctElements (stripElements xs) := by
  match xs with
  | [] => trivial
  | x :: xs => exact ⟨distinct_strip x hxs.1, distinct_stripElements xs hxs.2⟩
theorem distinct_stripFields (qs : List (String × Json N)) (hqs : DistinctFields qs) :
    DistinctFields (stripFields qs) := by
  match qs with
  | [] => trivial
  | (name, v) :: qs =>
      rw [stripFields]
      split
      · exact distinct_stripFields qs hqs.2
      · exact ⟨distinct_strip v hqs.1, distinct_stripFields qs hqs.2⟩
end

mutual
theorem strip_strip (v : Json N) : stripPrototype (stripPrototype v) = stripPrototype v := by
  match v with
  | .null | .bool _ | .str _ | .num _ => rfl
  | .arr xs => rw [stripPrototype, stripPrototype, stripElements_strip xs]
  | .obj qs => rw [stripPrototype, stripPrototype, stripFields_strip qs]
theorem stripElements_strip (xs : List (Json N)) :
    stripElements (stripElements xs) = stripElements xs := by
  match xs with
  | [] => rfl
  | x :: xs => rw [stripElements, stripElements, strip_strip x, stripElements_strip xs]
theorem stripFields_strip (qs : List (String × Json N)) :
    stripFields (stripFields qs) = stripFields qs := by
  match qs with
  | [] => rfl
  | (name, v) :: qs =>
      rw [stripFields]
      split
      · exact stripFields_strip qs
      · rename_i hname
        rw [stripFields, if_neg hname, strip_strip v, stripFields_strip qs]
end

end Strip

mutual
theorem strip_reread (v : Json N) : stripPrototype (reread v) = reread (stripPrototype v) := by
  match v with
  | .null | .bool _ | .str _ => rfl
  | .num n =>
      show stripPrototype (reread (.num n)) = reread (.num n)
      rcases reread_num n with ⟨m, hm⟩ | hm <;> rw [hm] <;> rfl
  | .arr xs => rw [reread, stripPrototype, stripPrototype, reread, stripElements_reread xs]
  | .obj qs => rw [reread, stripPrototype, stripPrototype, reread, stripFields_reread qs]
theorem stripElements_reread (xs : List (Json N)) :
    stripElements (rereadElements xs) = rereadElements (stripElements xs) := by
  match xs with
  | [] => rfl
  | x :: xs =>
      rw [rereadElements, stripElements, stripElements, rereadElements, strip_reread x,
        stripElements_reread xs]
theorem stripFields_reread (qs : List (String × Json N)) :
    stripFields (rereadFields qs) = rereadFields (stripFields qs) := by
  match qs with
  | [] => rfl
  | (name, v) :: qs =>
      rw [rereadFields, stripFields, stripFields]
      split
      · exact stripFields_reread qs
      · rw [rereadFields, strip_reread v, stripFields_reread qs]
end

/-! ## What the checks see of a document that was written and read -/

theorem property_reread (v : Json N) (name : String) :
    property (reread v) name = (property v name).map reread := by
  cases v with
  | obj qs => exact lookup_rereadFields qs name
  | num n => rcases reread_num n with ⟨m, hm⟩ | hm <;> rw [hm] <;> rfl
  | null | bool b | str s | arr xs => rfl

theorem isNonEmptyString_reread (v : Option (Json N)) :
    isNonEmptyString (v.map reread) = isNonEmptyString v := by
  match v with
  | none => rfl
  | some (.num n) => rcases reread_num n with ⟨m, hm⟩ | hm <;> rw [Option.map_some, hm] <;> rfl
  | some .null | some (.bool _) | some (.str _) | some (.arr _) | some (.obj _) => rfl

/-- A signing key stays one. -/
theorem isUsableSigningJwk_reread (jwk : Json N) :
    isUsableSigningJwk (reread jwk) = isUsableSigningJwk jwk := by
  have hhas : ∀ name, isNonEmptyString (property (reread jwk) name) =
      isNonEmptyString (property jwk name) := by
    intro name
    rw [property_reread, isNonEmptyString_reread]
  simp only [isUsableSigningJwk, hhas]
  rw [property_reread, property_reread]
  congr 1
  · congr 1
    match property jwk "use" with
    | none => rfl
    | some (.num n) => rcases reread_num n with ⟨m, hm⟩ | hm <;> rw [Option.map_some, hm]
    | some .null | some (.bool _) | some (.str _) | some (.arr _) | some (.obj _) => rfl
  · match property jwk "kty" with
    | none => rfl
    | some (.num n) => rcases reread_num n with ⟨m, hm⟩ | hm <;> rw [Option.map_some, hm]
    | some .null | some (.bool _) | some (.str _) | some (.arr _) | some (.obj _) => rfl

theorem keysOf_reread (jwks : Json N) : keysOf (reread jwks) = (keysOf jwks).map reread := by
  unfold keysOf
  rw [property_reread]
  match property jwks "keys" with
  | none => rfl
  | some (.arr xs) => exact rereadElements_eq xs
  | some (.num n) => rcases reread_num n with ⟨m, hm⟩ | hm <;> rw [Option.map_some, hm] <;> rfl
  | some .null | some (.bool _) | some (.str _) | some (.obj _) => rfl

theorem usable_reread (jwks : Json N) :
    (∃ key ∈ keysOf (reread jwks), isUsableSigningJwk key = true) ↔
      ∃ key ∈ keysOf jwks, isUsableSigningJwk key = true := by
  rw [keysOf_reread]
  simp only [List.mem_map, exists_exists_and_eq_and, isUsableSigningJwk_reread]

/-! ## What is accepted of what was written -/

section Written

variable {lib : JwtVerify N} {issuer uri issuer' uri' raw : String} {jwks : Json N}
  {maxStalenessSeconds nowMs : ℚ} {bytes : List UInt8}

/-- What the fetcher decodes can be written and read. -/
theorem decodeJwks_clean (hlib : Documented lib) (h : decodeJwks lib bytes = some jwks) :
    DistinctNames jwks ∧ stripPrototype jwks = jwks ∧ lib.isJwks jwks = true := by
  rw [decodeJwks, Option.filter_eq_some_iff, Option.bind_eq_some_iff] at h
  obtain ⟨⟨cs, -, hparsed⟩, hjwks⟩ := h
  rw [hlib.safeJsonParse_eq, Option.map_eq_some_iff] at hparsed
  obtain ⟨v, hv, rfl⟩ := hparsed
  exact ⟨distinct_strip v (parse_distinct hv), strip_strip v, hjwks⟩

variable [RereadValues N]

/-- The reading of the clock that comes out of the envelope. -/
def Moment.reread (time : Moment N) : Moment N where
  number := ofLiteral (text time.number)
  ms := time.ms
  value_eq := by
    rw [RereadValues.value_reread, time.value_eq]
    rw [JsonNumbers.isFinite_eq, time.value_eq]
    rfl

omit [RereadValues N] in
theorem isFinite_one : isFinite (JsonNumbers.one : N) = true := by
  rw [JsonNumbers.isFinite_eq, JsonNumbers.value_one]
  rfl

theorem reread_envelopeFields (time : Moment N) :
    rereadFields (envelopeFields issuer uri time.number jwks) =
      envelopeFields issuer uri time.reread.number (reread jwks) := by
  have hone : (ofLiteral (text JsonNumbers.one) : N) = JsonNumbers.one :=
    JsonNumbers.ofLiteral_text _ _ JsonNumbers.value_one one_ne_zero
  have htime : isFinite time.number = true := by
    rw [JsonNumbers.isFinite_eq, time.value_eq]
    rfl
  simp [envelopeFields, rereadFields, reread, isFinite_one, hone, htime, Moment.reread]

/-- The envelope that is read. -/
theorem parse_build (hlib : Documented lib) (time : Moment N) (hdistinct : DistinctNames jwks)
    (hclean : stripPrototype jwks = jwks) :
    lib.safeJsonParse (buildJwksEnvelope issuer uri time.number jwks).toList =
      some (.obj (envelopeFields issuer uri time.reread.number (reread jwks))) := by
  have hnames : DistinctNames (.obj (envelopeFields issuer uri time.number jwks)) :=
    ⟨by simp [envelopeFields], trivial, trivial, trivial, trivial, hdistinct, trivial⟩
  have hstrip : stripPrototype (reread jwks) = reread jwks := by rw [strip_reread, hclean]
  rw [buildJwksEnvelope, String.toList_ofList, hlib.safeJsonParse_eq, parse_stringify_reread hnames,
    Option.map_some, reread, reread_envelopeFields, envelope_strip hstrip]

omit [RereadValues N] in
theorem Accepts.pos (h : Accepts lib issuer uri maxStalenessSeconds nowMs raw) :
    0 < maxStalenessSeconds := by
  obtain ⟨jwks, age, h⟩ := h
  by_contra hmax
  simp only [readCachedJwks, if_pos (not_lt.mp hmax)] at h
  split at h <;> cases h

/-- An envelope of this fetcher is accepted for its own issuer and address
only, and for its keys. -/
theorem accepts_build (hlib : Documented lib) {time : Moment N}
    (hdecode : decodeJwks lib bytes = some jwks)
    (h : Accepts lib issuer' uri' maxStalenessSeconds nowMs
      (buildJwksEnvelope issuer uri time.number jwks)) :
    uri' = uri ∧ 0 < time.ms ∧ ∃ key ∈ keysOf jwks, isUsableSigningJwk key = true := by
  obtain ⟨hdistinct, hclean, -⟩ := decodeJwks_clean hlib hdecode
  obtain ⟨read, age, h⟩ := h
  obtain ⟨text, htext, ⟨trusted⟩⟩ := readCachedJwks_ok h
  have hparsed : lib.safeJsonParse (buildJwksEnvelope issuer uri time.number jwks).toList =
      some (.obj (envelopeFields issuer uri time.reread.number (reread jwks))) :=
    parse_build hlib time hdistinct hclean
  rw [Option.some.inj htext, trusted.parsed, Option.some.injEq, JsonValue.obj.injEq] at hparsed
  have huri := trusted.jwksUri
  have hfetched := trusted.fetchedAt_eq
  have hread := trusted.jwks_eq
  rw [hparsed] at huri hfetched hread
  have hms : time.ms = trusted.ms := by
    have hnumber : time.reread.number = trusted.fetchedAt := by
      have := Option.some.inj hfetched
      exact JsonValue.num.inj this
    have hvalue := time.reread.value_eq
    rw [hnumber, trusted.ms_eq] at hvalue
    exact (Option.some.inj hvalue).symm
  have hkeys : reread jwks = read := Option.some.inj hread
  refine ⟨(JsonValue.str.inj (Option.some.inj huri)).symm, hms ▸ trusted.ms_pos, ?_⟩
  rw [← usable_reread, hkeys]
  exact trusted.usable

/-- With a usable key it is accepted when it is written. -/
theorem accepts_written (hlib : Documented lib) {time : Moment N}
    (hdecode : decodeJwks lib bytes = some jwks) (hmax : 0 < maxStalenessSeconds)
    (hpos : 0 < time.ms) (husable : ∃ key ∈ keysOf jwks, isUsableSigningJwk key = true) :
    Accepts lib issuer uri maxStalenessSeconds time.ms
      (buildJwksEnvelope issuer uri time.number jwks) := by
  obtain ⟨hdistinct, hclean, hjwks⟩ := decodeJwks_clean hlib hdecode
  have hread : lib.safeJsonParse (buildJwksEnvelope issuer uri time.number jwks).toList =
      some (.obj (envelopeFields issuer uri time.reread.number (reread jwks))) :=
    parse_build hlib time hdistinct hclean
  have hms : time.reread.ms = time.ms := rfl
  have hfields : readEnvelope lib (envelopeFields issuer uri time.reread.number (reread jwks))
      ⟨issuer, uri, time.ms, maxStalenessSeconds⟩ =
        .ok (reread jwks, ⌊max 0 (time.ms - time.reread.ms) / 1000⌋) := by
    refine readEnvelope_fields ?_ ((usable_reread jwks).mpr husable) hpos hmax ?_ ?_
    · rw [hlib.isJwks_reread, hjwks]
    · linarith
    · rw [hms, clockSkewToleranceMs]
      linarith
  refine ⟨reread jwks, ⌊max 0 (time.ms - time.reread.ms) / 1000⌋, ?_⟩
  simp only [readCachedJwks, if_neg buildJwksEnvelope_ne_empty, if_neg (not_le.mpr hmax), hread]
  exact hfields

end Written

/-! ## What a fetch does to the store -/

section Fetch

variable {lib : JwtVerify N} {call : FetchCall} {w w' : Shelf}

/-- A look into the store leaves it as it is. -/
theorem tryCached_effect {cached : Option (List UInt8)}
    (h : (tryCached lib call.deps call.uri).Completes (Shelf.serve call.reply) w cached w') :
    w'.entries = w.entries ∧ w.clock ≤ w'.clock := by
  simp only [tryCached, Prog.call_bind, Prog.completes_ask, Shelf.serve] at h
  obtain ⟨found, v, ⟨rfl, rfl⟩, h⟩ := h
  simp only [Prog.completes_ask] at h
  obtain ⟨now, v, ⟨hclock, rfl⟩, h⟩ := h
  split at h
  · obtain ⟨-, rfl⟩ := h
    exact ⟨rfl, hclock⟩
  · obtain ⟨-, rfl⟩ := h
    exact ⟨rfl, hclock⟩

/-- Either the delegate gave no JWKS and the store is as it was, or its JWKS
is in the store, under the issuer and with the time. -/
inductive Effect (lib : JwtVerify N) (call : FetchCall) (w w' : Shelf) : Prop
  | kept (hclock : w.clock ≤ w'.clock) (hentries : w'.entries = w.entries)
      (hnone : ∀ bytes, call.reply = .ok bytes → decodeJwks lib bytes = none)
  | wrote {bytes : List UInt8} {jwks : Json N} {time : Moment N} (hclock : w.clock ≤ time.ms)
      (hreply : call.reply = .ok bytes) (hdecode : decodeJwks lib bytes = some jwks)
      (htime : w'.clock = time.ms)
      (hentries : w'.entries = Function.update w.entries call.deps.issuer
        (some (buildJwksEnvelope call.deps.issuer call.uri time.number jwks)))

theorem fetch_effect {r : Except Thrown (List UInt8)}
    (h : (fetch lib call.deps call.uri).Completes (Shelf.serve call.reply) w r w') :
    Effect lib call w w' := by
  simp only [fetch, Prog.call_bind, Prog.completes_ask, Shelf.serve] at h
  obtain ⟨reply, v, ⟨rfl, rfl⟩, h⟩ := h
  split at h
  · rename_i e hreply
    obtain ⟨cached, u, hcached, h⟩ := Prog.completes_bind.mp h
    obtain ⟨hentries, hclock⟩ := tryCached_effect hcached
    have hlast : w' = u := by
      split at h
      · exact h.2
      · exact h.2
    subst hlast
    refine .kept hclock hentries fun bytes hbytes => ?_
    rw [hreply] at hbytes
    cases hbytes
  · rename_i bytes hreply
    split at h
    · rename_i hnone
      obtain ⟨cached, u, hcached, -, rfl⟩ := Prog.completes_bind.mp h
      obtain ⟨hentries, hclock⟩ := tryCached_effect hcached
      refine .kept hclock hentries fun bytes' hbytes => ?_
      rw [hreply] at hbytes
      rw [← Except.ok.inj hbytes, hnone]
    · rename_i fresh hdecode
      simp only [persist, Prog.call_bind, Prog.ask_bind, Prog.completes_ask, Shelf.serve] at h
      obtain ⟨time, u, ⟨hclock, rfl⟩, done, u, ⟨rfl, rfl⟩, -, rfl⟩ := h
      exact .wrote hclock hreply hdecode rfl rfl

/-- An entry that was held is lost exactly where the delegate's JWKS is for
another address, or has no usable key. -/
theorem preserves_iff [RereadValues N] (hlib : Documented lib) (h : Effect lib call w w') :
    Preserves lib ⟨call, w, w'⟩ ↔ Useful lib ⟨call, w, w'⟩ := by
  cases h with
  | kept hclock hentries hnone =>
      constructor
      · intro _ uri maxStalenessSeconds bytes jwks _ hreply hdecode
        rw [hnone bytes hreply] at hdecode
        cases hdecode
      · intro _ issuer uri maxStalenessSeconds _
        exact .inl (congrFun hentries issuer)
  | @wrote bytes jwks time hclock hreply hdecode htime hentries =>
      have hnew : w'.entries call.deps.issuer =
          some (buildJwksEnvelope call.deps.issuer call.uri time.number jwks) := by
        rw [hentries, Function.update_self]
      have hclock' : w'.clock = time.ms := htime
      constructor
      · intro hpreserves uri maxStalenessSeconds bytes' jwks' hheld hreply' hdecode'
        have hsame : bytes = bytes' := Except.ok.inj (hreply.symm.trans hreply')
        rw [hsame, hdecode', Option.some.injEq] at hdecode
        subst hdecode
        -- whichever way the entry was kept, the new one was accepted once
        have haccepted : ∃ nowMs, Accepts lib call.deps.issuer uri maxStalenessSeconds nowMs
            (buildJwksEnvelope call.deps.issuer call.uri time.number jwks') := by
          rcases hpreserves _ _ _ hheld with hunchanged | ⟨raw, hraw, haccepts⟩
          · obtain ⟨raw, nowMs, hraw, -, haccepts⟩ := hheld
            have hlast : w'.entries call.deps.issuer = w.entries call.deps.issuer := hunchanged
            rw [hnew, hraw] at hlast
            exact ⟨nowMs, Option.some.inj hlast ▸ haccepts⟩
          · have hlast : w'.entries call.deps.issuer = some raw := hraw
            rw [hnew] at hlast
            exact ⟨_, Option.some.inj hlast ▸ haccepts⟩
        obtain ⟨nowMs, haccepts⟩ := haccepted
        obtain ⟨huri, hpos, husable⟩ := accepts_build hlib hdecode' haccepts
        exact ⟨huri, by rw [hclock']; exact hpos, husable⟩
      · intro huseful issuer uri maxStalenessSeconds hheld
        by_cases hissuer : issuer = call.deps.issuer
        · subst hissuer
          obtain ⟨rfl, hpos, husable⟩ := huseful _ _ _ _ hheld hreply hdecode
          obtain ⟨raw, nowMs, -, -, haccepts⟩ := hheld
          refine .inr ⟨_, hnew, ?_⟩
          rw [hclock'] at hpos ⊢
          exact accepts_written hlib hdecode haccepts.pos hpos husable
        · exact .inl (by rw [hentries, Function.update_of_ne hissuer])

/-- What was held is held still. -/
theorem held_of_preserves {issuer uri : String} {maxStalenessSeconds : ℚ} (h : Effect lib call w w')
    (hpreserves : Preserves lib ⟨call, w, w'⟩) (hheld : Held lib w issuer uri maxStalenessSeconds) :
    Held lib w' issuer uri maxStalenessSeconds := by
  have hclock : w.clock ≤ w'.clock := by
    cases h with
    | kept hclock _ _ => exact hclock
    | wrote hclock _ _ htime _ => rwa [htime]
  rcases hpreserves _ _ _ hheld with hsame | ⟨raw, hraw, haccepts⟩
  · obtain ⟨raw, nowMs, hraw, hnow, haccepts⟩ := hheld
    exact ⟨raw, nowMs, hsame.trans hraw, le_trans hnow hclock, haccepts⟩
  · exact ⟨raw, w'.clock, hraw, le_refl _, haccepts⟩

end Fetch

/-! ## Runs -/

section Runs

variable {lib : JwtVerify N} {start last : Shelf} {visits : List Visit}

theorem Fetches.effects (h : Fetches lib start visits last) :
    ∀ visit ∈ visits, Effect lib visit.call visit.before visit.after := by
  induction h with
  | none => simp
  | more _ hfetch ih =>
      intro visit hvisit
      rcases List.mem_append.mp hvisit with hvisit | hvisit
      · exact ih visit hvisit
      · rw [List.mem_singleton.mp hvisit]
        exact fetch_effect hfetch

/-- **The last good keys.** In a run an entry that was accepted is always
replaced by one that is accepted when it is written, exactly if every JWKS
that the delegate gives over such an entry is for the same address and has a
usable key; and then what was held once is held to the end. -/
theorem lastGood_kept_iff [RereadValues N] (hlib : Documented lib)
    (h : Fetches lib start visits last) :
    ((∀ visit ∈ visits, Preserves lib visit) ↔ ∀ visit ∈ visits, Useful lib visit) ∧
      ((∀ visit ∈ visits, Useful lib visit) → ∀ issuer uri maxStalenessSeconds,
        Held lib start issuer uri maxStalenessSeconds →
          Held lib last issuer uri maxStalenessSeconds) := by
  have heach : ∀ visit ∈ visits, (Preserves lib visit ↔ Useful lib visit) :=
    fun visit hvisit => preserves_iff hlib (h.effects visit hvisit)
  refine ⟨forall₂_congr heach, ?_⟩
  clear heach
  induction h with
  | none => exact fun _ _ _ _ hheld => hheld
  | more _ hfetch ih =>
      intro huseful issuer uri maxStalenessSeconds hheld
      have hbefore := ih (fun visit hvisit => huseful visit (List.mem_append_left _ hvisit)) issuer
        uri maxStalenessSeconds hheld
      have heffect := fetch_effect hfetch
      refine held_of_preserves heffect ?_ hbefore
      rw [preserves_iff hlib heffect]
      exact huseful _ (List.mem_append_right _ (List.mem_singleton_self _))

end Runs

end Model

namespace Small

instance : RereadValues Number where
  value_reread n hn := by
    cases n with
    | one => rw [JsonNumbers.ofLiteral_text Number.one 1 rfl one_ne_zero]
    | time => rw [JsonNumbers.ofLiteral_text Number.time 1700000000000 rfl (by norm_num)]
    | infinity => cases hn
  text_reread n hn := by
    cases n with
    | one => rw [JsonNumbers.ofLiteral_text Number.one 1 rfl one_ne_zero]
    | time => rw [JsonNumbers.ofLiteral_text Number.time 1700000000000 rfl (by norm_num)]
    | infinity => cases hn

theorem isAbsentOrString_reread (v : Option (Json Number)) :
    isAbsentOrString (v.map reread) = isAbsentOrString v := by
  match v with
  | none => rfl
  | some (.num n) => rcases reread_num n with ⟨m, hm⟩ | hm <;> rw [Option.map_some, hm] <;> rfl
  | some .null | some (.bool _) | some (.str _) | some (.arr _) | some (.obj _) => rfl

theorem isJwk_reread (jwk : Json Number) : isJwk (reread jwk) = isJwk jwk := by
  unfold isJwk
  simp only [property_reread, isAbsentOrString_reread]
  congr 1
  match property jwk "kty" with
  | none => rfl
  | some (.num n) => rcases reread_num n with ⟨m, hm⟩ | hm <;> rw [Option.map_some, hm]
  | some .null | some (.bool _) | some (.str _) | some (.arr _) | some (.obj _) => rfl

theorem library_documented : Documented library where
  safeJsonParse_eq _ := rfl
  isJwks_reread v := by
    simp only [library, property_reread]
    cases property v "keys" with
    | none => rfl
    | some keys =>
        cases keys with
        | arr xs =>
            simp only [Option.map_some, reread, rereadElements_eq, List.all_map]
            congr 1
            funext jwk
            exact isJwk_reread jwk
        | num n => rcases reread_num n with ⟨m, hm⟩ | hm <;> rw [Option.map_some, hm]
        | _ => rfl

def deps : Deps := ⟨"https://i", 604800⟩

/-- Nothing is stored yet. -/
def start : Shelf := ⟨fun _ => none, 0⟩

def envelope (jwks : Json Number) : String :=
  buildJwksEnvelope "https://i" "https://i/k" fetched.number jwks

def stored (w : Shelf) (jwks : Json Number) : Shelf :=
  ⟨Function.update w.entries "https://i" (some (envelope jwks)), 1700000000000⟩

abbrev answered (reply : Except Thrown (List UInt8)) : FetchCall := ⟨deps, "https://i/k", reply⟩

/-- A JWKS is written. -/
theorem fetch_stores {w : Shelf} {bytes : List UInt8} {jwks : Json Number}
    (hclock : w.clock ≤ 1700000000000) (hdecode : decodeJwks library bytes = some jwks) :
    (fetch library (answered (.ok bytes)).deps (answered (.ok bytes)).uri).Completes
      (Shelf.serve (answered (.ok bytes)).reply) w (.ok bytes) (stored w jwks) := by
  simp only [fetch, Prog.call_bind, Prog.completes_ask, Shelf.serve]
  refine ⟨.ok bytes, w, ⟨rfl, rfl⟩, ?_⟩
  simp only [hdecode, persist, Prog.call_bind, Prog.ask_bind, Prog.completes_ask, Shelf.serve]
  exact ⟨fetched, _, ⟨hclock, rfl⟩, .ok (), _, ⟨rfl, rfl⟩, rfl, rfl⟩

/-- The delegate fails, and the entry stays. -/
theorem fetch_fails {w : Shelf} (hclock : w.clock = 1700000000000) :
    ∃ r, (fetch library (answered (.error "down")).deps (answered (.error "down")).uri).Completes
      (Shelf.serve (answered (.error "down")).reply) w r w := by
  have hlook : ∃ cached, (tryCached library deps "https://i/k").Completes
      (Shelf.serve (.error "down")) w cached w := by
    have hserved : w.clock ≤ fetched.ms ∧ w = { w with clock := fetched.ms } :=
      ⟨le_of_eq hclock, by rw [show fetched.ms = w.clock from hclock.symm]⟩
    simp only [tryCached, Prog.call_bind, Prog.completes_ask, Shelf.serve]
    cases hread : readCachedJwks library (w.entries deps.issuer)
        ⟨deps.issuer, "https://i/k", fetched.ms, deps.maxStalenessSeconds⟩ with
    | error reason =>
        refine ⟨none, .ok (w.entries deps.issuer), w, ⟨rfl, rfl⟩, ?_⟩
        simp only [Prog.completes_ask, Shelf.serve]
        refine ⟨fetched, w, hserved, ?_⟩
        simp only [hread]
        exact ⟨rfl, rfl⟩
    | ok read =>
        refine ⟨some (encodeJwks read.1), .ok (w.entries deps.issuer), w, ⟨rfl, rfl⟩, ?_⟩
        simp only [Prog.completes_ask, Shelf.serve]
        refine ⟨fetched, w, hserved, ?_⟩
        simp only [hread]
        exact ⟨rfl, rfl⟩
  obtain ⟨cached, hcached⟩ := hlook
  simp only [fetch, Prog.call_bind, Prog.completes_ask, Shelf.serve]
  cases cached with
  | none =>
      exact ⟨.error "down", .error "down", w, ⟨rfl, rfl⟩,
        Prog.completes_bind.mpr ⟨none, w, hcached, rfl, rfl⟩⟩
  | some out =>
      exact ⟨.ok out, .error "down", w, ⟨rfl, rfl⟩,
        Prog.completes_bind.mpr ⟨some out, w, hcached, rfl, rfl⟩⟩

/-- The first keys are in the store. -/
def first : Shelf := stored start (keySet (.num .infinity))

theorem held_first : Held library first "https://i" "https://i/k" 604800 := by
  have husable : ∃ key ∈ keysOf (keySet (.num .infinity)), isUsableSigningJwk key = true :=
    ⟨_, List.mem_singleton_self _, rfl⟩
  have hentry : first.entries "https://i" = some (envelope (keySet (.num .infinity))) := by
    simp [first, stored]
  refine ⟨_, 1700000000000, hentry, le_refl _, ?_⟩
  exact accepts_written library_documented decodeJwks_body (by norm_num)
    (show 0 < fetched.ms by norm_num [fetched]) husable

theorem fetches_first : Fetches library start
    [⟨answered (.ok (Bytes.ofText body)), start, first⟩] first :=
  .more .none (fetch_stores (by norm_num [start]) decodeJwks_body)

/-- Over two failures the keys are held. -/
theorem failures_keep : ∃ visits, Fetches library first visits first ∧ visits.length = 2 ∧
    Held library first "https://i" "https://i/k" 604800 := by
  obtain ⟨r, hfails⟩ := fetch_fails (w := first) rfl
  have hrun : Fetches library first [⟨answered (.error "down"), first, first⟩,
      ⟨answered (.error "down"), first, first⟩] first :=
    .more (.more .none hfails) hfails
  refine ⟨_, hrun, rfl, ?_⟩
  refine (lastGood_kept_iff library_documented hrun).2 ?_ _ _ _ held_first
  intro visit hvisit uri maxStalenessSeconds bytes jwks _ hreply _
  have hcall : visit.call.reply = .error "down" := by
    simp only [List.mem_cons, List.not_mem_nil, or_false, or_self] at hvisit
    rw [hvisit]
  rw [hcall] at hreply
  cases hreply

/-- Well formed, and of no use. -/
def useless : Json Number := .obj [("keys", .arr [])]

def isUseless : Json Number → Bool
  | .obj [("keys", .arr [])] => true
  | _ => false

theorem decodeJwks_useless :
    decodeJwks library (Bytes.ofText "\x7b\"keys\":[]\x7d".toList) = some useless := by
  have hread : (library.safeJsonParse "\x7b\"keys\":[]\x7d".toList).any isUseless = true := by
    decide +kernel
  rw [decodeJwks, decodeUtf8_ofText, Option.bind_some]
  cases hparsed : library.safeJsonParse "\x7b\"keys\":[]\x7d".toList with
  | none =>
      rw [hparsed] at hread
      cases hread
  | some v =>
      rw [hparsed, Option.any_some] at hread
      unfold isUseless at hread
      split at hread
      · rfl
      · cases hread

/-- A document without keys takes the place of the keys. -/
theorem useless_replaces : ∃ visits last, Fetches library start visits last ∧
    ¬ ∀ visit ∈ visits, Preserves library visit := by
  have hrun := fetches_first.more
    (fetch_stores (w := first) (le_refl _) decodeJwks_useless)
  refine ⟨_, _, hrun, fun hall => ?_⟩
  have hlast := hall _ (List.mem_append_right _ (List.mem_singleton_self _))
  rw [preserves_iff library_documented (hrun.effects _
    (List.mem_append_right _ (List.mem_singleton_self _)))] at hlast
  obtain ⟨-, -, key, hkey, -⟩ := hlast _ _ _ _ held_first rfl decodeJwks_useless
  cases hkey

end Small

end SaasFoundation.Vestibulum.Verify
