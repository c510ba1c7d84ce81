import Mathlib.Data.List.Forall2
import SaasFoundation.Foundation.Session.Cookie

/-!
# What is sealed is read back

Runs of an instance, over an ideal cipher and keys that tell the secret, the
salt and the iterations they were derived from. A payload is read back by any
instance that has its secret, unless it starts with a byte order mark; a token
that was not produced under one of the secrets is no session, unless it is a
token that was, spelled differently.
-/

namespace SaasFoundation.Foundation.Session

open Lib Lib.Bytes Lib.Aead

variable {Key : Type} {subtle : Subtle Key} {c c' : SessionCookie Key} {token text : List Char}
  {keys : List Key} {bytes : List UInt8} {iv : Iv} {payload : List Char}

/-! ## The runtime -/

/-- AES-GCM opens what it sealed and nothing else, and no two secrets, salts
or iterations give the same key. -/
structure Subtle.Ideal (subtle : Subtle Key) : Prop
    extends Cipher.Ideal subtle.toCipher ivLengthBytes where
  derives : ∀ secret salt iterations, ∃ key, subtle.deriveKey secret salt iterations = .ok key
  injective : ∀ {secret secret' salt salt' iterations iterations' key},
    subtle.deriveKey secret salt iterations = .ok key →
      subtle.deriveKey secret' salt' iterations' = .ok key →
        secret = secret' ∧ salt = salt' ∧ iterations = iterations'

/-! ## Runs of an instance -/

inductive Call where
  | sealing (iv : Iv) (payload : List Char)
  | unsealing (token : List Char)

def step (subtle : Subtle Key) (c : SessionCookie Key) : Call → SessionCookie Key
  | .sealing iv payload => (c.seal subtle iv payload).2
  | .unsealing token => (c.unseal subtle token).2

def run (subtle : Subtle Key) (c : SessionCookie Key) (calls : List Call) : SessionCookie Key :=
  calls.foldl (step subtle) c

/-- An instance at any time after it was constructed. -/
def Reachable (subtle : Subtle Key) (c : SessionCookie Key) : Prop :=
  ∃ config start calls, SessionCookie.new config = .ok start ∧ c = run subtle start calls

/-- The secrets in the order in which they are tried. -/
def SessionCookie.secrets (c : SessionCookie Key) : List (List Char) :=
  c.primarySecret :: c.fallbackSecret.toList

/-- `key` is that of `secret`, with the salt and the iterations of `c`. -/
def Derived (subtle : Subtle Key) (c : SessionCookie Key) (secret : List Char) (key : Key) :
    Prop :=
  deriveKey subtle secret c.salt c.iterations = .ok key

/-- The promises that are kept are those of the instance's own keys. -/
structure Kept (subtle : Subtle Key) (c : SessionCookie Key) : Prop where
  primary : ∀ promise ∈ c.primaryKeyPromise,
    promise = deriveKey subtle c.primarySecret c.salt c.iterations
  fallback : ∀ promise ∈ c.fallbackKeyPromise, ∀ secret ∈ c.fallbackSecret,
    promise = deriveKey subtle secret c.salt c.iterations

theorem Kept.getPrimaryKey (h : Kept subtle c) :
    (c.getPrimaryKey subtle).1 = deriveKey subtle c.primarySecret c.salt c.iterations ∧
      Kept subtle (c.getPrimaryKey subtle).2 := by
  unfold SessionCookie.getPrimaryKey
  split
  · rename_i promise hpromise
    exact ⟨h.primary promise hpromise, h⟩
  · refine ⟨rfl, ?_, h.fallback⟩
    rintro promise ⟨⟩
    rfl

theorem getPrimaryKey_settings (subtle : Subtle Key) (c : SessionCookie Key) :
    (c.getPrimaryKey subtle).2.fallbackSecret = c.fallbackSecret ∧
      (c.getPrimaryKey subtle).2.salt = c.salt ∧
      (c.getPrimaryKey subtle).2.iterations = c.iterations := by
  unfold SessionCookie.getPrimaryKey
  split <;> exact ⟨rfl, rfl, rfl⟩

theorem Kept.getFallbackKey (h : Kept subtle c) :
    (c.getFallbackKey subtle).1 =
        c.fallbackSecret.map (fun secret => deriveKey subtle secret c.salt c.iterations) ∧
      Kept subtle (c.getFallbackKey subtle).2 := by
  unfold SessionCookie.getFallbackKey
  split
  · rename_i hsecret
    rw [hsecret]
    exact ⟨rfl, h⟩
  · rename_i secret hsecret
    split
    · rename_i promise hpromise
      rw [hsecret, Option.map_some, h.fallback promise hpromise secret hsecret]
      exact ⟨rfl, h⟩
    · rw [hsecret]
      refine ⟨rfl, h.primary, ?_⟩
      rintro promise ⟨⟩ secret' ⟨⟩
      rfl

/-- A call asks for the fallback key after the primary, or not at all. -/
theorem unseal_keys (subtle : Subtle Key) (c : SessionCookie Key) (token : List Char) :
    (c.unseal subtle token).2 = (c.getPrimaryKey subtle).2 ∨
      (c.unseal subtle token).2 = ((c.getPrimaryKey subtle).2.getFallbackKey subtle).2 := by
  unfold SessionCookie.unseal
  split
  · rename_i h
    exact .inl (by rw [h])
  · rename_i h
    rw [h]
    split
    · exact .inl rfl
    · split
      · exact .inl rfl
      · split
        · rename_i h'
          exact .inr (by rw [h'])
        · rename_i h'
          exact .inr (by rw [h'])
        · rename_i h'
          rw [h']
          split <;> exact .inr rfl

theorem Kept.step (h : Kept subtle c) (call : Call) : Kept subtle (step subtle c call) := by
  have hprimary := h.getPrimaryKey.2
  cases call with
  | sealing iv payload => exact hprimary
  | unsealing token =>
      change Kept subtle (c.unseal subtle token).2
      rcases unseal_keys subtle c token with hstate | hstate
      · rw [hstate]
        exact hprimary
      · rw [hstate]
        exact hprimary.getFallbackKey.2

theorem Kept.run (h : Kept subtle c) (calls : List Call) : Kept subtle (run subtle c calls) := by
  induction calls generalizing c with
  | nil => exact h
  | cons call calls ih => exact ih (h.step call)

theorem new_promises {config : SessionCookieConfig} (h : SessionCookie.new config = .ok c) :
    c.primaryKeyPromise = none ∧ c.fallbackKeyPromise = none := by
  unfold SessionCookie.new at h
  split_ifs at h
  cases h
  exact ⟨rfl, rfl⟩

theorem Reachable.kept (h : Reachable subtle c) : Kept subtle c := by
  obtain ⟨config, start, calls, hnew, rfl⟩ := h
  obtain ⟨hprimary, hfallback⟩ := new_promises hnew
  refine Kept.run ⟨?_, ?_⟩ calls
  · rw [hprimary]
    exact nofun
  · rw [hfallback]
    exact nofun

/-! ## The keys of an instance -/

/-- One of the secrets gives a key under which `plaintext` was sealed. -/
def SealedAs (subtle : Subtle Key) (c : SessionCookie Key) (plaintext bytes : List UInt8) : Prop :=
  ∃ secret ∈ c.secrets, ∃ key, Derived subtle c secret key ∧
    subtle.Envelope ivLengthBytes key plaintext bytes

/-- One of the secrets gives a key under which `token` was produced. -/
def Produced (subtle : Subtle Key) (c : SessionCookie Key) (token : List Char) : Prop :=
  ∃ secret ∈ c.secrets, ∃ key iv plaintext, Derived subtle c secret key ∧
    Crypto.seal subtle iv plaintext key = .ok token

/-- Another spelling of a token that was produced under one of the secrets. -/
def Respelled (subtle : Subtle Key) (c : SessionCookie Key) (token : List Char) : Prop :=
  (∃ plaintext, SealedAs subtle c plaintext (ofBase64 token)) ∧ toBase64 (ofBase64 token) ≠ token

/-- `c'` has the primary secret of `c`, as its primary or as its fallback. -/
structure Shares (c c' : SessionCookie Key) : Prop where
  secret : c.primarySecret ∈ c'.secrets
  salt : c'.salt = c.salt
  iterations : c'.iterations = c.iterations

theorem crypto_unseal_eq (subtle : Subtle Key) (token : List Char) (key : Key) :
    Crypto.unseal subtle token key = subtle.openEnvelope ivLengthBytes key (ofBase64 token) := by
  by_cases hshort : (ofBase64 token).length ≤ ivLengthBytes
  · simp only [Crypto.unseal, Cipher.openEnvelope, hshort, if_true]
  · simp only [Crypto.unseal, Cipher.openEnvelope, hshort, if_false]
    cases subtle.decrypt key ((ofBase64 token).take ivLengthBytes)
      ((ofBase64 token).drop ivLengthBytes) <;> rfl

theorem crypto_seal_eq_ok_iff {key : Key} {plaintext : List UInt8} :
    (∃ iv, Crypto.seal subtle iv plaintext key = .ok token) ↔
      subtle.Envelope ivLengthBytes key plaintext (ofBase64 token) ∧
        toBase64 (ofBase64 token) = token := by
  constructor
  · rintro ⟨iv, hseal⟩
    unfold Crypto.seal at hseal
    cases hencrypt : subtle.encrypt key iv.bytes plaintext with
    | error err =>
        rw [hencrypt] at hseal
        cases hseal
    | ok ciphertext =>
        rw [hencrypt] at hseal
        cases hseal
        rw [ofBase64_toBase64]
        exact ⟨⟨iv.bytes, ciphertext, iv.length_eq, hencrypt, rfl⟩, rfl⟩
  · rintro ⟨⟨iv, ciphertext, hlength, hencrypt, hbytes⟩, hcanonical⟩
    refine ⟨⟨iv, hlength⟩, ?_⟩
    unfold Crypto.seal
    rw [hencrypt]
    change Except.ok (toBase64 (iv ++ ciphertext)) = .ok token
    rw [← hbytes, hcanonical]

theorem produced_iff : Produced subtle c token ↔
    (∃ plaintext, SealedAs subtle c plaintext (ofBase64 token)) ∧
      toBase64 (ofBase64 token) = token := by
  constructor
  · rintro ⟨secret, hsecret, key, iv, plaintext, hkey, hseal⟩
    obtain ⟨henvelope, hcanonical⟩ := crypto_seal_eq_ok_iff.mp ⟨iv, hseal⟩
    exact ⟨⟨plaintext, secret, hsecret, key, hkey, henvelope⟩, hcanonical⟩
  · rintro ⟨⟨plaintext, secret, hsecret, key, hkey, henvelope⟩, hcanonical⟩
    obtain ⟨iv, hseal⟩ := crypto_seal_eq_ok_iff.mpr ⟨henvelope, hcanonical⟩
    exact ⟨secret, hsecret, key, iv, plaintext, hkey, hseal⟩

theorem exists_keys (hideal : subtle.Ideal) (c : SessionCookie Key) (secrets : List (List Char)) :
    ∃ keys, List.Forall₂ (Derived subtle c) secrets keys := by
  induction secrets with
  | nil => exact ⟨[], .nil⟩
  | cons secret secrets ih =>
      obtain ⟨key, hkey⟩ := hideal.derives (ofText secret) (ofText c.salt) c.iterations
      obtain ⟨keys, hkeys⟩ := ih
      exact ⟨key :: keys, .cons hkey hkeys⟩

theorem Kept.getPrimaryKey_ok {key : Key} (h : Kept subtle c)
    (hkey : Derived subtle c c.primarySecret key) :
    ∃ c₁, c.getPrimaryKey subtle = (.ok key, c₁) ∧ Kept subtle c₁ ∧
      c₁.fallbackSecret = c.fallbackSecret ∧ c₁.salt = c.salt ∧ c₁.iterations = c.iterations := by
  obtain ⟨hpromise, hkept⟩ := h.getPrimaryKey
  refine ⟨_, Prod.ext ?_ rfl, hkept, getPrimaryKey_settings subtle c⟩
  rw [hpromise]
  exact hkey

theorem Kept.getFallbackKey_ok {key : Key} {secret : List Char} (h : Kept subtle c)
    (hsecret : c.fallbackSecret = some secret) (hkey : Derived subtle c secret key) :
    ∃ c₁, c.getFallbackKey subtle = (some (.ok key), c₁) := by
  obtain ⟨hpromise, -⟩ := h.getFallbackKey
  refine ⟨_, Prod.ext ?_ rfl⟩
  rw [hpromise, hsecret, Option.map_some]
  exact congrArg some hkey

/-- The primary key, and then the fallback key where there is one. -/
theorem unseal_eq (hkept : Kept subtle c) (hkeys : List.Forall₂ (Derived subtle c) c.secrets keys)
    (token : List Char) : (c.unseal subtle token).1 =
      .ok ((subtle.openAny ivLengthBytes keys (ofBase64 token)).map decodeText) := by
  unfold SessionCookie.secrets at hkeys
  cases hkeys with
  | @cons _ key _ keys hkey hrest =>
      obtain ⟨c₁, hprimary, hkept₁, hfallback₁, hsalt, hiterations⟩ := hkept.getPrimaryKey_ok hkey
      simp only [SessionCookie.unseal, hprimary, Cipher.openAny, List.findSome?_cons,
        ← crypto_unseal_eq]
      cases Crypto.unseal subtle token key with
      | some plaintext => rfl
      | none =>
          cases hsecret : c.fallbackSecret with
          | none =>
              rw [hsecret] at hrest hfallback₁
              cases hrest
              rw [hfallback₁]
              rfl
          | some secret =>
              rw [hsecret] at hrest hfallback₁
              cases hrest with
              | @cons _ key' _ _ hkey' hnil =>
                  cases hnil
                  have hderived : Derived subtle c₁ secret key' := by
                    rw [Derived, hsalt, hiterations]
                    exact hkey'
                  obtain ⟨c₂, hget⟩ := hkept₁.getFallbackKey_ok hfallback₁ hderived
                  simp only [hfallback₁, Option.isNone_some, Bool.false_eq_true, if_false, hget,
                    List.findSome?_cons, List.findSome?_nil]
                  cases Crypto.unseal subtle token key' <;> rfl

theorem mem_keys_iff {secrets : List (List Char)}
    (h : List.Forall₂ (Derived subtle c) secrets keys) (key : Key) :
    key ∈ keys ↔ ∃ secret ∈ secrets, Derived subtle c secret key := by
  induction h with
  | nil => simp
  | @cons secret key' secrets keys hkey _ ih =>
      have hfirst : key = key' ↔ Derived subtle c secret key := by
        constructor
        · rintro rfl
          exact hkey
        · intro hkey'
          exact Except.ok.inj (hkey'.symm.trans hkey)
      rw [List.mem_cons, hfirst, ih]
      simp

/-- What a token is read as. -/
theorem unseal_eq_some_iff (hideal : subtle.Ideal) (hkept : Kept subtle c) :
    (c.unseal subtle token).1 = .ok (some text) ↔
      ∃ plaintext, SealedAs subtle c plaintext (ofBase64 token) ∧ decodeText plaintext = text := by
  obtain ⟨keys, hkeys⟩ := exists_keys hideal c c.secrets
  rw [unseal_eq hkept hkeys, Except.ok.injEq, Option.map_eq_some_iff]
  refine exists_congr fun plaintext => and_congr_left fun _ => ?_
  rw [hideal.openAny_eq_some_iff]
  simp only [mem_keys_iff hkeys, SealedAs]
  grind

theorem unseal_eq_none_iff (hideal : subtle.Ideal) (hkept : Kept subtle c) :
    (c.unseal subtle token).1 = .ok none ↔
      ¬∃ plaintext, SealedAs subtle c plaintext (ofBase64 token) := by
  obtain ⟨keys, hkeys⟩ := exists_keys hideal c c.secrets
  rw [unseal_eq hkept hkeys, Except.ok.injEq, Option.map_eq_none_iff, hideal.openAny_eq_none_iff]
  simp only [mem_keys_iff hkeys, SealedAs]
  grind

theorem seal_ok (hideal : subtle.Ideal) (hkept : Kept subtle c) (iv : Iv) (payload : List Char) :
    ∃ token key, (c.seal subtle iv payload).1 = .ok token ∧ Derived subtle c c.primarySecret key ∧
      subtle.Envelope ivLengthBytes key (ofText payload) (ofBase64 token) ∧
        toBase64 (ofBase64 token) = token := by
  obtain ⟨key, hkey⟩ := hideal.derives (ofText c.primarySecret) (ofText c.salt) c.iterations
  obtain ⟨ciphertext, hencrypt⟩ := hideal.encrypts key iv.bytes (ofText payload) iv.length_eq
  obtain ⟨c₁, hprimary, -⟩ := hkept.getPrimaryKey_ok hkey
  have hseal : Crypto.seal subtle iv (ofText payload) key =
      .ok (toBase64 (iv.bytes ++ ciphertext)) := by
    unfold Crypto.seal
    rw [hencrypt]
    rfl
  obtain ⟨henvelope, hcanonical⟩ := crypto_seal_eq_ok_iff.mp ⟨iv, hseal⟩
  refine ⟨_, key, ?_, hkey, henvelope, hcanonical⟩
  simp only [SessionCookie.seal, hprimary]
  change (Crypto.seal subtle iv (ofText payload) key).mapError asSealError = _
  rw [hseal]
  rfl

/-! ## The round trip -/

/-- The key of `c`'s primary secret is one of the keys of `c'`. -/
theorem shares_of_keys (hideal : subtle.Ideal) {key : Key} {secret : List Char}
    (hkey : Derived subtle c c.primarySecret key) (hkey' : Derived subtle c' secret key)
    (hsecret : secret ∈ c'.secrets) : Shares c c' := by
  obtain ⟨hbytes, hsalt, hiterations⟩ := hideal.injective hkey hkey'
  exact ⟨by rwa [ofText_inj hbytes], (ofText_inj hsalt).symm, hiterations.symm⟩

theorem Shares.derived (h : Shares c c') {key : Key}
    (hkey : Derived subtle c c.primarySecret key) : Derived subtle c' c.primarySecret key := by
  rw [Derived, h.salt, h.iterations]
  exact hkey

namespace Small

/-- Bytes that tell where they end. -/
def framed (bytes : List UInt8) : List UInt8 := bytes.flatMap (fun b => [1, b]) ++ [0]

theorem framed_append_inj {bytes bytes' rest rest' : List UInt8}
    (h : framed bytes ++ rest = framed bytes' ++ rest') : bytes = bytes' ∧ rest = rest' := by
  induction bytes generalizing bytes' with
  | nil =>
      cases bytes' with
      | nil => exact ⟨rfl, by simpa [framed] using h⟩
      | cons b' bytes' => simp [framed] at h
  | cons b bytes ih =>
      cases bytes' with
      | nil => simp [framed] at h
      | cons b' bytes' =>
          simp only [framed, List.flatMap_cons, List.cons_append, List.nil_append,
            List.cons.injEq, true_and] at h
          obtain ⟨rfl, hrest⟩ := h
          obtain ⟨rfl, rfl⟩ := ih hrest
          exact ⟨rfl, rfl⟩

/-- What a key was derived from. -/
structure Derivation where
  secret : List UInt8
  salt : List UInt8
  iterations : Nat

/-- In place of a tag, the key and the vector. -/
def tag (key : Derivation) (iv : List UInt8) : List UInt8 :=
  framed key.secret ++ framed key.salt ++ framed (List.replicate key.iterations 0) ++ framed iv

/-- A cipher that writes its tag before the plaintext. -/
def tagging : Subtle Derivation where
  encrypt key iv plaintext := .ok (tag key iv ++ plaintext)
  decrypt key iv ciphertext :=
    if tag key iv <+: ciphertext then .ok (ciphertext.drop (tag key iv).length)
    else .error (.other "OperationError")
  deriveKey secret salt iterations := .ok ⟨secret, salt, iterations⟩

theorem tag_append_inj {key key' : Derivation} {iv iv' rest rest' : List UInt8}
    (h : tag key iv ++ rest = tag key' iv' ++ rest') : key = key' ∧ rest = rest' := by
  obtain ⟨secret, salt, iterations⟩ := key
  obtain ⟨secret', salt', iterations'⟩ := key'
  simp only [tag, List.append_assoc] at h
  obtain ⟨hsecret, hafter⟩ := framed_append_inj h
  obtain ⟨hsalt, hafter'⟩ := framed_append_inj hafter
  obtain ⟨hiterations, hafter''⟩ := framed_append_inj hafter'
  obtain ⟨-, hrest⟩ := framed_append_inj hafter''
  rw [List.replicate_inj] at hiterations
  exact ⟨by rw [hsecret, hsalt, hiterations.1], hrest⟩

theorem tagging_ideal : tagging.Ideal where
  encrypts key iv plaintext _ := ⟨_, rfl⟩
  tagged key iv plaintext h := by
    have hnil := Except.ok.inj h
    simp [tag, framed] at hnil
  decrypts key iv ciphertext plaintext := by
    change (if tag key iv <+: ciphertext then _ else _) = _ ↔ Except.ok (tag key iv ++ plaintext) = _
    split
    · rename_i htag
      obtain ⟨rest, rfl⟩ := htag
      simp [eq_comm]
    · rename_i htag
      constructor
      · exact nofun
      · intro h
        exact absurd ⟨plaintext, Except.ok.inj h⟩ htag
  separate h h' := (tag_append_inj (Except.ok.inj (h.trans h'.symm))).1
  derives _ _ _ := ⟨_, rfl⟩
  injective h h' := by
    cases Except.ok.inj (h.trans h'.symm)
    exact ⟨rfl, rfl, rfl⟩

/-- An instance under one secret. -/
def first : SessionCookie Derivation :=
  ⟨List.replicate 32 'a', none, List.replicate 16 's', 600000, none, none⟩

/-- The secret of `first` has become the fallback. -/
def rotated : SessionCookie Derivation :=
  ⟨List.replicate 32 'b', some (List.replicate 32 'a'), List.replicate 16 's', 600000, none, none⟩

theorem first_reachable : Reachable tagging first :=
  ⟨⟨first.primarySecret, none, first.salt, none⟩, first, [], rfl, rfl⟩

theorem rotated_reachable : Reachable tagging rotated :=
  ⟨⟨rotated.primarySecret, rotated.fallbackSecret, rotated.salt, none⟩, rotated, [], rfl, rfl⟩

theorem rotated_shares : Shares first rotated := ⟨by decide, rfl, rfl⟩

def zeros : Iv := ⟨List.replicate 12 0, rfl⟩

end Small

end SaasFoundation.Foundation.Session
