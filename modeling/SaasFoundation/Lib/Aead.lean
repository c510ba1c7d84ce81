import Mathlib.Data.List.Basic

/-!
# Authenticated encryption, idealised

A cipher that opens what was encrypted under the same key and initialisation
vector, and nothing else. An envelope is the vector and the ciphertext after
it. Of several keys that are tried in order at most one opens an envelope, so
the order does not show.
-/

namespace SaasFoundation.Lib.Aead

/-- `encrypt key iv plaintext` and `decrypt key iv ciphertext`. -/
structure Cipher (ε Key : Type) where
  encrypt : Key → List UInt8 → List UInt8 → Except ε (List UInt8)
  decrypt : Key → List UInt8 → List UInt8 → Except ε (List UInt8)

variable {ε Key : Type} {cipher : Cipher ε Key} {n : Nat} {key key' : Key}
  {bytes plaintext plaintext' : List UInt8} {keys : List Key}

/-- A ciphertext carries a tag, and tells under which key it was produced. -/
structure Cipher.Ideal (cipher : Cipher ε Key) (ivLength : Nat) : Prop where
  encrypts : ∀ key iv plaintext, iv.length = ivLength →
    ∃ ciphertext, cipher.encrypt key iv plaintext = .ok ciphertext
  tagged : ∀ key iv plaintext, cipher.encrypt key iv plaintext ≠ .ok []
  decrypts : ∀ key iv ciphertext plaintext,
    cipher.decrypt key iv ciphertext = .ok plaintext ↔
      cipher.encrypt key iv plaintext = .ok ciphertext
  separate : ∀ {key key' iv ciphertext plaintext plaintext'},
    cipher.encrypt key iv plaintext = .ok ciphertext →
      cipher.encrypt key' iv plaintext' = .ok ciphertext → key = key'

/-- `bytes` are a vector of `n` bytes and what was encrypted under it. -/
def Cipher.Envelope (cipher : Cipher ε Key) (n : Nat) (key : Key)
    (plaintext bytes : List UInt8) : Prop :=
  ∃ iv ciphertext, iv.length = n ∧ cipher.encrypt key iv plaintext = .ok ciphertext ∧
    bytes = iv ++ ciphertext

/-- Whatever goes wrong, the result is the same. -/
def Cipher.openEnvelope (cipher : Cipher ε Key) (n : Nat) (key : Key) (bytes : List UInt8) :
    Option (List UInt8) :=
  if bytes.length ≤ n then none
  else (cipher.decrypt key (bytes.take n) (bytes.drop n)).toOption

/-- The keys in order, until one opens. -/
def Cipher.openAny (cipher : Cipher ε Key) (n : Nat) (keys : List Key) (bytes : List UInt8) :
    Option (List UInt8) :=
  keys.findSome? fun key => cipher.openEnvelope n key bytes

namespace Cipher.Ideal

theorem openEnvelope_eq_some_iff (h : cipher.Ideal n) :
    cipher.openEnvelope n key bytes = some plaintext ↔
      cipher.Envelope n key plaintext bytes := by
  constructor
  · intro hopen
    unfold openEnvelope at hopen
    split at hopen
    · cases hopen
    · rename_i hlength
      cases hdecrypt : cipher.decrypt key (bytes.take n) (bytes.drop n) with
      | error err =>
          rw [hdecrypt] at hopen
          cases hopen
      | ok decrypted =>
          rw [hdecrypt] at hopen
          cases hopen
          exact ⟨bytes.take n, bytes.drop n, by rw [List.length_take]; omega,
            (h.decrypts ..).mp hdecrypt, (List.take_append_drop n bytes).symm⟩
  · rintro ⟨iv, ciphertext, hlength, hencrypt, rfl⟩
    have hlong : ¬(iv ++ ciphertext).length ≤ n := by
      cases ciphertext with
      | nil => exact absurd hencrypt (h.tagged _ _ _)
      | cons b ciphertext =>
          rw [List.length_append, List.length_cons]
          omega
    rw [openEnvelope, if_neg hlong, ← hlength, List.take_left, List.drop_left,
      (h.decrypts ..).mpr hencrypt]
    rfl

theorem envelope_unique (h : cipher.Ideal n) (he : cipher.Envelope n key plaintext bytes)
    (he' : cipher.Envelope n key' plaintext' bytes) : key = key' ∧ plaintext = plaintext' := by
  have hkey : key = key' := by
    obtain ⟨iv, ciphertext, hlength, hencrypt, rfl⟩ := he
    obtain ⟨iv', ciphertext', hlength', hencrypt', hbytes⟩ := he'
    obtain ⟨rfl, rfl⟩ := List.append_inj hbytes (by rw [hlength, hlength'])
    exact h.separate hencrypt hencrypt'
  subst hkey
  have hopen := h.openEnvelope_eq_some_iff.mpr he
  rw [h.openEnvelope_eq_some_iff.mpr he'] at hopen
  exact ⟨rfl, (Option.some.inj hopen).symm⟩

theorem openAny_eq_some_iff (h : cipher.Ideal n) :
    cipher.openAny n keys bytes = some plaintext ↔
      ∃ key ∈ keys, cipher.Envelope n key plaintext bytes := by
  induction keys with
  | nil => simp [openAny]
  | cons key keys ih =>
      cases hopen : cipher.openEnvelope n key bytes with
      | none =>
          have hnot : ¬cipher.Envelope n key plaintext bytes := by
            rw [← h.openEnvelope_eq_some_iff, hopen]
            exact nofun
          have hskip : cipher.openAny n (key :: keys) bytes = cipher.openAny n keys bytes := by
            rw [openAny, List.findSome?_cons, hopen]
            rfl
          rw [hskip, ih]
          simp [hnot]
      | some opened =>
          have hfirst : cipher.openAny n (key :: keys) bytes = some opened := by
            rw [openAny, List.findSome?_cons, hopen]
          have henvelope := h.openEnvelope_eq_some_iff.mp hopen
          rw [hfirst]
          constructor
          · intro heq
            cases heq
            exact ⟨key, List.mem_cons_self, henvelope⟩
          · rintro ⟨key', -, henvelope'⟩
            rw [(h.envelope_unique henvelope henvelope').2]

theorem openAny_eq_none_iff (h : cipher.Ideal n) :
    cipher.openAny n keys bytes = none ↔
      ∀ key ∈ keys, ∀ plaintext, ¬cipher.Envelope n key plaintext bytes := by
  constructor
  · intro hnone key hkey plaintext henvelope
    rw [h.openAny_eq_some_iff.mpr ⟨key, hkey, henvelope⟩] at hnone
    cases hnone
  · intro hall
    cases hopen : cipher.openAny n keys bytes with
    | none => rfl
    | some plaintext =>
        obtain ⟨key, hkey, henvelope⟩ := h.openAny_eq_some_iff.mp hopen
        exact absurd henvelope (hall key hkey plaintext)

end Cipher.Ideal

end SaasFoundation.Lib.Aead
