import SharedAi.ServiceKit.Admission

/-!
# Keys and their identifiers

A receiver takes the public key of its issuer as a key, as raw bytes or as text, and may derive the identifier of the
key from it.

* `WritesKey`, `coercePublicKey_eq_ok` — the ways to write a key, which are all that is taken;
* `ed25519PublicKeyId`, `keyIdOf_eq_iff` — the identifier, which tells keys apart as far as half of SHA-256 does;
* `derivedVerifier_unique` — receivers with one key are one verifier, however it is written, and receivers with
  different keys accept no token in common.
-/

namespace SharedAi.ServiceKit

open SharedAi.Control SharedAi.Num SharedAi.Python SharedAi.Text

/-! ### Writing a key -/

/-- The ways to write a key: itself, its bytes, or their base64url with white space around it. -/
inductive WritesKey (key : Ed25519PublicKey) : PublicKeyArg → Prop where
  | key : WritesKey key (.key key)
  | raw : WritesKey key (.raw key.raw)
  | text {before after : Str} (hb : ∀ c ∈ before, c.isSpace = true) (ha : ∀ c ∈ after, c.isSpace = true) :
      WritesKey key (.text (before ++ (b64urlEncode key.raw ++ after)))

section Strip

variable {before s after : Str}

/-- A text is its stripped part, with white space around it. -/
theorem exists_strip (s : Str) : ∃ before after : Str, s = before ++ (s.strip ++ after) ∧
    (∀ c ∈ before, c.isSpace = true) ∧ ∀ c ∈ after, c.isSpace = true := by
  refine ⟨s.takeWhile PyChar.isSpace, (s.dropWhile PyChar.isSpace).rtakeWhile PyChar.isSpace, ?_, ?_, ?_⟩
  · rw [Str.strip, List.rdropWhile_append_rtakeWhile, List.takeWhile_append_dropWhile]
  · intro c hc
    exact List.mem_takeWhile_imp hc
  · intro c hc
    exact List.mem_rtakeWhile_imp hc

/-- White space is stripped from around a text that has none. -/
theorem strip_around (hs : ∀ c ∈ s, c.isSpace = false) (hb : ∀ c ∈ before, c.isSpace = true)
    (ha : ∀ c ∈ after, c.isSpace = true) : Str.strip (before ++ (s ++ after)) = s := by
  have hall : ∀ c ∈ after.reverse, c.isSpace = true := fun c hc => ha c (List.mem_reverse.1 hc)
  have hafter : (s ++ after).rdropWhile PyChar.isSpace = s.rdropWhile PyChar.isSpace := by
    rw [List.rdropWhile, List.reverse_append, List.dropWhile_append_of_pos hall, List.rdropWhile]
  rw [Str.strip, List.dropWhile_append_of_pos hb, ← Str.dropWhile_rdropWhile, hafter, Str.dropWhile_rdropWhile]
  exact Str.trimmed_of_not_space hs

end Strip

section Key

variable {key key₁ key₂ : Ed25519PublicKey} {arg : PublicKeyArg}

theorem publicKeyFromRaw_eq_ok {raw : Bytes} : publicKeyFromRaw raw = .ok key ↔ raw = key.raw := by
  unfold publicKeyFromRaw
  split
  · next h =>
    rw [Except.ok.injEq]
    constructor
    · rintro rfl
      rfl
    · rintro rfl
      rfl
  · next h =>
    simp only [reduceCtorEq, false_iff]
    rintro rfl
    exact h key.length_eq

/-- **A key is taken exactly where it is written in one of the three ways.** -/
theorem coercePublicKey_eq_ok : coercePublicKey arg = .ok key ↔ WritesKey key arg := by
  have hne : key.raw ≠ [] := List.ne_nil_of_length_pos (key.length_eq ▸ by omega)
  constructor
  · intro h
    cases arg with
    | key k => exact Except.ok.inj h ▸ .key
    | raw b => exact publicKeyFromRaw_eq_ok.1 h ▸ .raw
    | text s =>
      obtain ⟨raw, hraw, h⟩ := bind_eq_ok.1 h
      obtain ⟨htext, -⟩ := b64urlDecode_eq_ok.1 hraw
      rw [publicKeyFromRaw_eq_ok.1 h] at htext
      obtain ⟨before, after, hs, hb, ha⟩ := exists_strip s
      rw [hs, htext]
      exact .text hb ha
    | other => cases h
  · rintro (- | - | ⟨hb, ha⟩)
    · rfl
    · exact publicKeyFromRaw_eq_ok.2 rfl
    · -- base64url has no white space
      have hspace : ∀ c ∈ b64urlEncode key.raw, c.isSpace = false := fun c hc =>
        (mem_compactToken (b := key.raw) (s := []) (List.mem_append_left _ hc)).1
      refine bind_eq_ok.2 ⟨key.raw, ?_, publicKeyFromRaw_eq_ok.2 rfl⟩
      rw [strip_around hspace hb ha]
      exact b64urlDecode_encode hne

end Key

/-! ### Identifiers -/

/-- The identifier of a key: `f"ed25519:{hashlib.sha256(raw).hexdigest()[:32]}"`. -/
def keyIdOf (crypto : Crypto) (key : Ed25519PublicKey) : Str :=
  str "ed25519:" ++ (crypto.sha256 key.raw).hexdigest.take 32

/-- `ed25519_public_key_id`. -/
def ed25519PublicKeyId (crypto : Crypto) (value : PublicKeyArg) : Except Exn Str :=
  (coercePublicKey value).map (keyIdOf crypto)

/-- The verifier of a receiver that derives the identifier of its key. -/
def derivedVerifier (crypto : Crypto) (issuer audience : Str) (publicKey : PublicKeyArg) :
    Except Exn CapabilityGrantVerifier := do
  let keyId ← ed25519PublicKeyId crypto publicKey
  CapabilityGrantVerifier.make (.str issuer) (.str keyId) (.str audience) publicKey

section Identifier

variable {crypto : Crypto} {key key₁ key₂ : Ed25519PublicKey} {arg : PublicKeyArg} {issuer audience : Str}

theorem take_flatMap_hexByte (b : Bytes) (n : ℕ) : (b.flatMap hexByte).take (2 * n) = (b.take n).flatMap hexByte := by
  induction b generalizing n with
  | nil => simp
  | cons x b ih =>
    cases n with
    | zero => simp
    | succ n =>
      have hn : 2 * (n + 1) = (hexByte x).length + 2 * n := by
        show 2 * (n + 1) = 2 + 2 * n
        omega
      rw [List.flatMap_cons, hn, List.take_length_add_append, ih, List.take_succ_cons, List.flatMap_cons]

/-- Keys share their identifier exactly where they share the first half of their hash. -/
theorem keyIdOf_eq_iff : keyIdOf crypto key₁ = keyIdOf crypto key₂ ↔
    (crypto.sha256 key₁.raw).bytes.take 16 = (crypto.sha256 key₂.raw).bytes.take 16 := by
  have htake : ∀ d : Digest, d.hexdigest.take 32 = (d.bytes.take 16).flatMap hexByte := fun d =>
    take_flatMap_hexByte d.bytes 16
  unfold keyIdOf
  rw [List.append_cancel_left_eq, htake, htake]
  constructor
  · exact flatMap_hexByte_injective
  · intro h
    rw [h]

/-- An identifier is a configured text, and one that a claim can hold. -/
theorem isConfigText_keyIdOf (crypto : Crypto) (key : Ed25519PublicKey) :
    isConfigText (keyIdOf crypto key) = true ∧ validStr 1 200 (keyIdOf crypto key) = true := by
  have hhash := isHash_hexdigest (crypto.sha256 key.raw)
  simp only [isHash, Bool.and_eq_true, beq_iff_eq, List.all_eq_true] at hhash
  have hhex : ∀ c : PyChar, isLowerHex c = true → c.isSpace = false ∧ c.isSurrogate = false := by
    intro c hc
    simp only [isLowerHex, PyChar.isDigit, Bool.or_eq_true, Bool.and_eq_true, decide_eq_true_eq] at hc
    cases c with
    | scalar c =>
      refine ⟨?_, rfl⟩
      simp only [PyChar.isSpace, Bool.or_eq_false_iff, Bool.and_eq_false_iff, decide_eq_false_iff_not,
        beq_eq_false_iff_ne]
      omega
    | surrogate s =>
      have hord : 0xD800 ≤ (PyChar.surrogate s).ord := Nat.le_add_right ..
      omega
  have hchars : ∀ c ∈ keyIdOf crypto key, c.isSpace = false ∧ c.isSurrogate = false := by
    intro c hc
    rcases List.mem_append.1 hc with hc | hc
    · have hprefix : ∀ c ∈ str "ed25519:", c.isSpace = false ∧ c.isSurrogate = false := by decide +kernel
      exact hprefix c hc
    · exact hhex c (hhash.2 c (List.mem_of_mem_take hc))
  have hlength : (keyIdOf crypto key).length = 40 := by
    unfold keyIdOf
    rw [List.length_append, List.length_take, hhash.1]
    rfl
  constructor
  · have htrimmed := Str.trimmed_of_not_space fun c hc => (hchars c hc).1
    have hne : keyIdOf crypto key ≠ [] := by simp [keyIdOf, str]
    simp [isConfigText, htrimmed, hne]
  · have hnone : noSurrogate (keyIdOf crypto key) = true := by
      rw [noSurrogate, List.all_eq_true]
      intro c hc
      rw [(hchars c hc).2]
      rfl
    simp [validStr, hnone, hlength]

structure DerivedFrom (crypto : Crypto) (issuer audience : Str) (key : Ed25519PublicKey)
    (v : CapabilityGrantVerifier) : Prop where
  issuer : v.issuer = issuer
  keyId : v.keyId = keyIdOf crypto key
  audience : v.audience = audience
  publicKey : v.publicKey = key

variable (crypto) in
theorem derivedVerifier_of_writesKey (hi : isConfigText issuer = true) (ha : isConfigText audience = true)
    (h : WritesKey key arg) :
    ∃ v, derivedVerifier crypto issuer audience arg = .ok v ∧ DerivedFrom crypto issuer audience key v := by
  have hkey := coercePublicKey_eq_ok.2 h
  have hid := (isConfigText_keyIdOf crypto key).1
  refine ⟨⟨issuer, keyIdOf crypto key, audience, key, by rw [hi, hid, ha]; rfl⟩, ?_, ⟨rfl, rfl, rfl, rfl⟩⟩
  unfold derivedVerifier ed25519PublicKeyId
  rw [hkey]
  show CapabilityGrantVerifier.make (.str issuer) (.str (keyIdOf crypto key)) (.str audience) arg = _
  rw [← CapabilityGrantVerifier.make_self ⟨issuer, keyIdOf crypto key, audience, key, _⟩]
  unfold CapabilityGrantVerifier.make
  rw [hkey]
  rfl

theorem DerivedFrom.unique {v₁ v₂ : CapabilityGrantVerifier} (h₁ : DerivedFrom crypto issuer audience key v₁)
    (h₂ : DerivedFrom crypto issuer audience key v₂) : v₁ = v₂ := by
  have hissuer := h₁.issuer.trans h₂.issuer.symm
  have hkeyId := h₁.keyId.trans h₂.keyId.symm
  have haudience := h₁.audience.trans h₂.audience.symm
  have hkey := h₁.publicKey.trans h₂.publicKey.symm
  cases v₁
  cases v₂
  cases hissuer
  cases hkeyId
  cases haudience
  cases hkey
  rfl

/-- The verifier accepts the token, for some request, at some time. -/
def AcceptsToken (py : Interp) (crypto : Crypto) (v : CapabilityGrantVerifier) (token : Str) : Prop :=
  ∃ payload transport headers now time grant, v.verify py crypto token payload transport headers now time = .ok grant

/-- A token that is accepted names the key of its verifier. -/
theorem keyId_of_accepts {py : Interp} {v₁ v₂ : CapabilityGrantVerifier} {token : Str}
    (h₁ : AcceptsToken py crypto v₁ token) (h₂ : AcceptsToken py crypto v₂ token) : v₁.keyId = v₂.keyId := by
  have hsound : ∀ {v : CapabilityGrantVerifier}, AcceptsToken py crypto v token →
      ∃ payload transport headers now c ms claims,
        Authorizes py crypto v token payload transport headers now c ms claims := by
    rintro v ⟨payload, transport, headers, now, time, grant, h⟩
    -- without a time the clock is read
    have hnow : v.verify py crypto token payload transport headers (some (now.getD time)) time = .ok grant := by
      cases now <;> exact h
    obtain ⟨c, ms, claims, ha, -⟩ := verify_sound time (isFinite_of_verify time hnow) hnow
    exact ⟨payload, transport, headers, _, c, ms, claims, ha⟩
  obtain ⟨p₁, t₁, n₁, w₁, c₁, ms₁, claims₁, ha₁⟩ := hsound h₁
  obtain ⟨p₂, t₂, n₂, w₂, c₂, ms₂, claims₂, ha₂⟩ := hsound h₂
  obtain ⟨-, rfl⟩ := ha₁.claims_unique ha₂
  exact ha₁.keyId.symm.trans ha₂.keyId

end Identifier

/-- **Receivers that derive the identifier of their key are one verifier if their keys are one, however each is written,
and otherwise accept no token in common.** -/
theorem derivedVerifier_unique (py : Interp) (crypto : Crypto) {issuer audience : Str}
    (hi : isConfigText issuer = true) (ha : isConfigText audience = true) {key₁ key₂ : Ed25519PublicKey}
    {arg₁ arg₂ : PublicKeyArg} (h₁ : WritesKey key₁ arg₁) (h₂ : WritesKey key₂ arg₂) :
    ∃ v₁ v₂, derivedVerifier crypto issuer audience arg₁ = .ok v₁ ∧
      derivedVerifier crypto issuer audience arg₂ = .ok v₂ ∧ (v₁ = v₂ ↔ key₁ = key₂) ∧
      ((crypto.sha256 key₁.raw).bytes.take 16 ≠ (crypto.sha256 key₂.raw).bytes.take 16 →
        ∀ token, ¬ (AcceptsToken py crypto v₁ token ∧ AcceptsToken py crypto v₂ token)) := by
  obtain ⟨v₁, hv₁, hd₁⟩ := derivedVerifier_of_writesKey crypto hi ha h₁
  obtain ⟨v₂, hv₂, hd₂⟩ := derivedVerifier_of_writesKey crypto hi ha h₂
  refine ⟨v₁, v₂, hv₁, hv₂, ?_, fun hd token ⟨ht₁, ht₂⟩ => hd (keyIdOf_eq_iff.1 ?_)⟩
  · constructor
    · rintro rfl
      exact hd₁.publicKey.symm.trans hd₂.publicKey
    · rintro rfl
      exact hd₁.unique hd₂
  · rw [← hd₁.keyId, ← hd₂.keyId]
    exact keyId_of_accepts ht₁ ht₂

namespace Sample

def otherKey : Ed25519PublicKey :=
  ⟨toBytes 32 0x3d4017c3e843895a92b70aa74d1b7ebc9c982ccf2ec4968cc0cd55f12af4660c, by simp [toBytes]⟩

def keyCrypto : Crypto :=
  { crypto with
    sha256 := fun b => digest <|
      if b = publicKey.raw then 0x56475aa75463474c0285df5dbf2bcab73da651358839e9b77481b2eab107708c
      else if b = otherKey.raw then 0x39f713d0a644253f04529421b9f51b9b08979d08295959c4f3990ee617f5139f
      else 0 }

end Sample

/-- Two spellings of a key make one verifier, and two keys make two, with no token in common. -/
theorem derivedVerifier_unique_of_spellings :
    derivedVerifier Sample.keyCrypto (str "issuer") (str "files") (.raw Sample.publicKey.raw) =
        derivedVerifier Sample.keyCrypto (str "issuer") (str "files")
          (.text (str " " ++ (b64urlEncode Sample.publicKey.raw ++ str "\n"))) ∧
      ∃ v₁ v₂, derivedVerifier Sample.keyCrypto (str "issuer") (str "files") (.raw Sample.publicKey.raw) = .ok v₁ ∧
        derivedVerifier Sample.keyCrypto (str "issuer") (str "files") (.key Sample.otherKey) = .ok v₂ ∧ v₁ ≠ v₂ ∧
          ∀ token,
            ¬ (AcceptsToken .cpython Sample.keyCrypto v₁ token ∧ AcceptsToken .cpython Sample.keyCrypto v₂ token) := by
  have hissuer : isConfigText (str "issuer") = true := by decide +kernel
  have haudience : isConfigText (str "files") = true := by decide +kernel
  have hspelled : WritesKey Sample.publicKey (.text (str " " ++ (b64urlEncode Sample.publicKey.raw ++ str "\n"))) :=
    .text (by decide +kernel) (by decide +kernel)
  constructor
  · obtain ⟨v₁, v₂, h₁, h₂, hsame, -⟩ := derivedVerifier_unique .cpython Sample.keyCrypto hissuer haudience
      WritesKey.raw hspelled
    rw [h₁, h₂, hsame.2 rfl]
  · obtain ⟨v₁, v₂, h₁, h₂, hsame, hnone⟩ := derivedVerifier_unique .cpython Sample.keyCrypto hissuer haudience
      (@WritesKey.raw Sample.publicKey) (@WritesKey.key Sample.otherKey)
    have hkeys : Sample.publicKey.raw ≠ Sample.otherKey.raw := by decide +kernel
    exact ⟨v₁, v₂, h₁, h₂, fun h => hkeys (congrArg _ (hsame.1 h)), hnone (by decide +kernel)⟩

end SharedAi.ServiceKit
