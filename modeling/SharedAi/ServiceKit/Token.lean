import SharedAi.ServiceKit.CanonicalEq

/-!
# Hashes, keys and base64url

* `Crypto` — SHA-256 and Ed25519 verification, which the program takes from libraries;
* `canonicalSha256`, `tokenFingerprint` — the hashes of the package, always as hexadecimal text;
* `b64urlDecode_eq_ok` — base64url decoding accepts what base64url encoding writes, and nothing else.
-/

namespace SharedAi.ServiceKit

open SharedAi.Control SharedAi.Python SharedAi.Text

/-- The 32 bytes of a SHA-256. -/
structure Digest where
  bytes : Bytes
  length_eq : bytes.length = 32
  deriving DecidableEq

structure Ed25519PublicKey where
  raw : Bytes
  length_eq : raw.length = 32
  deriving DecidableEq

/-- The cryptography the program imports. -/
structure Crypto where
  sha256 : Bytes → Digest
  /-- `public_key.verify(signature, data)` does not raise `InvalidSignature`. -/
  ed25519Verify : Ed25519PublicKey → (signature data : Bytes) → Bool

/-! ### Hexadecimal text -/

def hexByte (b : UInt8) : Str := [Json.hexChar (b.toNat / 16), Json.hexChar (b.toNat % 16)]

/-- `digest.hex()`. -/
def Digest.hexdigest (d : Digest) : Str := d.bytes.flatMap hexByte

def isLowerHex (c : PyChar) : Bool := c.isDigit || (0x61 ≤ c.ord && c.ord ≤ 0x66)

/-- `^[0-9a-f]{64}$` of the pydantic fields. -/
def isHash (s : Str) : Bool := s.length == 64 && s.all isLowerHex

theorem hexByte_injective : Function.Injective hexByte := by
  have hex : ∀ m < 16, ∀ n < 16, Json.hexChar m = Json.hexChar n → m = n := by decide
  intro a b h
  have ha := a.toNat_lt
  have hb := b.toNat_lt
  simp only [hexByte, List.cons.injEq, and_true] at h
  have h1 := hex _ (by omega) _ (by omega) h.1
  have h2 := hex _ (by omega) _ (by omega) h.2
  exact UInt8.toNat_inj.1 (by omega)

theorem flatMap_hexByte_injective {a b : Bytes} (h : a.flatMap hexByte = b.flatMap hexByte) : a = b := by
  induction a generalizing b with
  | nil =>
    cases b with
    | nil => rfl
    | cons y b => cases h
  | cons x a ih =>
    cases b with
    | nil => cases h
    | cons y b =>
      have hxy : hexByte x ++ a.flatMap hexByte = hexByte y ++ b.flatMap hexByte := h
      obtain ⟨h1, h2⟩ := List.append_inj hxy rfl
      rw [hexByte_injective h1, ih h2]

theorem hexdigest_injective : Function.Injective Digest.hexdigest := by
  rintro ⟨a, ha⟩ ⟨b, hb⟩ h
  obtain rfl := flatMap_hexByte_injective h
  rfl

theorem isHash_hexdigest (d : Digest) : isHash d.hexdigest = true := by
  have hex : ∀ n < 16, isLowerHex (Json.hexChar n) = true := by decide
  have hlen : ∀ b : Bytes, (b.flatMap hexByte).length = 2 * b.length := by
    intro b
    induction b with
    | nil => rfl
    | cons x b ih =>
      simp only [List.flatMap_cons, List.length_append, List.length_cons, ih]
      simp only [hexByte, List.length_cons, List.length_nil]
      omega
  have hall : ∀ c ∈ d.hexdigest, isLowerHex c = true := by
    intro c hc
    obtain ⟨b, -, hc⟩ := List.mem_flatMap.1 hc
    have := b.toNat_lt
    simp only [hexByte, List.mem_cons, List.not_mem_nil, or_false] at hc
    rcases hc with rfl | rfl
    · exact hex _ (by omega)
    · exact hex _ (by omega)
  rw [isHash, Bool.and_eq_true, beq_iff_eq, List.all_eq_true]
  refine ⟨?_, hall⟩
  rw [Digest.hexdigest, hlen, d.length_eq]

/-- `canonical_sha256`. -/
def canonicalSha256 (py : Interp) (crypto : Crypto) (value : PyVal) : Except Exn Str :=
  (canonicalJsonBytes py value).map fun b => (crypto.sha256 b).hexdigest

/-- `token_fingerprint`. -/
def tokenFingerprint (crypto : Crypto) (token : Str) : Except Exn Str :=
  if token = [] then .error (.capabilityGrantFormatError "capability_grant_token_missing")
  else
    match encodeAscii token with
    | none => .error (.capabilityGrantFormatError "capability_grant_token_not_ascii")
    | some encoded => .ok (crypto.sha256 encoded).hexdigest

theorem canonicalSha256_eq_ok {py : Interp} {crypto : Crypto} {value : PyVal} {s : Str} :
    canonicalSha256 py crypto value = .ok s ↔
      ∃ b, canonicalJsonBytes py value = .ok b ∧ (crypto.sha256 b).hexdigest = s :=
  map_eq_ok

/-! ### base64url -/

/-- The class of `_B64URL_RE`. -/
def isB64url (c : PyChar) : Bool := c.isUpper || c.isLower || c.isDigit || c == .scalar '_' || c == .scalar '-'

/-- `b64url_encode`. -/
def b64urlEncode (value : Bytes) : Str := (urlsafeB64encode value).rdropWhile isPad

/-- `b64url_decode`. -/
def b64urlDecode (value : Str) : Except Exn Bytes :=
  if value = [] ∨ ¬ value.all isB64url then .error (.capabilityGrantFormatError "invalid_base64url")
  else if value.length % 4 = 1 then .error (.capabilityGrantFormatError "invalid_base64url")
  else
    match b64decode (value ++ List.replicate (padding value.length) (.scalar '=')) with
    | none => .error (.capabilityGrantFormatError "invalid_base64url")
    | some decoded =>
      if b64urlEncode decoded ≠ value then .error (.capabilityGrantFormatError "non_canonical_base64url")
      else .ok decoded

theorem b64urlEncode_eq (b : Bytes) : b64urlEncode b = (toSextets b).map fun n => .scalar (sextetChar n) :=
  rdropWhile_isPad_encode (toSextets_lt b) _

theorem isB64url_sextetChar {n : ℕ} (h : n < 64) : isB64url (.scalar (sextetChar n)) = true := by
  have key : ∀ n < 64, isB64url (.scalar (sextetChar n)) = true := by decide
  exact key n h

theorem b64urlEncode_all (b : Bytes) : ∀ c ∈ b64urlEncode b, isB64url c = true := by
  rw [b64urlEncode_eq]
  intro c hc
  obtain ⟨n, hn, rfl⟩ := List.mem_map.1 hc
  exact isB64url_sextetChar (toSextets_lt b n hn)

theorem b64urlEncode_eq_nil {b : Bytes} : b64urlEncode b = [] ↔ b = [] := by
  rw [b64urlEncode_eq, List.map_eq_nil_iff]
  constructor
  · intro h
    have := ofSextets_toSextets b
    rw [h] at this
    exact (Option.some.inj this).symm
  · rintro rfl
    rfl

theorem b64urlDecode_encode {b : Bytes} (h : b ≠ []) : b64urlDecode (b64urlEncode b) = .ok b := by
  have hlen : (b64urlEncode b).length = (toSextets b).length := by rw [b64urlEncode_eq, List.length_map]
  have hall : (b64urlEncode b).all isB64url = true := List.all_eq_true.2 (b64urlEncode_all b)
  have hpad : b64urlEncode b ++ List.replicate (padding (b64urlEncode b).length) (.scalar '=') =
      urlsafeB64encode b := by rw [hlen, b64urlEncode_eq, urlsafeB64encode]
  unfold b64urlDecode
  rw [if_neg (by simp [b64urlEncode_eq_nil, h, hall]), if_neg (hlen ▸ toSextets_length_mod b), hpad,
    b64decode_urlsafeB64encode]
  simp

/-- **Decoding accepts what encoding writes, and nothing else.** -/
theorem b64urlDecode_eq_ok {s : Str} {b : Bytes} : b64urlDecode s = .ok b ↔ s = b64urlEncode b ∧ b ≠ [] := by
  constructor
  · intro h
    unfold b64urlDecode at h
    split at h
    · cases h
    next hs =>
    split at h
    · cases h
    split at h
    · cases h
    split at h
    · cases h
    next he =>
    cases h
    rw [not_not] at he
    refine ⟨he.symm, ?_⟩
    rintro rfl
    exact hs (.inl (he ▸ rfl))
  · rintro ⟨rfl, hb⟩
    exact b64urlDecode_encode hb

theorem b64urlDecode_raisesIn (s : Str) : RaisesIn Exn.IsFormatError (b64urlDecode s) := by
  have hformat : ∀ code, RaisesIn Exn.IsFormatError (.error (.capabilityGrantFormatError code) : Except Exn Bytes) :=
    fun code => raisesIn_error.2 (Exn.isFormatError code)
  unfold b64urlDecode
  split
  · exact hformat _
  split
  · exact hformat _
  split
  · exact hformat _
  split
  · exact hformat _
  · exact raisesIn_ok _

/-- What decoding does not accept it rejects with a format error. -/
theorem b64urlDecode_eq_error {s : Str} (h : ∀ b, b64urlDecode s ≠ .ok b) :
    ∃ code, b64urlDecode s = .error (.capabilityGrantFormatError code) := by
  cases hs : b64urlDecode s with
  | ok b => exact absurd hs (h b)
  | error e =>
    obtain ⟨code, rfl⟩ := b64urlDecode_raisesIn s e hs
    exact ⟨code, rfl⟩

/-- **base64url is a bijection between the non-empty byte strings and the texts that decode.** -/
theorem b64url_bijection :
    (∀ b : Bytes, b ≠ [] → b64urlDecode (b64urlEncode b) = .ok b) ∧
    (∀ s b, b64urlDecode s = .ok b ↔ b ≠ [] ∧ s = b64urlEncode b) ∧
    (∀ s t b, b64urlDecode s = .ok b → b64urlDecode t = .ok b → s = t) ∧
    ∀ s, (¬ ∃ b, b ≠ [] ∧ s = b64urlEncode b) →
      ∃ code, b64urlDecode s = .error (.capabilityGrantFormatError code) := by
  refine ⟨fun b hb => b64urlDecode_encode hb, fun s b => ?_, fun s t b hs ht => ?_, fun s hs => ?_⟩
  · rw [b64urlDecode_eq_ok, and_comm]
  · rw [b64urlDecode_eq_ok] at hs ht
    rw [hs.1, ht.1]
  · apply b64urlDecode_eq_error
    intro b hb
    obtain ⟨he, hne⟩ := b64urlDecode_eq_ok.1 hb
    exact hs ⟨b, hne, he⟩

theorem b64url_bijection_of_samples : b64urlDecode (str "aGk") = .ok [0x68, 0x69] ∧
    ∃ code, b64urlDecode (str "aGl") = .error (.capabilityGrantFormatError code) := by
  refine ⟨b64url_bijection.1 [0x68, 0x69] nofun, b64url_bijection.2.2.2 (str "aGl") ?_⟩
  rintro ⟨b, hb, h⟩
  have hd := b64url_bijection.1 b hb
  rw [← h] at hd
  cases hd

end SharedAi.ServiceKit
