import SharedAi.Text.Str
import Mathlib.Tactic.IntervalCases

/-!
# Codecs: UTF-8, ASCII, Latin-1 and base64

Every codec is a pair of an encoder and a strict decoder, with the two round trips: what was encoded
decodes to the original, and what decodes is the encoding of the result.

* `encodeUtf8`, `decodeUtf8` — `str.encode("utf-8", errors="strict")` and `bytes.decode("utf-8",
  errors="strict")`, on Lean's own UTF-8;
* `encodeAscii`, `decodeAscii`, `decodeLatin1`;
* `urlsafeB64encode`, `b64decode` — the functions of module `base64`, padding included.
-/

namespace SharedAi.Text

/-- A `bytes` object. -/
abbrev Bytes := List UInt8

/-! ### UTF-8 -/

/-- The scalar values of a string without surrogates. -/
def chars : Str → Option (List Char)
  | [] => some []
  | .scalar c :: s => (chars s).map (c :: ·)
  | .surrogate _ :: _ => none

/-- `s.encode("utf-8", errors="strict")`; `none` is `UnicodeEncodeError`. -/
def encodeUtf8 (s : Str) : Option Bytes := (chars s).map fun cs => cs.flatMap String.utf8EncodeChar

/-- `b.decode("utf-8", errors="strict")`; `none` is `UnicodeDecodeError`. -/
def decodeUtf8 (b : Bytes) : Option Str :=
  (String.fromUTF8? b.toByteArray).map fun s => s.toList.map .scalar

theorem chars_map_scalar (cs : List Char) : chars (cs.map .scalar) = some cs := by
  induction cs with
  | nil => rfl
  | cons c cs ih => simp [chars, ih]

theorem chars_eq_some {s : Str} {cs : List Char} : chars s = some cs ↔ s = cs.map .scalar := by
  constructor
  · intro h
    induction s generalizing cs with
    | nil =>
      simp only [chars, Option.some.injEq] at h
      subst h; rfl
    | cons c s ih =>
      cases c with
      | scalar c =>
        obtain ⟨ds, hds, rfl⟩ := Option.map_eq_some_iff.1 h
        rw [ih hds]; rfl
      | surrogate u => cases h
  · rintro rfl
    exact chars_map_scalar cs

/-- A string encodes exactly when it has no surrogate. -/
theorem chars_isSome_iff (s : Str) : (chars s).isSome ↔ ∀ c ∈ s, c.isSurrogate = false := by
  induction s with
  | nil => simp [chars]
  | cons c s ih => cases c <;> simp [chars, PyChar.isSurrogate, ih]

theorem encodeUtf8_isSome_iff (s : Str) : (encodeUtf8 s).isSome ↔ ∀ c ∈ s, c.isSurrogate = false := by
  simp [encodeUtf8, chars_isSome_iff]

/-- **What was encoded decodes to the original.** -/
theorem decodeUtf8_of_encode {s : Str} {b : Bytes} (h : encodeUtf8 s = some b) : decodeUtf8 b = some s := by
  obtain ⟨cs, hcs, rfl⟩ := Option.map_eq_some_iff.1 h
  have hv : (cs.flatMap String.utf8EncodeChar).toByteArray.IsValidUTF8 := ⟨cs, rfl⟩
  have hs : String.fromUTF8 _ hv = String.ofList cs := by
    rw [← String.toByteArray_inj, String.toByteArray_ofList]; rfl
  unfold decodeUtf8 String.fromUTF8?
  rw [dif_pos hv, hs]
  simp [chars_eq_some.1 hcs]

theorem encodeUtf8_injective {s t : Str} {b : Bytes} (hs : encodeUtf8 s = some b)
    (ht : encodeUtf8 t = some b) : s = t := by
  have h1 := decodeUtf8_of_encode hs
  rw [decodeUtf8_of_encode ht] at h1
  exact (Option.some.inj h1).symm

/-! ### ASCII and Latin-1 -/

/-- `s.encode("ascii", errors="strict")`. -/
def encodeAscii : Str → Option Bytes
  | [] => some []
  | c :: s => if c.isAscii then (encodeAscii s).map (UInt8.ofNat c.ord :: ·) else none

/-- `b.decode("latin-1")`. -/
def decodeLatin1 (b : Bytes) : Str := b.map fun x => .scalar (Char.ofNat x.toNat)

/-- `b.decode("ascii", errors="strict")`. -/
def decodeAscii (b : Bytes) : Option Str := if b.all (· < 0x80) then some (decodeLatin1 b) else none

theorem encodeAscii_of_ascii {s : Str} (h : ∀ c ∈ s, c.isAscii = true) : ∃ b, encodeAscii s = some b := by
  induction s with
  | nil => exact ⟨[], rfl⟩
  | cons c s ih =>
    obtain ⟨b, hb⟩ := ih fun d hd => h d (List.mem_cons_of_mem _ hd)
    exact ⟨_, by rw [encodeAscii, if_pos (h c (List.mem_cons_self ..)), hb]; rfl⟩

/-- What is encoded as ASCII is decoded as it was. -/
theorem decodeAscii_of_encode {s : Str} {b : Bytes} (h : encodeAscii s = some b) : decodeAscii b = some s := by
  induction s generalizing b with
  | nil =>
    cases h
    rfl
  | cons c s ih =>
    rw [encodeAscii] at h
    split at h
    · next hc =>
      obtain ⟨t, ht, rfl⟩ := Option.map_eq_some_iff.1 h
      have ih := ih ht
      unfold decodeAscii at ih ⊢
      split at ih
      · next hall =>
        have hlt : c.ord < 0x80 := by simpa [PyChar.isAscii] using hc
        have hbyte : (UInt8.ofNat c.ord).toNat = c.ord := by
          rw [UInt8.toNat_ofNat']
          omega
        have hchar : PyChar.scalar (Char.ofNat c.ord) = c := by
          have key : ∀ n < 0x80, (Char.ofNat n).toNat = n := by decide
          exact PyChar.ord_injective (key _ hlt)
        have hsmall : UInt8.ofNat c.ord < 0x80 := by
          rw [UInt8.lt_iff_toNat_lt, hbyte]
          exact hlt
        rw [if_pos (by simp [hsmall, hall])]
        have htail : decodeLatin1 t = s := Option.some.inj ih
        show some (PyChar.scalar (Char.ofNat (UInt8.ofNat c.ord).toNat) :: decodeLatin1 t) = _
        rw [hbyte, hchar, htail]
      · cases ih
    · cases h

theorem decodeLatin1_injective : Function.Injective decodeLatin1 := by
  apply List.map_injective_iff.2
  intro a b h
  have key : ∀ n < 256, (Char.ofNat n).toNat = n := by decide +kernel
  have h := congrArg Char.toNat (PyChar.scalar.inj h)
  rw [key _ a.toNat_lt, key _ b.toNat_lt] at h
  exact UInt8.toNat_inj.1 h

theorem decodeAscii_injective {a b : Bytes} {s : Str} (ha : decodeAscii a = some s) (hb : decodeAscii b = some s) :
    a = b := by
  unfold decodeAscii at ha hb
  split at ha
  · split at hb
    · exact decodeLatin1_injective ((Option.some.inj ha).trans (Option.some.inj hb).symm)
    · cases hb
  · cases ha

/-! ### base64 -/

def toSextets : Bytes → List ℕ
  | [] => []
  | [a] => [a.toNat / 4, a.toNat % 4 * 16]
  | [a, b] => [a.toNat / 4, a.toNat % 4 * 16 + b.toNat / 16, b.toNat % 16 * 4]
  | a :: b :: c :: r =>
    a.toNat / 4 :: (a.toNat % 4 * 16 + b.toNat / 16) :: (b.toNat % 16 * 4 + c.toNat / 64) :: c.toNat % 64 ::
      toSextets r

/-- The bytes of a list of sextets; the left over bits of the last one are dropped, and a single
sextet holds no byte. -/
def ofSextets : List ℕ → Option Bytes
  | [] => some []
  | [_] => none
  | [x, y] => some [UInt8.ofNat (x * 4 + y / 16)]
  | [x, y, z] => some [UInt8.ofNat (x * 4 + y / 16), UInt8.ofNat (y % 16 * 16 + z / 4)]
  | x :: y :: z :: w :: r =>
    (ofSextets r).map fun b =>
      UInt8.ofNat (x * 4 + y / 16) :: UInt8.ofNat (y % 16 * 16 + z / 4) :: UInt8.ofNat (z % 4 * 64 + w) :: b

def sextetChar (n : ℕ) : Char :=
  if n < 26 then Char.ofNat (65 + n)
  else if n < 52 then Char.ofNat (71 + n)
  else if n < 62 then Char.ofNat (n - 4)
  else if n = 62 then '-' else '_'

/-- The value of a character under `altchars=b"-_"`, where `+` and `/` keep theirs. -/
def charSextet (c : PyChar) : Option ℕ :=
  if c.isUpper then some (c.ord - 65)
  else if c.isLower then some (c.ord - 71)
  else if c.isDigit then some (c.ord + 4)
  else if c.ord = 0x2D ∨ c.ord = 0x2B then some 62
  else if c.ord = 0x5F ∨ c.ord = 0x2F then some 63 else none

/-- `b"=" * (-n % 4)`, the padding of `n` sextets. -/
def padding (n : ℕ) : ℕ := (4 - n % 4) % 4

/-- `base64.urlsafe_b64encode(b)`, as text. -/
def urlsafeB64encode (b : Bytes) : Str :=
  (toSextets b).map (fun n => .scalar (sextetChar n)) ++
    List.replicate (padding (toSextets b).length) (.scalar '=')

def isPad (c : PyChar) : Bool := c == .scalar '='

/-- `base64.b64decode(s, altchars=b"-_", validate=True)`; `none` is `binascii.Error`. -/
def b64decode (s : Str) : Option Bytes :=
  let body := s.rdropWhile isPad
  let pads := s.length - body.length
  if s.length % 4 = 0 ∧ pads ≤ 2 then (body.mapM charSextet).bind ofSextets else none

theorem toSextets_lt (b : Bytes) : ∀ n ∈ toSextets b, n < 64 := by
  induction b using toSextets.induct with
  | case1 => simp [toSextets]
  | case2 a =>
    have := a.toNat_lt
    simp only [toSextets, List.mem_cons, List.not_mem_nil, or_false]
    rintro n (rfl | rfl) <;> omega
  | case3 a b =>
    have := a.toNat_lt
    have := b.toNat_lt
    simp only [toSextets, List.mem_cons, List.not_mem_nil, or_false]
    rintro n (rfl | rfl | rfl) <;> omega
  | case4 a b c r ih =>
    have := a.toNat_lt
    have := b.toNat_lt
    have := c.toNat_lt
    simp only [toSextets, List.mem_cons]
    rintro n (rfl | rfl | rfl | rfl | h)
    · omega
    · omega
    · omega
    · omega
    · exact ih n h

theorem ofSextets_toSextets (b : Bytes) : ofSextets (toSextets b) = some b := by
  have byte : ∀ (x : UInt8) (n : ℕ), n = x.toNat → UInt8.ofNat n = x := by
    rintro x n rfl; exact UInt8.ofNat_toNat
  induction b using toSextets.induct with
  | case1 => rfl
  | case2 a =>
    have := a.toNat_lt
    simp only [toSextets, ofSextets, Option.some.injEq, List.cons.injEq, and_true]
    exact byte a _ (by omega)
  | case3 a b =>
    have := a.toNat_lt
    have := b.toNat_lt
    simp only [toSextets, ofSextets, Option.some.injEq, List.cons.injEq, and_true]
    exact ⟨byte a _ (by omega), byte b _ (by omega)⟩
  | case4 a b c r ih =>
    have := a.toNat_lt
    have := b.toNat_lt
    have := c.toNat_lt
    simp only [toSextets, ofSextets, ih, Option.map_some, Option.some.injEq, List.cons.injEq, and_true]
    exact ⟨byte a _ (by omega), byte b _ (by omega), byte c _ (by omega)⟩

theorem charSextet_sextetChar {n : ℕ} (h : n < 64) : charSextet (.scalar (sextetChar n)) = some n := by
  have key : ∀ n < 64, charSextet (.scalar (sextetChar n)) = some n := by decide
  exact key n h

theorem isPad_sextetChar {n : ℕ} (h : n < 64) : isPad (.scalar (sextetChar n)) = false := by
  have key : ∀ n < 64, isPad (.scalar (sextetChar n)) = false := by decide
  exact key n h

theorem mapM_charSextet {l : List ℕ} (h : ∀ n ∈ l, n < 64) :
    (l.map fun n => PyChar.scalar (sextetChar n)).mapM charSextet = some l := by
  induction l with
  | nil => rfl
  | cons n l ih =>
    have hn := charSextet_sextetChar (h n (by simp))
    have hl := ih fun m hm => h m (List.mem_cons_of_mem _ hm)
    simp [List.mapM_cons, hn, hl]

/-- Only the padding is padding: what `rstrip("=")` leaves is the sextets. -/
theorem rdropWhile_isPad_encode {l : List ℕ} (h : ∀ n ∈ l, n < 64) (k : ℕ) :
    (l.map (fun n => PyChar.scalar (sextetChar n)) ++ List.replicate k (PyChar.scalar '=')).rdropWhile isPad =
      l.map fun n => PyChar.scalar (sextetChar n) := by
  induction k with
  | zero =>
    simp only [List.replicate_zero, List.append_nil]
    rw [List.rdropWhile_eq_self_iff]
    intro hl
    rw [List.getLast_map]
    simp [isPad_sextetChar (h _ (List.getLast_mem _))]
  | succ k ih =>
    rw [List.replicate_succ', ← List.append_assoc, List.rdropWhile_concat_pos _ _ _ (by decide), ih]

theorem toSextets_length_mod (b : Bytes) : (toSextets b).length % 4 ≠ 1 := by
  induction b using toSextets.induct with
  | case1 => simp [toSextets]
  | case2 a => simp [toSextets]
  | case3 a b => simp [toSextets]
  | case4 a b c r ih =>
    simp only [toSextets, List.length_cons]
    omega

/-- **base64 reads back what it wrote.** -/
theorem b64decode_urlsafeB64encode (b : Bytes) : b64decode (urlsafeB64encode b) = some b := by
  have hlt := toSextets_lt b
  have hmod := toSextets_length_mod b
  simp only [b64decode, urlsafeB64encode, rdropWhile_isPad_encode hlt, mapM_charSextet hlt,
    List.length_append, List.length_map, List.length_replicate, padding, Option.bind_some,
    ofSextets_toSextets]
  rw [if_pos (by omega)]

end SharedAi.Text
