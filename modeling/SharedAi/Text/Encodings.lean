import SharedAi.Text.Codec

/-!
# The encodings of JSON

`json.loads` of a `bytes` object guesses the encoding and decodes with `surrogatepass`, which takes an encoded
surrogate for the code point.

* `decodeUtf8Pass`, `decodeUtf16`, `decodeUtf32` — the decoders;
* `Encoding.detect` — `json.detect_encoding`;
* `decodeJson` — the text of a document.
-/

namespace SharedAi.Text

/-! ### UTF-8 -/

def continuation? (b : UInt8) : Option ℕ := if 0x80 ≤ b ∧ b < 0xC0 then some (b.toNat - 0x80) else none

/-- A code point of several bytes, unless a shorter form exists for it. -/
def codePoint? (least n : ℕ) : Option PyChar := if least ≤ n ∧ n < 0x110000 then some (PyChar.ofUnit n) else none

/-- `b.decode("utf-8", "surrogatepass")`. -/
def decodeUtf8Pass : Bytes → Option Str
  | [] => some []
  | a :: r =>
    if a < 0x80 then (decodeUtf8Pass r).map (PyChar.ofUnit a.toNat :: ·)
    else
      match r with
      | [] => none
      | b :: r =>
        if 0xC0 ≤ a ∧ a < 0xE0 then do
          let y ← continuation? b
          let c ← codePoint? 0x80 ((a.toNat - 0xC0) * 0x40 + y)
          (decodeUtf8Pass r).map (c :: ·)
        else
          match r with
          | [] => none
          | b' :: r =>
            if 0xE0 ≤ a ∧ a < 0xF0 then do
              let y ← continuation? b
              let z ← continuation? b'
              let c ← codePoint? 0x800 (((a.toNat - 0xE0) * 0x40 + y) * 0x40 + z)
              (decodeUtf8Pass r).map (c :: ·)
            else
              match r with
              | [] => none
              | b'' :: r =>
                if 0xF0 ≤ a ∧ a < 0xF8 then do
                  let y ← continuation? b
                  let z ← continuation? b'
                  let w ← continuation? b''
                  let c ← codePoint? 0x10000 ((((a.toNat - 0xF0) * 0x40 + y) * 0x40 + z) * 0x40 + w)
                  (decodeUtf8Pass r).map (c :: ·)
                else none

/-! ### UTF-16 and UTF-32 -/

def bigEndian (b : Bytes) : ℕ := b.foldl (fun n x => n * 256 + x.toNat) 0

/-- The number of some bytes in one of the two orders. -/
def ofBytes (little : Bool) (b : Bytes) : ℕ := if little then bigEndian b.reverse else bigEndian b

def units16 (little : Bool) : Bytes → Option (List ℕ)
  | [] => some []
  | [_] => none
  | a :: b :: r => (units16 little r).map (ofBytes little [a, b] :: ·)

/-- The code points of UTF-16 units; a surrogate without its partner stands for itself. -/
def joinUnits : List ℕ → Str
  | [] => []
  | [u] => [PyChar.ofUnit u]
  | hi :: lo :: r =>
    if PyChar.isHighUnit hi && PyChar.isLowUnit lo then PyChar.join hi lo :: joinUnits r
    else PyChar.ofUnit hi :: joinUnits (lo :: r)

/-- `b.decode("utf-16-le", "surrogatepass")`, or `"utf-16-be"`. -/
def decodeUtf16 (little : Bool) (b : Bytes) : Option Str := (units16 little b).map joinUnits

/-- `b.decode("utf-32-le", "surrogatepass")`, or `"utf-32-be"`. -/
def decodeUtf32 (little : Bool) : Bytes → Option Str
  | [] => some []
  | a :: b :: c :: d :: r => do
    let x ← codePoint? 0 (ofBytes little [a, b, c, d])
    (decodeUtf32 little r).map (x :: ·)
  | _ => none

/-! ### Documents -/

/-- An encoding, with the length of the byte order mark that it skips. -/
inductive Encoding where
  | utf8 (skip : ℕ)
  | utf16 (little : Bool) (skip : ℕ)
  | utf32 (little : Bool) (skip : ℕ)
  deriving DecidableEq

namespace Encoding

/-- The guess of `json.detect_encoding` from the zeros among the first bytes. -/
def ofZeros : Bytes → Encoding
  | a :: b :: c :: d :: _ =>
    if a = 0 then (if b = 0 then utf32 false 0 else utf16 false 0)
    else if b = 0 then (if c = 0 ∧ d = 0 then utf32 true 0 else utf16 true 0)
    else utf8 0
  | [a, b] => if a = 0 then utf16 false 0 else if b = 0 then utf16 true 0 else utf8 0
  | _ => utf8 0

/-- `json.detect_encoding`. -/
def detect (b : Bytes) : Encoding :=
  if [0, 0, 0xFE, 0xFF].isPrefixOf b then utf32 false 4
  else if [0xFF, 0xFE, 0, 0].isPrefixOf b then utf32 true 4
  else if [0xFE, 0xFF].isPrefixOf b then utf16 false 2
  else if [0xFF, 0xFE].isPrefixOf b then utf16 true 2
  else if [0xEF, 0xBB, 0xBF].isPrefixOf b then utf8 3
  else ofZeros b

/-- `b.decode(encoding, "surrogatepass")`. -/
def decode (b : Bytes) : Encoding → Option Str
  | utf8 skip => decodeUtf8Pass (b.drop skip)
  | utf16 little skip => decodeUtf16 little (b.drop skip)
  | utf32 little skip => decodeUtf32 little (b.drop skip)

end Encoding

/-- `b.decode(detect_encoding(b), "surrogatepass")`. -/
def decodeJson (b : Bytes) : Option Str := (Encoding.detect b).decode b

end SharedAi.Text
