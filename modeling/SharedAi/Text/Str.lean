import Mathlib.Data.List.Lex
import Mathlib.Data.List.DropRight
import Mathlib.Order.Basic

/-!
# Python strings

A `str` of Python is a sequence of code points, surrogates included: `json.loads` builds one from
`"\ud800"`, and no UTF-8 text holds it.  So a character is a Unicode scalar value (Lean's `Char`) or
one of the 2048 surrogates, and a string is a list of them.

* `PyChar.ord`, and the order of strings by code point (the order of `sorted`);
* `Str.strip`, `Str.isSpace` — the white space of `str.strip()`;
* the ASCII classes the regular expressions of the package are made of.
-/

namespace SharedAi.Text

/-- A code point of a Python string. -/
inductive PyChar where
  | scalar (c : Char)
  | surrogate (s : Fin 2048)
  deriving DecidableEq

abbrev Str := List PyChar

/-- Membership in a list of strings is decided by this. -/
instance (priority := 1100) lawfulBEq_str : LawfulBEq Str := inferInstance

def str (s : String) : Str := s.toList.map .scalar

namespace PyChar

/-- `ord(c)`. -/
def ord : PyChar → ℕ
  | .scalar c => c.toNat
  | .surrogate s => 0xD800 + s.val

theorem scalar_ord_range (c : Char) : c.toNat < 0xD800 ∨ (0xDFFF < c.toNat ∧ c.toNat < 0x110000) := by
  have := c.valid
  simpa [UInt32.isValidChar, Nat.isValidChar] using this

theorem ord_injective : Function.Injective ord := by
  intro a b h
  cases a with
  | scalar c =>
    cases b with
    | scalar d => exact congrArg scalar (Char.toNat_inj.1 h)
    | surrogate s =>
      have := scalar_ord_range c
      simp only [ord] at h
      omega
  | surrogate s =>
    cases b with
    | scalar d =>
      have := scalar_ord_range d
      simp only [ord] at h
      omega
    | surrogate t =>
      simp only [ord, Nat.add_left_cancel_iff] at h
      exact congrArg surrogate (Fin.ext h)

/-- Characters are ordered by code point, so strings (lists of them) are ordered as `sorted` orders
them. -/
instance : LinearOrder PyChar := LinearOrder.lift' ord ord_injective

/-- `chr(n)` for a code point below `0x10000`, as an escape `\uXXXX` names it. -/
def ofUnit (n : ℕ) : PyChar :=
  if h : 0xD800 ≤ n ∧ n < 0xE000 then .surrogate ⟨n - 0xD800, by omega⟩ else .scalar (Char.ofNat n)

/-- `Py_UNICODE_IS_HIGH_SURROGATE`. -/
def isHighUnit (n : ℕ) : Bool := 0xD800 ≤ n && n < 0xDC00

/-- `Py_UNICODE_IS_LOW_SURROGATE`. -/
def isLowUnit (n : ℕ) : Bool := 0xDC00 ≤ n && n < 0xE000

/-- `Py_UNICODE_JOIN_SURROGATES`. -/
def join (hi lo : ℕ) : PyChar := .scalar (Char.ofNat (0x10000 + (hi - 0xD800) * 0x400 + (lo - 0xDC00)))

/-- A surrogate, which only an escape can bring into a string. -/
def isSurrogate : PyChar → Bool
  | .scalar _ => false
  | .surrogate _ => true

/-! ### ASCII classes -/

def isDigit (c : PyChar) : Bool := 0x30 ≤ c.ord && c.ord ≤ 0x39
def isUpper (c : PyChar) : Bool := 0x41 ≤ c.ord && c.ord ≤ 0x5A
def isLower (c : PyChar) : Bool := 0x61 ≤ c.ord && c.ord ≤ 0x7A
def isAscii (c : PyChar) : Bool := c.ord < 0x80

def asciiLower (c : PyChar) : PyChar := if c.isUpper then .scalar (Char.ofNat (c.ord + 32)) else c

theorem ord_asciiLower {c : PyChar} (h : c.isUpper = true) : c.asciiLower.ord = c.ord + 32 := by
  simp only [isUpper, Bool.and_eq_true, decide_eq_true_eq] at h
  have key : ∀ n < 0x7B, (Char.ofNat n).toNat = n := by decide
  rw [asciiLower, if_pos (by simp [isUpper, h]), ord, key _ (by omega)]

theorem asciiLower_of_not_upper {c : PyChar} (h : c.isUpper = false) : c.asciiLower = c := by
  rw [asciiLower, if_neg (by simp [h])]

theorem isLower_asciiLower {c : PyChar} (h : c.isUpper = true) : c.asciiLower.isLower = true := by
  have hord := ord_asciiLower h
  simp only [isUpper, isLower, Bool.and_eq_true, decide_eq_true_eq] at h ⊢
  omega

theorem isUpper_of_isLower {c : PyChar} (h : c.isLower = true) : c.isUpper = false := by
  simp only [isLower, isUpper, Bool.and_eq_true, Bool.and_eq_false_iff, decide_eq_true_eq,
    decide_eq_false_iff_not] at h ⊢
  omega

theorem isUpper_asciiLower (c : PyChar) : c.asciiLower.isUpper = false := by
  by_cases h : c.isUpper = true
  · exact isUpper_of_isLower (isLower_asciiLower h)
  · rw [Bool.not_eq_true] at h
    rw [asciiLower_of_not_upper h, h]

@[simp] theorem asciiLower_asciiLower (c : PyChar) : c.asciiLower.asciiLower = c.asciiLower :=
  asciiLower_of_not_upper (isUpper_asciiLower c)

/-- A control character as the path checks of the package count them: `< 0x20` or `0x7F`. -/
def isControl (c : PyChar) : Bool := c.ord < 0x20 || c.ord == 0x7F

/-- The white space of `str.strip()` (`str.isspace`). -/
def isSpace (c : PyChar) : Bool :=
  let n := c.ord
  (0x09 ≤ n && n ≤ 0x0D) || (0x1C ≤ n && n ≤ 0x20) || n == 0x85 || n == 0xA0 || n == 0x1680 ||
    (0x2000 ≤ n && n ≤ 0x200A) || n == 0x2028 || n == 0x2029 || n == 0x202F || n == 0x205F || n == 0x3000

theorem isUpper_of_isSpace {c : PyChar} (h : c.isSpace = true) : c.isUpper = false := by
  simp only [isSpace, isUpper, Bool.or_eq_true, Bool.and_eq_true, decide_eq_true_eq, beq_iff_eq, Bool.and_eq_false_iff,
    decide_eq_false_iff_not] at h ⊢
  omega

end PyChar

namespace Str

/-- `s.strip()`. -/
def strip (s : Str) : Str := (s.dropWhile PyChar.isSpace).rdropWhile PyChar.isSpace

theorem dropWhile_rdropWhile {α : Type*} (p : α → Bool) (l : List α) :
    (l.rdropWhile p).dropWhile p = (l.dropWhile p).rdropWhile p := by
  induction l using List.reverseRecOn with
  | nil => simp
  | append_singleton l a ih =>
    by_cases ha : p a = true
    · rw [List.rdropWhile_concat_pos p l a ha, ih, List.dropWhile_append]
      split
      · next h =>
        rw [List.isEmpty_iff] at h
        simp [h, ha]
      · rw [List.rdropWhile_concat_pos p _ a ha]
    · rw [List.rdropWhile_concat_neg p l a ha, List.dropWhile_append]
      have h1 : [a].rdropWhile p = [a] := by simpa using List.rdropWhile_concat_neg p [] a ha
      split
      · simp [ha, h1]
      · rw [List.rdropWhile_concat_neg p _ a ha]

/-- Nothing is stripped beyond a character that stays. -/
theorem rdropWhile_append_of_mem {α : Type*} {p : α → Bool} {l m : List α} {x : α} (hx : x ∈ m) (hp : p x = false) :
    (l ++ m).rdropWhile p = l ++ m.rdropWhile p := by
  have hne : ¬(m.reverse.dropWhile p).isEmpty := by
    rw [List.isEmpty_iff, List.dropWhile_eq_nil_iff]
    intro hall
    simp [hall x (List.mem_reverse.2 hx)] at hp
  rw [List.rdropWhile, List.reverse_append, List.dropWhile_append, if_neg hne, List.reverse_append,
    List.reverse_reverse, List.rdropWhile]

/-- Stripping twice strips once. -/
@[simp] theorem strip_strip (s : Str) : strip (strip s) = strip s := by
  unfold strip
  rw [dropWhile_rdropWhile _ (s.dropWhile _), List.dropWhile_idempotent, List.rdropWhile_idempotent]

/-- `s == s.strip()`: no white space at either end. -/
def Trimmed (s : Str) : Prop := strip s = s

instance (s : Str) : Decidable (Trimmed s) := inferInstanceAs (Decidable (_ = _))

theorem trimmed_strip (s : Str) : Trimmed (strip s) := strip_strip s

theorem trimmed_of_not_space {s : Str} (h : ∀ c ∈ s, c.isSpace = false) : Trimmed s := by
  have hdrop : s.dropWhile PyChar.isSpace = s := by
    rw [List.dropWhile_eq_self_iff]
    intro hl
    simp [h _ (List.getElem_mem hl)]
  unfold Trimmed strip
  rw [hdrop, List.rdropWhile_eq_self_iff]
  intro hne
  simp [h _ (List.getLast_mem hne)]

end Str

end SharedAi.Text
