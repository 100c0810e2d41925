import SharedAi.Json.Doc
import SharedAi.Python.Value

/-!
# Exceptions and the interpreter

`Exn` is what the program can raise, as far as an `except` clause of it tells exceptions apart; an
`except` clause is a test on the class (`isValueError`, `isException`, …).

`Interp` holds what a Python interpreter leaves open: the limit on the digits of an `int`, the nesting at
which `json.loads` and the recursive functions of the program run out of stack, and the Unicode database
outside ASCII.
-/

namespace SharedAi.Python

open SharedAi.Num SharedAi.Text

inductive Exn where
  | capabilityGrantFormatError (code : String)
  | capabilityGrantDenied (code : String)
  | capabilityGrantRedeemUnavailable (code : String)
  | httpException (statusCode : ℕ) (detail : String)
  | validationError
  | jsonDecodeError
  | unicodeError
  | binasciiError
  | valueError
  | typeError
  | recursionError
  | invalidSignature
  /-- Another subclass of `Exception`, by name. -/
  | exception (name : String)
  /-- A `BaseException` that is no `Exception`, such as `CancelledError` or `KeyboardInterrupt`. -/
  | baseException (name : String)
  deriving DecidableEq

namespace Exn

/-- `except ValueError`. -/
def isValueError : Exn → Bool
  | .capabilityGrantFormatError _ | .capabilityGrantDenied _ | .validationError | .jsonDecodeError | .unicodeError
  | .binasciiError | .valueError => true
  | _ => false

/-- `except Exception`. -/
def isException : Exn → Bool
  | .baseException _ => false
  | _ => true

/-- `except CapabilityGrantFormatError`. -/
def IsFormatError (e : Exn) : Prop := ∃ code, e = .capabilityGrantFormatError code

/-- `except CapabilityGrantDenied`. -/
def IsDenied (e : Exn) : Prop := ∃ code, e = .capabilityGrantDenied code

/-- `except CapabilityGrantRedeemUnavailable`. -/
def IsUnavailable (e : Exn) : Prop := ∃ code, e = .capabilityGrantRedeemUnavailable code

/-- One of the two limits of the interpreter is met. -/
def IsLimit (e : Exn) : Prop := e = .valueError ∨ e = .recursionError

theorem isFormatError (code : String) : IsFormatError (.capabilityGrantFormatError code) := ⟨code, rfl⟩

theorem isDenied (code : String) : IsDenied (.capabilityGrantDenied code) := ⟨code, rfl⟩

theorem isUnavailable (code : String) : IsUnavailable (.capabilityGrantRedeemUnavailable code) := ⟨code, rfl⟩

end Exn

/-- What an interpreter leaves open. -/
structure Interp where
  /-- `sys.get_int_max_str_digits()`; `0` is no limit. -/
  intMaxStrDigits : ℕ
  /-- How deeply containers may be nested in a text for the scanner of `json.loads`, which is written in C. -/
  readNesting : ℕ
  /-- The stack frames left for a recursive function of the program; it takes them at a container, also an empty one. -/
  frames : ℕ
  /-- A comprehension runs in a frame of its own, as before CPython 3.12. -/
  comprehensionsCall : Bool
  /-- A walk in Python does not go deeper than the scanner in C. -/
  frames_le : frames ≤ readNesting
  /-- `str.upper` and `str.lower` of a character outside ASCII. -/
  upperOf : PyChar → Str
  lowerOf : PyChar → Str
  /-- `str` of a key that is no string, and of a value that is no scalar. -/
  strOfKey : ℕ → Str
  strOf : PyVal → Str

namespace Interp

/-- The default limits of CPython 3.12, for texts whose letters are all ASCII. -/
def cpython : Interp where
  intMaxStrDigits := 4300
  readNesting := 9990
  frames := 990
  comprehensionsCall := false
  frames_le := by decide
  upperOf c := [c]
  lowerOf c := [c]
  strOfKey _ := str "<object>"
  strOf _ := str "<object>"

variable (py : Interp)

def upperChar (c : PyChar) : Str :=
  if c.isAscii then [if c.isLower then .scalar (Char.ofNat (c.ord - 32)) else c] else py.upperOf c

def lowerChar (c : PyChar) : Str :=
  if c.isAscii then [if c.isUpper then .scalar (Char.ofNat (c.ord + 32)) else c] else py.lowerOf c

/-- `s.upper()`. -/
def upper (s : Str) : Str := s.flatMap py.upperChar

/-- `s.lower()`. -/
def lower (s : Str) : Str := s.flatMap py.lowerChar

/-- The frames that a recursive function takes at a container which it builds by a comprehension. -/
def comprehensionFrames : ℕ := 1 + py.comprehensionsCall.toNat

theorem comprehensionFrames_le : py.comprehensionFrames ≤ 2 := by
  have := py.comprehensionsCall.toNat_le
  unfold comprehensionFrames
  omega

/-- The digits are within the limit of conversions between `int` and `str`. -/
def withinDigits (i : IntPart) : Bool := py.intMaxStrDigits == 0 || i.length ≤ py.intMaxStrDigits

/-- `int.__repr__`. -/
def intRepr (n : ℤ) : Except Exn NumLit :=
  if py.withinDigits (NumLit.ofInt n).int then .ok (.ofInt n) else .error .valueError

/-- `int(text)` of an integer numeral. -/
def parseInt (l : NumLit) : Except Exn ℤ :=
  if py.withinDigits l.int then .ok l.intValue else .error .valueError

/-- `float.__repr__`. -/
def floatRepr : Float64 → Str
  | .nan => str "nan"
  | .inf neg => if neg then str "-inf" else str "inf"
  | x => Json.renderNum x.repr

/-- `str(value)`. -/
def toStr : PyVal → Except Exn Str
  | .none => .ok (str "None")
  | .bool b => .ok (if b then str "True" else str "False")
  | .int n => (py.intRepr n).map Json.renderNum
  | .float x => .ok (floatRepr x)
  | .str s => .ok s
  | v => .ok (py.strOf v)

/-- `str(key)` of a dictionary key. -/
def keyToStr : PyKey → Str
  | .str s => s
  | .object i => py.strOfKey i

end Interp

end SharedAi.Python
