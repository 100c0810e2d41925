import SharedAi.Json.Doc

/-!
# Reading JSON

The scanner of module `json` (`_json.c`): `scanOnce` reads one value and returns it with the text after
it, `loads` reads a whole text.  Containers are read with the scanner of the next nesting level, and
`scanOnce H n` raises `RecursionError` at the container that would be the `n + 1`st around a value.
-/

namespace SharedAi.Json

open SharedAi.Text SharedAi.Num

variable {ε α : Type}

/-! ### Tokens -/

def isWs (c : PyChar) : Bool := c == .scalar ' ' || c == .scalar '\t' || c == .scalar '\n' || c == .scalar '\r'

def skipWs (t : Str) : Str := t.dropWhile isWs

/-- The text after the character `c`, if it comes next. -/
def expect (c : Char) : Str → Option Str
  | [] => none
  | d :: t => if d = .scalar c then some t else none

/-- The text after the characters `cs`, if they come next. -/
def expectAll : List Char → Str → Option Str
  | [], t => some t
  | c :: cs, t => (expect c t).bind (expectAll cs)

def digit? (c : PyChar) : Option Digit :=
  if h : 48 ≤ c.ord ∧ c.ord ≤ 57 then some ⟨c.ord - 48, by omega⟩ else none

def hex? (c : PyChar) : Option ℕ :=
  let n := c.ord
  if 48 ≤ n ∧ n ≤ 57 then some (n - 48)
  else if 97 ≤ n ∧ n ≤ 102 then some (n - 87)
  else if 65 ≤ n ∧ n ≤ 70 then some (n - 55) else none

/-- The four hexadecimal digits of a `\u` escape. -/
def hex4 (a b c d : PyChar) : Option ℕ := do
  let a ← hex? a
  let b ← hex? b
  let c ← hex? c
  let d ← hex? d
  pure (((a * 16 + b) * 16 + c) * 16 + d)

def simpleEscape (c : PyChar) : Option PyChar :=
  if c = .scalar '"' ∨ c = .scalar '\\' ∨ c = .scalar '/' then some c
  else if c = .scalar 'b' then some (.scalar '\x08')
  else if c = .scalar 'f' then some (.scalar '\x0c')
  else if c = .scalar 'n' then some (.scalar '\n')
  else if c = .scalar 'r' then some (.scalar '\r')
  else if c = .scalar 't' then some (.scalar '\t') else none

/-- The code unit of a `\uXXXX` escape, after the `u`. -/
def scanUnit : Str → Option (ℕ × Str)
  | a :: b :: c :: d :: t => (hex4 a b c d).map (·, t)
  | _ => none

/-- The character of a `\uXXXX` escape; a high surrogate joins the low one of an escape right behind it. -/
def scanUnicode (t : Str) : Option (PyChar × Str) :=
  (scanUnit t).bind fun (u, r) =>
    if PyChar.isHighUnit u then
      match expectAll ['\\', 'u'] r with
      | none => some (PyChar.ofUnit u, r)
      | some r' =>
        (scanUnit r').bind fun (u', r'') =>
          if PyChar.isLowUnit u' then some (PyChar.join u u', r'') else some (PyChar.ofUnit u, r)
    else some (PyChar.ofUnit u, r)

def scanEscape : Str → Option (PyChar × Str)
  | [] => none
  | e :: t => if e = .scalar 'u' then scanUnicode t else (simpleEscape e).map (·, t)

def pushChar (c : PyChar) : Option (Str × Str) → Option (Str × Str) := Option.map fun p => (c :: p.1, p.2)

/-- The characters up to the closing quote; the number bounds them. -/
def scanChars : ℕ → Str → Option (Str × Str)
  | 0, _ => none
  | _ + 1, [] => none
  | k + 1, c :: t =>
    if c = .scalar '"' then some ([], t)
    else if c = .scalar '\\' then (scanEscape t).bind fun (e, r) => pushChar e (scanChars k r)
    else if c.ord < 0x20 then none
    else pushChar c (scanChars k t)

/-- `scanstring` with `strict=True`, after the opening quote: the string and the text after it.  A string
has no more characters than its text. -/
def scanString (t : Str) : Option (Str × Str) := scanChars t.length t

def scanDigits : Str → List Digit × Str
  | [] => ([], [])
  | c :: t =>
    match digit? c with
    | none => ([], c :: t)
    | some d => (d :: (scanDigits t).1, (scanDigits t).2)

def scanInt : Str → Option (IntPart × Str)
  | [] => none
  | c :: t =>
    match digit? c with
    | none => none
    | some d =>
      if h : d = 0 then some (⟨0, [], IntPart.zero_single⟩, t)
      else some (⟨d, (scanDigits t).1, fun h0 => absurd h0 h⟩, (scanDigits t).2)

/-- The fraction, if a digit follows the point. -/
def scanFrac (t : Str) : List Digit × Str :=
  match expect '.' t with
  | none => ([], t)
  | some r => if (scanDigits r).1 = [] then ([], t) else scanDigits r

def scanSign (t : Str) : Bool × Str :=
  match expect '-' t with
  | some r => (true, r)
  | none => (false, (expect '+' t).getD t)

/-- The exponent, if a digit follows the `e` and its sign. -/
def scanExp (t : Str) : Option Exponent × Str :=
  match (expect 'e' t).or (expect 'E' t) with
  | none => (none, t)
  | some r =>
    match scanDigits (scanSign r).2 with
    | ([], _) => (none, t)
    | (d :: ds, r') => (some ⟨(scanSign r).1, d, ds⟩, r')

/-- `_match_number_unicode`. -/
def scanNumber (t : Str) : Option (NumLit × Str) :=
  let neg := (expect '-' t).isSome
  match scanInt ((expect '-' t).getD t) with
  | none => none
  | some (i, r) =>
    let f := scanFrac r
    let e := scanExp f.2
    some (⟨neg, i, f.1, e.1⟩, e.2)

/-! ### Values -/

/-- The elements of an array, from the first one on: each is read by `p`, and a comma goes on.  The
number bounds the elements; a text has no more of them than characters. -/
def scanElems (H : Hooks ε α) (p : Str → Except ε (α × Str)) : ℕ → Str → Except ε (List α × Str)
  | 0, _ => .error H.syntaxError
  | k + 1, t => do
    let (v, r) ← p t
    match expect ',' (skipWs r) with
    | some r => do
      let (vs, r) ← scanElems H p k (skipWs r)
      pure (v :: vs, r)
    | none =>
      match expect ']' (skipWs r) with
      | some r => pure ([v], r)
      | none => .error H.syntaxError

/-- `_parse_array_unicode`, after the bracket. -/
def scanArray (H : Hooks ε α) (p : Str → Except ε (α × Str)) (t : Str) : Except ε (α × Str) :=
  match expect ']' (skipWs t) with
  | some r => pure (H.array [], r)
  | none => do
    let (vs, r) ← scanElems H p t.length (skipWs t)
    pure (H.array vs, r)

def scanMembers (H : Hooks ε α) (p : Str → Except ε (α × Str)) : ℕ → Str → Except ε (List (Str × α) × Str)
  | 0, _ => .error H.syntaxError
  | n + 1, t =>
    match (expect '"' t).bind scanString with
    | none => .error H.syntaxError
    | some (k, r) =>
      match expect ':' (skipWs r) with
      | none => .error H.syntaxError
      | some r => do
        let (v, r) ← p (skipWs r)
        match expect ',' (skipWs r) with
        | some r => do
          let (ms, r) ← scanMembers H p n (skipWs r)
          pure ((k, v) :: ms, r)
        | none =>
          match expect '}' (skipWs r) with
          | some r => pure ([(k, v)], r)
          | none => .error H.syntaxError

/-- `_parse_object_unicode`, after the brace: the pairs hook runs when the object is complete. -/
def scanObject (H : Hooks ε α) (p : Str → Except ε (α × Str)) (t : Str) : Except ε (α × Str) :=
  match expect '}' (skipWs t) with
  | some r => do
    let v ← H.objectPairs []
    pure (v, r)
  | none => do
    let (ms, r) ← scanMembers H p t.length (skipWs t)
    let v ← H.objectPairs ms
    pure (v, r)

def scanScalar (H : Hooks ε α) (t : Str) : Except ε (α × Str) :=
  match (expect '"' t).map scanString with
  | some none => .error H.syntaxError
  | some (some (s, r)) => .ok (H.string s, r)
  | none =>
  match expectAll ['n', 'u', 'l', 'l'] t with
  | some r => .ok (H.null, r)
  | none =>
  match expectAll ['t', 'r', 'u', 'e'] t with
  | some r => .ok (H.bool true, r)
  | none =>
  match expectAll ['f', 'a', 'l', 's', 'e'] t with
  | some r => .ok (H.bool false, r)
  | none =>
  match expectAll ['N', 'a', 'N'] t with
  | some r => (H.parseConstant .nan).map (·, r)
  | none =>
  match expectAll ['I', 'n', 'f', 'i', 'n', 'i', 't', 'y'] t with
  | some r => (H.parseConstant .infinity).map (·, r)
  | none =>
  match expectAll ['-', 'I', 'n', 'f', 'i', 'n', 'i', 't', 'y'] t with
  | some r => (H.parseConstant .negInfinity).map (·, r)
  | none =>
  match scanNumber t with
  | some (l, r) => (H.number l).map (·, r)
  | none => .error H.syntaxError

/-- `scan_once_unicode`: one value within `n` levels of nesting. -/
def scanOnce (H : Hooks ε α) : ℕ → Str → Except ε (α × Str)
  | 0, t =>
    if (expect '{' t).isSome ∨ (expect '[' t).isSome then .error H.recursionError else scanScalar H t
  | n + 1, t =>
    match expect '{' t with
    | some r => scanObject H (scanOnce H n) r
    | none =>
      match expect '[' t with
      | some r => scanArray H (scanOnce H n) r
      | none => scanScalar H t

/-- `json.loads(text, …)`: one value, white space around it, no byte order mark. -/
def loads (H : Hooks ε α) (n : ℕ) (t : Str) : Except ε α :=
  if (expect '\ufeff' t).isSome then .error H.syntaxError
  else do
    let (v, r) ← scanOnce H n (skipWs t)
    if skipWs r = [] then pure v else .error H.syntaxError

end SharedAi.Json
