import SharedAi.Control.Raises
import SharedAi.Python.Exn

/-!
# Format strings

`template.format(**kwargs)`, for keyword arguments that are strings.

* `pieces` — the literal texts and replacement fields of a template, up to the first place that is malformed;
* `fieldObject` — the argument that a field names, with the attributes and items it takes of it;
* `formatStr` — the format specification of strings;
* `strFormat` — these three, field by field, with fields in specifications replaced first.

Attributes of strings lead to objects of the interpreter, so what objects answer is a parameter.
-/

namespace SharedAi.Python

open SharedAi.Control SharedAi.Text

/-! ### Integers -/

def decimalZeros : List ℕ :=
  [0x660, 0x6f0, 0x7c0, 0x966, 0x9e6, 0xa66, 0xae6, 0xb66, 0xbe6, 0xc66, 0xce6, 0xd66, 0xde6, 0xe50, 0xed0, 0xf20,
    0x1040, 0x1090, 0x17e0, 0x1810, 0x1946, 0x19d0, 0x1a80, 0x1a90, 0x1b50, 0x1bb0, 0x1c40, 0x1c50, 0xa620, 0xa8d0,
    0xa900, 0xa9d0, 0xa9f0, 0xaa50, 0xabf0, 0xff10, 0x104a0, 0x10d30, 0x11066, 0x110f0, 0x11136, 0x111d0, 0x112f0,
    0x11450, 0x114d0, 0x11650, 0x116c0, 0x11730, 0x118e0, 0x11950, 0x11c50, 0x11d50, 0x11da0, 0x16a60, 0x16ac0,
    0x16b50, 0x1d7ce, 0x1d7d8, 0x1d7e2, 0x1d7ec, 0x1d7f6, 0x1e140, 0x1e2f0, 0x1e950, 0x1fbf0]

/-- `Py_UNICODE_TODECIMAL`. -/
def toDecimal (c : PyChar) : Option ℕ :=
  if c.isDigit then some (c.ord - 0x30)
  else (decimalZeros.find? fun z => z ≤ c.ord && c.ord < z + 10).map (c.ord - ·)

/-- `PY_SSIZE_T_MAX`. -/
def ssizeMax : ℕ := 2 ^ 63 - 1

/-- The digits at the head of a text, as long as they fit; what follows them. -/
def leadingInteger (acc : ℕ) : Str → Except Exn (ℕ × Str)
  | [] => .ok (acc, [])
  | c :: s =>
    match toDecimal c with
    | none => .ok (acc, c :: s)
    | some d => if acc > (ssizeMax - d) / 10 then .error .valueError else leadingInteger (acc * 10 + d) s

/-- `get_integer` of a name: the index it spells, if it spells one. -/
def nameInteger (name : Str) : Except Exn (Option ℕ) :=
  if name = [] then .ok none
  else (leadingInteger 0 name).map fun p => if p.2 = [] then some p.1 else none

/-! ### Markup -/

/-- A replacement field; `nested` is a specification that holds a `{`. -/
structure Field where
  name : Str
  conversion : Option PyChar
  spec : Str
  nested : Bool
  deriving DecidableEq

inductive Piece where
  | text (s : Str)
  | field (f : Field)
  deriving DecidableEq

def isBrace (c : PyChar) : Bool := c == .scalar '{' || c == .scalar '}'

/-- The name of a field, the character that ends it, and the rest; brackets hide what they enclose. -/
def scanName (bracketed : Bool) : Str → Option (Str × PyChar × Str)
  | [] => none
  | c :: s =>
    let more (b : Bool) := (scanName b s).map fun p => (c :: p.1, p.2)
    if bracketed then more (c != .scalar ']')
    else if c = .scalar '{' then none
    else if c = .scalar '[' then more true
    else if c = .scalar '}' ∨ c = .scalar ':' ∨ c = .scalar '!' then some ([], c, s)
    else more false

/-- A format specification up to the brace that ends the field, which `count` open braces precede. -/
def scanSpec (count : ℕ) : Str → Option (Str × Bool × Str)
  | [] => none
  | c :: s =>
    if c = .scalar '{' then (scanSpec (count + 1) s).map fun p => (c :: p.1, true, p.2.2)
    else if c = .scalar '}' then
      match count with
      | 0 => some ([], false, s)
      | count + 1 => (scanSpec count s).map fun p => (c :: p.1, p.2)
    else (scanSpec count s).map fun p => (c :: p.1, p.2)

/-- A conversion is a character; `'\0'` stands for none. -/
def conversionOf (c : PyChar) : Option PyChar := if c.ord = 0 then none else some c

/-- `parse_field`, after the brace that opens a field. -/
def parseField (s : Str) : Option (Field × Str) := do
  let (name, stop, s) ← scanName false s
  if stop = .scalar '}' then pure (⟨name, none, [], false⟩, s)
  else if stop = .scalar ':' then
    let (spec, nested, s) ← scanSpec 0 s
    pure (⟨name, none, spec, nested⟩, s)
  else
    match s with
    | c :: .scalar '}' :: s => pure (⟨name, conversionOf c, [], false⟩, s)
    | c :: .scalar ':' :: s =>
      let (spec, nested, s) ← scanSpec 0 s
      pure (⟨name, conversionOf c, spec, nested⟩, s)
    | _ => none

/-- The pieces of a template, and whether they are all of it: else the rest is malformed. -/
def piecesWithin : ℕ → Str → List Piece × Bool
  | 0, s => ([], s.isEmpty)
  | n + 1, s =>
    let cons (p : Piece) (r : Str) := ((p :: (piecesWithin n r).1), (piecesWithin n r).2)
    match s with
    | [] => ([], true)
    | .scalar '{' :: .scalar '{' :: r => cons (.text (str "\x7b")) r
    | .scalar '}' :: .scalar '}' :: r => cons (.text (str "\x7d")) r
    | .scalar '}' :: _ => ([], false)
    | .scalar '{' :: r =>
      match parseField r with
      | none => ([], false)
      | some (f, r) => cons (.field f) r
    | c :: r => cons (.text [c]) r

def pieces (s : Str) : List Piece × Bool := piecesWithin s.length s

/-! ### Arguments -/

/-- An argument, or what its attributes and items lead to. -/
inductive Obj where
  | str (s : Str)
  | other (id : ℕ)
  deriving DecidableEq

/-- What objects answer, as far as it is not a matter of strings, and the longest string there is room for. -/
structure Objects where
  attr : Obj → Str → Except Exn Obj
  itemAt : ℕ → ℕ → Except Exn Obj
  itemOf : ℕ → Str → Except Exn Obj
  text : ℕ → Except Exn Str
  repr : Obj → Except Exn Str
  ascii : Obj → Except Exn Str
  format : ℕ → Str → Except Exn Str
  maxLength : ℕ

/-- One step from an object: an attribute, an item, or what is malformed. -/
inductive Step where
  | attr (name : Str)
  | item (name : Str)
  | malformed
  deriving DecidableEq

def startsStep (c : PyChar) : Bool := c == .scalar '.' || c == .scalar '['

/-- The steps of a field name behind its first part. -/
def stepsWithin : ℕ → Str → List Step
  | _, [] => []
  | 0, _ => [.malformed]
  | n + 1, c :: s =>
    if c = .scalar '.' then
      let name := s.takeWhile (!startsStep ·)
      if name = [] then [.malformed] else .attr name :: stepsWithin n (s.dropWhile (!startsStep ·))
    else if c = .scalar '[' then
      let name := s.takeWhile (· != .scalar ']')
      match s.dropWhile (· != .scalar ']') with
      | [] => [.malformed]
      | _ :: s => if name = [] then [.malformed] else .item name :: stepsWithin n s
    else [.malformed]

section Objects

variable (objs : Objects) (kwargs : List (Str × Str))

/-- `obj[name]`, where a name that spells an index is one. -/
def getItem (name : Str) (obj : Obj) : Except Exn Obj := do
  match ← nameInteger name, obj with
  | some i, .str s =>
    match s[i]? with
    | some c => .ok (.str [c])
    | none => .error (.exception "IndexError")
  | none, .str _ => .error .typeError
  | some i, .other id => objs.itemAt id i
  | none, .other id => objs.itemOf id name

def takeStep (obj : Obj) : Step → Except Exn Obj
  | .attr name => objs.attr obj name
  | .item name => getItem objs name obj
  | .malformed => .error .valueError

def firstPart (name : Str) : Str := name.takeWhile (!startsStep ·)

def steps (name : Str) : List Step := stepsWithin name.length (name.dropWhile (!startsStep ·))

/-- The argument that the first part of a field name names; there are no positional ones. -/
def argument (first : Str) : Except Exn Obj := do
  let index ← nameInteger first
  if first = [] ∨ index.isSome then .error (.exception "IndexError")
  else
    match kwargs.lookup first with
    | none => .error (.exception "KeyError")
    | some s => .ok (.str s)

/-- `get_field_object`. -/
def fieldObject (name : Str) : Except Exn Obj := do
  let obj ← argument kwargs (firstPart name)
  (steps name).foldlM (takeStep objs) obj

/-- `do_conversion`. -/
def convert (obj : Obj) : Option PyChar → Except Exn Obj
  | none => .ok obj
  | some c =>
    if c = .scalar 's' then
      match obj with
      | .str s => .ok (.str s)
      | .other id => (objs.text id).map .str
    else if c = .scalar 'r' then (objs.repr obj).map .str
    else if c = .scalar 'a' then (objs.ascii obj).map .str
    else .error .valueError

/-! ### Strings -/

def isAlign (c : PyChar) : Bool := (str "<>=^").contains c

/-- Fill and alignment at the head of a specification. -/
def scanAlign : Str → Option PyChar × Option PyChar × Str
  | f :: a :: s =>
    if isAlign a then (some f, some a, s)
    else if isAlign f then (none, some f, a :: s)
    else (none, none, f :: a :: s)
  | [f] => if isAlign f then (none, some f, []) else (none, none, [f])
  | [] => (none, none, [])

def scanFlag (p : PyChar → Bool) : Str → Bool × Str
  | c :: s => if p c then (true, s) else (false, c :: s)
  | [] => (false, [])

def scanNumber (s : Str) : Except Exn (Option ℕ × Str) :=
  match s with
  | [] => .ok (none, [])
  | c :: _ =>
    if (toDecimal c).isNone then .ok (none, s)
    else (leadingInteger 0 s).map fun p => (some p.1, p.2)

/-- An optional precision of a specification: a point and a number. -/
def scanPrecision : Str → Except Exn (Option ℕ × Str)
  | .scalar '.' :: s => do
    let p ← scanNumber s
    ensure (p.1 ≠ none) .valueError
    pure p
  | s => .ok (none, s)

def pad (fill align : PyChar) (width : ℕ) (s : Str) : Str :=
  let total := width - s.length
  let left := if align = .scalar '>' then total else if align = .scalar '^' then total / 2 else 0
  List.replicate left fill ++ s ++ List.replicate (total - left) fill

/-- What a specification asks of a string. -/
structure StrSpec where
  fill : PyChar
  align : PyChar
  width : ℕ
  precision : Option ℕ

def StrSpec.truncate (p : StrSpec) (s : Str) : Str := (p.precision.map s.take).getD s

/-- The specification of a string; a sign, a flag, separators and `=` are for numbers. -/
def parseSpec (spec : Str) : Except Exn StrSpec := do
  let (fill, align, r) := scanAlign spec
  let (sign, r) := scanFlag (str " +-").contains r
  let (noNegZero, r) := scanFlag (· == .scalar 'z') r
  let (alternate, r) := scanFlag (· == .scalar '#') r
  let (zero, r) := if fill.isNone then scanFlag (· == .scalar '0') r else (false, r)
  let (width, r) ← scanNumber r
  let (grouping, r) := scanFlag (str ",_").contains r
  let (precision, r) ← scanPrecision r
  ensure (r = [] ∨ r = str "s") .valueError
  ensure (¬ (sign || noNegZero || alternate || grouping) = true ∧ align ≠ some (.scalar '=')) .valueError
  pure ⟨fill.getD (.scalar (if zero then '0' else ' ')), align.getD (.scalar '<'), width.getD 0, precision⟩

/-- `str.__format__`. -/
def formatStr (s spec : Str) : Except Exn Str :=
  if spec = [] then .ok s
  else do
    let p ← parseSpec spec
    ensure (p.width ≤ max objs.maxLength (p.truncate s).length) (.exception "MemoryError")
    pure (pad p.fill p.align p.width (p.truncate s))

/-- `format(obj, spec)`. -/
def formatObj (spec : Str) : Obj → Except Exn Str
  | .str s => formatStr objs s spec
  | .other id => objs.format id spec

/-! ### Templates -/

/-- The specification of a field; `expand` replaces the fields in it. -/
def Field.fullSpec (expand : Str → Except Exn Str) (f : Field) : Except Exn Str :=
  if f.nested then expand f.spec else .ok f.spec

def renderPiece (expand : Str → Except Exn Str) : Piece → Except Exn Str
  | .text s => .ok s
  | .field f => do
    let obj ← fieldObject objs kwargs f.name
    let obj ← convert objs obj f.conversion
    let spec ← f.fullSpec expand
    formatObj objs spec obj

/-- `build_string`, with the depth of specifications in specifications that is left. -/
def buildString : ℕ → Str → Except Exn Str
  | 0, _ => .error .valueError
  | n + 1, s => do
    let texts ← (pieces s).1.mapM (renderPiece objs kwargs (buildString n))
    ensure ((pieces s).2 = true) .valueError
    pure texts.flatten

/-- `template.format(**kwargs)`. -/
def strFormat (template : Str) : Except Exn Str := buildString objs kwargs 2 template

/-! ### Templates with one field -/

/-- A text as a template spells it, with its braces doubled. -/
def escapeBraces (s : Str) : Str := s.flatMap fun c => if isBrace c then [c, c] else [c]

theorem length_le_escapeBraces (s : Str) : s.length ≤ (escapeBraces s).length := by
  induction s with
  | nil => simp
  | cons c s ih =>
    rw [escapeBraces, List.flatMap_cons, List.length_append, List.length_cons]
    have hpos : 1 ≤ (if isBrace c then [c, c] else [c]).length := by split <;> simp
    have : (escapeBraces s).length = (s.flatMap fun c => if isBrace c then [c, c] else [c]).length := rfl
    omega

/-- An escaped text is taken apart into its characters. -/
theorem piecesWithin_escapeBraces (p r : Str) (m : ℕ) : piecesWithin (p.length + m) (escapeBraces p ++ r) =
    (p.map (.text [·]) ++ (piecesWithin m r).1, (piecesWithin m r).2) := by
  induction p with
  | nil => simp [escapeBraces]
  | cons c p ih =>
    have hlen : (c :: p).length + m = (p.length + m) + 1 := by
      rw [List.length_cons]
      omega
    have hcons : escapeBraces (c :: p) ++ r = (if isBrace c then [c, c] else [c]) ++ (escapeBraces p ++ r) := by
      simp [escapeBraces]
    rw [hlen, hcons]
    by_cases hopen : c = .scalar '{'
    · subst hopen
      show ((Piece.text (str "\x7b") :: (piecesWithin (p.length + m) (escapeBraces p ++ r)).1),
        (piecesWithin (p.length + m) (escapeBraces p ++ r)).2) = _
      rw [ih]
      rfl
    by_cases hclose : c = .scalar '}'
    · subst hclose
      show ((Piece.text (str "\x7d") :: (piecesWithin (p.length + m) (escapeBraces p ++ r)).1),
        (piecesWithin (p.length + m) (escapeBraces p ++ r)).2) = _
      rw [ih]
      rfl
    · have hbrace : isBrace c = false := by simp [isBrace, hopen, hclose]
      rw [if_neg (by simp [hbrace]), List.singleton_append, piecesWithin]
      · dsimp only
        rw [ih]
        rfl
      all_goals simp_all

def isMarkup (c : PyChar) : Bool :=
  isBrace c || c == .scalar '[' || c == .scalar ':' || c == .scalar '!' || c == .scalar '.'

/-- A name without markup ends at the brace. -/
theorem scanName_plain {name : Str} (h : ∀ c ∈ name, isMarkup c = false) (r : Str) :
    scanName false (name ++ .scalar '}' :: r) = some (name, .scalar '}', r) := by
  induction name with
  | nil => rfl
  | cons c name ih =>
    have hc := h c (List.mem_cons_self ..)
    simp only [isMarkup, isBrace, Bool.or_eq_false_iff, beq_eq_false_iff_ne] at hc
    have ih := ih fun d hd => h d (List.mem_cons_of_mem _ hd)
    simp [scanName, hc, ih]

/-- A name without markup has one part. -/
theorem firstPart_plain {name : Str} (h : ∀ c ∈ name, isMarkup c = false) :
    firstPart name = name ∧ steps name = [] := by
  have hstep : ∀ c ∈ name, (!startsStep c) = true := by
    intro c hc
    have hc := h c hc
    simp only [isMarkup, isBrace, Bool.or_eq_false_iff, beq_eq_false_iff_ne] at hc
    simp [startsStep, hc]
  refine ⟨List.takeWhile_eq_self_iff.2 hstep, ?_⟩
  rw [steps, List.dropWhile_eq_nil_iff.2 hstep]
  cases name.length <;> rfl

theorem renderPiece_plain {name value : Str} (hname : name ≠ []) (hplain : ∀ c ∈ name, isMarkup c = false)
    (hint : nameInteger name = .ok none) (expand : Str → Except Exn Str) :
    renderPiece objs [(name, value)] expand (.field ⟨name, none, [], false⟩) = .ok value := by
  obtain ⟨hfirst, hsteps⟩ := firstPart_plain hplain
  have harg : argument [(name, value)] name = .ok (.str value) := by
    rw [argument, hint]
    simp [hname, bind, Except.bind]
  have hobj : fieldObject objs [(name, value)] name = .ok (.str value) := by
    rw [fieldObject, hfirst, hsteps, harg]
    rfl
  rw [renderPiece, hobj]
  rfl

/-- **A template with one plain field is filled in.** -/
theorem strFormat_plain {name value : Str} (hname : name ≠ []) (hplain : ∀ c ∈ name, isMarkup c = false)
    (hint : nameInteger name = .ok none) (p q : Str) :
    strFormat objs [(name, value)] (escapeBraces p ++ .scalar '{' :: (name ++ .scalar '}' :: escapeBraces q)) =
      .ok (p ++ value ++ q) := by
  have hpieces : pieces (escapeBraces p ++ .scalar '{' :: (name ++ .scalar '}' :: escapeBraces q)) =
      (p.map (.text [·]) ++ .field ⟨name, none, [], false⟩ :: q.map (.text [·]), true) := by
    have hp := length_le_escapeBraces p
    have hq := length_le_escapeBraces q
    obtain ⟨k, hk⟩ : ∃ k, (escapeBraces p ++ .scalar '{' :: (name ++ .scalar '}' :: escapeBraces q)).length =
        p.length + ((q.length + k) + 1) := by
      refine ⟨(escapeBraces p).length - p.length + (escapeBraces q).length - q.length + name.length + 1, ?_⟩
      simp only [List.length_append, List.length_cons]
      omega
    have hend : piecesWithin (q.length + k) (escapeBraces q) = (q.map (.text [·]), true) := by
      have h := piecesWithin_escapeBraces q [] k
      rw [List.append_nil] at h
      rw [h]
      cases k <;> simp [piecesWithin]
    have hparse : parseField (name ++ .scalar '}' :: escapeBraces q) =
        some (⟨name, none, [], false⟩, escapeBraces q) := by
      rw [parseField, scanName_plain hplain]
      rfl
    rw [pieces, hk, piecesWithin_escapeBraces]
    obtain ⟨c, name, rfl⟩ := List.exists_cons_of_ne_nil hname
    have hc : c ≠ .scalar '{' := by
      rintro rfl
      cases hplain _ (List.mem_cons_self ..)
    rw [piecesWithin]
    · rw [hparse]
      dsimp only
      rw [hend]
    · simpa using hc
  have htext : ∀ (s : Str) (expand : Str → Except Exn Str),
      (s.map (Piece.text [·])).mapM (renderPiece objs [(name, value)] expand) = .ok (s.map ([·])) := by
    intro s expand
    induction s with
    | nil => rfl
    | cons c s ih =>
      rw [List.map_cons, List.mapM_cons, ih]
      rfl
  have hflatten : ∀ s : Str, (s.map ([·])).flatten = s := fun s => by
    rw [← List.flatMap_def, List.flatMap_singleton']
  rw [strFormat, buildString, hpieces]
  dsimp only
  rw [List.mapM_append, htext, List.mapM_cons, renderPiece_plain objs hname hplain hint, htext]
  simp [bind, Except.bind, ensure, pure, Except.pure, hflatten]

end Objects

end SharedAi.Python
