import SharedAi.Text.Str
import SharedAi.Num.Decimal

/-!
# JSON documents

`Doc` is the syntax tree of a JSON text as `json.loads` reads one: strings with their escapes decoded,
numerals and the three constants unconverted, an object the list of its members in the order of the text.
`render` writes a tree the way `json.dumps` does with `ensure_ascii=False` and `separators=(",", ":")`.

What a reader makes of a tree is given by its `Hooks`, as the keyword arguments of `json.loads` give it;
`build` applies them bottom-up, in the order of the text, and stops at the first error.
-/

namespace SharedAi.Json

open SharedAi.Text SharedAi.Num

/-- The constants of `parse_constant`. -/
inductive Constant where
  | nan | infinity | negInfinity
  deriving DecidableEq

/-- The syntax tree of a JSON text. -/
inductive Doc where
  | null
  | bool (b : Bool)
  | num (l : NumLit)
  | const (c : Constant)
  | str (s : Str)
  | arr (ds : List Doc)
  | obj (ms : List (Str × Doc))

/-! ### Writing -/

def lit (cs : List Char) : Str := cs.map .scalar

def digitChar (d : Digit) : PyChar := .scalar (Char.ofNat (48 + d.val))

def hexChar (n : ℕ) : PyChar := .scalar (if n < 10 then Char.ofNat (48 + n) else Char.ofNat (87 + n))

/-- `c_encode_basestring`: quote, backslash and the control characters are escaped, nothing else. -/
def escape (c : PyChar) : Str :=
  if c = .scalar '"' then lit ['\\', '"']
  else if c = .scalar '\\' then lit ['\\', '\\']
  else if c = .scalar '\n' then lit ['\\', 'n']
  else if c = .scalar '\r' then lit ['\\', 'r']
  else if c = .scalar '\t' then lit ['\\', 't']
  else if c = .scalar '\x0c' then lit ['\\', 'f']
  else if c = .scalar '\x08' then lit ['\\', 'b']
  else if c.ord < 0x20 then lit ['\\', 'u', '0', '0'] ++ [hexChar (c.ord / 16), hexChar (c.ord % 16)]
  else [c]

def renderStr (s : Str) : Str := .scalar '"' :: (s.flatMap escape ++ lit ['"'])

def renderDigits (ds : List Digit) : Str := ds.map digitChar

def renderExp : Option Exponent → Str
  | none => []
  | some e => .scalar 'e' :: .scalar (if e.neg then '-' else '+') :: renderDigits (e.lead :: e.rest)

def renderFrac (ds : List Digit) : Str := if ds = [] then [] else .scalar '.' :: renderDigits ds

def renderNum (l : NumLit) : Str :=
  (if l.neg then lit ['-'] else []) ++ (renderDigits l.int.toList ++ (renderFrac l.frac ++ renderExp l.exp))

def renderConst : Constant → Str
  | .nan => lit ['N', 'a', 'N']
  | .infinity => lit ['I', 'n', 'f', 'i', 'n', 'i', 't', 'y']
  | .negInfinity => lit ['-', 'I', 'n', 'f', 'i', 'n', 'i', 't', 'y']

mutual
/-- `json.dumps(…, ensure_ascii=False, separators=(",", ":"))` of a tree. -/
def render : Doc → Str
  | .null => lit ['n', 'u', 'l', 'l']
  | .bool true => lit ['t', 'r', 'u', 'e']
  | .bool false => lit ['f', 'a', 'l', 's', 'e']
  | .num l => renderNum l
  | .const c => renderConst c
  | .str s => renderStr s
  | .arr ds => .scalar '[' :: (renderElems ds ++ lit [']'])
  | .obj ms => .scalar '{' :: (renderMembers ms ++ lit ['}'])
def renderElems : List Doc → Str
  | [] => []
  | [d] => render d
  | d :: ds => render d ++ .scalar ',' :: renderElems ds
def renderMembers : List (Str × Doc) → Str
  | [] => []
  | [(k, d)] => renderStr k ++ .scalar ':' :: render d
  | (k, d) :: ms => renderStr k ++ .scalar ':' :: (render d ++ .scalar ',' :: renderMembers ms)
end

mutual
def depth : Doc → ℕ
  | .arr ds => depthElems ds + 1
  | .obj ms => depthMembers ms + 1
  | _ => 0
def depthElems : List Doc → ℕ
  | [] => 0
  | d :: ds => max (depth d) (depthElems ds)
def depthMembers : List (Str × Doc) → ℕ
  | [] => 0
  | (_, d) :: ms => max (depth d) (depthMembers ms)
end

/-! ### Hooks -/

/-- What a reader makes of the parts of a text, and the errors it raises on its own account. -/
structure Hooks (ε α : Type) where
  syntaxError : ε
  recursionError : ε
  null : α
  bool : Bool → α
  parseInt : NumLit → Except ε α
  parseFloat : NumLit → Except ε α
  parseConstant : Constant → Except ε α
  string : Str → α
  array : List α → α
  objectPairs : List (Str × α) → Except ε α

variable {ε α : Type}

/-- `parse_int` or `parse_float`, as the spelling of the numeral decides. -/
def Hooks.number (H : Hooks ε α) (l : NumLit) : Except ε α := if l.isInt then H.parseInt l else H.parseFloat l

mutual
/-- The hooks applied to a tree, bottom-up. -/
def build (H : Hooks ε α) : Doc → Except ε α
  | .null => .ok H.null
  | .bool b => .ok (H.bool b)
  | .num l => H.number l
  | .const c => H.parseConstant c
  | .str s => .ok (H.string s)
  | .arr ds => do
    let vs ← buildElems H ds
    pure (H.array vs)
  | .obj ms => do
    let ps ← buildMembers H ms
    H.objectPairs ps
def buildElems (H : Hooks ε α) : List Doc → Except ε (List α)
  | [] => .ok []
  | d :: ds => do
    let v ← build H d
    let vs ← buildElems H ds
    pure (v :: vs)
def buildMembers (H : Hooks ε α) : List (Str × Doc) → Except ε (List (Str × α))
  | [] => .ok []
  | (k, d) :: ms => do
    let v ← build H d
    let ps ← buildMembers H ms
    pure ((k, v) :: ps)
end

/-- The hooks that keep the syntax tree, under the errors of another reader. -/
def Hooks.tree (H : Hooks ε α) : Hooks ε Doc where
  syntaxError := H.syntaxError
  recursionError := H.recursionError
  null := .null
  bool := .bool
  parseInt l := .ok (.num l)
  parseFloat l := .ok (.num l)
  parseConstant c := .ok (.const c)
  string := .str
  array := .arr
  objectPairs ms := .ok (.obj ms)

@[simp] theorem Hooks.tree_number (H : Hooks ε α) (l : NumLit) : H.tree.number l = .ok (.num l) := by
  unfold Hooks.number
  split <;> rfl

/-- Induction on syntax trees: the members of a container satisfy the claim. -/
theorem Doc.ind {P : Doc → Prop} (null : P .null) (bool : ∀ b, P (.bool b)) (num : ∀ l, P (.num l))
    (const : ∀ c, P (.const c)) (str : ∀ s, P (.str s)) (arr : ∀ ds, (∀ d ∈ ds, P d) → P (.arr ds))
    (obj : ∀ ms, (∀ m ∈ ms, P m.2) → P (.obj ms)) : ∀ d, P d :=
  Doc.rec (motive_1 := P) (motive_2 := fun ds => ∀ d ∈ ds, P d) (motive_3 := fun ms => ∀ m ∈ ms, P m.2)
    (motive_4 := fun m => P m.2) null bool num const str arr obj (by simp)
    (fun d ds hd hds e he => by
      rcases List.mem_cons.1 he with rfl | he
      · exact hd
      · exact hds e he)
    (by simp)
    (fun m ms hm hms e he => by
      rcases List.mem_cons.1 he with rfl | he
      · exact hm
      · exact hms e he)
    (fun _ _ hd => hd)

end SharedAi.Json
