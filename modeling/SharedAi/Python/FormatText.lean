import SharedAi.Python.Format

/-!
# The grammar of format strings

What a template says, read off its text, and what it says of its arguments.

* `NameText`, `SpecText`, `FieldText` — the texts between the braces of a field;
* `Begins` — the pieces a template begins with, and the text behind them;
* `Leads`, `Converts`, `Shows` — what a field makes of an argument;
* `Formats` — the text that a template stands for, and `strFormat_eq_ok`: `strFormat` returns it.
-/

namespace SharedAi.Python

open SharedAi.Control SharedAi.Text

/-! ### Texts of fields -/

def endsName (c : PyChar) : Bool := c == .scalar '}' || c == .scalar ':' || c == .scalar '!'

/-- The name of a field; brackets hide what they enclose. -/
inductive NameText : Str → Prop
  | nil : NameText []
  | char {c : PyChar} {s : Str} (plain : endsName c = false ∧ c ≠ .scalar '{' ∧ c ≠ .scalar '[')
      (rest : NameText s) : NameText (c :: s)
  | brackets {inner s : Str} (hidden : .scalar ']' ∉ inner) (rest : NameText s) :
      NameText (.scalar '[' :: (inner ++ .scalar ']' :: s))

/-- A specification in front of which `n` braces are open, and behind which none is. -/
inductive SpecText : ℕ → Str → Prop
  | nil : SpecText 0 []
  | char {n : ℕ} {c : PyChar} {s : Str} (plain : isBrace c = false) (rest : SpecText n s) : SpecText n (c :: s)
  | opening {n : ℕ} {s : Str} (rest : SpecText (n + 1) s) : SpecText n (.scalar '{' :: s)
  | closing {n : ℕ} {s : Str} (rest : SpecText n s) : SpecText (n + 1) (.scalar '}' :: s)

/-- The text of a field between its braces. -/
inductive FieldText : Str → Field → Prop
  | name {name : Str} (text : NameText name) : FieldText name ⟨name, none, [], false⟩
  | spec {name spec : Str} (text : NameText name) (specText : SpecText 0 spec) :
      FieldText (name ++ .scalar ':' :: spec) ⟨name, none, spec, decide (.scalar '{' ∈ spec)⟩
  | conversion {name : Str} {c : PyChar} (text : NameText name) :
      FieldText (name ++ [.scalar '!', c]) ⟨name, conversionOf c, [], false⟩
  | both {name spec : Str} {c : PyChar} (text : NameText name) (specText : SpecText 0 spec) :
      FieldText (name ++ .scalar '!' :: c :: .scalar ':' :: spec)
        ⟨name, conversionOf c, spec, decide (.scalar '{' ∈ spec)⟩

/-- The text of a piece. -/
inductive PieceText : Str → Piece → Prop
  | char {c : PyChar} (plain : isBrace c = false) : PieceText [c] (.text [c])
  | opening : PieceText [.scalar '{', .scalar '{'] (.text (str "\x7b"))
  | closing : PieceText [.scalar '}', .scalar '}'] (.text (str "\x7d"))
  | field {t : Str} {f : Field} (text : FieldText t f) : PieceText (.scalar '{' :: (t ++ [.scalar '}'])) (.field f)

/-- The text begins with some pieces, and goes on with the rest. -/
inductive Begins : Str → List Piece → Str → Prop
  | nil (s : Str) : Begins s [] s
  | cons {t s r : Str} {p : Piece} {ps : List Piece} (text : PieceText t p) (rest : Begins s ps r) :
      Begins (t ++ s) (p :: ps) r

theorem endsName_iff {c : PyChar} : endsName c = true ↔ c = .scalar '}' ∨ c = .scalar ':' ∨ c = .scalar '!' := by
  simp [endsName, or_assoc]

/-- Up to the bracket that closes, everything belongs to the name. -/
theorem scanName_bracketed {inner : Str} (hidden : .scalar ']' ∉ inner) (s : Str) :
    scanName true (inner ++ .scalar ']' :: s) = (scanName false s).map fun p => (inner ++ .scalar ']' :: p.1, p.2) := by
  induction inner with
  | nil => rfl
  | cons c inner ih =>
    obtain ⟨hc, hinner⟩ := not_or.1 (List.mem_cons.not.1 hidden)
    have hmore : (c != .scalar ']') = true := bne_iff_ne.2 (Ne.symm hc)
    rw [List.cons_append, scanName, if_pos rfl, hmore]
    dsimp only
    rw [ih hinner, Option.map_map]
    rfl

/-- A name is read up to the character that ends it. -/
theorem NameText.scan {name : Str} (h : NameText name) {stop : PyChar} (hstop : endsName stop = true) (r : Str) :
    scanName false (name ++ stop :: r) = some (name, stop, r) := by
  induction h with
  | nil =>
    have hends := endsName_iff.1 hstop
    have hplain : stop ≠ .scalar '{' ∧ stop ≠ .scalar '[' := by rcases hends with rfl | rfl | rfl <;> decide
    rw [List.nil_append, scanName, if_neg (by decide), if_neg hplain.1, if_neg hplain.2, if_pos hends]
  | char plain _ ih =>
    obtain ⟨hends, hopen, hbracket⟩ := plain
    have hends := endsName_iff.not.1 (Bool.eq_false_iff.1 hends)
    rw [List.cons_append, scanName, if_neg (by decide), if_neg hopen, if_neg hbracket, if_neg hends]
    dsimp only
    rw [ih]
    rfl
  | brackets hidden _ ih =>
    rw [List.cons_append, List.append_assoc, List.cons_append, scanName, if_neg (by decide), if_neg (by decide),
      if_pos rfl]
    dsimp only
    rw [scanName_bracketed hidden, ih]
    rfl

/-- Outside of brackets the scanner reads a name, and inside the rest of one. -/
theorem nameText_of_scan {s : Str} {bracketed : Bool} {name r : Str} {stop : PyChar}
    (h : scanName bracketed s = some (name, stop, r)) :
    s = name ++ stop :: r ∧ endsName stop = true ∧ (bracketed = false → NameText name) ∧
      (bracketed = true → ∃ inner tail, name = inner ++ .scalar ']' :: tail ∧ .scalar ']' ∉ inner ∧ NameText tail) := by
  induction s generalizing bracketed name stop r with
  | nil => cases h
  | cons c s ih =>
    have hmore : ∀ {b : Bool}, (scanName b s).map (fun p => (c :: p.1, p.2)) = some (name, stop, r) →
        ∃ tail, name = c :: tail ∧ scanName b s = some (tail, stop, r) := by
      intro b hb
      obtain ⟨⟨tail, p⟩, hp, he⟩ := Option.map_eq_some_iff.1 hb
      cases he
      exact ⟨tail, rfl, hp⟩
    rw [scanName] at h
    dsimp only at h
    cases bracketed with
    | true =>
      rw [if_pos rfl] at h
      obtain ⟨tail, rfl, htail⟩ := hmore h
      obtain ⟨rfl, hstop, houter, hinner⟩ := ih htail
      refine ⟨rfl, hstop, by simp, fun _ => ?_⟩
      by_cases hc : c = .scalar ']'
      · subst hc
        exact ⟨[], tail, rfl, List.not_mem_nil, houter rfl⟩
      · obtain ⟨inner, rest, rfl, hidden, hrest⟩ := hinner (bne_iff_ne.2 hc)
        exact ⟨c :: inner, rest, rfl, by simpa [hidden] using Ne.symm hc, hrest⟩
    | false =>
      rw [if_neg Bool.false_ne_true] at h
      split at h
      · cases h
      split at h
      · next hbracket =>
        subst hbracket
        obtain ⟨tail, rfl, htail⟩ := hmore h
        obtain ⟨rfl, hstop, -, hinner⟩ := ih htail
        obtain ⟨inner, rest, rfl, hidden, hrest⟩ := hinner rfl
        exact ⟨rfl, hstop, fun _ => .brackets hidden hrest, by simp⟩
      split at h
      · next hends =>
        cases h
        exact ⟨rfl, endsName_iff.2 hends, fun _ => .nil, by simp⟩
      · next hopen hbracket hends =>
        obtain ⟨tail, rfl, htail⟩ := hmore h
        obtain ⟨rfl, hstop, houter, -⟩ := ih htail
        have hplain : endsName c = false := Bool.eq_false_iff.2 (endsName_iff.not.2 hends)
        exact ⟨rfl, hstop, fun _ => .char ⟨hplain, hopen, hbracket⟩ (houter rfl), by simp⟩

theorem not_isBrace_iff {c : PyChar} : isBrace c = false ↔ c ≠ .scalar '{' ∧ c ≠ .scalar '}' := by
  simp [isBrace]

/-- A specification is read up to the brace that ends the field. -/
theorem SpecText.scan {n : ℕ} {spec : Str} (h : SpecText n spec) (r : Str) :
    scanSpec n (spec ++ .scalar '}' :: r) = some (spec, decide (.scalar '{' ∈ spec), r) := by
  induction h with
  | nil => simp [scanSpec]
  | char plain _ ih =>
    obtain ⟨hopen, hclose⟩ := not_isBrace_iff.1 plain
    simp [scanSpec, hopen, hclose, ih, Ne.symm hopen]
  | opening _ ih => simp [scanSpec, ih]
  | closing _ ih => simp [scanSpec, ih]

theorem specText_of_scan {n : ℕ} {s spec r : Str} {nested : Bool} (h : scanSpec n s = some (spec, nested, r)) :
    s = spec ++ .scalar '}' :: r ∧ SpecText n spec := by
  induction s generalizing n spec nested r with
  | nil => cases h
  | cons c s ih =>
    unfold scanSpec at h
    split at h
    · next hopen =>
      obtain ⟨⟨tail, b, r'⟩, hp, he⟩ := Option.map_eq_some_iff.1 h
      cases he
      obtain ⟨rfl, htail⟩ := ih hp
      subst hopen
      exact ⟨rfl, .opening htail⟩
    split at h
    · next hclose =>
      subst hclose
      split at h
      · cases h
        exact ⟨rfl, .nil⟩
      · obtain ⟨⟨tail, b, r'⟩, hp, he⟩ := Option.map_eq_some_iff.1 h
        cases he
        obtain ⟨rfl, htail⟩ := ih hp
        exact ⟨rfl, .closing htail⟩
    · next hopen hclose =>
      obtain ⟨⟨tail, b, r'⟩, hp, he⟩ := Option.map_eq_some_iff.1 h
      cases he
      obtain ⟨rfl, htail⟩ := ih hp
      exact ⟨rfl, .char (not_isBrace_iff.2 ⟨hopen, hclose⟩) htail⟩

theorem scanSpec_eq_some {n : ℕ} {s spec r : Str} {nested : Bool} : scanSpec n s = some (spec, nested, r) ↔
    s = spec ++ .scalar '}' :: r ∧ SpecText n spec ∧ nested = decide (.scalar '{' ∈ spec) := by
  constructor
  · intro h
    obtain ⟨rfl, hspec⟩ := specText_of_scan h
    cases h.symm.trans (hspec.scan r)
    exact ⟨rfl, hspec, rfl⟩
  · rintro ⟨rfl, hspec, rfl⟩
    exact hspec.scan r

theorem FieldText.parse {t r : Str} {f : Field} (h : FieldText t f) :
    parseField (t ++ .scalar '}' :: r) = some (f, r) := by
  cases h with
  | name text => simp [parseField, text.scan (show endsName (.scalar '}') = true from rfl)]
  | spec text specText =>
    simp [parseField, text.scan (show endsName (.scalar ':') = true from rfl), specText.scan]
  | conversion text => simp [parseField, text.scan (show endsName (.scalar '!') = true from rfl)]
  | both text specText =>
    simp [parseField, text.scan (show endsName (.scalar '!') = true from rfl), specText.scan]

/-- The parser of fields reads the text of a field and the brace behind it. -/
theorem parseField_eq_some {s r : Str} {f : Field} :
    parseField s = some (f, r) ↔ ∃ t, FieldText t f ∧ s = t ++ .scalar '}' :: r := by
  constructor
  · intro hparse
    obtain ⟨⟨name, stop, s'⟩, hname, h⟩ := Option.bind_eq_some_iff.1 hparse
    clear hparse
    dsimp only at h
    obtain ⟨rfl, hstop, htext, -⟩ := nameText_of_scan hname
    have htext := htext rfl
    split at h
    · next hc =>
      cases h
      exact ⟨name, .name htext, by rw [hc]⟩
    split at h
    · next hc =>
      obtain ⟨⟨spec, nested, r'⟩, hspec, h⟩ := Option.bind_eq_some_iff.1 h
      obtain ⟨rfl, hspecText, rfl⟩ := scanSpec_eq_some.1 hspec
      cases h
      exact ⟨_, .spec htext hspecText, by simp [hc]⟩
    · next hbrace hcolon =>
      obtain rfl : stop = .scalar '!' := by
        simpa [endsName, hbrace, hcolon] using hstop
      split at h
      · cases h
        exact ⟨_, .conversion htext, by simp⟩
      · obtain ⟨⟨spec, nested, r'⟩, hspec, h⟩ := Option.bind_eq_some_iff.1 h
        obtain ⟨rfl, hspecText, rfl⟩ := scanSpec_eq_some.1 hspec
        cases h
        exact ⟨_, .both htext hspecText, by simp⟩
      · cases h
  · rintro ⟨t, ht, rfl⟩
    exact ht.parse

/-! ### Texts of templates -/

theorem NameText.head_ne {name : Str} (h : NameText name) : ∀ r, name ≠ .scalar '{' :: r := by
  rintro r rfl
  rcases h with - | ⟨⟨-, hne, -⟩, -⟩
  exact hne rfl

/-- No field begins with a brace. -/
theorem FieldText.head_ne {t : Str} {f : Field} (h : FieldText t f) (s r : Str) :
    t ++ .scalar '}' :: s ≠ .scalar '{' :: r := by
  have key : ∀ {name : Str} {c : PyChar} (u : Str), NameText name → c ≠ .scalar '{' →
      name ++ c :: u ≠ .scalar '{' :: r := by
    intro name c u hn hc he
    cases name with
    | nil => exact hc (List.cons.inj he).1
    | cons d name =>
      obtain ⟨rfl, -⟩ := List.cons.inj he
      exact hn.head_ne _ rfl
  cases h with
  | name text => exact key _ text (by decide)
  | spec text =>
    rw [List.append_assoc]
    exact key _ text (by decide)
  | conversion text =>
    rw [List.append_assoc]
    exact key _ text (by decide)
  | both text =>
    rw [List.append_assoc]
    exact key _ text (by decide)

/-- The text of a piece is taken off first. -/
theorem PieceText.pieces {t : Str} {p : Piece} (h : PieceText t p) (n : ℕ) (s : Str) :
    piecesWithin (n + 1) (t ++ s) = (p :: (piecesWithin n s).1, (piecesWithin n s).2) := by
  cases h with
  | char plain =>
    rw [List.singleton_append, piecesWithin]
    all_goals simp_all [isBrace]
  | opening => rfl
  | closing => rfl
  | field text =>
    rw [List.cons_append, List.append_assoc, List.singleton_append, piecesWithin]
    · rw [text.parse]
    · exact fun r hr => text.head_ne _ _ hr

theorem Begins.pieces {s r : Str} {ps : List Piece} (h : Begins s ps r) {n : ℕ} (hn : s.length ≤ n) :
    ∃ m, r.length ≤ m ∧ piecesWithin n s = (ps ++ (piecesWithin m r).1, (piecesWithin m r).2) := by
  induction h generalizing n with
  | nil s => exact ⟨n, hn, rfl⟩
  | @cons t s r p ps text rest ih =>
    have ht : 0 < t.length := by cases text <;> simp
    rw [List.length_append] at hn
    obtain ⟨n, rfl⟩ := Nat.exists_eq_add_of_le' (show 1 ≤ n by omega)
    obtain ⟨m, hm, hrest⟩ := ih (n := n) (by omega)
    refine ⟨m, hm, ?_⟩
    rw [text.pieces, hrest]
    rfl

/-- What is taken off first is the text of a piece. -/
theorem piecesWithin_succ (n : ℕ) (s : Str) : (∃ t p r, PieceText t p ∧ s = t ++ r ∧
      piecesWithin (n + 1) s = (p :: (piecesWithin n r).1, (piecesWithin n r).2)) ∨
    (piecesWithin (n + 1) s).1 = [] ∧ ((piecesWithin (n + 1) s).2 = true → s = []) := by
  rw [piecesWithin.eq_def]
  dsimp only
  split
  · exact .inr ⟨rfl, fun _ => rfl⟩
  · next r => exact .inl ⟨_, _, r, .opening, rfl, rfl⟩
  · next r => exact .inl ⟨_, _, r, .closing, rfl, rfl⟩
  · exact .inr ⟨rfl, nofun⟩
  · next r hopen =>
    split
    · exact .inr ⟨rfl, nofun⟩
    · next f r' hf =>
      obtain ⟨t, ht, rfl⟩ := parseField_eq_some.1 hf
      exact .inl ⟨_, _, r', .field ht, by simp, rfl⟩
  · next c r h1 h2 h3 h4 =>
    have hbrace : isBrace c = false := by
      rw [isBrace, Bool.or_eq_false_iff, beq_eq_false_iff_ne, beq_eq_false_iff_ne]
      exact ⟨h4, h3⟩
    exact .inl ⟨[c], _, r, .char hbrace, rfl, rfl⟩

/-- A template begins with the pieces that its text is taken apart into, and with no others. -/
theorem begins_iff {s : Str} {ps : List Piece} : (∃ r, Begins s ps r) ↔ ps <+: (pieces s).1 := by
  have hback : ∀ n s ps, ps <+: (piecesWithin n s).1 → ∃ r, Begins s ps r := by
    intro n
    induction n with
    | zero =>
      intro s ps h
      obtain rfl := List.prefix_nil.1 h
      exact ⟨s, .nil s⟩
    | succ n ih =>
      intro s ps h
      cases ps with
      | nil => exact ⟨s, .nil s⟩
      | cons p ps =>
        rcases piecesWithin_succ n s with ⟨t, q, u, ht, rfl, hp⟩ | ⟨hp, -⟩
        · rw [hp] at h
          obtain ⟨rfl, htail⟩ := List.cons_prefix_cons.1 h
          obtain ⟨r, hr⟩ := ih u ps htail
          exact ⟨r, .cons ht hr⟩
        · rw [hp] at h
          exact absurd (List.prefix_nil.1 h) (List.cons_ne_nil _ _)
  constructor
  · rintro ⟨r, h⟩
    obtain ⟨m, -, hp⟩ := h.pieces le_rfl
    rw [pieces, hp]
    exact List.prefix_append _ _
  · exact hback _ s ps

/-- The pieces of a template that is well formed. -/
theorem begins_nil_iff {s : Str} {ps : List Piece} : Begins s ps [] ↔ pieces s = (ps, true) := by
  have hback : ∀ n s, (piecesWithin n s).2 = true → Begins s (piecesWithin n s).1 [] := by
    intro n
    induction n with
    | zero =>
      intro s h
      obtain rfl : s = [] := List.isEmpty_iff.1 h
      exact .nil []
    | succ n ih =>
      intro s h
      rcases piecesWithin_succ n s with ⟨t, q, u, ht, rfl, hp⟩ | ⟨hp, hs⟩
      · rw [hp] at h ⊢
        exact .cons ht (ih u h)
      · obtain rfl := hs h
        rw [hp]
        exact .nil []
  constructor
  · intro h
    obtain ⟨m, -, hp⟩ := h.pieces le_rfl
    rw [pieces, hp]
    cases m <;> simp [piecesWithin]
  · intro h
    have hb := hback s.length s
    rw [pieces] at h
    rw [h] at hb
    exact hb rfl

/-! ### What a template says -/

/-- The argument with this name, which is no position. -/
def Names (kwargs : List (Str × Str)) (first value : Str) : Prop :=
  first ≠ [] ∧ nameInteger first = .ok none ∧ kwargs.lookup first = some value

section Meaning

variable (objs : Objects) (kwargs : List (Str × Str))

/-- Attributes and items lead from one object to another; the items of a string are its characters. -/
inductive Leads : Obj → List Step → Obj → Prop
  | here (obj : Obj) : Leads obj [] obj
  | attr {obj next last : Obj} {name : Str} {path : List Step} (attr : objs.attr obj name = .ok next)
      (rest : Leads next path last) : Leads obj (.attr name :: path) last
  | char {s name : Str} {i : ℕ} {c : PyChar} {last : Obj} {path : List Step}
      (index : nameInteger name = .ok (some i)) (char : s[i]? = some c) (rest : Leads (.str [c]) path last) :
      Leads (.str s) (.item name :: path) last
  | itemAt {id i : ℕ} {name : Str} {next last : Obj} {path : List Step} (index : nameInteger name = .ok (some i))
      (item : objs.itemAt id i = .ok next) (rest : Leads next path last) :
      Leads (.other id) (.item name :: path) last
  | itemOf {id : ℕ} {name : Str} {next last : Obj} {path : List Step} (key : nameInteger name = .ok none)
      (item : objs.itemOf id name = .ok next) (rest : Leads next path last) :
      Leads (.other id) (.item name :: path) last

/-- What a conversion makes of an object. -/
inductive Converts : Obj → Option PyChar → Obj → Prop
  | none (obj : Obj) : Converts obj none obj
  | string (s : Str) : Converts (.str s) (some (.scalar 's')) (.str s)
  | text {id : ℕ} {s : Str} (text : objs.text id = .ok s) : Converts (.other id) (some (.scalar 's')) (.str s)
  | repr {obj : Obj} {s : Str} (repr : objs.repr obj = .ok s) : Converts obj (some (.scalar 'r')) (.str s)
  | ascii {obj : Obj} {s : Str} (ascii : objs.ascii obj = .ok s) : Converts obj (some (.scalar 'a')) (.str s)

/-- What a specification makes of an object. -/
inductive Shows : Str → Obj → Str → Prop
  | plain (s : Str) : Shows [] (.str s) s
  | padded {spec s : Str} {p : StrSpec} (nonempty : spec ≠ []) (parsed : parseSpec spec = .ok p)
      (room : p.width ≤ max objs.maxLength (p.truncate s).length) :
      Shows spec (.str s) (pad p.fill p.align p.width (p.truncate s))
  | other {spec text : Str} {id : ℕ} (format : objs.format id spec = .ok text) : Shows spec (.other id) text

/-- The specification of a field, with the fields in it replaced. -/
def Field.SpecIs (formats : Str → Str → Prop) (f : Field) (spec : Str) : Prop :=
  if f.nested then formats f.spec spec else spec = f.spec

/-- The text that a piece stands for. -/
inductive Renders (formats : Str → Str → Prop) : Piece → Str → Prop
  | text (s : Str) : Renders formats (.text s) s
  | field {f : Field} {value spec text : Str} {obj obj' : Obj} (names : Names kwargs (firstPart f.name) value)
      (leads : Leads objs (.str value) (steps f.name) obj) (converts : Converts objs obj f.conversion obj')
      (specIs : f.SpecIs formats spec) (shows : Shows objs spec obj' text) : Renders formats (.field f) text

/-- The text that a template stands for, with `n` levels of specifications in specifications. -/
def Formats : ℕ → Str → Str → Prop
  | 0, _, _ => False
  | n + 1, s, text => ∃ ps texts, Begins s ps [] ∧ List.Forall₂ (Renders objs kwargs (Formats n)) ps texts ∧
      text = texts.flatten

variable {objs kwargs}

theorem argument_eq_ok {first : Str} {obj : Obj} : argument kwargs first = .ok obj ↔
    ∃ value, obj = .str value ∧ Names kwargs first value := by
  unfold argument Names
  rw [bind_eq_ok]
  constructor
  · rintro ⟨index, hindex, h⟩
    split at h
    · cases h
    · next hp =>
      obtain ⟨hne, hi⟩ := not_or.1 hp
      obtain rfl : index = none := by simpa using hi
      split at h
      · cases h
      · next value hv =>
        cases h
        exact ⟨value, rfl, hne, hindex, hv⟩
  · rintro ⟨value, rfl, hne, hindex, hv⟩
    exact ⟨none, hindex, by simp [hne, hv]⟩

theorem foldlM_takeStep_eq_ok {path : List Step} {obj last : Obj} :
    path.foldlM (takeStep objs) obj = .ok last ↔ Leads objs obj path last := by
  induction path generalizing obj with
  | nil =>
    constructor
    · intro h
      cases h
      exact .here _
    · rintro ⟨⟩
      rfl
  | cons step path ih =>
    rw [List.foldlM_cons, bind_eq_ok]
    simp only [ih]
    constructor
    · rintro ⟨next, h, rest⟩
      cases step with
      | attr name => exact .attr h rest
      | malformed => cases h
      | item name =>
        obtain ⟨index, hindex, h⟩ := bind_eq_ok.1 h
        cases index with
        | none =>
          cases obj with
          | str s => cases h
          | other id => exact .itemOf hindex h rest
        | some i =>
          cases obj with
          | str s =>
            dsimp only at h
            split at h
            · next c hc =>
              cases h
              exact .char hindex hc rest
            · cases h
          | other id => exact .itemAt hindex h rest
    · rintro (_ | ⟨attr, rest⟩ | ⟨index, char, rest⟩ | ⟨index, item, rest⟩ | ⟨key, item, rest⟩)
      · exact ⟨_, attr, rest⟩
      · exact ⟨_, bind_eq_ok.2 ⟨_, index, by simp only [char]⟩, rest⟩
      · exact ⟨_, bind_eq_ok.2 ⟨_, index, item⟩, rest⟩
      · exact ⟨_, bind_eq_ok.2 ⟨_, key, item⟩, rest⟩

theorem convert_eq_ok {obj obj' : Obj} {conversion : Option PyChar} :
    convert objs obj conversion = .ok obj' ↔ Converts objs obj conversion obj' := by
  constructor
  · intro h
    unfold convert at h
    split at h
    · cases h
      exact .none _
    split at h
    · next hc =>
      subst hc
      split at h
      · cases h
        exact .string _
      · obtain ⟨s, hs, rfl⟩ := map_eq_ok.1 h
        exact .text hs
    split at h
    · next hc =>
      subst hc
      obtain ⟨s, hs, rfl⟩ := map_eq_ok.1 h
      exact .repr hs
    split at h
    · next hc =>
      subst hc
      obtain ⟨s, hs, rfl⟩ := map_eq_ok.1 h
      exact .ascii hs
    · cases h
  · rintro (_ | _ | text | repr | ascii)
    · rfl
    · rfl
    · exact map_eq_ok.2 ⟨_, text, rfl⟩
    · exact map_eq_ok.2 ⟨_, repr, rfl⟩
    · exact map_eq_ok.2 ⟨_, ascii, rfl⟩

theorem formatObj_eq_ok {spec text : Str} {obj : Obj} :
    formatObj objs spec obj = .ok text ↔ Shows objs spec obj text := by
  constructor
  · intro h
    cases obj with
    | other id => exact .other h
    | str s =>
      change formatStr objs s spec = .ok text at h
      unfold formatStr at h
      split at h
      · next hs =>
        subst hs
        cases h
        exact .plain _
      · next hs =>
        obtain ⟨p, hp, h⟩ := bind_eq_ok.1 h
        obtain ⟨hroom, h⟩ := check_eq_ok.1 h
        cases h
        exact .padded hs hp (ensure_eq_ok.1 hroom)
  · rintro (_ | ⟨nonempty, parsed, room⟩ | format)
    · rfl
    · show formatStr objs _ spec = _
      rw [formatStr, if_neg nonempty]
      exact bind_eq_ok.2 ⟨_, parsed, check_eq_ok.2 ⟨ensure_eq_ok.2 room, rfl⟩⟩
    · exact format

theorem fullSpec_eq_ok {expand : Str → Except Exn Str} {formats : Str → Str → Prop}
    (hexpand : ∀ s text, expand s = .ok text ↔ formats s text) {f : Field} {spec : Str} :
    f.fullSpec expand = .ok spec ↔ f.SpecIs formats spec := by
  unfold Field.fullSpec Field.SpecIs
  split
  · exact hexpand _ _
  · simp [eq_comm]

theorem renderPiece_eq_ok {expand : Str → Except Exn Str} {formats : Str → Str → Prop}
    (hexpand : ∀ s text, expand s = .ok text ↔ formats s text) {p : Piece} {text : Str} :
    renderPiece objs kwargs expand p = .ok text ↔ Renders objs kwargs formats p text := by
  cases p with
  | text s =>
    constructor
    · intro h
      cases h
      exact .text _
    · rintro ⟨⟩
      rfl
  | field f =>
    unfold renderPiece fieldObject
    simp only [bind_eq_ok, argument_eq_ok, foldlM_takeStep_eq_ok, convert_eq_ok, fullSpec_eq_ok hexpand,
      formatObj_eq_ok]
    constructor
    · rintro ⟨obj, ⟨_, ⟨value, rfl, names⟩, leads⟩, obj', converts, spec, specIs, shows⟩
      exact .field names leads converts specIs shows
    · rintro (_ | ⟨names, leads, converts, specIs, shows⟩)
      exact ⟨_, ⟨_, ⟨_, rfl, names⟩, leads⟩, _, converts, _, specIs, shows⟩

theorem buildString_eq_ok {n : ℕ} : ∀ s text : Str,
    buildString objs kwargs n s = .ok text ↔ Formats objs kwargs n s text := by
  induction n with
  | zero =>
    intro s text
    simp [buildString, Formats]
  | succ n ih =>
    intro s text
    have hrender : ∀ p t, renderPiece objs kwargs (buildString objs kwargs n) p = .ok t ↔
        Renders objs kwargs (Formats objs kwargs n) p t := fun p t => renderPiece_eq_ok ih
    unfold buildString Formats
    simp only [bind_eq_ok, mapM_eq_ok, hrender, begins_nil_iff]
    constructor
    · rintro ⟨texts, htexts, ⟨⟩, hwhole, h⟩
      cases h
      exact ⟨_, texts, by rw [← ensure_eq_ok.1 hwhole], htexts, rfl⟩
    · rintro ⟨ps, texts, hps, htexts, rfl⟩
      rw [hps]
      exact ⟨texts, htexts, (), rfl, rfl⟩

/-- **`str.format` returns the text that the template stands for.** -/
theorem strFormat_eq_ok {template text : Str} :
    strFormat objs kwargs template = .ok text ↔ Formats objs kwargs 2 template text :=
  buildString_eq_ok template text

end Meaning

end SharedAi.Python
