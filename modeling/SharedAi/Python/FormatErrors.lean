import SharedAi.Python.FormatText

/-!
# What a format string raises

A format string that is malformed, or names an argument that is missing, raises `ValueError` or `KeyError`.  The
other exceptions come from the fields.

* `Unguarded` — exceptions that a program guarding against these two does not expect;
* `FieldRaises` — what a field says that raises one: a positional name, an attribute or item that is refused, a
  conversion or a specification that is refused, a width there is no room for;
* `TemplateRaises` — the text of the template begins with pieces that stand for texts, and such a field;
* `raises_strFormat` — these are the templates that raise one.
-/

namespace SharedAi.Python

open SharedAi.Control SharedAi.Text

/-- Exceptions without `ValueError` and `KeyError`, but with the others that strings raise. -/
structure Unguarded (E : Exn → Prop) : Prop where
  valueError : ¬ E .valueError
  keyError : ¬ E (.exception "KeyError")
  indexError : E (.exception "IndexError")
  typeError : E .typeError
  memoryError : E (.exception "MemoryError")

/-! ### Fields -/

/-- The first part of a field name asks for a positional argument. -/
def Positional (first : Str) : Prop := first = [] ∨ ∃ i, nameInteger first = .ok (some i)

section Fields

variable (E : Exn → Prop) (objs : Objects) (kwargs : List (Str × Str))

/-- A step that an object refuses; the items of a string are its characters, by index. -/
def StepRaises : Obj → Step → Prop
  | obj, .attr name => Raises E (objs.attr obj name)
  | .str s, .item name => nameInteger name = .ok none ∨ ∃ i, nameInteger name = .ok (some i) ∧ s.length ≤ i
  | .other id, .item name =>
    (nameInteger name = .ok none ∧ Raises E (objs.itemOf id name)) ∨
      ∃ i, nameInteger name = .ok (some i) ∧ Raises E (objs.itemAt id i)
  | _, .malformed => False

/-- Some step of a walk is refused, by what the steps before it lead to. -/
def WalkRaises (obj : Obj) (path : List Step) : Prop :=
  ∃ before step after last, path = before ++ step :: after ∧ Leads objs obj before last ∧ StepRaises E objs last step

/-- A conversion that an object refuses. -/
def ConversionRaises (obj : Obj) (conversion : Option PyChar) : Prop :=
  (conversion = some (.scalar 's') ∧ ∃ id, obj = .other id ∧ Raises E (objs.text id)) ∨
    (conversion = some (.scalar 'r') ∧ Raises E (objs.repr obj)) ∨
    (conversion = some (.scalar 'a') ∧ Raises E (objs.ascii obj))

/-- A specification that an object refuses; of a string, a width that there is no room for. -/
def SpecRaises (spec : Str) : Obj → Prop
  | .str s => spec ≠ [] ∧ ∃ p, parseSpec spec = .ok p ∧ max objs.maxLength (p.truncate s).length < p.width
  | .other id => Raises E (objs.format id spec)

/-- A field that raises an exception of `E`. -/
inductive FieldRaises (formats : Str → Str → Prop) (nestedRaises : Str → Prop) (f : Field) : Prop
  | positional (first : Positional (firstPart f.name))
  | walk {value : Str} (names : Names kwargs (firstPart f.name) value)
      (refused : WalkRaises E objs (.str value) (steps f.name))
  | conversion {value : Str} {obj : Obj} (names : Names kwargs (firstPart f.name) value)
      (leads : Leads objs (.str value) (steps f.name) obj) (refused : ConversionRaises E objs obj f.conversion)
  | nested {value : Str} {obj obj' : Obj} (names : Names kwargs (firstPart f.name) value)
      (leads : Leads objs (.str value) (steps f.name) obj) (converts : Converts objs obj f.conversion obj')
      (nested : f.nested = true) (raises : nestedRaises f.spec)
  | spec {value spec : Str} {obj obj' : Obj} (names : Names kwargs (firstPart f.name) value)
      (leads : Leads objs (.str value) (steps f.name) obj) (converts : Converts objs obj f.conversion obj')
      (specIs : f.SpecIs formats spec) (refused : SpecRaises E objs spec obj')

/-- The text begins with pieces that stand for texts, and a field that raises an exception of `E`. -/
def TemplateRaises : ℕ → Str → Prop
  | 0, _ => False
  | n + 1, s => ∃ before f rest, Begins s (before ++ [.field f]) rest ∧
      (∀ p ∈ before, ∃ text, Renders objs kwargs (Formats objs kwargs n) p text) ∧
      FieldRaises E objs kwargs (Formats objs kwargs n) (TemplateRaises n) f

end Fields

/-! ### Names and specifications -/

theorem raisesIn_check {p : Prop} [Decidable p] : RaisesIn (· = Exn.valueError) (ensure p .valueError) :=
  raisesIn_ensure rfl

theorem leadingInteger_raisesIn (s : Str) : ∀ acc, RaisesIn (· = .valueError) (leadingInteger acc s) := by
  induction s with
  | nil => exact fun acc => raisesIn_ok _
  | cons c s ih =>
    intro acc
    unfold leadingInteger
    split
    · exact raisesIn_ok _
    split
    · exact raisesIn_error.2 rfl
    · exact ih _

theorem nameInteger_raisesIn (name : Str) : RaisesIn (· = .valueError) (nameInteger name) := by
  unfold nameInteger
  split
  · exact raisesIn_ok _
  · exact (leadingInteger_raisesIn _ _).map

theorem scanNumber_raisesIn (s : Str) : RaisesIn (· = .valueError) (scanNumber s) := by
  unfold scanNumber
  split
  · exact raisesIn_ok _
  split
  · exact raisesIn_ok _
  · exact (leadingInteger_raisesIn _ _).map

theorem scanPrecision_raisesIn (s : Str) : RaisesIn (· = .valueError) (scanPrecision s) := by
  unfold scanPrecision
  split
  · exact (scanNumber_raisesIn _).bind fun _ _ => raisesIn_check.bind fun _ _ => raisesIn_pure _
  · exact raisesIn_ok _

theorem parseSpec_raisesIn (spec : Str) : RaisesIn (· = .valueError) (parseSpec spec) := by
  unfold parseSpec
  refine (scanNumber_raisesIn _).bind fun w _ => (scanPrecision_raisesIn _).bind fun p _ => ?_
  exact raisesIn_check.bind fun _ _ => raisesIn_check.bind fun _ _ => raisesIn_pure _

section Raises

variable {E : Exn → Prop} (hE : Unguarded E) {objs : Objects} {kwargs : List (Str × Str)}
include hE

theorem not_raises_valueError {α : Type} {x : Except Exn α} (hx : RaisesIn (· = .valueError) x) : ¬ Raises E x := by
  apply hx.not_raises
  rintro e rfl
  exact hE.valueError

theorem raises_argument {first : Str} : Raises E (argument kwargs first) ↔ Positional first := by
  unfold argument
  rw [raises_bind, or_iff_right (not_raises_valueError hE (nameInteger_raisesIn first))]
  constructor
  · rintro ⟨index, hindex, h⟩
    by_cases hp : first = [] ∨ index.isSome
    · refine hp.imp_right fun hi => ?_
      obtain ⟨i, rfl⟩ := Option.isSome_iff_exists.1 hi
      exact ⟨i, hindex⟩
    · rw [if_neg hp] at h
      split at h
      · exact absurd (raises_error.1 h) hE.keyError
      · exact absurd h (not_raises_ok _)
  · rintro (rfl | ⟨i, hi⟩)
    · exact ⟨none, rfl, raises_error.2 hE.indexError⟩
    · refine ⟨some i, hi, ?_⟩
      rw [if_pos (.inr rfl)]
      exact raises_error.2 hE.indexError

theorem raises_getItem {name : Str} {obj : Obj} :
    Raises E (getItem objs name obj) ↔ StepRaises E objs obj (.item name) := by
  unfold getItem
  rw [raises_bind, or_iff_right (not_raises_valueError hE (nameInteger_raisesIn name))]
  cases hn : nameInteger name with
  | error e => cases obj <;> simp [StepRaises, hn]
  | ok index =>
    cases index with
    | none => cases obj <;> simp [StepRaises, hn, hE.typeError]
    | some i =>
      cases obj with
      | other id => simp [StepRaises, hn]
      | str s =>
        by_cases hi : i < s.length
        · simp [StepRaises, hn, hi]
        · have hlen : s.length ≤ i := by omega
          simp [StepRaises, hn, hlen, hE.indexError]

theorem raises_takeStep {obj : Obj} {step : Step} :
    Raises E (takeStep objs obj step) ↔ StepRaises E objs obj step := by
  cases step with
  | attr name => cases obj <;> exact Iff.rfl
  | item name => exact raises_getItem hE
  | malformed => cases obj <;> simp [takeStep, StepRaises, hE.valueError]

omit hE in
theorem leads_cons {obj last : Obj} {step : Step} {path : List Step} : Leads objs obj (step :: path) last ↔
    ∃ next, takeStep objs obj step = .ok next ∧ Leads objs next path last := by
  rw [← foldlM_takeStep_eq_ok, List.foldlM_cons, bind_eq_ok]
  exact exists_congr fun _ => and_congr_right fun _ => foldlM_takeStep_eq_ok

theorem raises_walk {path : List Step} {obj : Obj} :
    Raises E (path.foldlM (takeStep objs) obj) ↔ WalkRaises E objs obj path := by
  induction path generalizing obj with
  | nil => simp [WalkRaises]
  | cons step path ih =>
    rw [List.foldlM_cons, raises_bind, raises_takeStep hE]
    simp only [ih]
    constructor
    · rintro (h | ⟨next, hnext, before, step', after, last, rfl, leads, refused⟩)
      · exact ⟨[], step, path, obj, rfl, .here obj, h⟩
      · exact ⟨step :: before, step', after, last, rfl, leads_cons.2 ⟨next, hnext, leads⟩, refused⟩
    · rintro ⟨before, step', after, last, hpath, leads, refused⟩
      cases before with
      | nil =>
        obtain ⟨rfl, rfl⟩ := List.cons.inj hpath
        cases leads
        exact .inl refused
      | cons step before =>
        obtain ⟨rfl, rfl⟩ := List.cons.inj hpath
        obtain ⟨next, hnext, leads⟩ := leads_cons.1 leads
        exact .inr ⟨next, hnext, before, step', after, last, rfl, leads, refused⟩

theorem raises_convert {obj : Obj} {conversion : Option PyChar} :
    Raises E (convert objs obj conversion) ↔ ConversionRaises E objs obj conversion := by
  unfold convert ConversionRaises
  rcases conversion with - | c
  · simp
  by_cases hs : c = .scalar 's'
  · subst hs
    cases obj <;> simp [raises_map]
  by_cases hr : c = .scalar 'r'
  · subst hr
    simp [raises_map]
  by_cases ha : c = .scalar 'a'
  · subst ha
    simp [raises_map]
  · simp [hs, hr, ha, hE.valueError]

theorem raises_formatObj {spec : Str} {obj : Obj} :
    Raises E (formatObj objs spec obj) ↔ SpecRaises E objs spec obj := by
  rcases obj with s | id
  · show Raises E (formatStr objs s spec) ↔ _
    unfold formatStr SpecRaises
    by_cases hspec : spec = []
    · simp [hspec]
    · rw [if_neg hspec, raises_bind, or_iff_right (not_raises_valueError hE (parseSpec_raisesIn spec))]
      simp only [raises_bind, raises_ensure, not_raises_pure, and_false, exists_false, or_false, hE.memoryError,
        and_true, not_le, ne_eq, hspec, not_false_eq_true, true_and]
  · exact Iff.rfl

theorem raises_renderPiece {expand : Str → Except Exn Str} {formats : Str → Str → Prop} {nestedRaises : Str → Prop}
    (hformats : ∀ s text, expand s = .ok text ↔ formats s text) (hexpand : ∀ s, Raises E (expand s) ↔ nestedRaises s)
    {p : Piece} : Raises E (renderPiece objs kwargs expand p) ↔
      ∃ f, p = .field f ∧ FieldRaises E objs kwargs formats nestedRaises f := by
  rcases p with s | f
  · simp [renderPiece]
  have hspec : Raises E (f.fullSpec expand) ↔ f.nested = true ∧ nestedRaises f.spec := by
    unfold Field.fullSpec
    split <;> simp [*]
  have hspecIs : ∀ spec, f.fullSpec expand = .ok spec ↔ f.SpecIs formats spec := fun spec =>
    fullSpec_eq_ok hformats
  unfold renderPiece fieldObject
  simp only [raises_bind, raises_argument hE, raises_walk hE, raises_convert hE, hspec, raises_formatObj hE, bind_eq_ok,
    argument_eq_ok, foldlM_takeStep_eq_ok, convert_eq_ok, hspecIs, Piece.field.injEq, exists_eq_left']
  constructor
  · rintro ((h | ⟨_, ⟨value, rfl, names⟩, h⟩) | ⟨obj, ⟨_, ⟨value, rfl, names⟩, leads⟩, h⟩)
    · exact .positional h
    · exact .walk names h
    rcases h with h | ⟨obj', converts, ⟨hnested, h⟩ | ⟨spec, specIs, h⟩⟩
    · exact .conversion names leads h
    · exact .nested names leads converts hnested h
    · exact .spec names leads converts specIs h
  · rintro (h | ⟨names, h⟩ | ⟨names, leads, h⟩ | ⟨names, leads, converts, hnested, h⟩ |
      ⟨names, leads, converts, specIs, h⟩)
    · exact .inl (.inl h)
    · exact .inl (.inr ⟨_, ⟨_, rfl, names⟩, h⟩)
    · exact .inr ⟨_, ⟨_, ⟨_, rfl, names⟩, leads⟩, .inl h⟩
    · exact .inr ⟨_, ⟨_, ⟨_, rfl, names⟩, leads⟩, .inr ⟨_, converts, .inl ⟨hnested, h⟩⟩⟩
    · exact .inr ⟨_, ⟨_, ⟨_, rfl, names⟩, leads⟩, .inr ⟨_, converts, .inr ⟨_, specIs, h⟩⟩⟩

theorem raises_buildString {n : ℕ} : ∀ s : Str,
    Raises E (buildString objs kwargs n s) ↔ TemplateRaises E objs kwargs n s := by
  induction n with
  | zero =>
    intro s
    simp [buildString, TemplateRaises, hE.valueError]
  | succ n ih =>
    intro s
    have hrender : ∀ p t, renderPiece objs kwargs (buildString objs kwargs n) p = .ok t ↔
        Renders objs kwargs (Formats objs kwargs n) p t := fun p t => renderPiece_eq_ok buildString_eq_ok
    unfold buildString TemplateRaises
    simp only [raises_bind, raises_mapM, raises_renderPiece hE buildString_eq_ok ih, hrender, raises_ensure,
      hE.valueError, not_raises_pure, and_false, exists_false, or_false]
    constructor
    · rintro ⟨before, p, after, h, hbefore, f, rfl, hf⟩
      obtain ⟨rest, hrest⟩ := begins_iff.2 (show before ++ [.field f] <+: (pieces s).1 from ⟨after, by simp [h]⟩)
      exact ⟨before, f, rest, hrest, hbefore, hf⟩
    · rintro ⟨before, f, rest, hrest, hbefore, hf⟩
      obtain ⟨after, h⟩ := begins_iff.1 ⟨rest, hrest⟩
      exact ⟨before, .field f, after, by simp [← h], hbefore, f, rfl, hf⟩

/-- **A template raises an unguarded exception exactly if the first field that fails does.** -/
theorem raises_strFormat {template : Str} :
    Raises E (strFormat objs kwargs template) ↔ TemplateRaises E objs kwargs 2 template :=
  raises_buildString hE template

end Raises

end SharedAi.Python
