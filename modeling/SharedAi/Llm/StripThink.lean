import Mathlib.Data.List.Forall2
import SharedAi.Net.Uri
import SharedAi.Text.Erase

/-!
# Think tags

`strip_think` of `llm/utils.py`: the answer of a model without what stands in think tags.

* `readTag`, `thinkPattern`, … — the regular expressions;
* `stripThink` — the function;
* `JoinsTag`, `noMatch_erase_iff` — the last pass leaves a tag where it removes one between the letters of another;
* `noMatch_strip`, `stripThink_of_noMatch` — stripping keeps tags, and a text without tags is only stripped.
-/

namespace SharedAi.Llm

open SharedAi.Net SharedAi.Text

/-! ### The regular expressions -/

/-- The characters that `re.IGNORECASE` takes for a letter of the patterns. -/
def sameLetter (x c : PyChar) : Bool :=
  c.asciiLower == x || (x == .scalar 'i' && (c == .scalar '\u0130' || c == .scalar '\u0131')) ||
    (x == .scalar 'k' && c == .scalar '\u212a')

/-- A literal at the beginning of a text; what follows it. -/
def readLetters : Str → Str → Option Str
  | [], s => some s
  | x :: xs, c :: s => if sameLetter x c then readLetters xs s else none
  | _ :: _, [] => none

/-- `\w`: outside ASCII, `str.isalnum` is left open. -/
def isWord (isAlnum : PyChar → Bool) (c : PyChar) : Bool :=
  if c.isAscii then c.isUpper || c.isLower || c.isDigit || c == .scalar '_' else isAlnum c

def greater : PyChar := .scalar '>'

/-- `\b[^>]*>` behind a letter. -/
def readAttributes (isAlnum : PyChar → Bool) (s : Str) : Option Str :=
  if s.head?.any (isWord isAlnum) then none else (cut greater s).2

def readNamed (isAlnum : PyChar → Bool) (name s : Str) : Option Str :=
  (readLetters name s).bind (readAttributes isAlnum)

/-- `<think\b[^>]*>`. -/
def readOpen (isAlnum : PyChar → Bool) : Str → Option Str := readNamed isAlnum (str "<think")

/-- `</think\b[^>]*>`. -/
def readClose (isAlnum : PyChar → Bool) : Str → Option Str := readNamed isAlnum (str "</think")

/-- `</?think\b[^>]*>`. -/
def readTag (isAlnum : PyChar → Bool) (s : Str) : Option Str := (readOpen isAlnum s).or (readClose isAlnum s)

/-- `.*?</think>`. -/
def readToClose : Str → Option Str
  | [] => none
  | c :: s =>
    match readLetters (str "</think>") (c :: s) with
    | some r => some r
    | none => readToClose s

abbrev SameLetters : Str → Str → Prop := List.Forall₂ fun x c => sameLetter x c = true

theorem readLetters_eq_some {xs s r : Str} : readLetters xs s = some r ↔ ∃ m, s = m ++ r ∧ SameLetters xs m := by
  induction xs generalizing s with
  | nil =>
    constructor
    · intro h
      cases h
      exact ⟨[], rfl, .nil⟩
    · rintro ⟨m, rfl, ⟨⟩⟩
      rfl
  | cons x xs ih =>
    rcases s with - | ⟨c, s⟩
    · constructor
      · intro h
        cases h
      · rintro ⟨m, hm, h⟩
        rcases m with - | ⟨d, m⟩
        · cases h
        · cases hm
    · rw [readLetters]
      constructor
      · intro h
        split at h
        · next hc =>
          obtain ⟨m, rfl, hm⟩ := ih.1 h
          exact ⟨c :: m, rfl, .cons hc hm⟩
        · cases h
      · rintro ⟨m, hm, h⟩
        rcases h with - | ⟨hc, hrest⟩
        next d m =>
        obtain ⟨rfl, rfl⟩ := List.cons.inj hm
        rw [if_pos hc]
        exact ih.2 ⟨m, rfl, hrest⟩

/-- Only letters have other characters that are taken for them. -/
theorem eq_of_sameLetter {x c : PyChar} (hx : x.isLower = false) (h : sameLetter x c = true) : c = x := by
  have hletter : x ≠ .scalar 'i' ∧ x ≠ .scalar 'k' := by
    refine ⟨?_, ?_⟩
    · rintro rfl
      cases hx
    · rintro rfl
      cases hx
  have hlower : c.asciiLower = x := by
    simpa [sameLetter, hletter.1, hletter.2] using h
  by_cases hc : c.isUpper = true
  · rw [← hlower, PyChar.isLower_asciiLower hc] at hx
    cases hx
  · rw [Bool.not_eq_true] at hc
    rw [← hlower, PyChar.asciiLower_of_not_upper hc]

/-- A character that is no letter is taken for itself only. -/
theorem eq_of_sameLetter_right {x c : PyChar} (hc : c.isAscii = true ∧ c.isUpper = false) (h : sameLetter x c = true) :
    x = c := by
  have hlower : c.asciiLower = c := PyChar.asciiLower_of_not_upper hc.2
  have hout : c ≠ .scalar '\u0130' ∧ c ≠ .scalar '\u0131' ∧ c ≠ .scalar '\u212a' := by
    refine ⟨?_, ?_, ?_⟩ <;> (rintro rfl; cases hc.1)
  have heq : c = x := by simpa [sameLetter, hlower, hout.1, hout.2.1, hout.2.2] using h
  exact heq.symm

/-- Text read for a literal has a character that is no letter where the literal has it. -/
theorem not_mem_of_sameLetters {xs m : Str} {c : PyChar} (h : SameLetters xs m) (hx : c ∉ xs)
    (hc : c.isAscii = true ∧ c.isUpper = false) : c ∉ m := by
  induction h with
  | nil => exact hx
  | @cons x d xs m hd _ ih =>
    intro hmem
    rcases List.mem_cons.1 hmem with rfl | hmem
    · exact hx (eq_of_sameLetter_right hc hd ▸ List.mem_cons_self ..)
    · exact ih (fun h => hx (List.mem_cons_of_mem _ h)) hmem

theorem readAttributes_eq_some {isAlnum : PyChar → Bool} {s r : Str} : readAttributes isAlnum s = some r ↔
    s.head?.any (isWord isAlnum) = false ∧ ∃ a, s = a ++ greater :: r ∧ greater ∉ a := by
  unfold readAttributes
  split
  · next hw => simp [hw]
  · next hw =>
    rw [Bool.not_eq_true] at hw
    rw [cut_eq_some]
    exact ⟨fun h => ⟨hw, h⟩, fun h => h.2⟩

section Tags

variable {isAlnum : PyChar → Bool} {name s r t : Str}

/-- **A tag is its letters and what follows them up to the first `>`.** -/
theorem readNamed_eq_some : readNamed isAlnum name s = some r ↔ ∃ m a, s = m ++ (a ++ greater :: r) ∧
    SameLetters name m ∧ (a ++ [greater]).head?.any (isWord isAlnum) = false ∧ greater ∉ a := by
  rw [readNamed, Option.bind_eq_some_iff]
  have hhead : ∀ a : Str, (a ++ greater :: r).head? = (a ++ [greater]).head? := by
    intro a
    rcases a with - | ⟨c, a⟩ <;> rfl
  constructor
  · rintro ⟨s', hs, h⟩
    obtain ⟨m, rfl, hm⟩ := readLetters_eq_some.1 hs
    obtain ⟨hw, a, rfl, ha⟩ := readAttributes_eq_some.1 h
    exact ⟨m, a, rfl, hm, hhead a ▸ hw, ha⟩
  · rintro ⟨m, a, rfl, hm, hw, ha⟩
    exact ⟨_, readLetters_eq_some.2 ⟨m, rfl, hm⟩, readAttributes_eq_some.2 ⟨(hhead a).symm ▸ hw, a, rfl, ha⟩⟩

/-- A tag ends at the first `>`, and what is matched does not depend on what follows. -/
theorem readNamed_local (hname : greater ∉ name) (h : readNamed isAlnum name s = some r) :
    ∃ o, s = o ++ greater :: r ∧ greater ∉ o ∧ ∀ t, readNamed isAlnum name (o ++ greater :: t) = some t := by
  obtain ⟨m, a, rfl, hm, hw, ha⟩ := readNamed_eq_some.1 h
  refine ⟨m ++ a, by simp, ?_, fun t => ?_⟩
  · rw [List.mem_append, not_or]
    exact ⟨not_mem_of_sameLetters hm hname (by decide), ha⟩
  · exact readNamed_eq_some.2 ⟨m, a, by simp, hm, hw, ha⟩

theorem readNamed_append (hname : greater ∉ name) (h : readNamed isAlnum name s = some r) (t : Str) :
    readNamed isAlnum name (s ++ t) = some (r ++ t) := by
  obtain ⟨o, rfl, -, ho⟩ := readNamed_local hname h
  rw [List.append_assoc]
  exact ho (r ++ t)

/-- A tag is read of a text that has a `>` before what follows. -/
theorem readNamed_of_append (hname : greater ∉ name) (hs : greater ∈ s) (h : readNamed isAlnum name (s ++ t) = some r) :
    ∃ q, readNamed isAlnum name s = some q ∧ r = q ++ t := by
  obtain ⟨o, ho, hgo, hlocal⟩ := readNamed_local hname h
  obtain ⟨q, rfl, hr⟩ := exists_of_append_eq ho hgo hs
  exact ⟨q, hlocal q, hr⟩

theorem greater_not_mem : greater ∉ str "<think" ∧ greater ∉ str "</think" := by decide

theorem readTag_local (h : readTag isAlnum s = some r) :
    ∃ o, s = o ++ greater :: r ∧ ∀ t, (readTag isAlnum (o ++ greater :: t)).isSome = true := by
  rw [readTag, Option.or_eq_some_iff] at h
  rcases h with h | ⟨-, h⟩
  · obtain ⟨o, hs, -, ho⟩ := readNamed_local greater_not_mem.1 h
    exact ⟨o, hs, fun t => by simp [readTag, readOpen, ho t]⟩
  · obtain ⟨o, hs, -, ho⟩ := readNamed_local greater_not_mem.2 h
    refine ⟨o, hs, fun t => ?_⟩
    rw [readTag, Option.isSome_or, readClose, ho t]
    simp

theorem readNamed_suffix {c : PyChar} (hname : name ≠ []) (h : readNamed isAlnum name (c :: s) = some r) : r <:+ s := by
  obtain ⟨m, a, hs, hm, -, -⟩ := readNamed_eq_some.1 h
  rcases m with - | ⟨d, m⟩
  · exact absurd (List.forall₂_nil_right_iff.1 hm) hname
  · obtain ⟨-, rfl⟩ := List.cons.inj hs
    exact ⟨m ++ (a ++ [greater]), by simp⟩

theorem readToClose_suffix (h : readToClose s = some r) : r <:+ s := by
  induction s with
  | nil => cases h
  | cons c s ih =>
    rw [readToClose] at h
    split at h
    · next r' hr =>
      cases h
      obtain ⟨m, hm, -⟩ := readLetters_eq_some.1 hr
      exact ⟨m, hm.symm⟩
    · exact (ih h).trans (List.suffix_cons c s)

end Tags

section Patterns

variable (isAlnum : PyChar → Bool)

/-- `_THINK_PATTERN`. -/
def thinkPattern : Pattern PyChar where
  rest s := (readOpen isAlnum s).bind readToClose
  rest_nil := rfl
  suffix := by
    intro c s r h
    obtain ⟨r', hopen, hclose⟩ := Option.bind_eq_some_iff.1 h
    exact (readToClose_suffix hclose).trans (readNamed_suffix (by decide) hopen)

/-- `_OPEN_THINK_PATTERN`. -/
def openThinkPattern : Pattern PyChar where
  rest s := (readOpen isAlnum s).map fun _ => []
  rest_nil := rfl
  suffix := by
    intro c s r h
    obtain ⟨-, -, rfl⟩ := Option.map_eq_some_iff.1 h
    exact List.nil_suffix

/-- `_THINK_TAG_PATTERN`. -/
def thinkTagPattern : Pattern PyChar where
  rest := readTag isAlnum
  rest_nil := rfl
  suffix := by
    intro c s r h
    rcases Option.or_eq_some_iff.1 h with h | ⟨-, h⟩
    · exact readNamed_suffix (by decide) h
    · exact readNamed_suffix (by decide) h

/-- The text outside the blocks: without the complete ones, up to the first opening tag that is left. -/
def outside (text : Str) : Str := (openThinkPattern isAlnum).erase ((thinkPattern isAlnum).erase text)

/-- `strip_think`. -/
def stripThink (text : Str) : Str := Str.strip ((thinkTagPattern isAlnum).erase (outside isAlnum text))

end Patterns

section Finds

variable {isAlnum : PyChar → Bool} {s r : Str}

theorem openThink_rest_eq_none : (openThinkPattern isAlnum).rest s = none ↔ readOpen isAlnum s = none :=
  Option.map_eq_none_iff

theorem openThink_rest_of_some (h : readOpen isAlnum s = some r) : (openThinkPattern isAlnum).rest s = some [] :=
  Option.map_eq_some_iff.2 ⟨r, h, rfl⟩

theorem readOpen_of_readTag_none (h : readTag isAlnum s = none) : readOpen isAlnum s = none :=
  (Option.or_eq_none_iff.1 h).1

theorem readTag_of_readOpen (h : readOpen isAlnum s = some r) : readTag isAlnum s = some r := by
  rw [readTag, h]
  rfl

def FindsTags (isAlnum : PyChar → Bool) (p : Pattern PyChar) : Prop := ∀ s, readTag isAlnum s = none → p.rest s = none

theorem findsTags_think : FindsTags isAlnum (thinkPattern isAlnum) := by
  intro s h
  show (readOpen isAlnum s).bind readToClose = none
  rw [readOpen_of_readTag_none h]
  rfl

theorem findsTags_openThink : FindsTags isAlnum (openThinkPattern isAlnum) := fun _ h =>
  openThink_rest_eq_none.2 (readOpen_of_readTag_none h)

theorem findsTags_tag : FindsTags isAlnum (thinkTagPattern isAlnum) := fun _ => id

/-- The names of the tags begin with `<`, and no other `<` is in them. -/
theorem name_cases {name : Str} (h : name ∈ [str "<think", str "</think"]) :
    ∃ xs, name = .scalar '<' :: xs ∧ ∀ x ∈ xs, x ∈ str "/think" := by
  simp only [List.mem_cons, List.not_mem_nil, or_false] at h
  rcases h with rfl | rfl
  · exact ⟨_, rfl, by decide⟩
  · exact ⟨_, rfl, by decide⟩

end Finds

/-! ### Tags that are put together -/

/-- A tag is removed from `s` between the letters of another one, which is put together by the removal: `x` is what is
kept of it before the removed tag. -/
def JoinsTag (isAlnum : PyChar → Bool) (s : Str) : Prop :=
  ∃ b t x, (thinkTagPattern isAlnum).Removes s b t ∧ x ≠ [] ∧ x <:+ b ∧
    ∃ name ∈ [str "<think", str "</think"], ∃ r,
      readLetters name (x ++ (thinkTagPattern isAlnum).erase t) = some r ∧ (readAttributes isAlnum r).isSome = true ∧
        r <:+ (thinkTagPattern isAlnum).erase t ∧ r ≠ (thinkTagPattern isAlnum).erase t

section Joins

variable {isAlnum : PyChar → Bool} {s r w : Str}

theorem readTag_isSome : (readTag isAlnum s).isSome = true ↔ ∃ name ∈ [str "<think", str "</think"], ∃ r,
    readLetters name s = some r ∧ (readAttributes isAlnum r).isSome = true := by
  have hnamed : ∀ name, (readNamed isAlnum name s).isSome = true ↔
      ∃ r, readLetters name s = some r ∧ (readAttributes isAlnum r).isSome = true := by
    intro name
    rw [readNamed, Option.isSome_bind, Option.any_eq_true]
  rw [readTag, Option.isSome_or, Bool.or_eq_true, readOpen, readClose, hnamed, hnamed]
  simp

theorem readAttributes_isSome : (readAttributes isAlnum s).isSome = true ↔
    s.head?.any (isWord isAlnum) = false ∧ greater ∈ s := by
  rw [Option.isSome_iff_exists]
  constructor
  · rintro ⟨r, h⟩
    obtain ⟨hw, a, rfl, -⟩ := readAttributes_eq_some.1 h
    exact ⟨hw, by simp⟩
  · rintro ⟨hw, hmem⟩
    obtain ⟨a, r, rfl, ha⟩ := exists_cut hmem
    exact ⟨r, readAttributes_eq_some.2 ⟨hw, a, rfl, ha⟩⟩

/-- A tag begins with `<`. -/
theorem head?_of_readTag (h : readTag isAlnum s = some r) : s.head? = some (.scalar '<') := by
  obtain ⟨name, hname, r', hr, -⟩ := readTag_isSome.1 (Option.isSome_iff_exists.2 ⟨r, h⟩)
  obtain ⟨xs, rfl, -⟩ := name_cases hname
  obtain ⟨m, rfl, hm⟩ := readLetters_eq_some.1 hr
  rcases m with - | ⟨c, m⟩
  · cases hm
  · obtain ⟨hc, -⟩ := List.forall₂_cons.1 hm
    rw [eq_of_sameLetter (by decide) hc]
    rfl

/-- What is read of a text without its matches is read of the text, or a match stands between what is read. -/
theorem letters_cases {p : Pattern PyChar} (h : p.Erases s w) {xs : Str} (hr : readLetters xs w = some r) :
    (∃ r', readLetters xs s = some r' ∧ p.Erases r' r) ∨
      ∃ b t, p.Removes s b t ∧ w = b ++ p.erase t ∧ r <:+ p.erase t ∧ r ≠ p.erase t := by
  induction xs generalizing s w with
  | nil =>
    cases hr
    exact .inl ⟨s, rfl, h⟩
  | cons x xs ih =>
    rcases h with - | ⟨hnone, hrest⟩ | ⟨hsome, hrest⟩
    · cases hr
    · next c s w =>
      rw [readLetters] at hr
      split at hr
      · next hc =>
        rcases ih hrest hr with ⟨r', hr', hrase⟩ | ⟨b, t, hremoves, rfl, hsuffix, hne⟩
        · left
          refine ⟨r', ?_, hrase⟩
          rw [readLetters, if_pos hc, hr']
        · right
          exact ⟨c :: b, t, .keep hnone hremoves, rfl, hsuffix, hne⟩
      · cases hr
    · -- the text begins with a match, and at least one letter comes from behind it
      next t =>
      right
      have hw : p.erase t = w := hrest.erase_eq
      obtain ⟨m, hm, hletters⟩ := readLetters_eq_some.1 hr
      have hlen : 1 ≤ m.length := by
        rw [← hletters.length_eq]
        exact Nat.succ_le_succ (Nat.zero_le _)
      refine ⟨[], t, .here hsome, hw.symm, ?_, ?_⟩
      · rw [hw]
        exact ⟨m, hm.symm⟩
      · rw [hw]
        rintro rfl
        have := congrArg List.length hm
        rw [List.length_append] at this
        omega

/-- Behind the letters of a tag the attributes are found in the text as it was. -/
theorem attributes_of_erases (h : (thinkTagPattern isAlnum).Erases s w)
    (hw : (readAttributes isAlnum w).isSome = true) : (readAttributes isAlnum s).isSome = true := by
  obtain ⟨hhead, hmem⟩ := readAttributes_isSome.1 hw
  have hmem' : greater ∈ s := by
    apply Pattern.mem_of_mem_erase (p := thinkTagPattern isAlnum)
    rw [h.erase_eq]
    exact hmem
  refine readAttributes_isSome.2 ⟨?_, hmem'⟩
  rcases h with - | ⟨-, -⟩ | ⟨hsome, -⟩
  · rfl
  · exact hhead
  · rw [head?_of_readTag hsome]
    rfl

theorem JoinsTag.keep {c : PyChar} (hc : readTag isAlnum (c :: s) = none) (h : JoinsTag isAlnum s) :
    JoinsTag isAlnum (c :: s) := by
  obtain ⟨b, t, x, hremoves, hne, hx, hname⟩ := h
  exact ⟨c :: b, t, x, .keep hc hremoves, hne, hx.trans (List.suffix_cons c b), hname⟩

theorem JoinsTag.drop (hs : readTag isAlnum s = some r) (h : JoinsTag isAlnum r) : JoinsTag isAlnum s := by
  obtain ⟨b, t, x, hremoves, hne, hx, hname⟩ := h
  exact ⟨b, t, x, .drop hs hremoves, hne, hx, hname⟩

/-- A tag that begins with a kept character is put together by the removal. -/
theorem joinsTag_of_head {c : PyChar} (hnone : readTag isAlnum (c :: s) = none)
    (h : (thinkTagPattern isAlnum).Erases (c :: s) (c :: w)) (htag : (readTag isAlnum (c :: w)).isSome = true) :
    JoinsTag isAlnum (c :: s) := by
  obtain ⟨name, hname, r, hr, hattributes⟩ := readTag_isSome.1 htag
  rcases letters_cases h hr with ⟨r', hr', herases⟩ | ⟨b, t, hremoves, hw, hsuffix, hne⟩
  · have hsome := readTag_isSome.2 ⟨name, hname, r', hr', attributes_of_erases herases hattributes⟩
    rw [hnone] at hsome
    cases hsome
  · refine ⟨b, t, b, hremoves, ?_, List.suffix_rfl, name, hname, r, hw ▸ hr, hattributes, hsuffix, hne⟩
    rintro rfl
    rcases hremoves with hsome | - | ⟨hsome, -⟩
    · cases hnone.symm.trans hsome
    · cases hnone.symm.trans hsome

/-- **A tag is left where one is put together, and nowhere else.** -/
theorem noMatch_erase_iff : (thinkTagPattern isAlnum).NoMatch ((thinkTagPattern isAlnum).erase s) ↔
    ¬JoinsTag isAlnum s := by
  constructor
  · rintro hno ⟨b, t, x, hremoves, -, ⟨b', rfl⟩, name, hname, r, hr, hattributes, -⟩
    have hnone := hno (x ++ (thinkTagPattern isAlnum).erase t) (by
      rw [hremoves.erase_eq, List.append_assoc]
      exact List.suffix_append _ _)
    have hsome := readTag_isSome.2 ⟨name, hname, r, hr, hattributes⟩
    exact Option.isSome_iff_ne_none.1 hsome hnone
  · intro hno
    have herases := (thinkTagPattern isAlnum).erases_erase s
    generalize (thinkTagPattern isAlnum).erase s = w at herases ⊢
    induction herases with
    | nil =>
      intro u hu
      rw [List.suffix_nil.1 hu]
      rfl
    | @keep c s w hnone hrest ih =>
      intro u hu
      rcases List.suffix_cons_iff.1 hu with rfl | hu
      · by_contra htag
        exact hno (joinsTag_of_head hnone (.keep hnone hrest) (Option.isSome_iff_ne_none.2 htag))
      · exact ih (fun h => hno (h.keep hnone)) u hu
    | drop hsome _ ih => exact ih fun h => hno (h.drop hsome)

end Joins

/-! ### Stripping -/

section Strip

variable {isAlnum : PyChar → Bool} {s r t : Str}

theorem readTag_append (h : readTag isAlnum s = some r) (t : Str) : (readTag isAlnum (s ++ t)).isSome = true := by
  obtain ⟨o, rfl, ho⟩ := readTag_local h
  rw [List.append_assoc]
  exact ho (r ++ t)

/-- What begins with a character that is not stripped is not stripped at its beginning. -/
theorem suffix_dropWhile {c : PyChar} (hc : c.isSpace = false) (h : c :: t <:+ s) :
    c :: t <:+ s.dropWhile PyChar.isSpace := by
  obtain ⟨u, rfl⟩ := h
  have hhead : (c :: t).dropWhile PyChar.isSpace = c :: t := List.dropWhile_cons_of_neg (by simp [hc])
  rw [List.dropWhile_append, hhead]
  split
  · exact List.suffix_rfl
  · exact List.suffix_append _ _

/-- Stripping neither takes nor makes a tag. -/
theorem noMatch_strip : (thinkTagPattern isAlnum).NoMatch (Str.strip s) ↔ (thinkTagPattern isAlnum).NoMatch s := by
  constructor
  · intro hno u hu
    by_contra htag
    obtain ⟨r, hr⟩ := Option.ne_none_iff_exists'.1 htag
    have hhead := head?_of_readTag hr
    obtain ⟨o, rfl, ho⟩ := readTag_local hr
    have hdrop : o ++ greater :: r <:+ s.dropWhile PyChar.isSpace := by
      rcases hz : o ++ greater :: r with - | ⟨c, z⟩
      · exact List.nil_suffix
      · rw [hz] at hhead hu
        cases hhead
        exact suffix_dropWhile (by decide) hu
    obtain ⟨y, hy⟩ := hdrop
    have hgreater : greater.isSpace = false := by decide
    have hstrip : Str.strip s = y ++ o ++ (greater :: r).rdropWhile PyChar.isSpace := by
      rw [Str.strip, ← hy, ← List.append_assoc, Str.rdropWhile_append_of_mem (List.mem_cons_self ..) hgreater]
    -- the last character of the tag is not stripped
    obtain ⟨t, ht⟩ := List.rdropWhile_prefix PyChar.isSpace (greater :: r)
    rcases hg : (greater :: r).rdropWhile PyChar.isSpace with - | ⟨d, r'⟩
    · have hspace := List.rdropWhile_eq_nil_iff.1 hg greater (List.mem_cons_self ..)
      rw [hgreater] at hspace
      cases hspace
    · rw [hg] at ht
      obtain ⟨rfl, -⟩ := List.cons.inj ht
      have hnone := hno (o ++ greater :: r') (by
        rw [hstrip, hg, List.append_assoc]
        exact List.suffix_append _ _)
      exact Option.isSome_iff_ne_none.1 (ho r') hnone
  · intro hno u hu
    by_contra htag
    obtain ⟨r, hr⟩ := Option.ne_none_iff_exists'.1 htag
    obtain ⟨x, hx⟩ := List.dropWhile_suffix PyChar.isSpace (l := s)
    obtain ⟨y, hy⟩ := List.rdropWhile_prefix PyChar.isSpace (s.dropWhile PyChar.isSpace)
    obtain ⟨z, hz⟩ := hu
    have hnone := hno (u ++ y) (by
      refine ⟨x ++ z, ?_⟩
      rw [← hx, ← hy]
      show x ++ z ++ (u ++ y) = x ++ (Str.strip s ++ y)
      rw [← hz]
      simp only [List.append_assoc])
    exact Option.isSome_iff_ne_none.1 (readTag_append hr y) hnone

/-- A text without tags is only stripped. -/
theorem stripThink_of_noMatch (h : (thinkTagPattern isAlnum).NoMatch s) : stripThink isAlnum s = Str.strip s := by
  have hthink : (thinkPattern isAlnum).NoMatch s := fun u hu => findsTags_think u (h u hu)
  have hopenThink : (openThinkPattern isAlnum).NoMatch s := fun u hu => findsTags_openThink u (h u hu)
  rw [stripThink, outside, hthink.erase_eq, hopenThink.erase_eq, h.erase_eq]

end Strip

end SharedAi.Llm
