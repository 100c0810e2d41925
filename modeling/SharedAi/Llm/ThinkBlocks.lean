import SharedAi.Llm.StripThink

/-!
# Think blocks

The answer of a model: visible text and think blocks in turn.

* `Block`, `Answer` — a block, and an answer with its visible text;
* `Vanishes` — a block of which nothing is left;
* `Weave` — visible text with pieces between its characters, which the passes of `strip_think` thin out;
* `stripThink_text` — of an answer whose blocks vanish, the visible text is left.
-/

namespace SharedAi.Llm

open SharedAi.Net SharedAi.Text

/-! ### Answers -/

/-- A think block: an opening tag, any text, further blocks included, and a closing tag. -/
structure Block (isAlnum : PyChar → Bool) where
  opening : Str
  content : Str
  closing : Str
  isOpening : readOpen isAlnum opening = some []
  isClosing : readClose isAlnum closing = some []

structure OpenBlock (isAlnum : PyChar → Bool) where
  opening : Str
  content : Str
  isOpening : readOpen isAlnum opening = some []

/-- Visible text, blocks with the visible text behind each, and perhaps a block that is not closed. -/
structure Answer (isAlnum : PyChar → Bool) where
  first : Str
  blocks : List (Block isAlnum × Str)
  unclosed : Option (OpenBlock isAlnum)

section Answers

variable {isAlnum : PyChar → Bool}

def Block.text (b : Block isAlnum) : Str := b.opening ++ b.content ++ b.closing

def OpenBlock.text (b : OpenBlock isAlnum) : Str := b.opening ++ b.content

namespace Answer

variable (a : Answer isAlnum)

def text : Str := a.first ++ a.blocks.flatMap (fun b => b.1.text ++ b.2) ++ (a.unclosed.map OpenBlock.text).getD []

def visible : Str := a.first ++ a.blocks.flatMap Prod.snd

end Answer

end Answers

/-- No `<think` and no `</think` begins in the text. -/
def Plain (s : Str) : Prop := ∀ u, u <:+ s → ∀ name ∈ [str "<think", str "</think"], readLetters name u = none

instance : DecidablePred Plain := fun s =>
  decidable_of_iff (∀ u ∈ s.tails, ∀ name ∈ [str "<think", str "</think"], readLetters name u = none) (by
    simp only [List.mem_tails, Plain])

/-! ### Blocks that vanish -/

section Vanishing

variable (isAlnum : PyChar → Bool)

/-- A closing tag with no opening tag in its attributes. -/
def Closing (s : Str) : Prop := readClose isAlnum s = some [] ∧ (openThinkPattern isAlnum).NoMatch s

/-- Without its spans, each from an opening tag to the next `</think>`, the text is a sequence of closing tags. -/
def Vanishes (s : Str) : Prop :=
  ∃ closings : List Str, (thinkPattern isAlnum).Erases s closings.flatten ∧ ∀ m ∈ closings, Closing isAlnum m

/-- Without its spans, the text is a sequence of closing tags and white space, and perhaps an opening tag with all that
follows it. -/
def VanishesToEnd (s : Str) : Prop :=
  ∃ (pieces : List Str) (e : Str), (thinkPattern isAlnum).Erases s (pieces.flatten ++ e) ∧
    (∀ m ∈ pieces, Closing isAlnum m ∨ ∀ c ∈ m, c.isSpace = true) ∧ (e = [] ∨ (readOpen isAlnum e).isSome = true)

end Vanishing

/-! ### Tags in their context -/

section Context

variable {isAlnum : PyChar → Bool} {s t r m w : Str}

theorem readOpen_append (h : readOpen isAlnum s = some r) (t : Str) : readOpen isAlnum (s ++ t) = some (r ++ t) :=
  readNamed_append greater_not_mem.1 h t

theorem readOpen_of_append (hs : greater ∈ s) (h : readOpen isAlnum (s ++ t) = some r) :
    ∃ q, readOpen isAlnum s = some q ∧ r = q ++ t :=
  readNamed_of_append greater_not_mem.1 hs h

/-- `</think>` ends in its only `>`. -/
theorem sameLetters_close (h : SameLetters (str "</think>") m) : ∃ n, m = n ++ [greater] ∧ greater ∉ n := by
  obtain ⟨n, d, rfl⟩ : ∃ n d, m = n ++ [d] := by
    rcases List.eq_nil_or_concat m with rfl | h
    · cases h
    · simpa using h
  have hsplit : str "</think>" = str "</think" ++ [greater] := rfl
  have hlen : (str "</think").length = n.length := by
    have := h.length_eq
    rw [hsplit, List.length_append, List.length_append] at this
    simpa using this
  have hn : SameLetters (str "</think") n := by
    have htake := List.forall₂_take (str "</think").length h
    rwa [hsplit, List.take_left' rfl, List.take_left' hlen.symm] at htake
  have hd : d = greater := by
    have hdrop := List.forall₂_drop (str "</think").length h
    rw [hsplit, List.drop_left' rfl, List.drop_left' hlen.symm] at hdrop
    exact eq_of_sameLetter (by decide) (List.forall₂_cons.1 hdrop).1
  exact ⟨n, by rw [hd], not_mem_of_sameLetters hn greater_not_mem.2 (by decide)⟩

/-- `</think>` is read of a text that has a `>` before what follows. -/
theorem closeLiteral_of_append (hs : greater ∈ s) (h : readLetters (str "</think>") (s ++ t) = some r) :
    ∃ q, readLetters (str "</think>") s = some q ∧ r = q ++ t := by
  obtain ⟨m, hm, hletters⟩ := readLetters_eq_some.1 h
  obtain ⟨n, rfl, hn⟩ := sameLetters_close hletters
  rw [List.append_assoc, List.singleton_append] at hm
  obtain ⟨q, rfl, hr⟩ := exists_of_append_eq hm hn hs
  exact ⟨q, readLetters_eq_some.2 ⟨n ++ [greater], by simp, hletters⟩, hr⟩

theorem greater_mem_of_readToClose (h : readToClose s = some r) : greater ∈ s := by
  induction s with
  | nil => cases h
  | cons c s ih =>
    rw [readToClose] at h
    split at h
    · next r' hr =>
      obtain ⟨m, hm, hletters⟩ := readLetters_eq_some.1 hr
      obtain ⟨n, rfl, -⟩ := sameLetters_close hletters
      rw [hm]
      simp
    · exact List.mem_cons_of_mem _ (ih h)

theorem readToClose_append (h : readToClose s = some r) (t : Str) : readToClose (s ++ t) = some (r ++ t) := by
  induction s with
  | nil => cases h
  | cons c s ih =>
    rw [readToClose] at h
    rw [List.cons_append, readToClose]
    split at h
    · next r' hr =>
      cases h
      obtain ⟨m, hm, hletters⟩ := readLetters_eq_some.1 hr
      have happend : readLetters (str "</think>") (c :: (s ++ t)) = some (r ++ t) :=
        readLetters_eq_some.2 ⟨m, by rw [← List.cons_append, hm, List.append_assoc], hletters⟩
      rw [happend]
    · next hnone =>
      split
      · next r' hr' =>
        -- a literal that goes on behind the text would take its `>` from it
        have hg := List.mem_cons_of_mem c (greater_mem_of_readToClose h)
        rw [← List.cons_append] at hr'
        obtain ⟨q, hq, -⟩ := closeLiteral_of_append hg hr'
        rw [hnone] at hq
        cases hq
      · exact ih h

theorem readToClose_of_suffix (h : readToClose s = none) (hr : r <:+ s) : readToClose r = none := by
  induction s with
  | nil =>
    rw [List.suffix_nil.1 hr]
    rfl
  | cons c s ih =>
    rcases List.suffix_cons_iff.1 hr with rfl | hr
    · exact h
    · rw [readToClose] at h
      split at h
      · cases h
      · exact ih h hr

/-- Behind an opening tag that is not closed there is no block. -/
theorem noMatch_of_unclosed (hopen : readOpen isAlnum s = some w) (hclose : readToClose w = none) :
    (thinkPattern isAlnum).NoMatch s := by
  obtain ⟨o, rfl, ho, -⟩ := readNamed_local greater_not_mem.1 hopen
  intro u hu
  show (readOpen isAlnum u).bind readToClose = none
  rcases hr : readOpen isAlnum u with - | r
  · rfl
  · obtain ⟨o', rfl, -, -⟩ := readNamed_local greater_not_mem.1 hr
    obtain ⟨y, hy⟩ := hu
    rw [← List.append_assoc] at hy
    exact readToClose_of_suffix hclose (suffix_of_append_eq hy ho)

theorem thinkPattern_append (h : (thinkPattern isAlnum).rest s = some r) (t : Str) :
    (thinkPattern isAlnum).rest (s ++ t) = some (r ++ t) := by
  obtain ⟨q, hopen, hclose⟩ := Option.bind_eq_some_iff.1 h
  exact Option.bind_eq_some_iff.2 ⟨q ++ t, readOpen_append hopen t, readToClose_append hclose t⟩

/-- A text that ends in `>` and of which no opening tag is left is thinned out in front of any text. -/
theorem erase_think_append (h : (thinkPattern isAlnum).Erases s w) (hw : (openThinkPattern isAlnum).NoMatch w)
    (hs : s = [] ∨ s.getLast? = some greater) (t : Str) :
    (thinkPattern isAlnum).erase (s ++ t) = w ++ (thinkPattern isAlnum).erase t := by
  induction h with
  | nil => rfl
  | @keep c s w hnone hrest ih =>
    have hmem : greater ∈ c :: s := by
      rcases hs with hs | hs
      · cases hs
      · exact List.mem_of_getLast? hs
    have hnone' : (thinkPattern isAlnum).rest (c :: (s ++ t)) = none := by
      by_contra hsome
      obtain ⟨r, hr⟩ := Option.ne_none_iff_exists'.1 hsome
      obtain ⟨r', hopen, -⟩ := Option.bind_eq_some_iff.1 hr
      obtain ⟨q, hq, -⟩ := readOpen_of_append hmem (by rwa [← List.cons_append] at hopen)
      -- an opening tag that is not closed would be left
      have hclose : readToClose q = none := by
        have hrest' : (readOpen isAlnum (c :: s)).bind readToClose = none := hnone
        rwa [hq] at hrest'
      have hsame := (Pattern.Erases.keep hnone hrest).erase_eq
      rw [(noMatch_of_unclosed hq hclose).erase_eq] at hsame
      have hleft := openThink_rest_eq_none.1 (hw (c :: w) List.suffix_rfl)
      rw [← hsame, hq] at hleft
      cases hleft
    rw [List.cons_append, Pattern.erase_of_none hnone', ih hw.of_cons ?_, List.cons_append]
    rcases s with - | ⟨d, s⟩
    · exact .inl rfl
    · right
      rcases hs with hs | hs
      · cases hs
      · simpa using hs
  | @drop s r w hsome _ ih =>
    rw [Pattern.erase_of_rest (thinkPattern_append hsome t), ih hw ?_]
    rcases s with - | ⟨c, s⟩
    · cases hsome
    · obtain ⟨y, rfl⟩ := (thinkPattern isAlnum).suffix hsome
      rcases r with - | ⟨d, r⟩
      · exact .inl rfl
      · right
        rcases hs with hs | hs
        · cases hs
        · rwa [← List.cons_append, List.getLast?_append_of_ne_nil _ (List.cons_ne_nil d r)] at hs

/-! ### Closing tags in their context -/

theorem Closing.eq_append_greater (h : Closing isAlnum m) : ∃ n, m = n ++ [greater] := by
  obtain ⟨n, hn, -, -⟩ := readNamed_local greater_not_mem.2 h.1
  exact ⟨n, hn⟩

/-- No opening tag begins in a closing tag, whatever follows it. -/
theorem Closing.readOpen_none (h : Closing isAlnum m) {u : Str} (hne : u ≠ []) (hu : u <:+ m) (t : Str) :
    readOpen isAlnum (u ++ t) = none := by
  obtain ⟨n, rfl⟩ := h.eq_append_greater
  have hmem : greater ∈ u := by
    obtain ⟨y, hy⟩ := hu
    have hlast := congrArg List.getLast? hy
    rw [List.getLast?_append_of_ne_nil _ hne, List.getLast?_concat] at hlast
    exact List.mem_of_getLast? hlast
  by_contra hsome
  obtain ⟨r, hr⟩ := Option.ne_none_iff_exists'.1 hsome
  obtain ⟨q, hq, -⟩ := readOpen_of_append hmem hr
  cases (openThink_rest_eq_none.1 (h.2 u hu)).symm.trans hq

theorem Closing.erase_open (h : Closing isAlnum m) (t : Str) :
    (openThinkPattern isAlnum).erase (m ++ t) = m ++ (openThinkPattern isAlnum).erase t := by
  apply Pattern.erase_append
  intro u hne hu
  exact openThink_rest_eq_none.2 (h.readOpen_none hne hu t)

theorem Closing.erase_tag (h : Closing isAlnum m) (t : Str) :
    (thinkTagPattern isAlnum).erase (m ++ t) = (thinkTagPattern isAlnum).erase t := by
  apply Pattern.erase_of_rest
  show (readOpen isAlnum (m ++ t)).or (readClose isAlnum (m ++ t)) = some t
  have hne : m ≠ [] := by
    obtain ⟨n, rfl⟩ := h.eq_append_greater
    simp
  rw [h.readOpen_none hne List.suffix_rfl t]
  exact readNamed_append greater_not_mem.2 h.1 t

/-- No opening tag begins in a sequence of closing tags. -/
theorem noMatch_closings {closings : List Str} (h : ∀ m ∈ closings, Closing isAlnum m) :
    (openThinkPattern isAlnum).NoMatch closings.flatten := by
  induction closings with
  | nil =>
    intro u hu
    rw [List.suffix_nil.1 hu]
    rfl
  | cons m closings ih =>
    rw [List.flatten_cons]
    refine (ih fun m' hm => h m' (List.mem_cons_of_mem m hm)).append fun u hne hu => ?_
    exact openThink_rest_eq_none.2 ((h m (List.mem_cons_self ..)).readOpen_none hne hu _)

end Context

/-! ### Visible text with pieces in it -/

/-- `t` is the text `v` with pieces before its characters, and an end behind it. -/
inductive Weave (P E : Str → Prop) : Str → Str → Prop
  | stop {e : Str} : E e → Weave P E [] e
  | keep {c : PyChar} {v t : Str} : Weave P E v t → Weave P E (c :: v) (c :: t)
  | piece {m v t : Str} : P m → Weave P E v t → Weave P E v (m ++ t)

/-- A piece or an end begins with `<` or white space, if it is not empty. -/
def Stops (m : Str) : Prop := ∀ c ∈ m.head?, c = .scalar '<' ∨ c.isSpace = true

section Weave

variable {isAlnum : PyChar → Bool} {P E : Str → Prop} {v t m : Str}

theorem Plain.of_cons {c : PyChar} (h : Plain (c :: v)) : Plain v := fun u hu => h u (hu.trans (List.suffix_cons c v))

theorem sameLetter_of_stop {x c : PyChar} (hx : x ∈ str "/think") (hc : c = .scalar '<' ∨ c.isSpace = true) :
    sameLetter x c = false := by
  have hout : ∀ x ∈ str "/think", x ≠ .scalar '<' ∧ x.isSpace = false := by decide
  have hupper : c.isUpper = false := by
    rcases hc with rfl | hc
    · rfl
    · exact PyChar.isUpper_of_isSpace hc
  have hlower : c.asciiLower = c := PyChar.asciiLower_of_not_upper hupper
  by_contra h
  simp only [Bool.not_eq_false, sameLetter, hlower, Bool.or_eq_true, Bool.and_eq_true, beq_iff_eq] at h
  rcases h with (rfl | ⟨-, rfl | rfl⟩) | ⟨-, rfl⟩
  · rcases hc with hc | hc
    · exact (hout _ hx).1 hc
    · rw [(hout _ hx).2] at hc
      cases hc
  all_goals revert hc; decide

/-- Letters that are read of woven text are read of the visible text. -/
theorem Weave.letters (h : Weave P E v t) (hP : ∀ m, P m → m ≠ [] ∧ Stops m) (hE : ∀ e, E e → Stops e) {xs r : Str}
    (hxs : ∀ x ∈ xs, x ∈ str "/think") (hr : readLetters xs t = some r) : (readLetters xs v).isSome = true := by
  induction xs generalizing v t with
  | nil => rfl
  | cons x xs ih =>
    have hstop : ∀ m t', m ≠ [] → Stops m → readLetters (x :: xs) (m ++ t') = none := by
      intro m t' hne hm
      obtain ⟨c, m, rfl⟩ := List.exists_cons_of_ne_nil hne
      rw [List.cons_append, readLetters, sameLetter_of_stop (hxs x (List.mem_cons_self ..)) (hm c rfl)]
      rfl
    rcases h with he | h | ⟨hm, -⟩
    · exfalso
      by_cases hne : t = []
      · subst hne
        cases hr
      · rw [← List.append_nil t, hstop t [] hne (hE t he)] at hr
        cases hr
    · rw [readLetters] at hr ⊢
      split at hr
      · next hc =>
        rw [if_pos hc]
        exact ih h (fun y hy => hxs y (List.mem_cons_of_mem x hy)) hr
      · cases hr
    · rw [hstop _ _ (hP _ hm).1 (hP _ hm).2] at hr
      cases hr

/-- No tag begins at a visible character. -/
theorem Weave.readTag_none {c : PyChar} (h : Weave P E v t) (hP : ∀ m, P m → m ≠ [] ∧ Stops m)
    (hE : ∀ e, E e → Stops e) (hplain : Plain (c :: v)) : readTag isAlnum (c :: t) = none := by
  by_contra hsome
  obtain ⟨name, hname, r, hr, -⟩ := readTag_isSome.1 (Option.isSome_iff_ne_none.2 hsome)
  obtain ⟨xs, rfl, hxs⟩ := name_cases hname
  have hnone := hplain (c :: v) List.suffix_rfl _ hname
  rw [readLetters] at hr hnone
  split at hr
  · next hc =>
    rw [if_pos hc] at hnone
    have hsome := h.letters hP hE hxs hr
    rw [hnone] at hsome
    cases hsome
  · cases hr

/-- A pass that keeps the visible characters and thins out the pieces and the end. -/
theorem Weave.erase {p : Pattern PyChar} {P' E' : Str → Prop} (h : Weave P E v t) (hplain : Plain v)
    (hP : ∀ m, P m → m ≠ [] ∧ Stops m) (hE : ∀ e, E e → Stops e)
    (hp : FindsTags isAlnum p)
    (hpiece : ∀ m, P m → ∀ v t, Weave P' E' v (p.erase t) → Weave P' E' v (p.erase (m ++ t)))
    (hend : ∀ e, E e → E' (p.erase e)) : Weave P' E' v (p.erase t) := by
  induction h with
  | stop he => exact .stop (hend _ he)
  | keep h ih =>
    rw [Pattern.erase_of_none (hp _ (h.readTag_none hP hE hplain))]
    exact .keep (ih hplain.of_cons)
  | piece hm _ ih => exact hpiece _ hm _ _ (ih hplain)

/-- Visible text with nothing in it. -/
theorem Weave.eq_append (h : Weave (fun _ => False) E v t) : ∃ e, E e ∧ t = v ++ e := by
  induction h with
  | stop he => exact ⟨_, he, rfl⟩
  | keep _ ih =>
    obtain ⟨e, he, rfl⟩ := ih
    exact ⟨e, he, rfl⟩
  | piece hm => exact hm.elim

theorem Weave.pieces {ms : List Str} (hms : ∀ m ∈ ms, P m) (h : Weave P E v t) : Weave P E v (ms.flatten ++ t) := by
  induction ms with
  | nil => exact h
  | cons m ms ih =>
    rw [List.flatten_cons, List.append_assoc]
    exact .piece (hms m (List.mem_cons_self ..)) (ih fun m' hm => hms m' (List.mem_cons_of_mem m hm))

theorem Weave.append {u : Str} (h : Weave P E v t) : Weave P E (u ++ v) (u ++ t) := by
  induction u with
  | nil => exact h
  | cons c u ih => exact .keep ih

end Weave

/-! ### Answers whose blocks vanish -/

section Strip

variable {isAlnum : PyChar → Bool} {s t e m v : Str}

/-- A block: a text that vanishes, between `<` and `>`. -/
def IsPiece (isAlnum : PyChar → Bool) (m : Str) : Prop :=
  Vanishes isAlnum m ∧ m.head? = some (.scalar '<') ∧ m.getLast? = some greater

/-- An end, before the first pass and behind it, and behind the second one. -/
def IsEnd (isAlnum : PyChar → Bool) (e : Str) : Prop :=
  e = [] ∨ (e.head? = some (.scalar '<') ∧ VanishesToEnd isAlnum e)

def IsThinned (isAlnum : PyChar → Bool) (e : Str) : Prop := ∃ (pieces : List Str) (e' : Str), e = pieces.flatten ++ e' ∧
  (∀ m ∈ pieces, Closing isAlnum m ∨ ∀ c ∈ m, c.isSpace = true) ∧ (e' = [] ∨ (readOpen isAlnum e').isSome = true)

def IsCut (isAlnum : PyChar → Bool) (e : Str) : Prop :=
  ∃ pieces : List Str, e = pieces.flatten ∧ ∀ m ∈ pieces, Closing isAlnum m ∨ ∀ c ∈ m, c.isSpace = true

theorem Closing.stops (h : Closing isAlnum m) : m ≠ [] ∧ Stops m := by
  have htag : readTag isAlnum m = some [] := by
    rw [readTag, openThink_rest_eq_none.1 (h.2 m List.suffix_rfl)]
    exact h.1
  have hhead := head?_of_readTag htag
  refine ⟨?_, fun c hc => ?_⟩
  · rintro rfl
    cases hhead
  · rw [hhead] at hc
    cases hc
    exact .inl rfl

theorem IsPiece.stops (h : IsPiece isAlnum m) : m ≠ [] ∧ Stops m := by
  refine ⟨?_, fun c hc => ?_⟩
  · rintro rfl
    cases h.2.1
  · rw [h.2.1] at hc
    cases hc
    exact .inl rfl

theorem stops_append (hm : Stops m) (ht : Stops t) : Stops (m ++ t) := by
  rcases m with - | ⟨c, m⟩
  · exact ht
  · exact hm

theorem stops_of_readOpen (h : e = [] ∨ (readOpen isAlnum e).isSome = true) : Stops e := by
  intro c hc
  rcases h with rfl | h
  · cases hc
  · obtain ⟨r, hr⟩ := Option.isSome_iff_exists.1 h
    rw [head?_of_readTag (readTag_of_readOpen hr)] at hc
    cases hc
    exact .inl rfl

theorem stops_flatten {pieces : List Str} (h : ∀ m ∈ pieces, Closing isAlnum m ∨ ∀ c ∈ m, c.isSpace = true)
    (he : Stops e) : Stops (pieces.flatten ++ e) := by
  induction pieces with
  | nil => exact he
  | cons m pieces ih =>
    rw [List.flatten_cons, List.append_assoc]
    refine stops_append ?_ (ih fun m' hm => h m' (List.mem_cons_of_mem m hm))
    rcases h m (List.mem_cons_self ..) with hm | hm
    · exact hm.stops.2
    · exact fun c hc => .inr (hm c (List.mem_of_mem_head? hc))

/-- White space is no tag. -/
theorem erase_spaces {p : Pattern PyChar} (hp : FindsTags isAlnum p)
    (hm : ∀ c ∈ m, c.isSpace = true) (t : Str) : p.erase (m ++ t) = m ++ p.erase t := by
  apply Pattern.erase_append
  intro u hne hu
  apply hp
  by_contra hsome
  obtain ⟨r, hr⟩ := Option.ne_none_iff_exists'.1 hsome
  obtain ⟨c, u, rfl⟩ := List.exists_cons_of_ne_nil hne
  have hhead := head?_of_readTag hr
  cases hhead
  have hspace := hm _ (hu.subset (List.mem_cons_self ..))
  revert hspace
  decide

/-- The first pass takes the spans. -/
theorem Weave.firstPass (h : Weave (IsPiece isAlnum) (IsEnd isAlnum) v t) (hplain : Plain v) :
    Weave (Closing isAlnum) (IsThinned isAlnum) v ((thinkPattern isAlnum).erase t) := by
  refine h.erase hplain (fun m hm => hm.stops) ?_ findsTags_think ?_ ?_
  · rintro e (rfl | ⟨he, -⟩) c hc
    · cases hc
    · rw [he] at hc
      cases hc
      exact .inl rfl
  · rintro m ⟨⟨closings, herases, hclosings⟩, -, hlast⟩ v t h
    rw [erase_think_append herases (noMatch_closings hclosings) (.inr hlast)]
    exact h.pieces hclosings
  · rintro e (rfl | ⟨-, pieces, e', herases, hpieces, he'⟩)
    · exact ⟨[], [], rfl, nofun, .inl rfl⟩
    · exact ⟨pieces, e', herases.erase_eq, hpieces, he'⟩

/-- The second pass takes the tag that is not closed, and what follows it. -/
theorem Weave.secondPass (h : Weave (Closing isAlnum) (IsThinned isAlnum) v t) (hplain : Plain v) :
    Weave (Closing isAlnum) (IsCut isAlnum) v ((openThinkPattern isAlnum).erase t) := by
  refine h.erase hplain (fun m hm => hm.stops) ?_ findsTags_openThink ?_ ?_
  · rintro e ⟨pieces, e', rfl, hpieces, he'⟩
    exact stops_flatten hpieces (stops_of_readOpen he')
  · intro m hm v t h
    rw [hm.erase_open]
    exact .piece hm h
  · rintro e ⟨pieces, e', rfl, hpieces, he'⟩
    refine ⟨pieces, ?_, hpieces⟩
    induction pieces with
    | nil =>
      rcases he' with rfl | he'
      · rfl
      · obtain ⟨r, hr⟩ := Option.isSome_iff_exists.1 he'
        exact Pattern.erase_of_rest (openThink_rest_of_some hr)
    | cons m pieces ih =>
      have hih := ih fun m' hm => hpieces m' (List.mem_cons_of_mem m hm)
      rw [List.flatten_cons, List.append_assoc]
      rcases hpieces m (List.mem_cons_self ..) with hm | hm
      · rw [hm.erase_open, hih]
      · rw [erase_spaces findsTags_openThink hm, hih]

/-- The third pass takes the closing tags. -/
theorem Weave.thirdPass (h : Weave (Closing isAlnum) (IsCut isAlnum) v t) (hplain : Plain v) :
    ∃ e, (∀ c ∈ e, c.isSpace = true) ∧ (thinkTagPattern isAlnum).erase t = v ++ e := by
  refine Weave.eq_append (h.erase hplain (fun m hm => hm.stops) ?_ findsTags_tag ?_ ?_)
  · rintro e ⟨pieces, rfl, hpieces⟩
    have hstops := stops_flatten hpieces (e := []) nofun
    rwa [List.append_nil] at hstops
  · intro m hm v t h
    rwa [hm.erase_tag]
  · rintro e ⟨pieces, rfl, hpieces⟩
    induction pieces with
    | nil => exact nofun
    | cons m pieces ih =>
      have hih := ih fun m' hm => hpieces m' (List.mem_cons_of_mem m hm)
      rw [List.flatten_cons]
      rcases hpieces m (List.mem_cons_self ..) with hm | hm
      · rwa [hm.erase_tag]
      · rw [erase_spaces findsTags_tag hm]
        intro c hc
        rcases List.mem_append.1 hc with hc | hc
        · exact hm c hc
        · exact hih c hc

/-- White space at the end is stripped. -/
theorem strip_append_spaces (v : Str) (he : ∀ c ∈ e, c.isSpace = true) : Str.strip (v ++ e) = Str.strip v := by
  have hdrop : (v ++ e).rdropWhile PyChar.isSpace = v.rdropWhile PyChar.isSpace := by
    have hall : ∀ c ∈ e.reverse, c.isSpace = true := fun c hc => he c (List.mem_reverse.1 hc)
    rw [List.rdropWhile, List.reverse_append, List.dropWhile_append_of_pos hall, List.rdropWhile]
  rw [Str.strip, ← Str.dropWhile_rdropWhile, hdrop, Str.dropWhile_rdropWhile, Str.strip]

theorem head?_of_readOpen (h : readOpen isAlnum s = some t) : s.head? = some (.scalar '<') := by
  exact head?_of_readTag (readTag_of_readOpen h)

theorem Block.head?_text (b : Block isAlnum) : b.text.head? = some (.scalar '<') := by
  rw [Block.text, List.append_assoc, List.head?_append, head?_of_readOpen b.isOpening]
  rfl

theorem Block.getLast?_text (b : Block isAlnum) : b.text.getLast? = some greater := by
  obtain ⟨n, hn, -, -⟩ := readNamed_local greater_not_mem.2 b.isClosing
  rw [Block.text, hn, ← List.append_assoc, List.getLast?_concat]

theorem OpenBlock.head?_text (b : OpenBlock isAlnum) : b.text.head? = some (.scalar '<') := by
  rw [OpenBlock.text, List.head?_append, head?_of_readOpen b.isOpening]
  rfl

/-- The text of an answer, as visible text with blocks in it. -/
theorem Answer.weave (a : Answer isAlnum) (hblocks : ∀ b ∈ a.blocks, Vanishes isAlnum b.1.text)
    (hunclosed : ∀ u ∈ a.unclosed, VanishesToEnd isAlnum u.text) :
    Weave (IsPiece isAlnum) (IsEnd isAlnum) a.visible a.text := by
  have hend : IsEnd isAlnum ((a.unclosed.map OpenBlock.text).getD []) := by
    rcases hu : a.unclosed with - | u
    · exact .inl rfl
    · exact .inr ⟨u.head?_text, hunclosed u hu⟩
  have hrest : ∀ l : List (Block isAlnum × Str), (∀ b ∈ l, Vanishes isAlnum b.1.text) →
      Weave (IsPiece isAlnum) (IsEnd isAlnum) (l.flatMap Prod.snd)
        (l.flatMap (fun b => b.1.text ++ b.2) ++ (a.unclosed.map OpenBlock.text).getD []) := by
    intro l hl
    induction l with
    | nil => exact .stop hend
    | cons b l ih =>
      rw [List.flatMap_cons, List.flatMap_cons, List.append_assoc, List.append_assoc]
      exact .piece ⟨hl b (List.mem_cons_self ..), b.1.head?_text, b.1.getLast?_text⟩
        (ih fun b' hb => hl b' (List.mem_cons_of_mem b hb)).append
  rw [Answer.text, Answer.visible, List.append_assoc]
  exact (hrest a.blocks hblocks).append

/-- **Of an answer whose blocks vanish, the visible text is left.** -/
theorem stripThink_text (a : Answer isAlnum) (hplain : Plain a.visible)
    (hblocks : ∀ b ∈ a.blocks, Vanishes isAlnum b.1.text) (hunclosed : ∀ u ∈ a.unclosed, VanishesToEnd isAlnum u.text) :
    stripThink isAlnum a.text = Str.strip a.visible := by
  have hweave := a.weave hblocks hunclosed
  obtain ⟨e, he, htext⟩ := ((hweave.firstPass hplain).secondPass hplain).thirdPass hplain
  rw [stripThink, outside, htext, strip_append_spaces _ he]

end Strip

/-! ### Blocks that do not vanish -/

section Fail

variable {isAlnum : PyChar → Bool} {s t r k w y e h : Str}

theorem readToClose_of_append (ht : greater ∉ t) (h : readToClose (s ++ t) = some r) :
    (readToClose s).isSome = true := by
  induction s with
  | nil => exact absurd (greater_mem_of_readToClose h) ht
  | cons c s ih =>
    rw [List.cons_append, readToClose] at h
    rw [readToClose]
    split at h
    · next r' hr =>
      obtain ⟨m, hm, hletters⟩ := readLetters_eq_some.1 hr
      have hmem : greater ∈ c :: s ++ t := by
        obtain ⟨n, rfl, -⟩ := sameLetters_close hletters
        rw [List.cons_append, hm]
        simp
      have hg : greater ∈ c :: s := (List.mem_append.1 hmem).resolve_right ht
      obtain ⟨q, hq, -⟩ := closeLiteral_of_append hg hr
      rw [hq]
      rfl
    · split
      · rfl
      · exact ih h

/-- A tag does not reach into text without `>`. -/
theorem readNamed_append_right {name : Str} (hname : greater ∉ name) (ht : greater ∉ t) (u : Str) :
    readNamed isAlnum name (u ++ t) = (readNamed isAlnum name u).map (· ++ t) := by
  rcases hu : readNamed isAlnum name u with - | r
  · by_contra hsome
    obtain ⟨r, hr⟩ := Option.ne_none_iff_exists'.1 hsome
    have hmem : greater ∈ u ++ t := by
      obtain ⟨o, ho, -, -⟩ := readNamed_local hname hr
      rw [ho]
      simp
    obtain ⟨q, hq, -⟩ := readNamed_of_append hname ((List.mem_append.1 hmem).resolve_right ht) hr
    rw [hu] at hq
    cases hq
  · exact readNamed_append hname hu t

theorem think_rest_append (ht : greater ∉ t) (u : Str) :
    (thinkPattern isAlnum).rest (u ++ t) = ((thinkPattern isAlnum).rest u).map (· ++ t) := by
  rcases hu : (thinkPattern isAlnum).rest u with - | r
  · have hopen : readOpen isAlnum (u ++ t) = (readOpen isAlnum u).map (· ++ t) :=
      readNamed_append_right greater_not_mem.1 ht u
    have hu' : (readOpen isAlnum u).bind readToClose = none := hu
    show (readOpen isAlnum (u ++ t)).bind readToClose = none
    rw [hopen]
    rcases hq : readOpen isAlnum u with - | q
    · rfl
    · rw [hq] at hu'
      show readToClose (q ++ t) = none
      by_contra hsome
      obtain ⟨r, hr⟩ := Option.ne_none_iff_exists'.1 hsome
      have := readToClose_of_append ht hr
      rw [show readToClose q = none from hu'] at this
      cases this
  · exact thinkPattern_append hu t

theorem tag_rest_append (ht : greater ∉ t) (u : Str) :
    (thinkTagPattern isAlnum).rest (u ++ t) = ((thinkTagPattern isAlnum).rest u).map (· ++ t) := by
  show (readOpen isAlnum (u ++ t)).or (readClose isAlnum (u ++ t)) = ((readOpen isAlnum u).or _).map _
  rw [readOpen, readClose, readNamed_append_right greater_not_mem.1 ht, readNamed_append_right greater_not_mem.2 ht]
  rcases readNamed isAlnum (str "<think") u with - | r <;> rfl

/-! #### Letters around a block -/

def letterX : PyChar := .scalar 'x'

def letters (n : ℕ) : Str := List.replicate n letterX

theorem readTag_letterX (s : Str) : readTag isAlnum (letterX :: s) = none := by
  by_contra hsome
  obtain ⟨r, hr⟩ := Option.ne_none_iff_exists'.1 hsome
  have hhead := head?_of_readTag hr
  cases hhead

theorem noMatch_letters {p : Pattern PyChar} (hp : FindsTags isAlnum p) (n : ℕ) : p.NoMatch (letters n) := by
  intro u hu
  rcases u with - | ⟨c, u⟩
  · exact p.rest_nil
  · obtain rfl : c = letterX := List.eq_of_mem_replicate (hu.subset (List.mem_cons_self ..))
    exact hp _ (readTag_letterX u)

theorem erase_letterX {p : Pattern PyChar} (hp : FindsTags isAlnum p) (s : Str) :
    p.erase (letterX :: s) = letterX :: p.erase s :=
  Pattern.erase_of_none (hp _ (readTag_letterX s))

theorem greater_not_mem_letters (n : ℕ) : greater ∉ letters n := by
  intro hmem
  cases List.eq_of_mem_replicate hmem

theorem plain_letters (n : ℕ) : Plain (letters n) := by
  intro u hu name hname
  obtain ⟨xs, rfl, -⟩ := name_cases hname
  rcases u with - | ⟨c, u⟩
  · rfl
  · obtain rfl : c = letterX := List.eq_of_mem_replicate (hu.subset (List.mem_cons_self ..))
    rfl

theorem strip_between (y : Str) (n : ℕ) :
    Str.strip (letterX :: (y ++ letters (n + 1))) = letterX :: (y ++ letters (n + 1)) := by
  have hsplit : letterX :: (y ++ letters (n + 1)) = (letterX :: (y ++ letters n)) ++ [letterX] := by
    rw [letters, List.replicate_succ', ← letters]
    simp
  have hdrop : (letterX :: (y ++ letters (n + 1))).dropWhile PyChar.isSpace = letterX :: (y ++ letters (n + 1)) :=
    List.dropWhile_cons_of_neg (by decide)
  rw [Str.strip, hdrop, hsplit, List.rdropWhile_concat_neg _ _ _ (by decide)]

theorem spaces_of_strip (hy : Str.strip (letterX :: y) = [letterX]) : ∀ c ∈ y, c.isSpace = true := by
  have hdrop : (letterX :: y).dropWhile PyChar.isSpace = letterX :: y := List.dropWhile_cons_of_neg (by decide)
  rw [Str.strip, hdrop] at hy
  by_contra hspace
  simp only [not_forall, Bool.not_eq_true] at hspace
  obtain ⟨c, hc, hspace⟩ := hspace
  rw [← List.singleton_append, Str.rdropWhile_append_of_mem hc hspace, List.singleton_append] at hy
  have hall := List.rdropWhile_eq_nil_iff.1 (List.cons.inj hy).2 c hc
  rw [hspace] at hall
  cases hall

theorem length_strip_le (s : Str) : (Str.strip s).length ≤ s.length :=
  (List.rdropWhile_prefix _ _).length_le.trans (List.dropWhile_suffix _).length_le

/-! #### What vanishes -/

/-- A text of which the third pass leaves `y` is a sequence of closing tags and the characters of `y`. -/
theorem pieces_of_erases (h : (thinkTagPattern isAlnum).Erases k y)
    (hopen : ∀ u, u ≠ [] → u <:+ k → readOpen isAlnum (u ++ e) = none) : ∃ pieces : List Str, k = pieces.flatten ∧
      ∀ m ∈ pieces, Closing isAlnum m ∨ ∃ c ∈ y, m = [c] := by
  induction h with
  | nil => exact ⟨[], rfl, nofun⟩
  | @keep c s w _ _ ih =>
    obtain ⟨pieces, rfl, hpieces⟩ := ih fun u hne hu => hopen u hne (hu.trans (List.suffix_cons c _))
    refine ⟨[c] :: pieces, rfl, ?_⟩
    intro m hm
    rcases List.mem_cons.1 hm with rfl | hm
    · exact .inr ⟨c, List.mem_cons_self .., rfl⟩
    · exact (hpieces m hm).imp id fun ⟨d, hd, hm⟩ => ⟨d, List.mem_cons_of_mem c hd, hm⟩
  | @drop s r w hsome _ ih =>
    have hne : s ≠ [] := by
      rintro rfl
      cases hsome
    have hnone : readOpen isAlnum s = none := by
      by_contra h
      obtain ⟨q, hq⟩ := Option.ne_none_iff_exists'.1 h
      have := hopen s hne List.suffix_rfl
      rw [readOpen_append hq e] at this
      cases this
    have hclose : readClose isAlnum s = some r := by
      have htag : (readOpen isAlnum s).or (readClose isAlnum s) = some r := hsome
      rwa [hnone] at htag
    obtain ⟨o, rfl, -, hlocal⟩ := readNamed_local greater_not_mem.2 hclose
    have hassoc : o ++ greater :: r = (o ++ [greater]) ++ r := by simp
    obtain ⟨pieces, rfl, hpieces⟩ := ih fun u hne hu =>
      hopen u hne (hu.trans ((List.suffix_cons greater r).trans (List.suffix_append o _)))
    refine ⟨(o ++ [greater]) :: pieces, by simp, ?_⟩
    intro m hm
    rcases List.mem_cons.1 hm with rfl | hm
    · refine .inl ⟨hlocal [], ?_⟩
      intro u hu
      rw [openThink_rest_eq_none]
      by_contra hsome
      obtain ⟨q, hq⟩ := Option.ne_none_iff_exists'.1 hsome
      have hune : u ≠ [] := by
        rintro rfl
        cases hq
      have hu' : u ++ pieces.flatten <:+ o ++ greater :: pieces.flatten := by
        obtain ⟨z, hz⟩ := hu
        exact ⟨z, by rw [hassoc, ← hz, List.append_assoc]⟩
      have := hopen _ (List.append_ne_nil_of_left_ne_nil hune _) hu'
      rw [List.append_assoc, readOpen_append hq] at this
      cases this
    · exact hpieces m hm

variable (isAlnum) in
/-- The second pass cuts at an opening tag. -/
theorem exists_cutOff (w : Str) : ∃ e, w = (openThinkPattern isAlnum).erase w ++ e ∧
    (e = [] ∨ (readOpen isAlnum e).isSome = true) ∧
    ∀ u, u ≠ [] → u <:+ (openThinkPattern isAlnum).erase w → readOpen isAlnum (u ++ e) = none := by
  induction w with
  | nil => exact ⟨[], rfl, .inl rfl, fun u hne hu => absurd (List.suffix_nil.1 hu) hne⟩
  | cons c w ih =>
    rcases hc : readOpen isAlnum (c :: w) with - | r
    · obtain ⟨e, hw, he, hopen⟩ := ih
      rw [Pattern.erase_of_none (openThink_rest_eq_none.2 hc)]
      refine ⟨e, by rw [List.cons_append, ← hw], he, ?_⟩
      intro u hne hu
      rcases List.suffix_cons_iff.1 hu with rfl | hu
      · rw [List.cons_append, ← hw]
        exact hc
      · exact hopen u hne hu
    · rw [Pattern.erase_of_rest (openThink_rest_of_some hc)]
      exact ⟨c :: w, rfl, .inr (by rw [hc]; rfl), fun u hne hu => absurd (List.suffix_nil.1 hu) hne⟩

/-- What is cut off from an opening tag on reaches over all the letters behind it. -/
theorem length_lt_of_cutOff {k w e : Str} {n : ℕ} (hcut : k ++ letters n = w ++ e)
    (he : (readOpen isAlnum e).isSome = true) : n < e.length := by
  obtain ⟨r, hr⟩ := Option.isSome_iff_exists.1 he
  obtain ⟨o, ho, -, -⟩ := readNamed_local greater_not_mem.1 hr
  have hmem : greater ∈ e := by
    rw [ho]
    simp
  by_contra hle
  have hsuffix : e <:+ letters n := by
    refine List.suffix_of_suffix_length_le ⟨w, hcut.symm⟩ (List.suffix_append k _) ?_
    rw [letters, List.length_replicate]
    omega
  exact greater_not_mem_letters n (hsuffix.subset hmem)

/-- A block between letters that are left does vanish. -/
theorem vanishes_of_strip (hstrip : stripThink isAlnum (letterX :: (h ++ letters (h.length + 1))) =
    letterX :: letters (h.length + 1)) : Vanishes isAlnum h := by
  set k := (thinkPattern isAlnum).erase h with hk
  have hfirst : (thinkPattern isAlnum).erase (letterX :: (h ++ letters (h.length + 1))) =
      letterX :: (k ++ letters (h.length + 1)) := by
    rw [erase_letterX findsTags_think,
      Pattern.erase_append_right (fun u _ _ => think_rest_append (greater_not_mem_letters _) u)
        (noMatch_letters findsTags_think _)]
  obtain ⟨e, hcut, he, hopen⟩ := exists_cutOff isAlnum (k ++ letters (h.length + 1))
  set w := (openThinkPattern isAlnum).erase (k ++ letters (h.length + 1)) with hw
  have houtside : outside isAlnum (letterX :: (h ++ letters (h.length + 1))) = letterX :: w := by
    rw [outside, hfirst, erase_letterX findsTags_openThink]
  rw [stripThink, houtside] at hstrip
  rcases he with rfl | he
  · -- nothing is cut off, so that the third pass leaves nothing of the block
    rw [List.append_nil] at hcut
    rw [← hcut] at hopen hstrip
    rw [erase_letterX findsTags_tag,
      Pattern.erase_append_right (fun u _ _ => tag_rest_append (greater_not_mem_letters _) u)
        (noMatch_letters findsTags_tag _), strip_between] at hstrip
    have hnil : (thinkTagPattern isAlnum).erase k = [] := List.append_left_eq_self.1 (List.cons.inj hstrip).2
    have herases := (thinkTagPattern isAlnum).erases_erase k
    rw [hnil] at herases
    obtain ⟨pieces, hpieces, hclosings⟩ := pieces_of_erases (e := letters (h.length + 1)) herases fun u hne hu => by
      have hnone := hopen (u ++ letters (h.length + 1)) (List.append_ne_nil_of_left_ne_nil hne _)
        ((List.suffix_append_self_iff).2 hu)
      rwa [List.append_nil] at hnone
    refine ⟨pieces, hpieces ▸ (thinkPattern isAlnum).erases_erase h, fun m hm => ?_⟩
    apply (hclosings m hm).resolve_right
    rintro ⟨c, hc, -⟩
    cases hc
  · -- the letters behind the block are lost
    exfalso
    have hlong : h.length + 1 < e.length := length_lt_of_cutOff hcut he
    have hlen := congrArg List.length hcut
    have hkept : k.length ≤ h.length := Pattern.length_erase_le (thinkPattern isAlnum) h
    have hresult := (length_strip_le _).trans (Pattern.length_erase_le (thinkTagPattern isAlnum) (letterX :: w))
    rw [hstrip] at hresult
    rw [List.length_append, List.length_append, letters, List.length_replicate] at hlen
    rw [List.length_cons, List.length_cons, letters, List.length_replicate] at hresult
    omega

/-- So does an end behind a letter that is left. -/
theorem vanishesToEnd_of_strip (hstrip : stripThink isAlnum (letterX :: h) = [letterX]) : VanishesToEnd isAlnum h := by
  obtain ⟨e, hcut, he, hopen⟩ := exists_cutOff isAlnum ((thinkPattern isAlnum).erase h)
  set w := (openThinkPattern isAlnum).erase ((thinkPattern isAlnum).erase h) with hw
  have houtside : outside isAlnum (letterX :: h) = letterX :: w := by
    rw [outside, erase_letterX findsTags_think,
      erase_letterX findsTags_openThink]
  rw [stripThink, houtside, erase_letterX findsTags_tag] at hstrip
  have hspaces : ∀ c ∈ (thinkTagPattern isAlnum).erase w, c.isSpace = true := spaces_of_strip hstrip
  obtain ⟨pieces, hpieces, hclosings⟩ := pieces_of_erases ((thinkTagPattern isAlnum).erases_erase w) hopen
  refine ⟨pieces, e, ?_, fun m hm => (hclosings m hm).imp_right ?_, he⟩
  · rw [← hpieces, ← hcut]
    exact (thinkPattern isAlnum).erases_erase h
  · rintro ⟨d, hd, rfl⟩ c hc
    rw [List.mem_singleton] at hc
    exact hspaces c (hc ▸ hd)

/-- **Blocks are taken out of every answer, and no visible text with them, if and only if they vanish.** -/
theorem stripThink_eq_visible_iff (blocks : Set (Block isAlnum)) (unclosed : Set (OpenBlock isAlnum)) :
    (∀ a : Answer isAlnum, (∀ b ∈ a.blocks, b.1 ∈ blocks) → (∀ u ∈ a.unclosed, u ∈ unclosed) → Plain a.visible →
      stripThink isAlnum a.text = Str.strip a.visible) ↔
    (∀ b ∈ blocks, Vanishes isAlnum b.text) ∧ ∀ u ∈ unclosed, VanishesToEnd isAlnum u.text := by
  constructor
  · intro hall
    refine ⟨fun b hb => ?_, fun u hu => ?_⟩
    · apply vanishes_of_strip
      have hone := hall ⟨letters 1, [(b, letters (b.text.length + 1))], none⟩ (by simpa using hb) nofun
      have htext : Answer.text ⟨letters 1, [(b, letters (b.text.length + 1))], none⟩ =
          letterX :: (b.text ++ letters (b.text.length + 1)) := by
        simp [Answer.text, letters]
      have hvisible : Answer.visible ⟨letters 1, [(b, letters (b.text.length + 1))], none⟩ =
          letterX :: ([] ++ letters (b.text.length + 1)) := by
        simp [Answer.visible, letters]
      rw [htext, hvisible, strip_between] at hone
      exact hone (plain_letters (b.text.length + 2))
    · apply vanishesToEnd_of_strip
      have hone := hall ⟨letters 1, [], some u⟩ nofun (by simpa using hu)
      have htext : Answer.text ⟨letters 1, [], some u⟩ = letterX :: u.text := by
        simp [Answer.text, letters]
      have hvisible : (⟨letters 1, [], some u⟩ : Answer isAlnum).visible = letters 1 := by
        simp [Answer.visible]
      rw [htext, hvisible] at hone
      exact hone (plain_letters 1)
  · rintro ⟨hblocks, hunclosed⟩ a ha hu hplain
    exact stripThink_text a hplain (fun b hb => hblocks b.1 (ha b hb)) fun u hmem => hunclosed u (hu u hmem)

def nested : Answer fun _ => false :=
  ⟨[], [(⟨str "<think>", str "a<think>b</think>c", str "</think>", by decide, by decide⟩, str "d")], none⟩

def spaced : Answer fun _ => false :=
  ⟨[], [(⟨str "<think>", str "a", str "</think >", by decide, by decide⟩, str "b")], none⟩

/-- What follows an inner block is shown, and what follows a closing tag with a space is lost. -/
theorem not_stripThink_of_nested :
    (nested.text = str "<think>a<think>b</think>c</think>d" ∧ Plain nested.visible ∧
      stripThink (fun _ => false) nested.text = str "cd" ∧ Str.strip nested.visible = str "d") ∧
    spaced.text = str "<think>a</think >b" ∧ Plain spaced.visible ∧
      stripThink (fun _ => false) spaced.text = [] ∧ Str.strip spaced.visible = str "b" := by
  decide +kernel

end Fail

end SharedAi.Llm
