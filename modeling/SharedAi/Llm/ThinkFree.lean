import SharedAi.Llm.ThinkBlocks

/-!
# No think tag is left

Where `strip_think` leaves no tag, told of the text that it is given.

* `Shows` — the characters that a text shows, without the think blocks before each;
* `OpeningAt`, `ClosingAt` — a tag begins, perhaps with blocks in it;
* `Keeps` — the characters that a text keeps, without closing tags, up to an opening tag that is left;
* `Interrupted` — a closing tag stands between the letters of another tag;
* `thinkFree_iff` — a tag is left where one is interrupted, and nowhere else.
-/

namespace SharedAi.Llm

open SharedAi.Net SharedAi.Text

section Reading

variable (isAlnum : PyChar → Bool)

/-- `s` goes on with `r` behind the characters `m`, before each of which there may be blocks. -/
inductive Shows : Str → Str → Str → Prop
  | nil {s : Str} : Shows s [] s
  | char {c : PyChar} {s m r : Str} : (thinkPattern isAlnum).rest (c :: s) = none → Shows s m r →
      Shows (c :: s) (c :: m) r
  | block {s s' m r : Str} : (thinkPattern isAlnum).rest s = some s' → Shows s' m r → Shows s m r

def OpeningAt (s : Str) : Prop := ∃ m r, Shows isAlnum s m r ∧ readOpen isAlnum m = some []

/-- A closing tag with no opening tag in its attributes begins, and `r` follows it. -/
def ClosingAt (s r : Str) : Prop := ∃ m, Shows isAlnum s m r ∧ Closing isAlnum m

/-- `s` goes on with `r` behind the characters `m`, before each of which there may be blocks and closing tags, but no
opening tag. -/
inductive Keeps : Str → Str → Str → Prop
  | nil {s : Str} : Keeps s [] s
  | char {c : PyChar} {s s' m r : Str} : ¬ OpeningAt isAlnum s → (∀ t, ¬ ClosingAt isAlnum s t) →
      Shows isAlnum s [c] s' → Keeps s' m r → Keeps s (c :: m) r
  | closing {s s' m r : Str} : ClosingAt isAlnum s s' → Keeps s' m r → Keeps s m r

/-- The text begins with letters of a tag, then a closing tag, then the other letters, and attributes up to a `>`. -/
def InterruptedAt (s : Str) : Prop :=
  ∃ name ∈ [str "<think", str "</think"], ∃ x y a s' t r, SameLetters name (x ++ y) ∧ x ≠ [] ∧ y ≠ [] ∧
    Keeps isAlnum s x s' ∧ ClosingAt isAlnum s' t ∧ Keeps isAlnum t (y ++ (a ++ [greater])) r ∧
    (a ++ [greater]).head?.any (isWord isAlnum) = false

/-- A closing tag stands between the letters of another tag. -/
def Interrupted (text : Str) : Prop := ∃ b s, Keeps isAlnum text b s ∧ InterruptedAt isAlnum s

/-- No tag is left, and there is nothing to do a second time. -/
def ThinkFree (text : Str) : Prop :=
  (thinkTagPattern isAlnum).NoMatch (stripThink isAlnum text) ∧
    stripThink isAlnum (stripThink isAlnum text) = stripThink isAlnum text

end Reading

/-! ### What the first pass shows -/

section Passes

variable {isAlnum : PyChar → Bool} {s t r m w b x y : Str} {c : PyChar}

theorem Shows.erase_eq (h : Shows isAlnum s m r) :
    (thinkPattern isAlnum).erase s = m ++ (thinkPattern isAlnum).erase r := by
  induction h with
  | nil => rfl
  | char hnone _ ih => rw [Pattern.erase_of_none hnone, ih, List.cons_append]
  | block hrest _ ih => rw [Pattern.erase_of_rest hrest, ih]

/-- What is left by the first pass is shown. -/
theorem exists_shows (h : (thinkPattern isAlnum).erase s = m ++ w) :
    ∃ r, Shows isAlnum s m r ∧ (thinkPattern isAlnum).erase r = w := by
  have herases := (thinkPattern isAlnum).erases_erase s
  rw [h] at herases
  generalize hv : m ++ w = v at herases
  induction herases generalizing m with
  | nil =>
    obtain ⟨rfl, rfl⟩ := List.append_eq_nil_iff.1 hv
    exact ⟨[], .nil, rfl⟩
  | @keep c s v hnone hrest ih =>
    rcases m with - | ⟨d, m⟩
    · exact ⟨c :: s, .nil, ((Pattern.Erases.keep hnone hrest).erase_eq).trans hv.symm⟩
    · obtain ⟨rfl, hmw⟩ := List.cons.inj hv
      obtain ⟨r, hshows, hr⟩ := ih (hrest.erase_eq.trans hmw.symm) hmw
      exact ⟨r, .char hnone hshows, hr⟩
  | @drop s s' v hsome hrest ih =>
    obtain ⟨r, hshows, hr⟩ := ih (hrest.erase_eq.trans hv.symm) hv
    exact ⟨r, .block hsome hshows, hr⟩

theorem openingAt_iff : OpeningAt isAlnum s ↔ (readOpen isAlnum ((thinkPattern isAlnum).erase s)).isSome = true := by
  constructor
  · rintro ⟨m, r, hshows, hm⟩
    rw [hshows.erase_eq, readOpen_append hm]
    rfl
  · intro h
    obtain ⟨q, hq⟩ := Option.isSome_iff_exists.1 h
    obtain ⟨o, ho, -, hlocal⟩ := readNamed_local greater_not_mem.1 hq
    rw [List.append_cons] at ho
    obtain ⟨r, hshows, -⟩ := exists_shows ho
    exact ⟨_, r, hshows, hlocal []⟩

/-! ### What the other passes keep -/

theorem outside_of_openingAt (h : OpeningAt isAlnum s) : outside isAlnum s = [] := by
  obtain ⟨q, hq⟩ := Option.isSome_iff_exists.1 (openingAt_iff.1 h)
  rw [outside, Pattern.erase_of_rest (openThink_rest_of_some hq), Pattern.erase_nil]

theorem outside_of_char (hopen : ¬ OpeningAt isAlnum s) (h : Shows isAlnum s [c] r) :
    outside isAlnum s = c :: outside isAlnum r := by
  rw [openingAt_iff, Option.not_isSome_iff_eq_none, h.erase_eq] at hopen
  rw [outside, h.erase_eq]
  exact Pattern.erase_of_none (openThink_rest_eq_none.2 hopen)

/-- A character outside the blocks is shown. -/
theorem exists_char (h : outside isAlnum s = c :: w) :
    ¬ OpeningAt isAlnum s ∧ ∃ r, Shows isAlnum s [c] r ∧ outside isAlnum r = w := by
  have hopen : ¬ OpeningAt isAlnum s := by
    intro hopen
    cases (outside_of_openingAt hopen).symm.trans h
  refine ⟨hopen, ?_⟩
  rcases he : (thinkPattern isAlnum).erase s with - | ⟨d, v⟩
  · rw [outside, he] at h
    cases h
  · obtain ⟨r, hshows, -⟩ := exists_shows (m := [d]) he
    obtain ⟨rfl, hr⟩ := List.cons.inj ((outside_of_char hopen hshows).symm.trans h)
    exact ⟨r, hshows, hr⟩

theorem ClosingAt.outside_eq (h : ClosingAt isAlnum s r) :
    ∃ m, Closing isAlnum m ∧ outside isAlnum s = m ++ outside isAlnum r := by
  obtain ⟨m, hshows, hm⟩ := h
  refine ⟨m, hm, ?_⟩
  rw [outside, hshows.erase_eq, hm.erase_open]
  rfl

theorem ClosingAt.erase_eq (h : ClosingAt isAlnum s r) :
    (thinkTagPattern isAlnum).erase (outside isAlnum s) = (thinkTagPattern isAlnum).erase (outside isAlnum r) := by
  obtain ⟨m, hm, houtside⟩ := h.outside_eq
  rw [houtside, hm.erase_tag]

/-- A tag outside the blocks is a closing tag. -/
theorem exists_closingAt (h : readTag isAlnum (outside isAlnum s) = some w) :
    ∃ r, ClosingAt isAlnum s r ∧ outside isAlnum r = w := by
  obtain ⟨e, he, -, hopen⟩ := exists_cutOff isAlnum ((thinkPattern isAlnum).erase s)
  change _ = outside isAlnum s ++ e at he
  change ∀ u, u ≠ [] → u <:+ outside isAlnum s → _ at hopen
  have hnone : ∀ u, u <:+ outside isAlnum s → readOpen isAlnum u = none := by
    intro u hu
    by_contra hsome
    obtain ⟨q, hq⟩ := Option.ne_none_iff_exists'.1 hsome
    have hne : u ≠ [] := by
      rintro rfl
      cases hq
    cases (readOpen_append hq e).symm.trans (hopen u hne hu)
  have hclose : readClose isAlnum (outside isAlnum s) = some w := by
    rwa [readTag, hnone _ List.suffix_rfl] at h
  obtain ⟨o, ho, -, hlocal⟩ := readNamed_local greater_not_mem.2 hclose
  rw [List.append_cons] at ho
  have hm : Closing isAlnum (o ++ [greater]) := by
    refine ⟨hlocal [], fun u hu => openThink_rest_eq_none.2 ?_⟩
    by_contra hsome
    obtain ⟨q, hq⟩ := Option.ne_none_iff_exists'.1 hsome
    have hsuffix : u ++ w <:+ outside isAlnum s := ho ▸ (List.suffix_append_self_iff).2 hu
    cases (readOpen_append hq w).symm.trans (hnone _ hsuffix)
  rw [ho, List.append_assoc] at he
  obtain ⟨r, hshows, hr⟩ := exists_shows he
  have hclosing : ClosingAt isAlnum s r := ⟨_, hshows, hm⟩
  refine ⟨r, hclosing, ?_⟩
  have houtside : outside isAlnum s = (o ++ [greater]) ++ outside isAlnum r := by
    rw [outside, hshows.erase_eq, hm.erase_open]
    rfl
  exact List.append_cancel_left (houtside.symm.trans ho)

theorem readTag_of_not_closingAt (h : ∀ t, ¬ ClosingAt isAlnum s t) : readTag isAlnum (outside isAlnum s) = none := by
  by_contra hsome
  obtain ⟨w, hw⟩ := Option.ne_none_iff_exists'.1 hsome
  obtain ⟨r, hr, -⟩ := exists_closingAt hw
  exact h r hr

theorem not_closingAt (h : readTag isAlnum (outside isAlnum s) = none) (t : Str) : ¬ ClosingAt isAlnum s t := by
  intro hclosing
  obtain ⟨m, hm, houtside⟩ := hclosing.outside_eq
  have hclose : readClose isAlnum (m ++ outside isAlnum t) = some ([] ++ outside isAlnum t) :=
    readNamed_append greater_not_mem.2 hm.1 _
  rw [houtside, readTag, hclose] at h
  exact Option.some_ne_none _ ((Option.or_eq_none_iff.1 h).2)

theorem Keeps.erase_eq (h : Keeps isAlnum s m r) :
    (thinkTagPattern isAlnum).erase (outside isAlnum s) = m ++ (thinkTagPattern isAlnum).erase (outside isAlnum r) := by
  induction h with
  | nil => rfl
  | char hopen hclosing hshows _ ih =>
    have hnone := readTag_of_not_closingAt hclosing
    rw [outside_of_char hopen hshows] at hnone ⊢
    rw [Pattern.erase_of_none hnone, ih, List.cons_append]
  | closing hclosing _ ih => rw [hclosing.erase_eq, ih]

/-- What is left by all passes is kept. -/
theorem exists_keeps (h : (thinkTagPattern isAlnum).erase (outside isAlnum s) = m ++ w) : ∃ r, Keeps isAlnum s m r := by
  have herases := (thinkTagPattern isAlnum).erases_erase (outside isAlnum s)
  rw [h] at herases
  generalize ho : outside isAlnum s = o at herases
  generalize hv : m ++ w = v at herases
  induction herases generalizing s m with
  | nil =>
    obtain ⟨rfl, -⟩ := List.append_eq_nil_iff.1 hv
    exact ⟨s, .nil⟩
  | @keep c o v hnone hrest ih =>
    rcases m with - | ⟨d, m⟩
    · exact ⟨s, .nil⟩
    · obtain ⟨rfl, hmw⟩ := List.cons.inj hv
      obtain ⟨hopen, s', hshows, hs'⟩ := exists_char ho
      obtain ⟨r, hr⟩ := ih (by rw [hs', hrest.erase_eq]; exact hmw.symm) hs' hmw
      exact ⟨r, .char hopen (not_closingAt (ho ▸ hnone)) hshows hr⟩
  | @drop o o' v hsome hrest ih =>
    obtain ⟨s', hclosing, hs'⟩ := exists_closingAt (ho ▸ hsome)
    obtain ⟨r, hr⟩ := ih (by rw [hs', hrest.erase_eq, hv]) hs' hv
    exact ⟨r, .closing hclosing hr⟩

/-- A tag that the last pass removes, in the text as it was. -/
theorem exists_closingAt_of_removes (h : (thinkTagPattern isAlnum).Removes (outside isAlnum s) b w) :
    ∃ s' t, Keeps isAlnum s b s' ∧ ClosingAt isAlnum s' t ∧ outside isAlnum t = w := by
  generalize ho : outside isAlnum s = o at h
  induction h generalizing s with
  | here hsome =>
    obtain ⟨t, hclosing, ht⟩ := exists_closingAt (ho ▸ hsome)
    exact ⟨s, t, .nil, hclosing, ht⟩
  | keep hnone _ ih =>
    obtain ⟨hopen, r, hshows, hr⟩ := exists_char ho
    obtain ⟨s', t, hkeeps, hclosing, ht⟩ := ih hr
    exact ⟨s', t, .char hopen (not_closingAt (ho ▸ hnone)) hshows hkeeps, hclosing, ht⟩
  | drop hsome _ ih =>
    obtain ⟨r, hclosing, hr⟩ := exists_closingAt (ho ▸ hsome)
    obtain ⟨s', t, hkeeps, hclosing', ht⟩ := ih hr
    exact ⟨s', t, .closing hclosing hkeeps, hclosing', ht⟩

theorem keeps_append (h : Keeps isAlnum s (x ++ y) r) : ∃ t, Keeps isAlnum s x t ∧ Keeps isAlnum t y r := by
  generalize hm : x ++ y = m at h
  induction h generalizing x with
  | @nil s =>
    obtain ⟨rfl, rfl⟩ := List.append_eq_nil_iff.1 hm
    exact ⟨s, .nil, .nil⟩
  | @char c s s' m r hopen hclosing hshows hrest ih =>
    rcases x with - | ⟨d, x⟩
    · obtain rfl : y = c :: m := hm
      exact ⟨s, .nil, .char hopen hclosing hshows hrest⟩
    · obtain ⟨rfl, hxy⟩ := List.cons.inj hm
      obtain ⟨t, hx, hy⟩ := ih hxy
      exact ⟨t, .char hopen hclosing hshows hx, hy⟩
  | closing hclosing _ ih =>
    obtain ⟨t, hx, hy⟩ := ih hm
    exact ⟨t, .closing hclosing hx, hy⟩

/-! ### Interrupted tags -/

/-- An interrupted tag is left. -/
theorem not_noMatch_of_interrupted (h : Interrupted isAlnum s) :
    ¬ (thinkTagPattern isAlnum).NoMatch ((thinkTagPattern isAlnum).erase (outside isAlnum s)) := by
  obtain ⟨b, u, hb, name, hname, x, y, a, s', t, r, hletters, -, -, hx, hclosing, hy, hw⟩ := h
  intro hno
  set k := (thinkTagPattern isAlnum).erase (outside isAlnum r)
  have hleft : (thinkTagPattern isAlnum).erase (outside isAlnum u) = (x ++ y) ++ ((a ++ [greater]) ++ k) := by
    rw [hx.erase_eq, hclosing.erase_eq, hy.erase_eq]
    simp [k]
  have hattributes : (readAttributes isAlnum ((a ++ [greater]) ++ k)).isSome = true := by
    refine readAttributes_isSome.2 ⟨?_, by simp⟩
    rw [List.head?_append_of_ne_nil _ (by simp)]
    exact hw
  have htag := readTag_isSome.2 ⟨name, hname, _, readLetters_eq_some.2 ⟨x ++ y, rfl, hletters⟩, hattributes⟩
  have hnone : readTag isAlnum ((x ++ y) ++ ((a ++ [greater]) ++ k)) = none :=
    hno _ (by rw [hb.erase_eq, hleft]; exact List.suffix_append _ _)
  cases hnone ▸ htag

/-- A tag that is put together is an interrupted one. -/
theorem interrupted_of_joinsTag (h : JoinsTag isAlnum (outside isAlnum s)) : Interrupted isAlnum s := by
  obtain ⟨b, w, x, hremoves, hx, ⟨b', rfl⟩, name, hname, r, hr, hattributes, ⟨y, hy⟩, hne⟩ := h
  obtain ⟨s', t, hkeeps, hclosing, rfl⟩ := exists_closingAt_of_removes hremoves
  obtain ⟨u, hb, hu⟩ := keeps_append hkeeps
  obtain ⟨hw, hmem⟩ := readAttributes_isSome.1 hattributes
  obtain ⟨a, k, rfl, -⟩ := exists_cut hmem
  rw [List.append_cons] at hy hr hw
  have hleft : (thinkTagPattern isAlnum).erase (outside isAlnum t) = (y ++ (a ++ [greater])) ++ k :=
    hy.symm.trans (List.append_assoc ..).symm
  obtain ⟨v, hv⟩ := exists_keeps hleft
  refine ⟨b', u, hb, name, hname, x, y, a, s', t, v, ?_, hx, ?_, hu, hclosing, hv, ?_⟩
  · obtain ⟨m, hm, hletters⟩ := readLetters_eq_some.1 hr
    rw [← hy, ← List.append_assoc] at hm
    rwa [List.append_cancel_right hm]
  · rintro rfl
    exact hne (by rw [List.append_cons, ← hy, List.nil_append])
  · rwa [List.head?_append_of_ne_nil _ (by simp)] at hw

end Passes

/-- **No tag is left of a text if and only if no closing tag stands between the letters of another tag.** -/
theorem thinkFree_iff (isAlnum : PyChar → Bool) (text : Str) : ThinkFree isAlnum text ↔ ¬ Interrupted isAlnum text := by
  have hleft : (thinkTagPattern isAlnum).NoMatch (stripThink isAlnum text) ↔ ¬ Interrupted isAlnum text := by
    rw [stripThink, noMatch_strip]
    refine ⟨fun hno h => not_noMatch_of_interrupted h hno, fun h => noMatch_erase_iff.2 fun hjoins => ?_⟩
    exact h (interrupted_of_joinsTag hjoins)
  constructor
  · exact fun h => hleft.1 h.1
  · intro h
    refine ⟨hleft.2 h, ?_⟩
    rw [stripThink_of_noMatch (hleft.2 h), stripThink, Str.strip_strip]

/-- The halves of a closing tag around another one. -/
theorem not_thinkFree_of_halves : stripThink (fun _ => false) (str "</th</think>ink>") = str "</think>" ∧
    ¬ ThinkFree (fun _ => false) (str "</th</think>ink>") := by
  refine ⟨by decide +kernel, ?_⟩
  rintro ⟨-, htwice⟩
  revert htwice
  decide +kernel

end SharedAi.Llm
