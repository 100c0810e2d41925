import SharedAi.Text.Codec

/-!
# Generic URIs

The syntax of RFC 3986, as far as it does not look into the parts.

* `Reference.split` — the five parts of a reference (appendix B);
* `split_append` — a path goes on with what is appended to a reference that has no `?` and no `#`;
* `segments`, `pathOf` — the segments of an absolute path;
* `removeDotSegments` — the removal of dot segments (5.2.4), which `removeDotSegments_pathOf` shows to be `resolve`,
  a walk over the segments;
* `percentDecode`, `Escaped` — percent-encoding.
-/

namespace SharedAi.Net

open SharedAi.Text

def slash : PyChar := .scalar '/'
def colon : PyChar := .scalar ':'
def question : PyChar := .scalar '?'
def numberSign : PyChar := .scalar '#'

/-! ### Parts -/

/-- What precedes the first `c`, and what follows it. -/
def cut (c : PyChar) (s : Str) : Str × Option Str :=
  (s.takeWhile (· != c), match s.dropWhile (· != c) with
    | [] => none
    | _ :: r => some r)

theorem cut_of_not_mem {c : PyChar} {s : Str} (h : c ∉ s) : cut c s = (s, none) := by
  have hall : ∀ x ∈ s, (x != c) = true := fun x hx => bne_iff_ne.2 fun hxc => h (hxc ▸ hx)
  rw [cut, List.takeWhile_eq_self_iff.2 hall, List.dropWhile_eq_nil_iff.2 hall]

theorem cut_append_cons {c : PyChar} {s r : Str} (h : c ∉ s) : cut c (s ++ c :: r) = (s, some r) := by
  have hall : ∀ x ∈ s, (x != c) = true := fun x hx => bne_iff_ne.2 fun hxc => h (hxc ▸ hx)
  rw [cut, List.takeWhile_append_of_pos hall, List.dropWhile_append_of_pos hall]
  simp

theorem not_mem_cut (c : PyChar) (s : Str) : c ∉ (cut c s).1 := by
  intro h
  have hne := List.mem_takeWhile_imp h
  simp at hne

theorem mem_of_mem_cut {c x : PyChar} {s : Str} (h : x ∈ (cut c s).1 ∨ x ∈ (cut c s).2.getD []) : x ∈ s := by
  rcases h with h | h
  · exact (List.takeWhile_prefix _).subset h
  · apply (List.dropWhile_suffix (· != c)).subset
    unfold cut at h
    dsimp only at h
    split at h
    · cases h
    · next y r hr =>
      rw [hr]
      exact List.mem_cons_of_mem y h

/-- A text that holds `c` is cut at its first one. -/
theorem exists_cut {c : PyChar} {s : Str} (h : c ∈ s) : ∃ p r, s = p ++ c :: r ∧ c ∉ p := by
  obtain ⟨p, r, rfl, hp⟩ := List.eq_append_cons_of_mem h
  exact ⟨p, r, rfl, hp⟩

theorem cut_eq_some {c : PyChar} {s r : Str} : (cut c s).2 = some r ↔ ∃ p, s = p ++ c :: r ∧ c ∉ p := by
  constructor
  · intro h
    by_cases hc : c ∈ s
    · obtain ⟨p, r', rfl, hp⟩ := exists_cut hc
      rw [cut_append_cons hp] at h
      cases h
      exact ⟨p, rfl, hp⟩
    · rw [cut_of_not_mem hc] at h
      cases h
  · rintro ⟨p, rfl, hp⟩
    rw [cut_append_cons hp]

/-- The first `c` of a text that goes on stays where it is. -/
theorem exists_of_append_eq {c : PyChar} {s t o r : Str} (h : s ++ t = o ++ c :: r) (ho : c ∉ o) (hs : c ∈ s) :
    ∃ q, s = o ++ c :: q ∧ r = q ++ t := by
  obtain ⟨p, q, rfl, hp⟩ := exists_cut hs
  have hleft := cut_append_cons hp (r := q ++ t)
  rw [← List.cons_append, ← List.append_assoc, h, cut_append_cons ho] at hleft
  obtain ⟨rfl, hr⟩ := Prod.mk.inj hleft
  exact ⟨q, rfl, Option.some.inj hr⟩

/-- What follows a later `c` ends what follows the first one. -/
theorem suffix_of_append_eq {c : PyChar} {p o r w : Str} (h : p ++ c :: r = o ++ c :: w) (ho : c ∉ o) : r <:+ w := by
  rcases List.append_eq_append_iff.1 h with ⟨a, rfl, hr⟩ | ⟨a, -, hw⟩
  · rcases a with - | ⟨d, a⟩
    · obtain ⟨-, rfl⟩ := List.cons.inj hr
      exact List.suffix_rfl
    · obtain ⟨rfl, -⟩ := List.cons.inj hr
      exact absurd (by simp) ho
  · rcases a with - | ⟨d, a⟩
    · obtain ⟨-, rfl⟩ := List.cons.inj hw
      exact List.suffix_rfl
    · obtain ⟨-, rfl⟩ := List.cons.inj hw
      exact (List.suffix_cons c r).trans (List.suffix_append a _)

structure Reference where
  scheme : Option Str
  authority : Option Str
  path : Str
  query : Option Str
  fragment : Option Str
  deriving DecidableEq

namespace Reference

/-- `([^:/?#]+:)?` of a text without `?` and `#`. -/
def splitScheme (s : Str) : Option Str × Str :=
  match cut colon s with
  | (p, some r) => if p = [] ∨ slash ∈ p then (none, s) else (some p, r)
  | (_, none) => (none, s)

/-- `(//[^/?#]*)?[^?#]*` of a text without `?` and `#`. -/
def splitAuthority (s : Str) : Option Str × Str :=
  match s with
  | .scalar '/' :: .scalar '/' :: r => (some (r.takeWhile (· != slash)), r.dropWhile (· != slash))
  | _ => (none, s)

/-- `^(([^:/?#]+):)?(//([^/?#]*))?([^?#]*)(\\?([^#]*))?(#(.*))?`. -/
def split (s : Str) : Reference :=
  let f := cut numberSign s
  let q := cut question f.1
  let p := splitScheme q.1
  let a := splitAuthority p.2
  ⟨p.1, a.1, a.2, q.2, f.2⟩

end Reference

/-! ### Appending a path -/

def Rooted (p : Str) : Prop := p = [] ∨ ∃ r, p = slash :: r

theorem Rooted.of_prefix {p q : Str} (h : Rooted p) (hq : q <+: p) : Rooted q := by
  obtain ⟨t, rfl⟩ := hq
  rcases q with - | ⟨c, q⟩
  · exact .inl rfl
  · rcases h with hp | ⟨r, hp⟩
    · cases hp
    · cases hp
      exact .inr ⟨q, rfl⟩

theorem takeWhile_append_slash (s e : Str) :
    (s ++ slash :: e).takeWhile (· != slash) = s.takeWhile (· != slash) ∧
      (s ++ slash :: e).dropWhile (· != slash) = s.dropWhile (· != slash) ++ slash :: e := by
  induction s with
  | nil => simp
  | cons c s ih =>
    by_cases hc : c = slash
    · simp [hc]
    · simp [hc, ih]

theorem rooted_dropWhile (s : Str) : Rooted (s.dropWhile (· != slash)) := by
  induction s with
  | nil => exact .inl rfl
  | cons c s ih =>
    by_cases hc : c = slash
    · subst hc
      exact .inr ⟨s, by simp⟩
    · simpa [hc] using ih

theorem splitScheme_append (s e : Str) :
    Reference.splitScheme (s ++ slash :: e) =
      ((Reference.splitScheme s).1, (Reference.splitScheme s).2 ++ slash :: e) := by
  by_cases hs : colon ∈ s
  · obtain ⟨p, r, rfl, hp⟩ := exists_cut hs
    have happend : p ++ colon :: r ++ slash :: e = p ++ colon :: (r ++ slash :: e) := by simp
    simp only [Reference.splitScheme, happend, cut_append_cons hp]
    split <;> simp
  · have hnone : Reference.splitScheme s = (none, s) := by rw [Reference.splitScheme, cut_of_not_mem hs]
    rw [hnone]
    by_cases he : colon ∈ e
    · obtain ⟨p, r, rfl, hp⟩ := exists_cut he
      have happend : s ++ slash :: (p ++ colon :: r) = (s ++ slash :: p) ++ colon :: r := by simp
      have hnot : colon ∉ s ++ slash :: p := by
        simp only [List.mem_append, List.mem_cons, not_or]
        exact ⟨hs, by decide, hp⟩
      rw [Reference.splitScheme, happend, cut_append_cons hnot]
      simp
    · have hnot : colon ∉ s ++ slash :: e := by
        simp only [List.mem_append, List.mem_cons, not_or]
        exact ⟨hs, by decide, he⟩
      rw [Reference.splitScheme, cut_of_not_mem hnot]

theorem splitAuthority_append {s : Str} (h : (Reference.splitAuthority s).1.isSome) (e : Str) :
    Reference.splitAuthority (s ++ slash :: e) =
      ((Reference.splitAuthority s).1, (Reference.splitAuthority s).2 ++ slash :: e) := by
  unfold Reference.splitAuthority at h ⊢
  split at h
  · next r =>
    obtain ⟨htake, hdrop⟩ := takeWhile_append_slash r e
    simp only [List.cons_append, htake, hdrop]
  · cases h

theorem splitAuthority_rooted {s : Str} (h : (Reference.splitAuthority s).1.isSome) :
    Rooted (Reference.splitAuthority s).2 := by
  unfold Reference.splitAuthority at h ⊢
  split at h
  · exact rooted_dropWhile _
  · cases h

theorem split_rooted {b : Str} (h : (Reference.split b).authority.isSome) : Rooted (Reference.split b).path :=
  splitAuthority_rooted h

/-- Without `?` and `#`, a reference is its scheme, its authority and its path. -/
theorem split_of_plain {b : Str} (hq : question ∉ b) (hf : numberSign ∉ b) :
    Reference.split b =
      ⟨(Reference.splitScheme b).1, (Reference.splitAuthority (Reference.splitScheme b).2).1,
        (Reference.splitAuthority (Reference.splitScheme b).2).2, none, none⟩ := by
  simp only [Reference.split, cut_of_not_mem hf, cut_of_not_mem hq]

/-- **A path goes on with what is appended.** -/
theorem split_append {b e : Str} (hb : question ∉ b ∧ numberSign ∉ b) (he : question ∉ e ∧ numberSign ∉ e)
    (ha : (Reference.split b).authority.isSome) :
    Reference.split (b ++ slash :: e) =
      { Reference.split b with path := (Reference.split b).path ++ slash :: e } := by
  have hq : question ∉ b ++ slash :: e := by
    simp only [List.mem_append, List.mem_cons, not_or]
    exact ⟨hb.1, by decide, he.1⟩
  have hf : numberSign ∉ b ++ slash :: e := by
    simp only [List.mem_append, List.mem_cons, not_or]
    exact ⟨hb.2, by decide, he.2⟩
  rw [split_of_plain hb.1 hb.2] at ha ⊢
  rw [split_of_plain hq hf, splitScheme_append, splitAuthority_append ha]

/-- What is appended to a query or a fragment does not reach the path. -/
theorem split_append_of_mem {b : Str} (hb : question ∈ b ∨ numberSign ∈ b) (e : Str) :
    (Reference.split (b ++ e)).path = (Reference.split b).path := by
  by_cases hf : numberSign ∈ b
  · obtain ⟨p, r, rfl, hp⟩ := exists_cut hf
    have happend : p ++ numberSign :: r ++ e = p ++ numberSign :: (r ++ e) := by simp
    simp only [Reference.split, happend, cut_append_cons hp]
  · obtain ⟨p, r, rfl, hp⟩ := exists_cut (hb.resolve_right hf)
    have hcut : ∃ r', (cut numberSign (p ++ question :: r ++ e)).1 = p ++ question :: r' := by
      refine ⟨(cut numberSign (r ++ e)).1, ?_⟩
      have hpos : ∀ c ∈ p ++ [question], (c != numberSign) = true := by
        intro c hc
        apply bne_iff_ne.2
        rintro rfl
        apply hf
        rcases List.mem_append.1 hc with hc | hc
        · exact List.mem_append_left _ hc
        · cases List.mem_singleton.1 hc
      have happend : p ++ question :: r ++ e = (p ++ [question]) ++ (r ++ e) := by simp
      show (p ++ question :: r ++ e).takeWhile (· != numberSign) = p ++ question :: (r ++ e).takeWhile (· != numberSign)
      rw [happend, List.takeWhile_append_of_pos hpos]
      simp
    obtain ⟨r', hr'⟩ := hcut
    simp only [Reference.split, hr', cut_of_not_mem hf, cut_append_cons hp]

/-! ### Segments -/

def segments : Str → List Str
  | [] => []
  | _ :: p => p.splitOn slash

def pathOf (segs : List Str) : Str := segs.flatMap (slash :: ·)

@[simp] theorem pathOf_nil : pathOf [] = [] := rfl

@[simp] theorem pathOf_cons (s : Str) (segs : List Str) : pathOf (s :: segs) = slash :: (s ++ pathOf segs) := rfl

@[simp] theorem pathOf_append (xs ys : List Str) : pathOf (xs ++ ys) = pathOf xs ++ pathOf ys := List.flatMap_append

theorem forall_mem_pathOf {P : PyChar → Prop} (h : P slash) {segs : List Str} :
    (∀ c ∈ pathOf segs, P c) ↔ ∀ s ∈ segs, ∀ c ∈ s, P c := by
  induction segs with
  | nil => simp
  | cons s segs ih =>
    rw [pathOf_cons, List.forall_mem_cons, List.forall_mem_append, List.forall_mem_cons, ih]
    exact and_iff_right h

theorem rooted_pathOf (segs : List Str) : Rooted (pathOf segs) := by
  rcases segs with - | ⟨s, segs⟩
  · exact .inl rfl
  · exact .inr ⟨_, rfl⟩

theorem splitOn_pathOf {s : Str} {segs : List Str} (hs : slash ∉ s) (h : ∀ t ∈ segs, slash ∉ t) :
    (s ++ pathOf segs).splitOn slash = s :: segs := by
  induction segs generalizing s with
  | nil => simpa using List.splitOn_eq_singleton hs
  | cons t segs ih =>
    rw [pathOf_cons, List.splitOn_append_cons_self_of_not_mem hs, ih (h t (List.mem_cons_self ..))]
    exact fun u hu => h u (List.mem_cons_of_mem _ hu)

/-- A path is taken apart into the segments it is made of. -/
theorem segments_pathOf {segs : List Str} (h : ∀ s ∈ segs, slash ∉ s) : segments (pathOf segs) = segs := by
  rcases segs with - | ⟨s, segs⟩
  · rfl
  · exact splitOn_pathOf (h s (List.mem_cons_self ..)) fun t ht => h t (List.mem_cons_of_mem _ ht)

theorem exists_segments_aux (p : Str) : ∃ s segs, slash ∉ s ∧ (∀ t ∈ segs, slash ∉ t) ∧ p = s ++ pathOf segs := by
  induction p with
  | nil => exact ⟨[], [], by simp, by simp, rfl⟩
  | cons c p ih =>
    obtain ⟨s, segs, hs, hsegs, rfl⟩ := ih
    by_cases hc : c = slash
    · subst hc
      refine ⟨[], s :: segs, by simp, ?_, rfl⟩
      simpa using ⟨hs, hsegs⟩
    · exact ⟨c :: s, segs, by simpa [Ne.symm hc] using hs, hsegs, rfl⟩

/-- Every absolute path is made of segments. -/
theorem exists_segments {p : Str} (h : Rooted p) : ∃ segs, (∀ s ∈ segs, slash ∉ s) ∧ p = pathOf segs := by
  rcases h with rfl | ⟨r, rfl⟩
  · exact ⟨[], by simp, rfl⟩
  · obtain ⟨s, segs, hs, hsegs, rfl⟩ := exists_segments_aux r
    exact ⟨s :: segs, by simpa using ⟨hs, hsegs⟩, rfl⟩

/-! ### Dot segments -/

def dropSegment (out : Str) : Str := (out.rdropWhile (· != slash)).dropLast

/-- The loop of `remove_dot_segments`, with at most `n` rounds. -/
def removeDotsFrom : ℕ → Str → Str → Str
  | 0, out, _ => out
  | n + 1, out, s =>
    if s = [] then out
    else if (str "../").isPrefixOf s then removeDotsFrom n out (s.drop 3)
    else if (str "./").isPrefixOf s then removeDotsFrom n out (s.drop 2)
    else if (str "/./").isPrefixOf s then removeDotsFrom n out (s.drop 2)
    else if s = str "/." then removeDotsFrom n out (str "/")
    else if (str "/../").isPrefixOf s then removeDotsFrom n (dropSegment out) (s.drop 3)
    else if s = str "/.." then removeDotsFrom n (dropSegment out) (str "/")
    else if s = str "." ∨ s = str ".." then out
    else
      let rest := (s.drop 1).dropWhile (· != slash)
      removeDotsFrom n (out ++ s.take 1 ++ (s.drop 1).takeWhile (· != slash)) rest

/-- `remove_dot_segments`: every round shortens the input. -/
def removeDotSegments (s : Str) : Str := removeDotsFrom s.length [] s

example : removeDotSegments (str "/a/b/c/./../../g") = str "/a/g" := by decide +kernel

def isDots (s : Str) : Bool := s == str "." || s == str ".."

def push (out : List Str) (s : Str) : List Str :=
  if s = str "." then out else if s = str ".." then out.dropLast else out ++ [s]

/-- The segments of a path that others follow. -/
def walk (segs : List Str) : List Str := segs.foldl push []

/-- A dot segment at the end leaves an empty one. -/
def trailing (segs : List Str) : List Str := if segs.getLast?.any isDots then [[]] else []

/-- The segments of a path without its dot segments. -/
def resolve (segs : List Str) : List Str := walk segs ++ trailing segs

theorem dropSegment_pathOf {out : List Str} (h : ∀ s ∈ out, slash ∉ s) :
    dropSegment (pathOf out) = pathOf out.dropLast := by
  rcases List.eq_nil_or_concat out with rfl | ⟨init, s, rfl⟩
  · rfl
  · have hs : ∀ c ∈ s, (c != slash) = true := by
      intro c hc
      apply bne_iff_ne.2
      rintro rfl
      exact h s (by simp) hc
    have hdrop : (pathOf init ++ slash :: s).rdropWhile (· != slash) = pathOf init ++ [slash] := by
      have happend : pathOf init ++ slash :: s = (pathOf init ++ [slash]) ++ s := by simp
      rw [happend, List.rdropWhile, List.reverse_append, List.dropWhile_append_of_pos]
      · simp
      · simpa using hs
    simp only [List.concat_eq_append, pathOf_append, pathOf_cons, pathOf_nil, List.append_nil, dropSegment, hdrop,
      List.dropLast_concat]

theorem push_slash {out : List Str} {s : Str} (h : ∀ t ∈ out, slash ∉ t) (hs : slash ∉ s) :
    ∀ t ∈ push out s, slash ∉ t := by
  intro t ht
  unfold push at ht
  split at ht
  · exact h t ht
  split at ht
  · exact h t (List.dropLast_subset _ ht)
  · rcases List.mem_append.1 ht with ht | ht
    · exact h t ht
    · rw [List.mem_singleton.1 ht]
      exact hs

/-- A segment, followed by the end or by a slash, that a dot segment with a slash begins, is the dot segment. -/
theorem isPrefixOf_slash (d : Str) (s r : Str) (hd : slash ∉ d) (hs : slash ∉ s) (hr : Rooted r)
    (h : (d ++ [slash]).isPrefixOf (s ++ r) = true ∨ s ++ r = d) : s = d := by
  induction d generalizing s with
  | nil =>
    rcases s with - | ⟨c, s⟩
    · rfl
    · rcases h with h | h
      · have hc : slash = c := by simpa [List.isPrefixOf] using h
        exact absurd (hc ▸ List.mem_cons_self ..) hs
      · cases h
  | cons a d ih =>
    rcases s with - | ⟨c, s⟩
    · rcases hr with rfl | ⟨r, rfl⟩
      · rcases h with h | h
        · cases h
        · cases h
      · have ha : a = slash := by
          rcases h with h | h
          · simp only [List.cons_append, List.nil_append, List.isPrefixOf, Bool.and_eq_true, beq_iff_eq] at h
            exact h.1
          · exact (List.cons.inj h).1.symm
        exact absurd (ha ▸ List.mem_cons_self ..) hd
    · have hd' : slash ∉ d := fun h => hd (List.mem_cons_of_mem _ h)
      have hs' : slash ∉ s := fun h => hs (List.mem_cons_of_mem _ h)
      have hc : a = c ∧ s = d := by
        rcases h with h | h
        · simp only [List.cons_append, List.isPrefixOf, Bool.and_eq_true, beq_iff_eq] at h
          exact ⟨h.1, ih s hd' hs' (.inl h.2)⟩
        · obtain ⟨rfl, htail⟩ := List.cons.inj h
          exact ⟨rfl, ih s hd' hs' (.inr htail)⟩
      rw [hc.1, hc.2]

/-- A segment is moved to the output as it is, unless it is a dot segment. -/
theorem removeDotsFrom_move {n : ℕ} {out : Str} {s : Str} {segs : List Str} (hs : slash ∉ s) (hd : isDots s = false) :
    removeDotsFrom (n + 1) out (pathOf (s :: segs)) = removeDotsFrom n (out ++ slash :: s) (pathOf segs) := by
  have hr := rooted_pathOf segs
  simp only [isDots, Bool.or_eq_false_iff, beq_eq_false_iff_ne] at hd
  have hone := fun h => hd.1 (isPrefixOf_slash (str ".") s _ (by decide) hs hr h)
  have htwo := fun h => hd.2 (isPrefixOf_slash (str "..") s _ (by decide) hs hr h)
  have hall : ∀ c ∈ s, (c != slash) = true := fun c hc => bne_iff_ne.2 fun h => hs (h ▸ hc)
  have htail : (pathOf segs).takeWhile (· != slash) = [] ∧ (pathOf segs).dropWhile (· != slash) = pathOf segs := by
    rcases hr with h | ⟨r, h⟩
    · simp [h]
    · simp [h]
  rw [pathOf_cons, removeDotsFrom, if_neg (List.cons_ne_nil _ _), if_neg (by simp [str, List.isPrefixOf, slash]),
    if_neg (by simp [str, List.isPrefixOf, slash]), if_neg, if_neg, if_neg, if_neg, if_neg]
  · simp only [List.take_succ_cons, List.take_zero, List.drop_succ_cons, List.drop_zero,
      List.takeWhile_append_of_pos hall, List.dropWhile_append_of_pos hall, htail, List.append_nil]
    simp
  · rintro (h | h) <;> cases h
  · exact fun h => htwo (.inr (List.cons.inj h).2)
  · intro h
    exact htwo (.inl (by simpa [str, List.isPrefixOf, slash] using h))
  · exact fun h => hone (.inr (List.cons.inj h).2)
  · intro h
    exact hone (.inl (by simpa [str, List.isPrefixOf, slash] using h))
theorem trailing_cons_cons (s t : Str) (segs : List Str) : trailing (s :: t :: segs) = trailing (t :: segs) := by
  simp [trailing, List.getLast?_cons_cons]

/-- What is left of a path that ends in a dot segment: a slash. -/
theorem removeDotsFrom_slash {n : ℕ} {out : Str} : removeDotsFrom (n + 1) out (str "/") = out ++ str "/" := by
  have h : removeDotsFrom (n + 1) out (pathOf [[]]) = removeDotsFrom n (out ++ [slash]) (pathOf []) :=
    removeDotsFrom_move (by simp) (by decide)
  refine h.trans ?_
  rcases n with - | n <;> rfl

/-- **The loop walks over the segments.** -/
theorem removeDotsFrom_pathOf {segs : List Str} : ∀ {n : ℕ} {out : List Str}, (∀ s ∈ segs, slash ∉ s) →
    (∀ s ∈ out, slash ∉ s) → (pathOf segs).length ≤ n →
    removeDotsFrom n (pathOf out) (pathOf segs) = pathOf (segs.foldl push out ++ trailing segs) := by
  induction segs with
  | nil =>
    intro n out _ _ _
    rcases n with - | n <;> simp [removeDotsFrom, trailing]
  | cons s segs ih =>
    intro n out h hout hn
    have hs := h s (List.mem_cons_self ..)
    have hsegs := fun t ht => h t (List.mem_cons_of_mem s ht)
    rw [pathOf_cons, List.length_cons, List.length_append] at hn
    obtain ⟨n, rfl⟩ : ∃ m, n = m + 1 := ⟨n - 1, by omega⟩
    have ih := ih (n := n) hsegs (push_slash hout hs) (by omega)
    rw [List.foldl_cons]
    by_cases hd : isDots s = false
    · have hnot : s ≠ str "." ∧ s ≠ str ".." := by simpa [isDots] using hd
      have hstep : push out s = out ++ [s] := by rw [push, if_neg hnot.1, if_neg hnot.2]
      have htrailing : trailing (s :: segs) = trailing segs := by
        rcases segs with - | ⟨t, segs⟩
        · simp [trailing, hd]
        · exact trailing_cons_cons s t segs
      rw [removeDotsFrom_move hs hd, htrailing, ← ih, hstep]
      simp
    · -- a dot segment is replaced by a slash at the end, and by nothing before another segment
      rw [Bool.not_eq_false, isDots, Bool.or_eq_true, beq_iff_eq, beq_iff_eq] at hd
      rcases segs with - | ⟨t, segs⟩
      · obtain ⟨n, rfl⟩ : ∃ m, n = m + 1 := by
          refine ⟨n - 1, ?_⟩
          rcases hd with rfl | rfl <;> simp [str] at hn <;> omega
        have htrailing : trailing [s] = [[]] := by rcases hd with rfl | rfl <;> rfl
        rw [htrailing, List.foldl_nil, pathOf_append, pathOf_cons, pathOf_cons, pathOf_nil]
        rcases hd with rfl | rfl
        · exact removeDotsFrom_slash
        · have hdrop := dropSegment_pathOf hout
          show removeDotsFrom (n + 1) (dropSegment (pathOf out)) (str "/") = _
          rw [hdrop]
          exact removeDotsFrom_slash
      · rw [trailing_cons_cons, ← ih]
        rcases hd with rfl | rfl
        · rfl
        · show removeDotsFrom n (dropSegment (pathOf out)) (pathOf (t :: segs)) = _
          rw [dropSegment_pathOf hout]
          rfl

theorem removeDotSegments_pathOf {segs : List Str} (h : ∀ s ∈ segs, slash ∉ s) :
    removeDotSegments (pathOf segs) = pathOf (resolve segs) := by
  have hnil : ∀ s ∈ ([] : List Str), slash ∉ s := nofun
  exact removeDotsFrom_pathOf h hnil le_rfl

/-! ### Walks -/

theorem foldl_push_of_plain {segs : List Str} (h : ∀ s ∈ segs, isDots s = false) (out : List Str) :
    segs.foldl push out = out ++ segs := by
  induction segs generalizing out with
  | nil => simp
  | cons s segs ih =>
    have hs : s ≠ str "." ∧ s ≠ str ".." := by simpa [isDots] using h s (List.mem_cons_self ..)
    rw [List.foldl_cons, push, if_neg hs.1, if_neg hs.2, ih fun t ht => h t (List.mem_cons_of_mem _ ht)]
    simp

theorem walk_append (xs ys : List Str) : walk (xs ++ ys) = ys.foldl push (walk xs) := List.foldl_append

theorem trailing_append_of_plain {xs ys : List Str} (h : ∀ s ∈ ys, isDots s = false) (hne : ys ≠ []) :
    trailing (xs ++ ys) = [] := by
  have hlast : isDots (ys.getLast hne) = false := h _ (List.getLast_mem hne)
  simp [trailing, List.getLast?_append, List.getLast?_eq_some_getLast hne, hlast]

/-- Segments without dot segments stay as they are behind any others. -/
theorem resolve_append_of_plain {xs ys : List Str} (h : ∀ s ∈ ys, isDots s = false) (hne : ys ≠ []) :
    resolve (xs ++ ys) = walk xs ++ ys := by
  rw [resolve, trailing_append_of_plain h hne, walk_append, foldl_push_of_plain h, List.append_nil]

theorem length_push_of_dots {out : List Str} {s : Str} (h : isDots s = true) : (push out s).length ≤ out.length := by
  simp only [isDots, Bool.or_eq_true, beq_iff_eq] at h
  unfold push
  split
  · exact le_rfl
  · rw [if_pos (h.resolve_left ‹_›), List.length_dropLast]
    omega

/-- Without a dot segment at the end nothing is added. -/
theorem trailing_eq (segs : List Str) : trailing segs = [] ∨ trailing segs = [[]] := by
  unfold trailing
  split
  · exact .inr rfl
  · exact .inl rfl

theorem slash_not_mem_walk {segs : List Str} (h : ∀ s ∈ segs, slash ∉ s) : ∀ s ∈ walk segs, slash ∉ s := by
  have key : ∀ out : List Str, (∀ s ∈ out, slash ∉ s) → ∀ s ∈ segs.foldl push out, slash ∉ s := by
    induction segs with
    | nil => exact fun out hout => hout
    | cons s segs ih =>
      intro out hout
      exact ih (fun t ht => h t (List.mem_cons_of_mem _ ht)) _ (push_slash hout (h s (List.mem_cons_self ..)))
  exact key [] (by simp)

theorem slash_not_mem_resolve {segs : List Str} (h : ∀ s ∈ segs, slash ∉ s) : ∀ s ∈ resolve segs, slash ∉ s := by
  intro s hs
  rcases List.mem_append.1 hs with hs | hs
  · exact slash_not_mem_walk h s hs
  · rcases trailing_eq segs with ht | ht
    · rw [ht] at hs
      cases hs
    · rw [ht, List.mem_singleton] at hs
      rw [hs]
      exact List.not_mem_nil

/-- The segments that are left of those of a path. -/
theorem segments_removeDotSegments {segs : List Str} (h : ∀ s ∈ segs, slash ∉ s) :
    segments (removeDotSegments (pathOf segs)) = resolve segs := by
  rw [removeDotSegments_pathOf h, segments_pathOf (slash_not_mem_resolve h)]

/-! ### Percent-encoding -/

def percent : PyChar := .scalar '%'

def hexValue (c : PyChar) : Option ℕ :=
  if c.isDigit then some (c.ord - 48)
  else if 0x41 ≤ c.ord ∧ c.ord ≤ 0x46 then some (c.ord - 55)
  else if 0x61 ≤ c.ord ∧ c.ord ≤ 0x66 then some (c.ord - 87) else none

/-- The bytes that a part of a URI stands for. -/
def percentDecode : Str → Option Bytes
  | [] => some []
  | c :: s =>
    if c = percent then
      match s with
      | a :: b :: s => do
        let x ← hexValue a
        let y ← hexValue b
        (percentDecode s).map (UInt8.ofNat (x * 16 + y) :: ·)
      | _ => none
    else if c.isAscii then (percentDecode s).map (UInt8.ofNat c.ord :: ·) else none

/-- Letters, digits, `-`, `.`, `_` and `~`. -/
def unreserved (c : PyChar) : Bool := c.isUpper || c.isLower || c.isDigit || (str "_.-~").contains c

def escaped : Str → Bool
  | [] => true
  | c :: s =>
    if c = percent then
      match s with
      | a :: b :: s => (hexValue a).isSome && (hexValue b).isSome && escaped s
      | _ => false
    else unreserved c && escaped s

theorem percentDecode_cons {c : PyChar} (h : c ≠ percent) (s : Str) :
    percentDecode (c :: s) = if c.isAscii then (percentDecode s).map (UInt8.ofNat c.ord :: ·) else none := by
  rcases s with - | ⟨a, - | ⟨b, s⟩⟩ <;> simp [percentDecode, h]

theorem escaped_cons {c : PyChar} (h : c ≠ percent) (s : Str) : escaped (c :: s) = (unreserved c && escaped s) := by
  rcases s with - | ⟨a, - | ⟨b, s⟩⟩ <;> simp [escaped, h]

end SharedAi.Net
