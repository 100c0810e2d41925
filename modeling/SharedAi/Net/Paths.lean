import SharedAi.Net.Uri

/-!
# Texts in paths

A text that is put into the path of a URL as it is, and what a server finds there.

* `beforeQuery`, `path_append` — how far a path goes on with a text;
* `unquote`, `hasEscape` — the bytes of a text in which escapes are read;
* `exists_pieces` — the segments that a text adds to a path are parts of it;
* `getElem?_resolve_append` — a segment behind a base path is one of those added;
* `eq_of_unquote` — a part of a text that stands for the text is the text, and has no escape;
* `Names`, `names_iff` — when the path that is requested names what its segments are made for.
-/

namespace SharedAi.Net

open SharedAi.Text

/-! ### How far a path goes on -/

def inPath (c : PyChar) : Bool := c != question && c != numberSign

def beforeQuery (s : Str) : Str := s.takeWhile inPath

theorem inPath_iff {c : PyChar} : inPath c = true ↔ c ≠ question ∧ c ≠ numberSign := by simp [inPath]

theorem forall_inPath_iff {s : Str} : (∀ c ∈ s, inPath c = true) ↔ question ∉ s ∧ numberSign ∉ s := by
  simp only [inPath_iff]
  constructor
  · exact fun h => ⟨fun hq => (h _ hq).1 rfl, fun hf => (h _ hf).2 rfl⟩
  · rintro ⟨hq, hf⟩ c hc
    exact ⟨fun h => hq (h ▸ hc), fun h => hf (h ▸ hc)⟩

theorem inPath_of_mem_beforeQuery {s : Str} {c : PyChar} (h : c ∈ beforeQuery s) : inPath c = true :=
  List.mem_takeWhile_imp h

theorem beforeQuery_append {b : Str} (hb : question ∉ b ∧ numberSign ∉ b) (e : Str) :
    beforeQuery (b ++ e) = b ++ beforeQuery e :=
  List.takeWhile_append_of_pos (forall_inPath_iff.2 hb)

theorem beforeQuery_cons_slash (e : Str) : beforeQuery (slash :: e) = slash :: beforeQuery e :=
  List.takeWhile_cons_of_pos (by decide)

theorem beforeQuery_beforeQuery (s : Str) : beforeQuery (beforeQuery s) = beforeQuery s := by
  simp [beforeQuery, List.takeWhile_takeWhile]

theorem split_path (s : Str) : (Reference.split s).path =
    (Reference.splitAuthority (Reference.splitScheme (beforeQuery s)).2).2 := by
  have hcut : (cut question (cut numberSign s).1).1 = beforeQuery s := by
    simp only [cut, List.takeWhile_takeWhile, beforeQuery]
    congr 1
    funext c
    rw [Bool.eq_iff_iff]
    simp [inPath]
  rw [← hcut]
  rfl

/-- **A path goes on with a text up to its query.** -/
theorem path_append {b : Str} (hb : question ∉ b ∧ numberSign ∉ b) (ha : (Reference.split b).authority.isSome)
    (e : Str) : (Reference.split (b ++ slash :: e)).path = (Reference.split b).path ++ slash :: beforeQuery e := by
  have he : question ∉ beforeQuery e ∧ numberSign ∉ beforeQuery e :=
    forall_inPath_iff.1 fun c hc => inPath_of_mem_beforeQuery hc
  have hcut : beforeQuery (b ++ slash :: beforeQuery e) = beforeQuery (b ++ slash :: e) := by
    rw [beforeQuery_append hb, beforeQuery_append hb, beforeQuery_cons_slash, beforeQuery_cons_slash,
      beforeQuery_beforeQuery]
  rw [split_path, ← hcut, ← split_path, split_append hb he ha]

theorem not_mem_pathOf {segs : List Str} (h : ∀ s ∈ segs, question ∉ s ∧ numberSign ∉ s) :
    question ∉ pathOf segs ∧ numberSign ∉ pathOf segs := by
  refine forall_inPath_iff.1 fun c hc => ?_
  obtain ⟨s, hs, hc⟩ := List.mem_flatMap.1 hc
  rcases List.mem_cons.1 hc with rfl | hc
  · decide
  · exact forall_inPath_iff.2 (h s hs) c hc

theorem path_append_pathOf {b : Str} (hb : question ∉ b ∧ numberSign ∉ b) (ha : (Reference.split b).authority.isSome)
    {segs : List Str} (hne : segs ≠ []) :
    (Reference.split (b ++ pathOf segs)).path = (Reference.split b).path ++ beforeQuery (pathOf segs) := by
  rcases segs with - | ⟨s, segs⟩
  · exact absurd rfl hne
  · rw [pathOf_cons, path_append hb ha, beforeQuery_cons_slash]

/-- The segments of a path into which a text is put, between others: the others, and parts of the text. -/
theorem exists_pieces {xs ys : List Str} {x : Str}
    (h : ∀ s ∈ xs ++ ys, slash ∉ s ∧ question ∉ s ∧ numberSign ∉ s) :
    ∃ ts, beforeQuery (pathOf (xs ++ x :: ys)) = pathOf ts ∧
      ∀ t ∈ ts, slash ∉ t ∧ (question ∉ t ∧ numberSign ∉ t) ∧ (t ∈ xs ++ ys ∨ t <:+: x) := by
  have hxs : question ∉ pathOf xs ∧ numberSign ∉ pathOf xs :=
    not_mem_pathOf fun s hs => (h s (List.mem_append_left _ hs)).2
  have hys : question ∉ pathOf ys ∧ numberSign ∉ pathOf ys :=
    not_mem_pathOf fun s hs => (h s (List.mem_append_right _ hs)).2
  -- what is left of the text, and the other segments that are left
  obtain ⟨w, zs, hcut, hw, hwx, hzs⟩ : ∃ w zs, beforeQuery (x ++ pathOf ys) = w ++ pathOf zs ∧
      (question ∉ w ∧ numberSign ∉ w) ∧ w <:+: x ∧ zs ⊆ ys := by
    by_cases hx : question ∉ x ∧ numberSign ∉ x
    · refine ⟨x, ys, ?_, hx, List.infix_rfl, List.Subset.refl ys⟩
      rw [beforeQuery_append hx, ← List.append_nil (pathOf ys), beforeQuery_append hys]
      rfl
    · refine ⟨beforeQuery x, [], ?_, forall_inPath_iff.1 fun c hc => inPath_of_mem_beforeQuery hc,
        (List.takeWhile_prefix _).isInfix, List.nil_subset ys⟩
      have hlength : ((x.takeWhile inPath).length = x.length) ↔ False := by
        rw [iff_false]
        intro hl
        have hall := List.takeWhile_eq_self_iff.1 ((List.takeWhile_prefix inPath).eq_of_length hl)
        exact hx (forall_inPath_iff.1 hall)
      simp [beforeQuery, List.takeWhile_append, hlength]
  obtain ⟨s, segs, hs, hsegs, rfl⟩ := exists_segments_aux w
  refine ⟨xs ++ s :: (segs ++ zs), ?_, fun t ht => ?_⟩
  · rw [pathOf_append, beforeQuery_append hxs, pathOf_cons, beforeQuery_cons_slash, hcut]
    simp
  · have hparts : ∀ t ∈ s :: segs, slash ∉ t ∧ (question ∉ t ∧ numberSign ∉ t) ∧ t <:+: x := by
      intro t ht
      have hwithin : t <:+: s ++ pathOf segs := by
        rcases List.mem_cons.1 ht with rfl | ht
        · exact (List.prefix_append ..).isInfix
        · obtain ⟨us, vs, rfl⟩ := List.append_of_mem ht
          exact ⟨s ++ pathOf us ++ [slash], pathOf vs, by simp⟩
      refine ⟨?_, ⟨fun hq => hw.1 (hwithin.subset hq), fun hf => hw.2 (hwithin.subset hf)⟩, hwithin.trans hwx⟩
      rcases List.mem_cons.1 ht with rfl | ht
      · exact hs
      · exact hsegs t ht
    have hothers : ∀ t ∈ xs ++ ys, slash ∉ t ∧ (question ∉ t ∧ numberSign ∉ t) ∧ (t ∈ xs ++ ys ∨ t <:+: x) :=
      fun t ht => ⟨(h t ht).1, (h t ht).2, .inl ht⟩
    rw [List.mem_append, ← List.cons_append, List.mem_append] at ht
    rcases ht with ht | ht | ht
    · exact hothers t (List.mem_append_left _ ht)
    · obtain ⟨hslash, hplain, hwithin⟩ := hparts t ht
      exact ⟨hslash, hplain, .inr hwithin⟩
    · exact hothers t (List.mem_append_right _ (hzs ht))

/-! ### Segments behind a base path -/

theorem getElem?_push {out : List Str} {s z : Str} {i : ℕ} (h : (push out s)[i]? = some z) :
    out[i]? = some z ∨ (z = s ∧ isDots s = false) := by
  unfold push at h
  split at h
  · exact .inl h
  next hdot =>
  split at h
  · rw [List.getElem?_dropLast] at h
    split at h
    · exact .inl h
    · cases h
  next hdots =>
  rw [List.getElem?_append] at h
  split at h
  · exact .inl h
  · exact .inr ⟨List.mem_singleton.1 (List.mem_of_getElem? h), by simp [isDots, hdot, hdots]⟩

/-- A segment of a walk was there before, or has been walked over. -/
theorem getElem?_foldl_push {ts out : List Str} {z : Str} {i : ℕ} (h : (ts.foldl push out)[i]? = some z) :
    out[i]? = some z ∨ (z ∈ ts ∧ isDots z = false) := by
  induction ts generalizing out with
  | nil => exact .inl h
  | cons t ts ih =>
    rcases ih h with h | ⟨hz, hdots⟩
    · rcases getElem?_push h with h | ⟨rfl, hdots⟩
      · exact .inl h
      · exact .inr ⟨List.mem_cons_self .., hdots⟩
    · exact .inr ⟨List.mem_cons_of_mem t hz, hdots⟩

/-- **A segment behind those of a base path is empty or one of those that follow them.** -/
theorem getElem?_resolve_append {segs ts : List Str} {z : Str} {i : ℕ}
    (h : (resolve (segs ++ ts))[(walk segs).length + i]? = some z) : z = [] ∨ (z ∈ ts ∧ isDots z = false) := by
  rw [resolve, walk_append, List.getElem?_append] at h
  split at h
  · rcases getElem?_foldl_push h with h | h
    · simp at h
    · exact .inr h
  · left
    rcases trailing_eq (segs ++ ts) with ht | ht
    · simp [ht] at h
    · rw [ht] at h
      exact List.mem_singleton.1 (List.mem_of_getElem? h)

/-! ### Escapes in a text -/

/-- The byte of an escape with these two characters behind `%`. -/
def escapeValue (a b : PyChar) : Option UInt8 := do
  let x ← hexValue a
  let y ← hexValue b
  return UInt8.ofNat (x * 16 + y)

/-- The bytes of a text in which escapes are read and everything else is written in UTF-8. -/
def unquote : Str → Option Bytes
  | p :: a :: b :: s =>
    match if p = percent then escapeValue a b else none with
    | some v => (unquote s).map (v :: ·)
    | none => (encodeUtf8 [p]).bind fun u => (unquote (a :: b :: s)).map (u ++ ·)
  | s => encodeUtf8 s

def hasEscape : Str → Bool
  | p :: a :: b :: s => (p == percent && (escapeValue a b).isSome) || hasEscape (a :: b :: s)
  | _ => false

example : unquote (str "a%2Fb%") = encodeUtf8 (str "a/b%") := by decide +kernel

theorem chars_append (s t : Str) : chars (s ++ t) = (chars s).bind fun cs => (chars t).map (cs ++ ·) := by
  induction s with
  | nil => simp [chars]
  | cons c s ih =>
    cases c with
    | scalar c => cases hs : chars s <;> simp [chars, ih, hs, Function.comp_def]
    | surrogate u => rfl

theorem encodeUtf8_append (s t : Str) :
    encodeUtf8 (s ++ t) = (encodeUtf8 s).bind fun u => (encodeUtf8 t).map (u ++ ·) := by
  unfold encodeUtf8
  rw [chars_append]
  cases chars s <;> cases chars t <;> simp

theorem encodeUtf8_append_eq_some {s t : Str} {b : Bytes} : encodeUtf8 (s ++ t) = some b ↔
    ∃ u v, encodeUtf8 s = some u ∧ encodeUtf8 t = some v ∧ b = u ++ v := by
  rw [encodeUtf8_append]
  cases encodeUtf8 s <;> cases encodeUtf8 t <;> simp [eq_comm]

theorem length_le_encodeUtf8 {s : Str} {b : Bytes} (h : encodeUtf8 s = some b) : s.length ≤ b.length := by
  obtain ⟨cs, hcs, rfl⟩ := Option.map_eq_some_iff.1 h
  rw [chars_eq_some.1 hcs, List.length_map]
  clear h hcs
  induction cs with
  | nil => simp
  | cons c cs ih =>
    have hpos : 0 < (String.utf8EncodeChar c).length := by simp [Char.utf8Size_pos]
    simp only [List.length_cons, List.flatMap_cons, List.length_append]
    omega

/-- Reading an escape shortens a text. -/
theorem length_unquote {s : Str} {u b : Bytes} (hu : unquote s = some u) (hb : encodeUtf8 s = some b) :
    u.length ≤ b.length ∧ (hasEscape s = true → u.length < b.length) := by
  induction s using unquote.induct generalizing u b with
  | case1 p x y s v hv ih =>
    rw [unquote, hv] at hu
    obtain ⟨u', hu', rfl⟩ := Option.map_eq_some_iff.1 hu
    obtain ⟨c, d, hc, hd, rfl⟩ := encodeUtf8_append_eq_some.1 (show encodeUtf8 ([p, x, y] ++ s) = some b from hb)
    have hlength := length_le_encodeUtf8 hc
    have hrest := (ih hu' hd).1
    simp only [List.length_cons, List.length_nil, List.length_append] at hlength ⊢
    omega
  | case2 p x y s hv ih =>
    rw [unquote, hv] at hu
    obtain ⟨c, d, hc, hd, rfl⟩ := encodeUtf8_append_eq_some.1 (show encodeUtf8 ([p] ++ x :: y :: s) = some b from hb)
    obtain ⟨c', hc', hu⟩ := Option.bind_eq_some_iff.1 hu
    obtain ⟨u', hu', rfl⟩ := Option.map_eq_some_iff.1 hu
    obtain rfl := Option.some.inj (hc.symm.trans hc')
    obtain ⟨hle, hlt⟩ := ih hu' hd
    have hescape : hasEscape (p :: x :: y :: s) = hasEscape (x :: y :: s) := by
      rw [hasEscape]
      by_cases hp : p = percent
      · rw [if_pos hp] at hv
        simp [hv]
      · simp [hp]
    rw [hescape, List.length_append, List.length_append]
    exact ⟨by omega, fun h => by have := hlt h; omega⟩
  | case3 s hs =>
    have hshort : unquote s = encodeUtf8 s ∧ hasEscape s = false := by
      rcases s with - | ⟨p, - | ⟨x, - | ⟨y, s⟩⟩⟩
      · exact ⟨rfl, rfl⟩
      · exact ⟨rfl, rfl⟩
      · exact ⟨rfl, rfl⟩
      · exact absurd rfl (hs p x y s)
    rw [hshort.1] at hu
    obtain rfl := Option.some.inj (hu.symm.trans hb)
    exact ⟨le_rfl, fun h => absurd (h.symm.trans hshort.2) (by decide)⟩

/-- A text without escapes stands for itself. -/
theorem unquote_of_not_hasEscape {s : Str} (h : hasEscape s = false) : unquote s = encodeUtf8 s := by
  induction s using unquote.induct with
  | case1 p x y s v hv ih =>
    have hp : p = percent := by
      by_contra hp
      rw [if_neg hp] at hv
      cases hv
    rw [if_pos hp] at hv
    simp [hasEscape, hp, hv] at h
  | case2 p x y s hv ih =>
    rw [hasEscape, Bool.or_eq_false_iff] at h
    rw [unquote, hv, ih h.2, show p :: x :: y :: s = [p] ++ x :: y :: s from rfl, encodeUtf8_append]
  | case3 s hs =>
    unfold unquote
    split
    · exact (hs _ _ _ _ rfl).elim
    · rfl

/-- **A part of a text that stands for the text is the text, and has no escape.** -/
theorem eq_of_unquote {s t : Str} {b : Bytes} (hst : s <:+: t) (hb : encodeUtf8 t = some b) (hs : unquote s = some b) :
    s = t ∧ hasEscape s = false := by
  obtain ⟨p, q, rfl⟩ := hst
  obtain ⟨u, d, hu, hd, rfl⟩ := encodeUtf8_append_eq_some.1 hb
  obtain ⟨a, c, ha, hc, rfl⟩ := encodeUtf8_append_eq_some.1 hu
  obtain ⟨hle, hlt⟩ := length_unquote hs hc
  have hp := length_le_encodeUtf8 ha
  have hq := length_le_encodeUtf8 hd
  simp only [List.length_append] at hle hlt
  obtain rfl : p = [] := List.eq_nil_of_length_eq_zero (by omega)
  obtain rfl : q = [] := List.eq_nil_of_length_eq_zero (by omega)
  refine ⟨by simp, ?_⟩
  by_contra h
  have := hlt (by simpa using h)
  omega

/-! ### Naming a resource -/

/-- A text that keeps its place as a segment, and its bytes. -/
structure Addressable (s : Str) : Prop where
  slash : slash ∉ s
  question : question ∉ s
  numberSign : numberSign ∉ s
  dots : isDots s = false
  escape : hasEscape s = false

instance (s : Str) : Decidable (Addressable s) :=
  decidable_of_iff (Net.slash ∉ s ∧ Net.question ∉ s ∧ Net.numberSign ∉ s ∧ isDots s = false ∧ hasEscape s = false)
    ⟨fun ⟨h₁, h₂, h₃, h₄, h₅⟩ => ⟨h₁, h₂, h₃, h₄, h₅⟩, fun h => ⟨h.slash, h.question, h.numberSign, h.dots, h.escape⟩⟩

/-- The segments that a client requests for a URL, if it sends each by `escape`. -/
def requested (escape : Str → Str) (url : Str) : List Str :=
  (segments (removeDotSegments (Reference.split url).path)).map escape

/-- Behind the path of the base URL, the segments that are requested stand for those given. -/
def Names (escape : Str → Str) (base : Str) (segs : List Str) : Prop :=
  ∃ rest, requested escape (base ++ pathOf segs) =
      (walk (segments (Reference.split base).path)).map escape ++ rest ∧
    rest.map unquote = segs.map encodeUtf8

section Naming

variable {escape : Str → Str} {base x : Str} {xs ys : List Str}
  (hescape : ∀ s b, encodeUtf8 s = some b → unquote (escape s) = unquote s)
include hescape

theorem unquote_of_addressable {s : Str} {b : Bytes} (h : Addressable s) (hb : encodeUtf8 s = some b) :
    unquote (escape s) = encodeUtf8 s := by
  rw [hescape s b hb, unquote_of_not_hasEscape h.escape]

/-- A segment behind the base path that stands for a text, if the text was put there. -/
theorem addressable_of_segment {z : Str} {b c : Bytes} (hb : encodeUtf8 x = some b) (hc : encodeUtf8 z = some c)
    (hstands : unquote (escape z) = encodeUtf8 x) (hslash : slash ∉ z)
    (hplain : question ∉ z ∧ numberSign ∉ z) (hdots : isDots z = false) (hz : Addressable z ∨ z <:+: x) :
    Addressable x := by
  rw [hescape z c hc] at hstands
  rcases hz with hz | hz
  · rw [unquote_of_not_hasEscape hz.escape, hc] at hstands
    rwa [encodeUtf8_injective hstands.symm hc]
  · obtain ⟨rfl, hno⟩ := eq_of_unquote hz hb (hstands.trans hb)
    exact ⟨hslash, hplain.1, hplain.2, hdots, hno⟩

/-- If a path names a text, it goes on behind a base path without query, and the text keeps its place. -/
theorem addressable_of_names (ha : (Reference.split base).authority.isSome = true) (hxs : xs ≠ [])
    (hothers : ∀ s ∈ xs ++ ys, Addressable s ∧ (encodeUtf8 s).isSome) (hx : (encodeUtf8 x).isSome)
    (h : Names escape base (xs ++ x :: ys)) : (question ∉ base ∧ numberSign ∉ base) ∧ Addressable x := by
  obtain ⟨segs, hsegs, hpath⟩ := exists_segments (split_rooted ha)
  obtain ⟨rest, hrequested, hrest⟩ := h
  have hlength : rest.length = xs.length + (ys.length + 1) := by simpa using congrArg List.length hrest
  rw [requested, hpath, segments_pathOf hsegs] at hrequested
  have hplain : question ∉ base ∧ numberSign ∉ base := by
    by_contra hb
    -- nothing but the path of the base URL is requested
    have hmem : question ∈ base ∨ numberSign ∈ base := by
      rw [not_and_or, not_not, not_not] at hb
      exact hb
    rw [split_append_of_mem hmem, hpath, segments_removeDotSegments hsegs, resolve] at hrequested
    have hlengths := congrArg List.length hrequested
    have htrailing : (trailing segs).length ≤ 1 := by rcases trailing_eq segs with h | h <;> simp [h]
    have hpos : 0 < xs.length := List.length_pos_iff.2 hxs
    simp only [List.length_map, List.length_append] at hlengths
    omega
  refine ⟨hplain, ?_⟩
  obtain ⟨ts, hcut, hts⟩ := exists_pieces (x := x) fun s hs =>
    ⟨(hothers s hs).1.slash, (hothers s hs).1.question, (hothers s hs).1.numberSign⟩
  have hall : ∀ s ∈ segs ++ ts, slash ∉ s := by
    intro s hs
    rcases List.mem_append.1 hs with hs | hs
    · exact hsegs s hs
    · exact (hts s hs).1
  rw [path_append_pathOf hplain ha (by simp), hpath, hcut, ← pathOf_append, segments_removeDotSegments hall]
    at hrequested
  -- the segment in the place of the text
  have hplace : xs.length < rest.length := by omega
  have hget : unquote rest[xs.length] = encodeUtf8 x := by
    simpa [hplace] using congrArg (·[xs.length]?) hrest
  have hsegment : (resolve (segs ++ ts))[(walk segs).length + xs.length]?.map escape = some rest[xs.length] := by
    rw [← List.getElem?_map, hrequested]
    simp [hplace]
  obtain ⟨z, hz, hsent⟩ := Option.map_eq_some_iff.1 hsegment
  have hstands : unquote (escape z) = encodeUtf8 x := by rw [hsent, hget]
  obtain ⟨b, hb⟩ := Option.isSome_iff_exists.1 hx
  rcases getElem?_resolve_append hz with rfl | ⟨hzts, hdots⟩
  · exact addressable_of_segment hescape hb rfl hstands (by simp) (by simp) rfl (.inl (by decide))
  · obtain ⟨hslash, hplain, hpart⟩ := hts z hzts
    rcases hpart with hother | hwithin
    · obtain ⟨c, hc⟩ := Option.isSome_iff_exists.1 (hothers z hother).2
      exact addressable_of_segment hescape hb hc hstands hslash hplain hdots (.inl (hothers z hother).1)
    · obtain ⟨p, q, rfl⟩ := hwithin
      obtain ⟨u, d, hu, -, -⟩ := encodeUtf8_append_eq_some.1 hb
      obtain ⟨a, c, -, hc, -⟩ := encodeUtf8_append_eq_some.1 hu
      exact addressable_of_segment hescape hb hc hstands hslash hplain hdots (.inr ⟨p, q, rfl⟩)

/-- Segments that keep their places are named. -/
theorem names_of_addressable {segs : List Str} (ha : (Reference.split base).authority.isSome = true) (hne : segs ≠ [])
    (hplain : question ∉ base ∧ numberSign ∉ base) (h : ∀ s ∈ segs, Addressable s ∧ (encodeUtf8 s).isSome) :
    Names escape base segs := by
  obtain ⟨front, hfront, hpath⟩ := exists_segments (split_rooted ha)
  have hall := not_mem_pathOf fun s hs => ⟨(h s hs).1.question, (h s hs).1.numberSign⟩
  have hcut : beforeQuery (pathOf segs) = pathOf segs := List.takeWhile_eq_self_iff.2 (forall_inPath_iff.2 hall)
  have hslash : ∀ s ∈ front ++ segs, slash ∉ s := by
    intro s hs
    rcases List.mem_append.1 hs with hs | hs
    · exact hfront s hs
    · exact (h s hs).1.slash
  refine ⟨segs.map escape, ?_, ?_⟩
  · rw [requested, path_append_pathOf hplain ha hne, hpath, hcut, ← pathOf_append, segments_removeDotSegments hslash,
      segments_pathOf hfront, resolve_append_of_plain (fun s hs => (h s hs).1.dots) hne, List.map_append]
  · rw [List.map_map]
    refine List.map_congr_left fun s hs => ?_
    obtain ⟨b, hb⟩ := Option.isSome_iff_exists.1 (h s hs).2
    exact unquote_of_addressable hescape (h s hs).1 hb

/-- **A path names the text that is put into it if and only if the base URL ends in a path and the text keeps its
place.** -/
theorem names_iff (ha : (Reference.split base).authority.isSome = true) (hxs : xs ≠ [])
    (hothers : ∀ s ∈ xs ++ ys, Addressable s ∧ (encodeUtf8 s).isSome) (hx : (encodeUtf8 x).isSome) :
    Names escape base (xs ++ x :: ys) ↔ (question ∉ base ∧ numberSign ∉ base) ∧ Addressable x := by
  refine ⟨addressable_of_names hescape ha hxs hothers hx, ?_⟩
  rintro ⟨hplain, haddress⟩
  refine names_of_addressable hescape ha (by simp) hplain fun s hs => ?_
  simp only [List.mem_append, List.mem_cons] at hs
  rcases hs with hs | rfl | hs
  · exact hothers s (List.mem_append_left _ hs)
  · exact ⟨haddress, hx⟩
  · exact hothers s (List.mem_append_right _ hs)

omit hescape

theorem eq_of_map_encodeUtf8 (h : ∀ s ∈ xs, (encodeUtf8 s).isSome) (hxy : xs.map encodeUtf8 = ys.map encodeUtf8) :
    xs = ys := by
  induction xs generalizing ys with
  | nil => simpa using hxy
  | cons s xs ih =>
    rcases ys with - | ⟨t, ys⟩
    · simp at hxy
    · obtain ⟨hst, hxy⟩ := List.cons.inj hxy
      obtain ⟨b, hb⟩ := Option.isSome_iff_exists.1 (h s (List.mem_cons_self ..))
      rw [encodeUtf8_injective hb (hst.symm.trans hb), ih (fun s hs => h s (List.mem_cons_of_mem _ hs)) hxy]

/-- **A path names one thing.** -/
theorem Names.unique (hx : Names escape base xs) (hy : Names escape base ys) (henc : ∀ s ∈ xs, (encodeUtf8 s).isSome)
    (hsame : requested escape (base ++ pathOf xs) = requested escape (base ++ pathOf ys)) : xs = ys := by
  obtain ⟨rx, hrx, hx⟩ := hx
  obtain ⟨ry, hry, hy⟩ := hy
  rw [hrx, hry, List.append_cancel_left_eq] at hsame
  rw [hsame, hy] at hx
  exact eq_of_map_encodeUtf8 henc hx.symm

end Naming

end SharedAi.Net
