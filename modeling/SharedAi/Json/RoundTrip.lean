import SharedAi.Json.Reader

/-!
# Reading back what was written

* `scanOnce_render` — a written tree is read back, whatever follows it that cannot continue a numeral;
* `loads_render`, `render_injective` — so a text determines the tree it was written from.
-/

namespace SharedAi.Json

open SharedAi.Text SharedAi.Num

variable {ε α : Type}

/-! ### Tokens -/

@[simp] theorem expect_self (c : Char) (t : Str) : expect c (.scalar c :: t) = some t := by simp [expect]

theorem expect_ne {c : Char} {d : PyChar} (h : d ≠ .scalar c) (t : Str) : expect c (d :: t) = none := by
  simp [expect, h]

theorem expectAll_cons (c : Char) (cs : List Char) (t : Str) :
    expectAll (c :: cs) t = (expect c t).bind (expectAll cs) := rfl

theorem skipWs_cons {c : PyChar} (h : isWs c = false) (t : Str) : skipWs (c :: t) = c :: t := by
  simp [skipWs, h]

/-! ### Strings -/

theorem hex?_hexChar {n : ℕ} (h : n < 16) : hex? (hexChar n) = some n := by
  have key : ∀ n < 16, hex? (hexChar n) = some n := by decide
  exact key n h

/-- A control character is the character its own code names. -/
theorem ofUnit_ord {c : PyChar} (h : c.ord < 0x20) : PyChar.ofUnit c.ord = c := by
  cases c with
  | scalar c =>
    simp only [PyChar.ord] at h ⊢
    rw [PyChar.ofUnit, dif_neg (by omega), Char.ofNat_toNat]
  | surrogate s =>
    simp only [PyChar.ord] at h
    omega

theorem scanUnicode_control {c : PyChar} (h : c.ord < 0x20) (t : Str) :
    scanUnicode (.scalar '0' :: .scalar '0' :: hexChar (c.ord / 16) :: hexChar (c.ord % 16) :: t) =
      some (c, t) := by
  have h0 : hex? (.scalar '0') = some 0 := by decide
  have h1 := hex?_hexChar (show c.ord / 16 < 16 by omega)
  have h2 := hex?_hexChar (show c.ord % 16 < 16 by omega)
  have hh : PyChar.isHighUnit c.ord = false := by
    simp only [PyChar.isHighUnit, Bool.and_eq_false_iff, decide_eq_false_iff_not]
    omega
  have h4 : hex4 (.scalar '0') (.scalar '0') (hexChar (c.ord / 16)) (hexChar (c.ord % 16)) = some c.ord := by
    simp only [hex4, h0, h1, h2, Option.bind_eq_bind, Option.bind_some, Option.pure_def, Option.some.injEq]
    omega
  simp [scanUnicode, scanUnit, h4, hh, ofUnit_ord h]

theorem scanChars_escape (c : PyChar) (k : ℕ) (t : Str) :
    scanChars (k + 1) (escape c ++ t) = pushChar c (scanChars k t) := by
  unfold escape
  split
  · next h => subst h; rfl
  split
  · next h => subst h; rfl
  split
  · next h => subst h; rfl
  split
  · next h => subst h; rfl
  split
  · next h => subst h; rfl
  split
  · next h => subst h; rfl
  split
  · next h => subst h; rfl
  split
  · next h => simp [lit, scanChars, scanEscape, scanUnicode_control h]
  · next h1 h2 _ _ _ _ _ h8 => simp [scanChars, h1, h2, h8]

theorem scanChars_flatMap (s t : Str) {k : ℕ} (hk : s.length < k) :
    scanChars k (s.flatMap escape ++ .scalar '"' :: t) = some (s, t) := by
  induction s generalizing k with
  | nil =>
    obtain ⟨k, rfl⟩ := Nat.exists_eq_succ_of_ne_zero (Nat.ne_of_gt hk)
    rfl
  | cons c s ih =>
    obtain ⟨k, rfl⟩ := Nat.exists_eq_succ_of_ne_zero (Nat.ne_of_gt (Nat.zero_lt_of_lt hk))
    rw [List.flatMap_cons, List.append_assoc, scanChars_escape, ih (by simpa using hk)]
    rfl

theorem length_le_flatMap_escape (s : Str) : s.length ≤ (s.flatMap escape).length := by
  have hc : ∀ c : PyChar, 0 < (escape c).length := by
    intro c
    unfold escape
    repeat' split
    all_goals simp [lit]
  induction s with
  | nil => simp
  | cons c s ih =>
    have := hc c
    simp only [List.length_cons, List.flatMap_cons, List.length_append]
    omega

/-- **A written string is read back.** -/
theorem scanString_flatMap (s t : Str) : scanString (s.flatMap escape ++ .scalar '"' :: t) = some (s, t) := by
  have := length_le_flatMap_escape s
  exact scanChars_flatMap s t (by simp only [List.length_append, List.length_cons]; omega)

theorem renderStr_append (s t : Str) :
    renderStr s ++ t = .scalar '"' :: (s.flatMap escape ++ .scalar '"' :: t) := by
  simp [renderStr, lit]

/-! ### Numerals -/

/-- What follows a numeral without continuing it. -/
def Stops (t : Str) : Prop :=
  ∀ c ∈ t.head?, digit? c = none ∧ c ≠ .scalar '.' ∧ c ≠ .scalar 'e' ∧ c ≠ .scalar 'E'

theorem stops_nil : Stops [] := by simp [Stops]

theorem stops_cons {c : PyChar} {t : Str} (h : digit? c = none ∧ c ≠ .scalar '.' ∧ c ≠ .scalar 'e' ∧
    c ≠ .scalar 'E') : Stops (c :: t) := by simpa [Stops] using h

theorem digit?_digitChar : ∀ d : Digit, digit? (digitChar d) = some d := by decide

theorem scanDigits_render (ds : List Digit) {t : Str} (h : ∀ c ∈ t.head?, digit? c = none) :
    scanDigits (renderDigits ds ++ t) = (ds, t) := by
  induction ds with
  | nil =>
    cases t with
    | nil => rfl
    | cons c t =>
      have hc : digit? c = none := h c (by simp)
      simp [renderDigits, scanDigits, hc]
  | cons d ds ih =>
    simp only [renderDigits, List.map_cons, List.cons_append] at ih ⊢
    simp [scanDigits, digit?_digitChar, ih]

theorem scanInt_render (i : IntPart) {t : Str} (h : ∀ c ∈ t.head?, digit? c = none) :
    scanInt (renderDigits i.toList ++ t) = some (i, t) := by
  obtain ⟨d, ds, hz⟩ := i
  have hr := scanDigits_render ds h
  simp only [renderDigits, IntPart.toList, List.map_cons, List.cons_append, scanInt, digit?_digitChar] at hr ⊢
  split
  · next hd =>
    obtain rfl := hz hd
    subst hd
    rfl
  · simp only [hr]

theorem scanFrac_render (ds : List Digit) {t : Str} (h : ∀ c ∈ t.head?, digit? c = none ∧ c ≠ .scalar '.') :
    scanFrac (renderFrac ds ++ t) = (ds, t) := by
  by_cases hd : ds = []
  · subst hd
    have : expect '.' t = none := by
      cases t with
      | nil => rfl
      | cons c t => exact expect_ne (h c (by simp)).2 t
    simp [renderFrac, scanFrac, this]
  · have hr := scanDigits_render ds fun c hc => (h c hc).1
    simp [renderFrac, scanFrac, hd, hr]

theorem scanExp_render (e : Option Exponent) {t : Str} (h : Stops t) : scanExp (renderExp e ++ t) = (e, t) := by
  cases e with
  | none =>
    have h1 : expect 'e' t = none := by
      cases t with
      | nil => rfl
      | cons c t => exact expect_ne (h c (by simp)).2.2.1 t
    have h2 : expect 'E' t = none := by
      cases t with
      | nil => rfl
      | cons c t => exact expect_ne (h c (by simp)).2.2.2 t
    simp [renderExp, scanExp, h1, h2]
  | some e =>
    obtain ⟨neg, d, ds⟩ := e
    have hr := scanDigits_render (d :: ds) fun c hc => (h c hc).1
    have hs : ∀ r : Str, scanSign (.scalar (if neg then '-' else '+') :: r) = (neg, r) := by
      intro r
      cases neg <;> simp [scanSign, expect]
    simp [renderExp, scanExp, hs, hr]

theorem head_renderExp (e : Option Exponent) {t : Str} (h : Stops t) :
    ∀ c ∈ (renderExp e ++ t).head?, digit? c = none ∧ c ≠ .scalar '.' := by
  cases e with
  | none => exact fun c hc => ⟨(h c hc).1, (h c hc).2.1⟩
  | some e =>
    rintro c hc
    simp only [renderExp, List.cons_append, List.head?_cons, Option.mem_def, Option.some.injEq] at hc
    subst hc
    decide

theorem head_renderFrac (ds : List Digit) (e : Option Exponent) {t : Str} (h : Stops t) :
    ∀ c ∈ (renderFrac ds ++ (renderExp e ++ t)).head?, digit? c = none := by
  by_cases hd : ds = []
  · simpa [renderFrac, hd] using fun c hc => (head_renderExp e h c hc).1
  · rintro c hc
    simp only [renderFrac, hd, if_false, List.cons_append, List.head?_cons, Option.mem_def,
      Option.some.injEq] at hc
    subst hc
    decide

theorem digitChar_ne : ∀ d : Digit, digitChar d ≠ .scalar '-' ∧ digitChar d ≠ .scalar '"' ∧
    digitChar d ≠ .scalar 'n' ∧ digitChar d ≠ .scalar 't' ∧ digitChar d ≠ .scalar 'f' ∧
    digitChar d ≠ .scalar 'N' ∧ digitChar d ≠ .scalar 'I' := by decide

theorem digitChar_ne_open : ∀ d : Digit, digitChar d ≠ .scalar '{' ∧ digitChar d ≠ .scalar '[' := by decide

/-- **A written numeral is read back**, if what follows does not continue it. -/
theorem scanNumber_render (l : NumLit) {t : Str} (h : Stops t) : scanNumber (renderNum l ++ t) = some (l, t) := by
  obtain ⟨neg, i, f, e⟩ := l
  have h1 := scanInt_render i (head_renderFrac f e h)
  have h2 := scanFrac_render f (head_renderExp e h)
  have h3 := scanExp_render e h
  have hd : expect '-' (renderDigits i.toList ++ (renderFrac f ++ (renderExp e ++ t))) = none :=
    expect_ne (digitChar_ne i.lead).1 _
  cases neg with
  | true => simp [renderNum, lit, scanNumber, h1, h2, h3]
  | false => simp [renderNum, scanNumber, hd, h1, h2, h3]

/-! ### Values -/

theorem scanOnce_scalar (H : Hooks ε α) (n : ℕ) {t : Str} (h1 : expect '{' t = none) (h2 : expect '[' t = none) :
    scanOnce H n t = scanScalar H t := by
  cases n <;> simp [scanOnce, h1, h2]

/-- The empty text is no document. -/
theorem loads_nil (H : Hooks ε α) (n : ℕ) : loads H n [] = .error H.syntaxError := by
  unfold loads
  rw [show skipWs [] = [] from rfl, scanOnce_scalar H n rfl rfl]
  rfl

theorem expectAll_ne {c : Char} {d : PyChar} (h : d ≠ .scalar c) (cs : List Char) (t : Str) :
    expectAll (c :: cs) (d :: t) = none := by
  rw [expectAll_cons, expect_ne h]
  rfl

theorem renderNum_eq (l : NumLit) : renderNum l =
    (if l.neg then lit ['-'] else []) ++ digitChar l.int.lead ::
      (renderDigits l.int.rest ++ (renderFrac l.frac ++ renderExp l.exp)) := rfl

theorem scanScalar_num (H : Hooks ε α) (l : NumLit) {t : Str} (h : Stops t) :
    scanScalar H (renderNum l ++ t) = (H.number l).map (·, t) := by
  have hn := scanNumber_render l h
  obtain ⟨h1, h2, h3, h4, h5, h6, h7⟩ := digitChar_ne l.int.lead
  have hm : ∀ c : Char, c ≠ '-' → PyChar.scalar '-' ≠ .scalar c := by
    intro c hc he
    exact hc (PyChar.scalar.inj he).symm
  rw [renderNum_eq] at hn ⊢
  cases hl : l.neg with
  | true =>
    simp only [hl, if_true, lit, List.map_cons, List.map_nil, List.cons_append, List.nil_append] at hn ⊢
    unfold scanScalar
    simp only [expect_ne (hm '"' (by decide)), expectAll_ne (hm 'n' (by decide)), expectAll_ne (hm 't' (by decide)),
      expectAll_ne (hm 'f' (by decide)), expectAll_ne (hm 'N' (by decide)), expectAll_ne (hm 'I' (by decide)),
      expectAll_cons '-', expect_self, Option.bind_some, expectAll_ne h7, hn, Option.map_none]
  | false =>
    simp only [hl, Bool.false_eq_true, if_false, List.nil_append, List.cons_append] at hn ⊢
    unfold scanScalar
    simp only [expect_ne h2, expectAll_ne h3, expectAll_ne h4, expectAll_ne h5, expectAll_ne h6, expectAll_ne h7,
      expectAll_ne h1, hn, Option.map_none]

/-- A tree is written from a character that opens a value. -/
theorem render_head (d : Doc) : ∃ c t, render d = c :: t ∧ isWs c = false ∧ c ≠ .scalar ']' ∧ c ≠ .scalar '\ufeff' := by
  have hdigit : ∀ d : Digit, isWs (digitChar d) = false ∧ digitChar d ≠ .scalar ']' ∧
      digitChar d ≠ .scalar '\ufeff' := by decide
  cases d with
  | null => exact ⟨_, _, rfl, by decide, by decide, by decide⟩
  | bool b => cases b <;> exact ⟨_, _, rfl, by decide, by decide, by decide⟩
  | num l =>
    rw [render, renderNum_eq]
    cases l.neg with
    | true => exact ⟨_, _, rfl, by decide, by decide, by decide⟩
    | false => exact ⟨_, _, rfl, hdigit l.int.lead⟩
  | const c => cases c <;> exact ⟨_, _, rfl, by decide, by decide, by decide⟩
  | str s => exact ⟨_, _, rfl, by decide, by decide, by decide⟩
  | arr ds => exact ⟨_, _, rfl, by decide, by decide, by decide⟩
  | obj ms => exact ⟨_, _, rfl, by decide, by decide, by decide⟩

theorem skipWs_render (d : Doc) (t : Str) : skipWs (render d ++ t) = render d ++ t := by
  obtain ⟨c, r, hr, hc, -⟩ := render_head d
  rw [hr]
  exact skipWs_cons hc _

theorem renderElems_cons (d : Doc) (ds : List Doc) :
    renderElems (d :: ds) = render d ++ if ds = [] then [] else .scalar ',' :: renderElems ds := by
  cases ds <;> simp [renderElems]

theorem renderMembers_cons (k : Str) (d : Doc) (ms : List (Str × Doc)) :
    renderMembers ((k, d) :: ms) = renderStr k ++ .scalar ':' ::
      (render d ++ if ms = [] then [] else .scalar ',' :: renderMembers ms) := by
  cases ms <;> simp [renderMembers]

theorem stops_comma (t : Str) : Stops (.scalar ',' :: t) := stops_cons (by decide)
theorem stops_bracket (t : Str) : Stops (.scalar ']' :: t) := stops_cons (by decide)
theorem stops_brace (t : Str) : Stops (.scalar '}' :: t) := stops_cons (by decide)

theorem scanElems_render (H : Hooks ε α) (p : Str → Except ε (Doc × Str)) {ds : List Doc} (hne : ds ≠ [])
    (hp : ∀ d ∈ ds, ∀ t, Stops t → p (render d ++ t) = .ok (d, t)) {k : ℕ} (hk : ds.length ≤ k) (t : Str) :
    scanElems H.tree p k (renderElems ds ++ .scalar ']' :: t) = .ok (ds, t) := by
  induction ds generalizing k with
  | nil => exact absurd rfl hne
  | cons d ds ih =>
    obtain ⟨k, rfl⟩ := Nat.exists_eq_succ_of_ne_zero (Nat.ne_of_gt (Nat.lt_of_lt_of_le (Nat.zero_lt_succ _) hk))
    have hd := hp d (by simp)
    have hws : ∀ c, isWs (.scalar c) = false → ∀ r, skipWs (.scalar c :: r) = .scalar c :: r :=
      fun c hc r => skipWs_cons hc r
    rw [renderElems_cons]
    cases ds with
    | nil =>
      simp only [if_true, List.append_nil, scanElems]
      rw [hd _ (stops_bracket t)]
      simp only [bind, Except.bind, hws ']' (by decide), expect_ne (c := ',') (d := .scalar ']') (by decide),
        expect_self]
      rfl
    | cons e ds =>
      have hk' : (e :: ds).length ≤ k := by simpa using hk
      have ih := ih (by simp) (fun x hx => hp x (List.mem_cons_of_mem _ hx)) hk'
      have hsk : skipWs (renderElems (e :: ds) ++ .scalar ']' :: t) = renderElems (e :: ds) ++ .scalar ']' :: t := by
        rw [renderElems_cons, List.append_assoc, skipWs_render]
      simp only [reduceCtorEq, if_false, List.append_assoc, List.cons_append, scanElems]
      rw [hd _ (stops_comma _)]
      simp only [bind, Except.bind, hws ',' (by decide), expect_self, hsk, ih]
      rfl

theorem renderStr_ne_nil (s t : Str) : skipWs (renderStr s ++ t) = renderStr s ++ t := by
  rw [renderStr_append]
  exact skipWs_cons (by decide) _

theorem scanMembers_render (H : Hooks ε α) (p : Str → Except ε (Doc × Str)) {ms : List (Str × Doc)} (hne : ms ≠ [])
    (hp : ∀ m ∈ ms, ∀ t, Stops t → p (render m.2 ++ t) = .ok (m.2, t)) {n : ℕ} (hn : ms.length ≤ n) (t : Str) :
    scanMembers H.tree p n (renderMembers ms ++ .scalar '}' :: t) = .ok (ms, t) := by
  induction ms generalizing n with
  | nil => exact absurd rfl hne
  | cons m ms ih =>
    obtain ⟨k, d⟩ := m
    obtain ⟨n, rfl⟩ := Nat.exists_eq_succ_of_ne_zero (Nat.ne_of_gt (Nat.lt_of_lt_of_le (Nat.zero_lt_succ _) hn))
    have hd : ∀ t, Stops t → p (render d ++ t) = .ok (d, t) := hp (k, d) (by simp)
    have hws : ∀ c, isWs (.scalar c) = false → ∀ r, skipWs (.scalar c :: r) = .scalar c :: r :=
      fun c hc r => skipWs_cons hc r
    rw [renderMembers_cons, List.append_assoc, renderStr_append]
    cases ms with
    | nil =>
      simp only [if_true, List.append_nil, List.cons_append, scanMembers, expect_self, Option.bind_some,
        scanString_flatMap, hws ':' (by decide), skipWs_render]
      rw [hd _ (stops_brace t)]
      simp only [bind, Except.bind, hws '}' (by decide), expect_ne (c := ',') (d := .scalar '}') (by decide),
        expect_self]
      rfl
    | cons m ms =>
      have hn' : (m :: ms).length ≤ n := by simpa using hn
      have ih := ih (by simp) (fun x hx => hp x (List.mem_cons_of_mem _ hx)) hn'
      have hsk : skipWs (renderMembers (m :: ms) ++ .scalar '}' :: t) =
          renderMembers (m :: ms) ++ .scalar '}' :: t := by
        rw [renderMembers_cons, List.append_assoc, renderStr_ne_nil]
      simp only [reduceCtorEq, if_false, List.append_assoc, List.cons_append, scanMembers, expect_self,
        Option.bind_some, scanString_flatMap, hws ':' (by decide), skipWs_render]
      rw [hd _ (stops_comma _)]
      simp only [bind, Except.bind, hws ',' (by decide), expect_self, hsk, ih]
      rfl

theorem length_le_renderElems (ds : List Doc) (t : Str) : ds.length ≤ (renderElems ds ++ t).length := by
  induction ds with
  | nil => simp
  | cons d ds ih =>
    obtain ⟨c, r, hr, -⟩ := render_head d
    rw [renderElems_cons, hr]
    cases ds with
    | nil => simp
    | cons e ds =>
      simp only [reduceCtorEq, if_false, List.length_append, List.length_cons] at ih ⊢
      omega

theorem length_le_renderMembers (ms : List (Str × Doc)) (t : Str) : ms.length ≤ (renderMembers ms ++ t).length := by
  induction ms with
  | nil => simp
  | cons m ms ih =>
    obtain ⟨k, d⟩ := m
    rw [renderMembers_cons]
    cases ms with
    | nil =>
      simp only [if_true, List.append_nil, List.length_append, List.length_cons, List.length_nil]
      omega
    | cons m ms =>
      simp only [reduceCtorEq, if_false, List.length_append, List.length_cons] at ih ⊢
      omega

theorem scanOnce_arr (H : Hooks ε α) (n : ℕ) (t : Str) :
    scanOnce H (n + 1) (.scalar '[' :: t) = scanArray H (scanOnce H n) t := by
  simp [scanOnce, expect_ne (c := '{') (d := .scalar '[') (by decide)]

theorem scanOnce_obj (H : Hooks ε α) (n : ℕ) (t : Str) :
    scanOnce H (n + 1) (.scalar '{' :: t) = scanObject H (scanOnce H n) t := by
  simp [scanOnce]

/-- What is read of an array behind its bracket, if its elements are read. -/
theorem scanArray_render (H : Hooks ε α) (p : Str → Except ε (Doc × Str)) {ds : List Doc}
    (hp : ∀ d ∈ ds, ∀ t, Stops t → p (render d ++ t) = .ok (d, t)) (t : Str) :
    scanArray H.tree p (renderElems ds ++ .scalar ']' :: t) = .ok (.arr ds, t) := by
  cases ds with
  | nil => rfl
  | cons d ds =>
    have hread := scanElems_render H p (List.cons_ne_nil d ds) hp
      (length_le_renderElems (d :: ds) (.scalar ']' :: t)) t
    obtain ⟨c, r, hr, -, hb, -⟩ := render_head d
    have hs : skipWs (renderElems (d :: ds) ++ .scalar ']' :: t) = renderElems (d :: ds) ++ .scalar ']' :: t := by
      rw [renderElems_cons, List.append_assoc, skipWs_render]
    have he : expect ']' (renderElems (d :: ds) ++ .scalar ']' :: t) = none := by
      rw [renderElems_cons, hr]
      exact expect_ne hb _
    simp only [scanArray, hs, he, hread]
    rfl

/-- What is read of an object behind its brace, if its members are read. -/
theorem scanObject_render (H : Hooks ε α) (p : Str → Except ε (Doc × Str)) {ms : List (Str × Doc)}
    (hp : ∀ m ∈ ms, ∀ t, Stops t → p (render m.2 ++ t) = .ok (m.2, t)) (t : Str) :
    scanObject H.tree p (renderMembers ms ++ .scalar '}' :: t) = .ok (.obj ms, t) := by
  cases ms with
  | nil => rfl
  | cons m ms =>
    have hread := scanMembers_render H p (List.cons_ne_nil m ms) hp
      (length_le_renderMembers (m :: ms) (.scalar '}' :: t)) t
    have hs : skipWs (renderMembers (m :: ms) ++ .scalar '}' :: t) = renderMembers (m :: ms) ++ .scalar '}' :: t := by
      rw [renderMembers_cons, List.append_assoc, renderStr_ne_nil]
    have he : expect '}' (renderMembers (m :: ms) ++ .scalar '}' :: t) = none := by
      rw [renderMembers_cons, List.append_assoc, renderStr_append]
      exact expect_ne (by decide) _
    simp only [scanObject, hs, he, hread]
    rfl

/-- A numeral begins with a sign or a digit. -/
theorem expect_renderNum {c : Char} (hsign : c ≠ '-') (hdigit : ∀ d : Digit, digitChar d ≠ .scalar c) (l : NumLit)
    (t : Str) : expect c (renderNum l ++ t) = none := by
  rw [renderNum_eq]
  cases l.neg with
  | true => exact expect_ne (fun h => hsign (PyChar.scalar.inj h).symm) _
  | false => exact expect_ne (hdigit _) _

/-- **A written tree is read back**, within its depth and if what follows does not continue a numeral. -/
theorem scanOnce_render (H : Hooks ε α) (d : Doc) : ∀ {n : ℕ}, depth d ≤ n → ∀ {t : Str}, Stops t →
    scanOnce H.tree n (render d ++ t) = .ok (d, t) := by
  induction d using Doc.ind with
  | null =>
    intro n _ t _
    exact scanOnce_scalar H.tree n rfl rfl
  | bool b =>
    intro n _ t _
    cases b <;> exact scanOnce_scalar H.tree n rfl rfl
  | const c =>
    intro n _ t _
    cases c <;> exact scanOnce_scalar H.tree n rfl rfl
  | str s =>
    intro n _ t _
    simp only [render, renderStr_append]
    rw [scanOnce_scalar _ _ (expect_ne (by decide) _) (expect_ne (by decide) _), scanScalar]
    simp only [expect_self, Option.map_some, scanString_flatMap]
    rfl
  | num l =>
    intro n _ t ht
    have h1 := expect_renderNum (by decide) (fun d => (digitChar_ne_open d).1) l t
    have h2 := expect_renderNum (by decide) (fun d => (digitChar_ne_open d).2) l t
    rw [render, scanOnce_scalar _ _ h1 h2, scanScalar_num _ _ ht, Hooks.tree_number]
    rfl
  | arr ds ih =>
    intro n hn t _
    obtain ⟨n, rfl⟩ := Nat.exists_eq_succ_of_ne_zero (Nat.ne_of_gt (Nat.lt_of_lt_of_le (Nat.zero_lt_succ _) hn))
    have hd : ∀ e ∈ ds, depth e ≤ n := depthElems_le.1 (Nat.le_of_succ_le_succ hn)
    simp only [render, List.cons_append, scanOnce_arr, lit, List.map_cons, List.map_nil, List.append_assoc,
      List.nil_append]
    exact scanArray_render H (scanOnce H.tree n) (fun e he t ht => ih e he (hd e he) ht) t
  | obj ms ih =>
    intro n hn t _
    obtain ⟨n, rfl⟩ := Nat.exists_eq_succ_of_ne_zero (Nat.ne_of_gt (Nat.lt_of_lt_of_le (Nat.zero_lt_succ _) hn))
    have hd : ∀ e ∈ ms, depth e.2 ≤ n := depthMembers_le.1 (Nat.le_of_succ_le_succ hn)
    simp only [render, List.cons_append, scanOnce_obj, lit, List.map_cons, List.map_nil, List.append_assoc,
      List.nil_append]
    exact scanObject_render H (scanOnce H.tree n) (fun e he t ht => ih e he (hd e he) ht) t

theorem loads_render (H : Hooks ε α) {n : ℕ} {d : Doc} (hn : depth d ≤ n) : loads H n (render d) = build H d := by
  apply loads_build H
  have h := scanOnce_render H d hn stops_nil
  obtain ⟨c, t, hr, -, -, hbom⟩ := render_head d
  have hs : skipWs (render d) = render d := by simpa using skipWs_render d []
  rw [List.append_nil] at h
  unfold loads
  rw [hs, h, hr, expect_ne hbom]
  rfl

/-- **A text is written from one tree only.** -/
theorem render_injective {d d' : Doc} (h : render d = render d') : d = d' := by
  -- any reader would do; the deeper of the two trees sets the budget
  let H : Hooks Unit Unit :=
    ⟨(), (), (), fun _ => (), fun _ => .ok (), fun _ => .ok (), fun _ => .ok (), fun _ => (), fun _ => (),
      fun _ => .ok ()⟩
  have h1 := scanOnce_render H d (le_max_left (depth d) (depth d')) stops_nil
  have h2 := scanOnce_render H d' (le_max_right (depth d) (depth d')) stops_nil
  rw [h, h2] at h1
  cases h1
  rfl

end SharedAi.Json
