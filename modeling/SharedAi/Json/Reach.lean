import SharedAi.Json.RoundTrip

/-!
# Where a reader stops

A reader stops at the first thing that is wrong with its text, and where that is can be read off the text.

* `ElemsTo`, `MembersTo` — from an element or member of a container to a later one;
* `Reaches` — some value of the text at which `P` holds, at any nesting, with nothing wrong before it;
* `scanOnce_eq_error`, `loads_eq_error` — an error that no token and no object raises is raised at a value
  that the text reaches, and nowhere else.
-/

namespace SharedAi.Json

open SharedAi.Control SharedAi.Text SharedAi.Num

variable {ε α : Type}

/-! ### Places of a text -/

def Opens (t : Str) : Prop := (expect '{' t).isSome = true ∨ (expect '[' t).isSome = true

instance (t : Str) : Decidable (Opens t) := inferInstanceAs (Decidable (_ ∨ _))

/-- The text begins with the numeral `l`. -/
def BeginsWithNumber (t : Str) (l : NumLit) : Prop := ∃ r, scanNumber t = some (l, r)

/-- The value behind the key and the colon that the text begins with. -/
def afterKey (t : Str) : Option Str :=
  ((expect '"' t).bind scanString).bind fun (_, r) => (expect ':' (skipWs r)).map skipWs

section

variable (H : Hooks ε α)

/-- From the element at `t` on, elements that are read and their commas lead to the one at `s`. -/
inductive ElemsTo (n : ℕ) : Str → Str → Prop
  | here (s : Str) : ElemsTo n s s
  | next {t r r' s : Str} {v : α} (elem : scanOnce H n t = .ok (v, r)) (comma : expect ',' (skipWs r) = some r')
      (rest : ElemsTo n (skipWs r') s) : ElemsTo n t s

/-- From the member at `t` on, members that are read and their commas lead to the value at `s`. -/
inductive MembersTo (n : ℕ) : Str → Str → Prop
  | here {t s : Str} (key : afterKey t = some s) : MembersTo n t s
  | next {t u r r' s : Str} {v : α} (key : afterKey t = some u) (value : scanOnce H n u = .ok (v, r))
      (comma : expect ',' (skipWs r) = some r') (rest : MembersTo n (skipWs r') s) : MembersTo n t s

/-- A value at which `P` holds lies in the value at `t`, `n` levels being left there, and what comes before it
is read. -/
inductive Reaches (P : ℕ → Str → Prop) : ℕ → Str → Prop
  | here {n : ℕ} {t : Str} (h : P n t) : Reaches P n t
  | elem {n : ℕ} {t r s : Str} (bracket : expect '[' t = some r) (elems : ElemsTo H n (skipWs r) s)
      (value : Reaches P n s) : Reaches P (n + 1) t
  | member {n : ℕ} {t r s : Str} (brace : expect '{' t = some r) (members : MembersTo H n (skipWs r) s)
      (value : Reaches P n s) : Reaches P (n + 1) t

/-- The value at `t` itself stops the reader with the error `e`. -/
def StopsAt (e : ε) (n : ℕ) (t : Str) : Prop :=
  (Opens t ∧ n = 0 ∧ e = H.recursionError) ∨ (¬ Opens t ∧ scanScalar H t = .error e)

end

/-! ### Lengths -/

theorem expect_eq_some {c : Char} {t r : Str} : expect c t = some r ↔ t = .scalar c :: r := by
  cases t with
  | nil => simp [expect]
  | cons d t =>
    rw [expect, List.cons.injEq]
    split
    · next h => simp [h]
    · next h => simp [h]

theorem length_of_expect {c : Char} {t r : Str} (h : expect c t = some r) : t.length = r.length + 1 := by
  rw [expect_eq_some.1 h, List.length_cons]

theorem length_skipWs (t : Str) : (skipWs t).length ≤ t.length := (List.dropWhile_sublist _).length_le

theorem length_of_expectAll : ∀ {cs : List Char} {t r : Str}, expectAll cs t = some r → r.length ≤ t.length
  | [], t, r, h => by
    cases h
    exact le_rfl
  | c :: cs, t, r, h => by
    obtain ⟨u, hu, hr⟩ := Option.bind_eq_some_iff.1 h
    have := length_of_expect hu
    have := length_of_expectAll hr
    omega

theorem length_of_scanUnit {t r : Str} {u : ℕ} (h : scanUnit t = some (u, r)) : r.length ≤ t.length := by
  unfold scanUnit at h
  split at h
  · obtain ⟨v, -, hv⟩ := Option.map_eq_some_iff.1 h
    cases hv
    simp only [List.length_cons]
    omega
  · cases h

theorem length_of_scanUnicode {t r : Str} {c : PyChar} (h : scanUnicode t = some (c, r)) : r.length ≤ t.length := by
  obtain ⟨⟨u, r0⟩, hu, h⟩ := Option.bind_eq_some_iff.1 h
  have h0 := length_of_scanUnit hu
  dsimp only at h
  split at h
  · split at h
    · cases h
      exact h0
    · next r1 h1 =>
      obtain ⟨⟨u', r2⟩, hu', h⟩ := Option.bind_eq_some_iff.1 h
      have h1 := length_of_expectAll h1
      have h2 := length_of_scanUnit hu'
      dsimp only at h
      split at h
      · cases h
        omega
      · cases h
        omega
  · cases h
    exact h0

theorem length_of_scanEscape {t r : Str} {c : PyChar} (h : scanEscape t = some (c, r)) : r.length ≤ t.length := by
  cases t with
  | nil => cases h
  | cons e t =>
    rw [scanEscape] at h
    split at h
    · exact (length_of_scanUnicode h).trans (Nat.le_succ _)
    · obtain ⟨d, -, hd⟩ := Option.map_eq_some_iff.1 h
      cases hd
      exact Nat.le_succ _

theorem length_of_scanChars : ∀ {k : ℕ} {t s r : Str}, scanChars k t = some (s, r) → r.length ≤ t.length
  | 0, _, _, _, h => by cases h
  | _ + 1, [], _, _, h => by cases h
  | k + 1, c :: t, s, r, h => by
    rw [scanChars] at h
    simp only [List.length_cons]
    split at h
    · cases h
      omega
    split at h
    · obtain ⟨⟨e, u⟩, he, h⟩ := Option.bind_eq_some_iff.1 h
      obtain ⟨⟨s', r'⟩, hs, heq⟩ := Option.map_eq_some_iff.1 h
      obtain rfl : r' = r := (Prod.mk.inj heq).2
      have := length_of_scanEscape he
      have := length_of_scanChars hs
      omega
    split at h
    · cases h
    · obtain ⟨⟨s', r'⟩, hs, heq⟩ := Option.map_eq_some_iff.1 h
      obtain rfl : r' = r := (Prod.mk.inj heq).2
      have := length_of_scanChars hs
      omega

theorem length_scanDigits : ∀ t : Str, (scanDigits t).2.length ≤ t.length
  | [] => le_rfl
  | c :: t => by
    rw [scanDigits]
    split
    · exact le_rfl
    · exact (length_scanDigits t).trans (Nat.le_succ _)

theorem length_of_scanInt {t r : Str} {i : IntPart} (h : scanInt t = some (i, r)) : r.length ≤ t.length := by
  cases t with
  | nil => cases h
  | cons c t =>
    rw [scanInt] at h
    split at h
    · cases h
    split at h
    · cases h
      exact Nat.le_succ _
    · cases h
      exact (length_scanDigits t).trans (Nat.le_succ _)

theorem length_scanFrac (t : Str) : (scanFrac t).2.length ≤ t.length := by
  unfold scanFrac
  split
  · exact le_rfl
  · next r h =>
    split
    · exact le_rfl
    · have := length_of_expect h
      have := length_scanDigits r
      omega

theorem length_scanExp (t : Str) : (scanExp t).2.length ≤ t.length := by
  have hsign : ∀ t : Str, (scanSign t).2.length ≤ t.length := by
    intro t
    unfold scanSign
    split
    · next r h => exact (length_of_expect h).symm ▸ Nat.le_succ _
    · cases h : expect '+' t with
      | none => exact le_rfl
      | some r => exact (length_of_expect h).symm ▸ Nat.le_succ _
  unfold scanExp
  split
  · exact le_rfl
  · next r h =>
    have hr : r.length ≤ t.length := by
      rcases Option.or_eq_some_iff.1 h with h | ⟨-, h⟩
      · exact (length_of_expect h).symm ▸ Nat.le_succ _
      · exact (length_of_expect h).symm ▸ Nat.le_succ _
    split
    · exact le_rfl
    · next d ds r' hd =>
      have h' := length_scanDigits (scanSign r).2
      rw [hd] at h'
      exact h'.trans ((hsign r).trans hr)

theorem length_of_scanNumber {t r : Str} {l : NumLit} (h : scanNumber t = some (l, r)) : r.length ≤ t.length := by
  unfold scanNumber at h
  dsimp only at h
  split at h
  · cases h
  · next i u hi =>
    cases h
    have hsign : ((expect '-' t).getD t).length ≤ t.length := by
      cases h : expect '-' t with
      | none => exact le_rfl
      | some r => exact (length_of_expect h).symm ▸ Nat.le_succ _
    exact (length_scanExp _).trans ((length_scanFrac u).trans ((length_of_scanInt hi).trans hsign))

theorem length_of_afterKey {t s : Str} (h : afterKey t = some s) : s.length < t.length := by
  obtain ⟨⟨k, r⟩, hk, h⟩ := Option.bind_eq_some_iff.1 h
  obtain ⟨u, hu, hk⟩ := Option.bind_eq_some_iff.1 hk
  obtain ⟨u', hu', rfl⟩ := Option.map_eq_some_iff.1 h
  have := length_of_expect hu
  have := length_of_scanChars hk
  have := length_skipWs r
  have := length_of_expect hu'
  have := length_skipWs u'
  omega

section Scan

variable {H : Hooks ε α}

theorem length_of_scanScalar {t r : Str} {v : α} (h : scanScalar H t = .ok (v, r)) : r.length ≤ t.length := by
  have hmap : ∀ {x : Except ε α} {u : Str}, x.map (·, u) = .ok (v, r) → u.length ≤ t.length →
      r.length ≤ t.length := by
    intro x u hx hu
    obtain ⟨w, -, hw⟩ := map_eq_ok.1 hx
    cases hw
    exact hu
  unfold scanScalar at h
  split at h
  · cases h
  · next s u hs =>
    cases h
    obtain ⟨w, hw, hu⟩ := Option.map_eq_some_iff.1 hs
    exact (length_of_scanChars hu).trans ((length_of_expect hw).symm ▸ Nat.le_succ _)
  split at h
  · next u hu =>
    cases h
    exact length_of_expectAll hu
  split at h
  · next u hu =>
    cases h
    exact length_of_expectAll hu
  split at h
  · next u hu =>
    cases h
    exact length_of_expectAll hu
  split at h
  · next u hu => exact hmap h (length_of_expectAll hu)
  split at h
  · next u hu => exact hmap h (length_of_expectAll hu)
  split at h
  · next u hu => exact hmap h (length_of_expectAll hu)
  split at h
  · next l u hu => exact hmap h (length_of_scanNumber hu)
  · cases h

theorem length_of_scanElems {p : Str → Except ε (α × Str)} (hp : ∀ {t r v}, p t = .ok (v, r) → r.length ≤ t.length) :
    ∀ {k : ℕ} {t r : Str} {vs : List α}, scanElems H p k t = .ok (vs, r) → r.length ≤ t.length
  | 0, _, _, _, h => by cases h
  | k + 1, t, r, vs, h => by
    obtain ⟨⟨v, u⟩, hv, h⟩ := bind_eq_ok.1 h
    have h0 := hp hv
    have h1 := length_skipWs u
    dsimp only at h
    split at h
    · next w hw =>
      obtain ⟨⟨ws, r'⟩, hs, h⟩ := bind_eq_ok.1 h
      obtain rfl : r' = r := (Prod.mk.inj (Except.ok.inj h)).2
      have := length_of_expect hw
      have := length_skipWs w
      have := length_of_scanElems hp hs
      omega
    split at h
    · next w hw =>
      cases h
      have := length_of_expect hw
      omega
    · cases h

theorem scanMembers_succ (p : Str → Except ε (α × Str)) (k : ℕ) (t : Str) : scanMembers H p (k + 1) t =
    match (expect '"' t).bind scanString with
    | none => .error H.syntaxError
    | some (key, r) =>
      match expect ':' (skipWs r) with
      | none => .error H.syntaxError
      | some r => p (skipWs r) >>= fun q =>
        match expect ',' (skipWs q.2) with
        | some r => scanMembers H p k (skipWs r) >>= fun ms => pure ((key, q.1) :: ms.1, ms.2)
        | none =>
          match expect '}' (skipWs q.2) with
          | some r => pure ([(key, q.1)], r)
          | none => .error H.syntaxError := rfl

theorem length_of_scanMembers {p : Str → Except ε (α × Str)}
    (hp : ∀ {t r v}, p t = .ok (v, r) → r.length ≤ t.length) :
    ∀ {k : ℕ} {t r : Str} {ms : List (Str × α)}, scanMembers H p k t = .ok (ms, r) → r.length ≤ t.length
  | 0, _, _, _, h => by cases h
  | k + 1, t, r, ms, h => by
    rw [scanMembers_succ] at h
    split at h
    · cases h
    next key r0 hkey =>
    split at h
    · cases h
    next r1 hcolon =>
    have hafter : afterKey t = some (skipWs r1) := by
      simp only [afterKey, hkey, Option.bind_some, hcolon, Option.map_some]
    have h0 := length_of_afterKey hafter
    obtain ⟨⟨v, u⟩, hv, h⟩ := bind_eq_ok.1 h
    have h1 := hp hv
    have h2 := length_skipWs u
    dsimp only at h
    split at h
    · next w hw =>
      obtain ⟨⟨ws, r'⟩, hs, h⟩ := bind_eq_ok.1 h
      obtain rfl : r' = r := (Prod.mk.inj (Except.ok.inj h)).2
      have := length_of_expect hw
      have := length_skipWs w
      have := length_of_scanMembers hp hs
      omega
    split at h
    · next w hw =>
      cases h
      have := length_of_expect hw
      omega
    · cases h

/-- What is left of a text behind a value is not longer than the text. -/
theorem length_of_scanOnce : ∀ {n : ℕ} {t r : Str} {v : α}, scanOnce H n t = .ok (v, r) → r.length ≤ t.length
  | 0, t, r, v, h => by
    rw [scanOnce] at h
    split at h
    · cases h
    · exact length_of_scanScalar h
  | n + 1, t, r, v, h => by
    rw [scanOnce] at h
    split at h
    · next u hu =>
      have h0 := length_of_expect hu
      have h1 := length_skipWs u
      unfold scanObject at h
      split at h
      · next w hw =>
        obtain ⟨_, -, h⟩ := bind_eq_ok.1 h
        cases h
        have := length_of_expect hw
        omega
      · obtain ⟨⟨ms, w⟩, hms, h⟩ := bind_eq_ok.1 h
        obtain ⟨_, -, h⟩ := bind_eq_ok.1 h
        cases h
        have := length_of_scanMembers length_of_scanOnce hms
        omega
    split at h
    · next u hu =>
      have h0 := length_of_expect hu
      have h1 := length_skipWs u
      unfold scanArray at h
      split at h
      · next w hw =>
        cases h
        have := length_of_expect hw
        omega
      · obtain ⟨⟨vs, w⟩, hvs, h⟩ := bind_eq_ok.1 h
        cases h
        have := length_of_scanElems length_of_scanOnce hvs
        omega
    · exact length_of_scanScalar h

/-! ### Errors -/

variable {e : ε}

theorem not_opens_iff {t : Str} : ¬ Opens t ↔ expect '{' t = none ∧ expect '[' t = none := by
  simp [Opens]

/-- What is left behind a value and a comma is shorter. -/
theorem length_of_next {n : ℕ} {t r r' : Str} {v : α} (hv : scanOnce H n t = .ok (v, r))
    (hr : expect ',' (skipWs r) = some r') : (skipWs r').length < t.length := by
  have := length_of_scanOnce hv
  have := length_skipWs r
  have := length_of_expect hr
  have := length_skipWs r'
  omega

theorem scanOnce_nil (H : Hooks ε α) (n : ℕ) : scanOnce H n [] = .error H.syntaxError := by
  rw [scanOnce_scalar H n rfl rfl]
  rfl

/-- An array stops at an element that it reaches. -/
theorem scanElems_eq_error (hs : H.syntaxError ≠ e) (n : ℕ) : ∀ {k : ℕ} {t : Str}, t.length ≤ k →
    (scanElems H (scanOnce H n) k t = .error e ↔ ∃ s, ElemsTo H n t s ∧ scanOnce H n s = .error e)
  | 0, t, hk => by
    obtain rfl := List.length_eq_zero_iff.1 (Nat.le_zero.1 hk)
    constructor
    · exact fun h => absurd (Except.error.inj h) hs
    · rintro ⟨s, hto, he⟩
      cases hto with
      | here =>
        rw [scanOnce_nil] at he
        exact absurd (Except.error.inj he) hs
      | next hv =>
        rw [scanOnce_nil] at hv
        cases hv
  | k + 1, t, hk => by
    rw [scanElems, bind_eq_error]
    constructor
    · rintro (h | ⟨⟨v, r⟩, hv, h⟩)
      · exact ⟨t, .here t, h⟩
      · dsimp only at h
        split at h
        · next r' hr =>
          have hlen := length_of_next hv hr
          rcases bind_eq_error.1 h with h | ⟨_, _, h⟩
          · obtain ⟨s, hto, hs⟩ := (scanElems_eq_error hs n (by omega)).1 h
            exact ⟨s, .next hv hr hto, hs⟩
          · cases h
        split at h
        · cases h
        · exact absurd (Except.error.inj h) hs
    · rintro ⟨s, hto, he⟩
      cases hto with
      | here => exact .inl he
      | @next _ r r' _ v hv hr hto =>
        have hlen := length_of_next hv hr
        refine .inr ⟨(v, r), hv, ?_⟩
        dsimp only
        rw [hr]
        exact bind_eq_error.2 (.inl ((scanElems_eq_error hs n (by omega)).2 ⟨s, hto, he⟩))

/-- An object stops at a value that it reaches. -/
theorem scanMembers_eq_error (hs : H.syntaxError ≠ e) (n : ℕ) : ∀ {k : ℕ} {t : Str}, t.length ≤ k →
    (scanMembers H (scanOnce H n) k t = .error e ↔ ∃ s, MembersTo H n t s ∧ scanOnce H n s = .error e)
  | 0, t, hk => by
    obtain rfl := List.length_eq_zero_iff.1 (Nat.le_zero.1 hk)
    constructor
    · exact fun h => absurd (Except.error.inj h) hs
    · rintro ⟨s, hto, -⟩
      cases hto with
      | here key => cases key
      | next key => cases key
  | k + 1, t, hk => by
    rw [scanMembers_succ]
    have hnone : afterKey t = none → ¬ ∃ s, MembersTo H n t s ∧ scanOnce H n s = .error e := by
      rintro hn ⟨s, hto, -⟩
      cases hto with
      | here key => cases hn.symm.trans key
      | next key => cases hn.symm.trans key
    split
    · next hkey =>
      have hn : afterKey t = none := by rw [afterKey, hkey, Option.bind_none]
      exact ⟨fun h => absurd (Except.error.inj h) hs, fun h => absurd h (hnone hn)⟩
    next key r0 hkey =>
    split
    · next hcolon =>
      have hn : afterKey t = none := by
        simp only [afterKey, hkey, Option.bind_some, hcolon, Option.map_none]
      exact ⟨fun h => absurd (Except.error.inj h) hs, fun h => absurd h (hnone hn)⟩
    next r1 hcolon =>
    have hafter : afterKey t = some (skipWs r1) := by
      simp only [afterKey, hkey, Option.bind_some, hcolon, Option.map_some]
    have hshort := length_of_afterKey hafter
    rw [bind_eq_error]
    constructor
    · rintro (h | ⟨⟨v, r⟩, hv, h⟩)
      · exact ⟨_, .here hafter, h⟩
      · dsimp only at h
        split at h
        · next r' hr =>
          have hlen := length_of_next hv hr
          rcases bind_eq_error.1 h with h | ⟨_, _, h⟩
          · obtain ⟨s, hto, hs⟩ := (scanMembers_eq_error hs n (by omega)).1 h
            exact ⟨s, .next hafter hv hr hto, hs⟩
          · cases h
        split at h
        · cases h
        · exact absurd (Except.error.inj h) hs
    · rintro ⟨s, hto, he⟩
      cases hto with
      | here key =>
        cases hafter.symm.trans key
        exact .inl he
      | @next _ u r r' _ v key hv hr hto =>
        cases hafter.symm.trans key
        have hlen := length_of_next hv hr
        refine .inr ⟨(v, r), hv, ?_⟩
        dsimp only
        rw [hr]
        exact bind_eq_error.2 (.inl ((scanMembers_eq_error hs n (by omega)).2 ⟨s, hto, he⟩))

theorem afterKey_brace {t r : Str} (h : expect '}' t = some r) : afterKey t = none := by
  rw [expect_eq_some.1 h]
  rfl

theorem not_membersTo {n : ℕ} {t s : Str} (h : afterKey t = none) : ¬ MembersTo H n t s := by
  intro hto
  cases hto with
  | here key => cases h.symm.trans key
  | next key => cases h.symm.trans key

theorem scanObject_eq_error (hs : H.syntaxError ≠ e) (ho : ∀ ps, H.objectPairs ps ≠ .error e) {n : ℕ} {r : Str} :
    scanObject H (scanOnce H n) r = .error e ↔ ∃ s, MembersTo H n (skipWs r) s ∧ scanOnce H n s = .error e := by
  unfold scanObject
  split
  · next r' hr =>
    constructor
    · intro h
      rcases bind_eq_error.1 h with h | ⟨_, _, h⟩
      · exact absurd h (ho [])
      · cases h
    · rintro ⟨s, hto, -⟩
      exact absurd hto (not_membersTo (afterKey_brace hr))
  · rw [bind_eq_error, ← scanMembers_eq_error hs n (length_skipWs r)]
    constructor
    · rintro (h | ⟨⟨ms, r'⟩, -, h⟩)
      · exact h
      · rcases bind_eq_error.1 h with h | ⟨_, _, h⟩
        · exact absurd h (ho ms)
        · cases h
    · exact .inl

theorem scanArray_eq_error (hs : H.syntaxError ≠ e) {n : ℕ} {r : Str} :
    scanArray H (scanOnce H n) r = .error e ↔ ∃ s, ElemsTo H n (skipWs r) s ∧ scanOnce H n s = .error e := by
  unfold scanArray
  split
  · next r' hr =>
    have hbracket : scanOnce H n (skipWs r) = .error H.syntaxError := by
      rw [expect_eq_some.1 hr, scanOnce_scalar H n rfl rfl]
      rfl
    constructor
    · intro h
      cases h
    · rintro ⟨s, hto, he⟩
      cases hto with
      | here =>
        rw [hbracket] at he
        exact absurd (Except.error.inj he) hs
      | next hv =>
        rw [hbracket] at hv
        cases hv
  · rw [bind_eq_error, ← scanElems_eq_error hs n (length_skipWs r)]
    constructor
    · rintro (h | ⟨⟨vs, r'⟩, -, h⟩)
      · exact h
      · cases h
    · exact .inl

theorem not_stopsAt {n : ℕ} {t : Str} (h : Opens t) : ¬ StopsAt H e (n + 1) t := by
  rintro (⟨-, hn, -⟩ | ⟨hn, -⟩)
  · cases hn
  · exact hn h

/-- A value stops the reader if and only if it reaches a value that does so itself. -/
theorem scanOnce_eq_error (hs : H.syntaxError ≠ e) (ho : ∀ ps, H.objectPairs ps ≠ .error e) : ∀ {n : ℕ} {t : Str},
    scanOnce H n t = .error e ↔ Reaches H (StopsAt H e) n t
  | 0, t => by
    have hhere : Reaches H (StopsAt H e) 0 t ↔ StopsAt H e 0 t :=
      ⟨fun h => by cases h with | here h => exact h, .here⟩
    rw [hhere, scanOnce, StopsAt]
    change (if Opens t then _ else _) = _ ↔ _
    split
    · next h => simp [h, eq_comm]
    · next h => simp [h]
  | n + 1, t => by
    rw [scanOnce]
    split
    · next r hr =>
      rw [scanObject_eq_error hs ho]
      simp only [scanOnce_eq_error hs ho]
      constructor
      · rintro ⟨s, hto, hv⟩
        exact .member hr hto hv
      · intro h
        cases h with
        | here h => exact absurd h (not_stopsAt (.inl (by rw [hr, Option.isSome_some])))
        | elem bracket =>
          rw [expect_eq_some.1 hr] at bracket
          cases bracket
        | member brace hto hv =>
          cases hr.symm.trans brace
          exact ⟨_, hto, hv⟩
    · next hbrace =>
      split
      · next r hr =>
        rw [scanArray_eq_error hs]
        simp only [scanOnce_eq_error hs ho]
        constructor
        · rintro ⟨s, hto, hv⟩
          exact .elem hr hto hv
        · intro h
          cases h with
          | here h => exact absurd h (not_stopsAt (.inr (by rw [hr, Option.isSome_some])))
          | elem bracket hto hv =>
            cases hr.symm.trans bracket
            exact ⟨_, hto, hv⟩
          | member brace => cases hbrace.symm.trans brace
      · next hbracket =>
        have hopens : ¬ Opens t := not_opens_iff.2 ⟨hbrace, hbracket⟩
        constructor
        · exact fun h => .here (.inr ⟨hopens, h⟩)
        · intro h
          cases h with
          | here h =>
            rcases h with ⟨h, -⟩ | ⟨-, h⟩
            · exact absurd h hopens
            · exact h
          | elem bracket => cases hbracket.symm.trans bracket
          | member brace => cases hbrace.symm.trans brace

/-- **A reader stops with an error of a value where its text reaches such a value.** -/
theorem loads_eq_error (hs : H.syntaxError ≠ e) (ho : ∀ ps, H.objectPairs ps ≠ .error e) {n : ℕ} {t : Str} :
    loads H n t = .error e ↔ expect '\ufeff' t = none ∧ Reaches H (StopsAt H e) n (skipWs t) := by
  rw [← scanOnce_eq_error hs ho]
  unfold loads
  split
  · next h =>
    constructor
    · exact fun h => absurd (Except.error.inj h) hs
    · rintro ⟨hn, -⟩
      rw [hn] at h
      cases h
  · next h =>
    have hn : expect '\ufeff' t = none := by simpa using h
    rw [bind_eq_error]
    constructor
    · rintro (h | ⟨⟨v, r⟩, -, h⟩)
      · exact ⟨hn, h⟩
      · dsimp only at h
        split at h
        · cases h
        · exact absurd (Except.error.inj h) hs
    · exact fun h => .inl h.2

/-- Which values are looked for matters only where the text reaches them. -/
theorem Reaches.congr {P Q : ℕ → Str → Prop} (h : ∀ n t, P n t ↔ Q n t) {n : ℕ} {t : Str} :
    Reaches H P n t ↔ Reaches H Q n t := by
  rw [show P = Q from funext fun n => funext fun t => propext (h n t)]

/-! ### Numerals -/

theorem scanNumber_eq_none {c : PyChar} (h : digit? c = none) (hc : c ≠ .scalar '-') (t : Str) :
    scanNumber (c :: t) = none := by
  simp [scanNumber, expect_ne hc, scanInt, h]

theorem scanNumber_minus_eq_none {c : PyChar} (h : digit? c = none) (t : Str) :
    scanNumber (.scalar '-' :: c :: t) = none := by
  simp [scanNumber, scanInt, h]

/-- A value that begins as a numeral does is that numeral. -/
theorem scanScalar_of_number {t : Str} {l : NumLit} (h : BeginsWithNumber t l) :
    ∃ r, scanScalar H t = (H.number l).map (·, r) := by
  obtain ⟨r, h⟩ := h
  have hhead : ∀ {c : Char} {u : Str}, expect c t = some u → digit? (.scalar c) ≠ none ∨ c = '-' := by
    intro c u hu
    rw [expect_eq_some.1 hu] at h
    by_contra hc
    rw [not_or, not_not] at hc
    rw [scanNumber_eq_none hc.1 (fun h => hc.2 (PyChar.scalar.inj h))] at h
    cases h
  have hfirst : ∀ {c : Char} {cs : List Char}, digit? (.scalar c) = none → c ≠ '-' → expectAll (c :: cs) t = none := by
    intro c cs hd hc
    rw [expectAll, Option.bind_eq_none_iff]
    intro u hu
    exact absurd (hhead hu) (by simp [hd, hc])
  have hquote : expect '"' t = none := by
    cases hu : expect '"' t with
    | none => rfl
    | some u => exact absurd (hhead hu) (by decide)
  have hinfinity : expectAll ['-', 'I', 'n', 'f', 'i', 'n', 'i', 't', 'y'] t = none := by
    rw [expectAll, Option.bind_eq_none_iff]
    intro u hu
    rw [expectAll, Option.bind_eq_none_iff]
    intro w hw
    rw [expect_eq_some.1 hu, expect_eq_some.1 hw, scanNumber_minus_eq_none (by decide)] at h
    cases h
  refine ⟨r, ?_⟩
  unfold scanScalar
  rw [hquote]
  dsimp only [Option.map_none]
  rw [hfirst (by decide) (by decide), hfirst (by decide) (by decide), hfirst (by decide) (by decide),
    hfirst (by decide) (by decide), hfirst (by decide) (by decide), hinfinity, h]

/-- A value that is no container fails on its own account if it is a numeral that the hooks refuse. -/
theorem scanScalar_eq_error (hs : H.syntaxError ≠ e) (hc : ∀ c, H.parseConstant c ≠ .error e) {t : Str} :
    scanScalar H t = .error e ↔ ∃ l, BeginsWithNumber t l ∧ H.number l = .error e := by
  constructor
  · intro h
    unfold scanScalar at h
    split at h
    · exact absurd (Except.error.inj h) hs
    · cases h
    split at h
    · cases h
    split at h
    · cases h
    split at h
    · cases h
    split at h
    · exact absurd (map_eq_error.1 h) (hc _)
    split at h
    · exact absurd (map_eq_error.1 h) (hc _)
    split at h
    · exact absurd (map_eq_error.1 h) (hc _)
    split at h
    · next l r hl => exact ⟨l, ⟨r, hl⟩, map_eq_error.1 h⟩
    · exact absurd (Except.error.inj h) hs
  · rintro ⟨l, hl, h⟩
    obtain ⟨r, hr⟩ := scanScalar_of_number (H := H) hl
    rw [hr, h]
    rfl

/-- A container is no numeral. -/
theorem not_opens_of_number {t : Str} {l : NumLit} (h : BeginsWithNumber t l) : ¬ Opens t := by
  obtain ⟨r, h⟩ := h
  rintro (ho | ho)
  · obtain ⟨u, hu⟩ := Option.isSome_iff_exists.1 ho
    rw [expect_eq_some.1 hu, scanNumber_eq_none (by decide) (by decide)] at h
    cases h
  · obtain ⟨u, hu⟩ := Option.isSome_iff_exists.1 ho
    rw [expect_eq_some.1 hu, scanNumber_eq_none (by decide) (by decide)] at h
    cases h

/-- The container at `t` is one too many. -/
def TooDeep (n : ℕ) (t : Str) : Prop := n = 0 ∧ Opens t

/-- **A reader runs out of levels where its text opens one container too many, before anything is wrong with it.** -/
theorem loads_eq_recursionError (hs : H.syntaxError ≠ H.recursionError)
    (ho : ∀ ps, H.objectPairs ps ≠ .error H.recursionError) (hc : ∀ c, H.parseConstant c ≠ .error H.recursionError)
    (hn : ∀ l, H.number l ≠ .error H.recursionError) {n : ℕ} {t : Str} :
    loads H n t = .error H.recursionError ↔ expect '\ufeff' t = none ∧ Reaches H TooDeep n (skipWs t) := by
  have hstops : ∀ n t, StopsAt H H.recursionError n t ↔ TooDeep n t := by
    intro n t
    have hscalar : scanScalar H t ≠ .error H.recursionError := by
      intro h
      obtain ⟨l, -, h⟩ := (scanScalar_eq_error hs hc).1 h
      exact hn l h
    simp [StopsAt, TooDeep, hscalar, and_comm]
  rw [loads_eq_error hs ho, Reaches.congr hstops]

/-- **A reader stops with the error of a numeral where its text holds such a numeral, before anything is wrong
with it.** -/
theorem loads_eq_numberError (hs : H.syntaxError ≠ e) (hr : H.recursionError ≠ e)
    (ho : ∀ ps, H.objectPairs ps ≠ .error e) (hc : ∀ c, H.parseConstant c ≠ .error e) {n : ℕ} {t : Str} :
    loads H n t = .error e ↔ expect '\ufeff' t = none ∧
      Reaches H (fun _ s => ∃ l, BeginsWithNumber s l ∧ H.number l = .error e) n (skipWs t) := by
  have hstops : ∀ n t, StopsAt H e n t ↔ ∃ l, BeginsWithNumber t l ∧ H.number l = .error e := by
    intro n t
    rw [StopsAt, scanScalar_eq_error hs hc]
    constructor
    · rintro (⟨-, -, h⟩ | ⟨-, h⟩)
      · exact absurd h.symm hr
      · exact h
    · rintro ⟨l, hl, h⟩
      exact .inr ⟨not_opens_of_number hl, l, hl, h⟩
  rw [loads_eq_error hs ho, Reaches.congr hstops]

end Scan

end SharedAi.Json
