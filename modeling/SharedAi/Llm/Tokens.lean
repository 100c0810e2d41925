import SharedAi.Control.Raises
import SharedAi.Num.Division
import SharedAi.Python.Exn
import SharedAi.Text.Words

/-!
# Token estimates

`llm/tokens.py`: how many tokens a text is counted for in a budget.

* `estimateTokens` — the function, and `tokensOf` its last line;
* `tokensOf_mono` — longer texts are not counted for less, in spite of two roundings;
* `estimate_grows` — at any ratio, what a text is counted for when white space changes or text is added;
* `estimate_default` — at the default ratio, one token for each four characters begun.
-/

namespace SharedAi.Llm

open SharedAi.Control SharedAi.Num SharedAi.Python SharedAi.Text

/-! ### The function -/

theorem isDouble_one : IsDouble (2 ^ 52) (Float64.unitExp - 52) := by decide

theorem isDouble_four : IsDouble (2 ^ 52) (Float64.unitExp - 50) := by decide

/-- `1.0`. -/
def one : Float64 := .finite false _ _ isDouble_one

/-- `4.0`, the default of `chars_per_token`. -/
def four : Float64 := .finite false _ _ isDouble_four

/-- `max(x, y)`. -/
def maxFloat (x y : Float64) : Float64 := if x.lt y then y else x

/-- `n / x`. -/
def intDiv (n : ℕ) (x : Float64) : Except Exn Float64 :=
  if (Float64.ofInt n).isFinite then .ok ((Float64.ofInt n).div x) else .error (.exception "OverflowError")

/-- `math.ceil(x)`. -/
def mathCeil (x : Float64) : Except Exn ℤ :=
  match x.ceil with
  | some n => .ok n
  | none => .error (if x = .nan then .valueError else .exception "OverflowError")

/-- `max(1, math.ceil(length / max(chars_per_token, 1.0)))`. -/
def tokensOf (length : ℕ) (charsPerToken : Float64) : Except Exn ℤ := do
  let quotient ← intDiv length (maxFloat charsPerToken one)
  (mathCeil quotient).map (max 1)

/-- `" ".join(text.split())`. -/
def normalized (text : Str) : Str := unwords (.scalar ' ') (words PyChar.isSpace text)

/-- `estimate_tokens`. -/
def estimateTokens (text : Option Str) (charsPerToken : Float64) : Except Exn ℤ :=
  match text with
  | none | some [] => .ok 0
  | some text => if normalized text = [] then .ok 0 else tokensOf (normalized text).length charsPerToken

/-! ### Lengths -/

section Lengths

variable {n n' : ℕ} {r : Float64} {k : ℤ}

theorem ofInt_natCast (n : ℕ) : Float64.ofInt n = Float64.round false n 1 := by
  have hneg : ¬ ((n : ℤ) < 0) := by omega
  simp [Float64.ofInt, hneg]

theorem scaled_pos {m : ℕ} (hm : 0 < m) (j : ℕ) : (0 : ℤ) < Float64.scaled false m j :=
  Int.natCast_pos.2 (Nat.mul_pos hm (Nat.two_pow_pos j))

/-- The ratio that is divided by: at least one, infinite, or no number. -/
theorem maxFloat_one (r : Float64) : maxFloat r one = .nan ∨ maxFloat r one = .inf false ∨
    ∃ m j ok, maxFloat r one = .finite false m j ok ∧ 0 < m := by
  unfold maxFloat
  cases r with
  | nan => exact .inl rfl
  | inf neg =>
    cases neg
    · exact .inr (.inl rfl)
    · exact .inr (.inr ⟨_, _, isDouble_one, rfl, Nat.two_pow_pos 52⟩)
  | finite neg m j ok =>
    split
    · exact .inr (.inr ⟨_, _, isDouble_one, rfl, Nat.two_pow_pos 52⟩)
    · next hlt =>
      have hge : Float64.scaled false (2 ^ 52) (Float64.unitExp - 52) ≤ Float64.scaled neg m j := by
        simpa [Float64.lt, one] using hlt
      have hpos := (scaled_pos (Nat.two_pow_pos 52) (Float64.unitExp - 52)).trans_le hge
      cases neg with
      | true =>
        have hneg : Float64.scaled true m j = -((m * 2 ^ j : ℕ) : ℤ) := rfl
        omega
      | false =>
        have hcast : Float64.scaled false m j = ((m * 2 ^ j : ℕ) : ℤ) := rfl
        exact .inr (.inr ⟨m, j, ok, rfl, Nat.pos_of_mul_pos_right (Int.natCast_pos.1 (hcast ▸ hpos))⟩)

theorem intDiv_eq_ok {m j : ℕ} {ok : IsDouble m j} {q : Float64} : intDiv n (.finite false m j ok) = .ok q ↔
    Float64.rounded n 1 < 2 ^ Float64.overflowExp ∧ q = .round false (Float64.rounded n 1) (m * 2 ^ j) := by
  rw [intDiv, ofInt_natCast, ← Float64.isFinite_round_iff false Nat.one_pos]
  by_cases hfinite : (Float64.round false n 1).isFinite = true
  · obtain ⟨a, i, ok', hround, hunits⟩ := Float64.exists_round hfinite
    rw [if_pos hfinite, hround, Float64.div_finite, hunits, Except.ok.injEq]
    exact ⟨fun h => ⟨rfl, h.symm⟩, fun h => h.2.symm⟩
  · rw [if_neg hfinite]
    exact iff_of_false nofun fun h => hfinite h.1

theorem mathCeil_round {num den : ℕ} (hden : 0 < den) : mathCeil (.round false num den) = .ok k ↔
    Float64.rounded num den < 2 ^ Float64.overflowExp ∧
      k = (((Float64.rounded num den + (Float64.unit - 1)) / Float64.unit : ℕ) : ℤ) := by
  rw [← Float64.isFinite_round_iff false hden]
  by_cases hfinite : (Float64.round false num den).isFinite = true
  · obtain ⟨a, i, ok', hround, hunits⟩ := Float64.exists_round hfinite
    rw [← hunits, hround, mathCeil, Float64.ceil_finite, Except.ok.injEq]
    exact ⟨fun h => ⟨rfl, h.symm⟩, fun h => h.2.symm⟩
  · have hnone : (Float64.round false num den).ceil = none := by
      generalize Float64.round false num den = q at hfinite
      cases q with
      | finite => exact absurd rfl hfinite
      | inf | nan => rfl
    rw [mathCeil, hnone]
    exact iff_of_false nofun fun h => hfinite h.1

/-- What a text of `n` characters is counted for, in exact numbers. -/
theorem tokensOf_eq_ok {m j : ℕ} {ok : IsDouble m j} (hr : maxFloat r one = .finite false m j ok) (hm : 0 < m) :
    tokensOf n r = .ok k ↔ Float64.rounded n 1 < 2 ^ Float64.overflowExp ∧
      Float64.rounded (Float64.rounded n 1) (m * 2 ^ j) < 2 ^ Float64.overflowExp ∧
      k = max 1
        (((Float64.rounded (Float64.rounded n 1) (m * 2 ^ j) + (Float64.unit - 1)) / Float64.unit : ℕ) : ℤ) := by
  have hden : 0 < m * 2 ^ j := Nat.mul_pos hm (Nat.two_pow_pos j)
  unfold tokensOf
  rw [hr]
  simp only [bind_eq_ok, map_eq_ok, intDiv_eq_ok]
  constructor
  · rintro ⟨q, ⟨hlt, rfl⟩, c, hc, rfl⟩
    obtain ⟨hlt', rfl⟩ := (mathCeil_round hden).1 hc
    exact ⟨hlt, hlt', rfl⟩
  · rintro ⟨hlt, hlt', rfl⟩
    exact ⟨_, ⟨hlt, rfl⟩, _, (mathCeil_round hden).2 ⟨hlt', rfl⟩, rfl⟩

theorem tokensOf_of_nan (hr : maxFloat r one = .nan) : tokensOf n r ≠ .ok k := by
  unfold tokensOf intDiv
  rw [hr, Float64.div_nan]
  split <;> nofun

/-- An infinite ratio counts every text for one. -/
theorem tokensOf_of_inf (hr : maxFloat r one = .inf false) :
    tokensOf n r = .ok k ↔ Float64.rounded n 1 < 2 ^ Float64.overflowExp ∧ k = 1 := by
  have hceil : mathCeil (.round false 0 1) = .ok 0 := by
    rw [mathCeil_round Nat.one_pos, Float64.rounded_zero Nat.one_pos]
    have hunit : 0 < Float64.unit := Nat.two_pow_pos _
    refine ⟨Nat.two_pow_pos _, ?_⟩
    rw [Nat.zero_add, Nat.div_eq_of_lt (Nat.sub_one_lt hunit.ne')]
    rfl
  unfold tokensOf intDiv
  rw [hr, ofInt_natCast, ← Float64.isFinite_round_iff false Nat.one_pos]
  by_cases hfinite : (Float64.round false n 1).isFinite = true
  · obtain ⟨a, i, ok', hround, -⟩ := Float64.exists_round hfinite
    rw [if_pos hfinite, hround, Float64.div_inf, ok_bind, hceil]
    exact ⟨fun h => ⟨rfl, (Except.ok.inj h).symm⟩, fun h => congrArg Except.ok h.2.symm⟩
  · rw [if_neg hfinite]
    exact iff_of_false nofun fun h => hfinite h.1

/-- **Longer texts are not counted for less.** -/
theorem tokensOf_mono (h : n ≤ n') {k' : ℤ} (hk' : tokensOf n' r = .ok k') :
    ∃ k, tokensOf n r = .ok k ∧ 1 ≤ k ∧ k ≤ k' := by
  have hlength : Float64.rounded n 1 ≤ Float64.rounded n' 1 :=
    Float64.rounded_mono Nat.one_pos Nat.one_pos (Nat.mul_le_mul_right 1 h)
  rcases maxFloat_one r with hr | hr | ⟨m, j, ok, hr, hm⟩
  · exact absurd hk' (tokensOf_of_nan hr)
  · obtain ⟨hlt, rfl⟩ := (tokensOf_of_inf hr).1 hk'
    exact ⟨1, (tokensOf_of_inf hr).2 ⟨hlength.trans_lt hlt, rfl⟩, le_rfl, le_rfl⟩
  · obtain ⟨hlt, hlt', rfl⟩ := (tokensOf_eq_ok hr hm).1 hk'
    have hden : 0 < m * 2 ^ j := Nat.mul_pos hm (Nat.two_pow_pos j)
    have hquotient : Float64.rounded (Float64.rounded n 1) (m * 2 ^ j) ≤
        Float64.rounded (Float64.rounded n' 1) (m * 2 ^ j) :=
      Float64.rounded_mono hden hden (Nat.mul_le_mul_right _ hlength)
    refine ⟨_, (tokensOf_eq_ok hr hm).2 ⟨hlength.trans_lt hlt, hquotient.trans_lt hlt', rfl⟩, le_max_left _ _, ?_⟩
    refine max_le_max le_rfl (Int.ofNat_le.2 (Nat.div_le_div_right (Nat.add_le_add_right hquotient _)))

/-- Four characters a token, if the length is a double. -/
theorem tokensOf_four (hpos : 0 < n) (hn : n < 2 ^ 53) : tokensOf n four = .ok (((n + 3) / 4 : ℕ) : ℤ) := by
  have hfour : 4 = 2 ^ 2 := rfl
  have hunit : Float64.unit = 2 ^ (Float64.unitExp - 2) * 4 := by
    rw [hfour, ← pow_add, Nat.sub_add_cancel (by decide), Float64.unit]
  have hratio : 2 ^ 52 * 2 ^ (Float64.unitExp - 50) = 4 * Float64.unit := by
    have hexp : 52 + (Float64.unitExp - 50) = 2 + Float64.unitExp := by decide
    rw [hfour, Float64.unit, ← pow_add, hexp, pow_add]
  have hlength : Float64.rounded n 1 = n * Float64.unit :=
    Float64.rounded_exact Nat.one_pos hn (Nat.mul_one _).symm
  have hquotient : Float64.rounded (n * Float64.unit) (4 * Float64.unit) = n * 2 ^ (Float64.unitExp - 2) := by
    refine Float64.rounded_exact (Nat.mul_pos (by decide) (Nat.two_pow_pos _)) hn ?_
    rw [hunit]
    ring
  have hmax : maxFloat four one = .finite false _ _ isDouble_four := by decide +kernel
  rw [tokensOf_eq_ok hmax (Nat.two_pow_pos 52), hratio, hlength, hquotient]
  have hbound : ∀ {j}, j ≤ Float64.unitExp → n * 2 ^ j < 2 ^ Float64.overflowExp := by
    intro j hj
    have hexp : 53 + j ≤ Float64.overflowExp := (Nat.add_le_add_left hj 53).trans (by decide)
    calc n * 2 ^ j < 2 ^ 53 * 2 ^ j := Nat.mul_lt_mul_of_pos_right hn (Nat.two_pow_pos j)
      _ = 2 ^ (53 + j) := (pow_add 2 53 j).symm
      _ ≤ 2 ^ Float64.overflowExp := Nat.pow_le_pow_right (by decide) hexp
  refine ⟨hbound le_rfl, hbound (Nat.sub_le _ _), ?_⟩
  have hceil : (n * 2 ^ (Float64.unitExp - 2) + (Float64.unit - 1)) / Float64.unit = (n + 3) / 4 := by
    have hpower : 0 < 2 ^ (Float64.unitExp - 2) := Nat.two_pow_pos _
    rw [hunit]
    generalize 2 ^ (Float64.unitExp - 2) = u at hpower
    have hsum : n * u + (u * 4 - 1) = (u - 1) + u * (n + 3) := by
      have hmul : u * (n + 3) = n * u + 3 * u := by ring
      omega
    rw [← Nat.div_div_eq_div_mul, hsum, Nat.add_mul_div_left _ _ hpower,
      Nat.div_eq_of_lt (Nat.sub_one_lt hpower.ne'), Nat.zero_add]
  rw [hceil]
  omega

end Lengths

/-! ### Texts -/

section Texts

variable {s t x y : Str} {r : Float64} {n : ℤ}

theorem length_normalized (s : Str) : (normalized s).length = weight (words PyChar.isSpace s) - 1 := length_unwords _ _

theorem normalized_eq_nil : normalized s = [] ↔ ∀ c ∈ s, c.isSpace = true := by
  rw [← words_eq_nil]
  constructor
  · intro h
    by_contra hwords
    have htwo := two_le_weight hwords
    have hlength := length_normalized s
    rw [h, List.length_nil] at hlength
    omega
  · intro h
    rw [normalized, h]
    rfl

theorem estimateTokens_some (s : Str) (r : Float64) :
    estimateTokens (some s) r = if normalized s = [] then .ok 0 else tokensOf (normalized s).length r := by
  cases s <;> rfl

theorem estimateTokens_eq_zero : estimateTokens (some s) r = .ok 0 ↔ ∀ c ∈ s, c.isSpace = true := by
  rw [← normalized_eq_nil, estimateTokens_some]
  by_cases hs : normalized s = []
  · exact iff_of_true (if_pos hs) hs
  · rw [if_neg hs]
    refine iff_of_false (fun h => ?_) hs
    obtain ⟨k, -, hk, hle⟩ := tokensOf_mono le_rfl h
    omega

/-- Longer normalized texts are not counted for less. -/
theorem estimateTokens_mono (h : (normalized s).length ≤ (normalized t).length)
    (ht : estimateTokens (some t) r = .ok n) : ∃ k, estimateTokens (some s) r = .ok k ∧ k ≤ n := by
  rw [estimateTokens_some] at ht
  rw [estimateTokens_some]
  by_cases hs : normalized s = []
  · rw [if_pos hs]
    refine ⟨0, rfl, ?_⟩
    by_cases hnone : normalized t = []
    · rw [if_pos hnone] at ht
      exact (Except.ok.inj ht).le
    · rw [if_neg hnone] at ht
      obtain ⟨k, -, hk, hle⟩ := tokensOf_mono le_rfl ht
      omega
  · have hne : normalized t ≠ [] := List.length_pos_iff.1 ((List.length_pos_iff.2 hs).trans_le h)
    rw [if_neg hne] at ht
    rw [if_neg hs]
    obtain ⟨k, hk, -, hle⟩ := tokensOf_mono h ht
    exact ⟨k, hk, hle⟩

/-- **At every ratio:** only white space is counted for nothing, white space counts the same in whatever form, and a
text is counted for no more than one it is part of. -/
theorem estimate_grows (r : Float64) :
    (∀ text, estimateTokens text r = .ok 0 ↔ ∀ c ∈ text.getD [], c.isSpace = true) ∧
    (∀ s x y, (∀ c ∈ x ++ y, c.isSpace = true) → estimateTokens (some (x ++ (s ++ y))) r = estimateTokens (some s) r) ∧
    (∀ s t x y, x ≠ [] → y ≠ [] → (∀ c ∈ x ++ y, c.isSpace = true) →
      estimateTokens (some (s ++ (x ++ t))) r = estimateTokens (some (s ++ (y ++ t))) r) ∧
    ∀ s x y n, estimateTokens (some (x ++ (s ++ y))) r = .ok n → ∃ k, estimateTokens (some s) r = .ok k ∧ k ≤ n := by
  refine ⟨fun text => ?_, fun s x y hspace => ?_, fun s t x y hx hy hspace => ?_, fun s x y n hn => ?_⟩
  · cases text with
    | none => exact iff_of_true rfl nofun
    | some s => exact estimateTokens_eq_zero
  · rw [estimateTokens_some, estimateTokens_some, normalized, words_append_of_separators fun c hc =>
      hspace c (List.mem_append_left _ hc), words_append_separators fun c hc => hspace c (List.mem_append_right _ hc)]
    rfl
  · rw [estimateTokens_some, estimateTokens_some, normalized, normalized,
      words_append_append hx fun c hc => hspace c (List.mem_append_left _ hc),
      words_append_append hy fun c hc => hspace c (List.mem_append_right _ hc)]
  · refine estimateTokens_mono ?_ hn
    rw [length_normalized, length_normalized]
    have hleft := (weight_words_append (p := PyChar.isSpace) s y).1
    have hright := (weight_words_append (p := PyChar.isSpace) x (s ++ y)).2.1
    exact Nat.sub_le_sub_right (hleft.trans hright) 1

theorem estimate_grows_of_spaces :
    estimateTokens (some (str "four" ++ (str " " ++ str "five"))) four =
        estimateTokens (some (str "four" ++ (str " \n\t" ++ str "five"))) four ∧
      ∃ k, estimateTokens (some (str "five")) four = .ok k ∧ k ≤ 3 := by
  obtain ⟨-, -, hspaces, hpart⟩ := estimate_grows four
  refine ⟨hspaces _ _ _ _ (by decide) (by decide) (by decide), ?_⟩
  exact hpart (str "five") (str "four ") [] 3 (by decide +kernel)

theorem estimateTokens_four (hs : (normalized s).length < 2 ^ 53) :
    estimateTokens (some s) four = .ok ((((normalized s).length + 3) / 4 : ℕ) : ℤ) := by
  rw [estimateTokens_some]
  by_cases hnil : normalized s = []
  · rw [if_pos hnil, hnil]
    rfl
  · rw [if_neg hnil, tokensOf_four (List.length_pos_iff.2 hnil) hs]

/-- **At the default ratio,** up to the lengths that are doubles, a token is four characters of the normalized text or
the rest, and what two texts are counted for is short of their joined text by one token at most. -/
theorem estimate_default (h : (normalized (s ++ t)).length < 2 ^ 53) :
    ∃ a b k : ℕ, estimateTokens (some s) four = .ok a ∧ estimateTokens (some t) four = .ok b ∧
      estimateTokens (some (s ++ t)) four = .ok k ∧ k = ((normalized (s ++ t)).length + 3) / 4 ∧
      max a b ≤ k ∧ k ≤ a + b + 1 := by
  obtain ⟨hleft, hright, hjoin⟩ := weight_words_append (p := PyChar.isSpace) s t
  have hs := length_normalized s
  have ht := length_normalized t
  have hst := length_normalized (s ++ t)
  refine ⟨_, _, _, estimateTokens_four ?_, estimateTokens_four ?_, estimateTokens_four h, rfl, ?_, ?_⟩
  all_goals omega

theorem estimate_default_of_words : ∃ a b k : ℕ, estimateTokens (some (str "four five")) four = .ok a ∧
    estimateTokens (some (str " six")) four = .ok b ∧
    estimateTokens (some (str "four five" ++ str " six")) four = .ok k ∧
    k = ((normalized (str "four five" ++ str " six")).length + 3) / 4 ∧ max a b ≤ k ∧ k ≤ a + b + 1 :=
  estimate_default (by decide +kernel)

end Texts

end SharedAi.Llm
