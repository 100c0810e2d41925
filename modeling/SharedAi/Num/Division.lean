import SharedAi.Num.Float64

/-!
# Division of doubles

* `div`, `ceil` — the double nearest to a quotient, and the least integer above a double;
* `rounded` — what a fraction is rounded to, in units of `2^-1074` (`exists_round`);
* `rounded_mono` — rounding keeps the order of fractions;
* `rounded_exact`, `rounded_zero` — what rounding does not change;
* `isFinite_round_iff` — which fractions are rounded to a finite double.
-/

namespace SharedAi.Num

namespace Float64

/-- `x / y`, where `y` is not zero. -/
def div (x y : Float64) : Float64 :=
  match x, y with
  | .nan, _ => .nan
  | _, .nan => .nan
  | .inf _, .inf _ => .nan
  | .inf neg, .finite neg' .. => .inf (neg ^^ neg')
  | .finite neg .., .inf neg' => round (neg ^^ neg') 0 1
  | .finite neg m j _, .finite neg' m' j' _ => round (neg ^^ neg') (m * 2 ^ j) (m' * 2 ^ j')

/-- `math.ceil(x)` of a finite double. -/
def ceil : Float64 → Option ℤ
  | .finite false m j _ => some ((m * 2 ^ j + (unit - 1)) / unit : ℕ)
  | .finite true m j _ => some (-(m * 2 ^ j / unit : ℕ))
  | _ => none

@[simp] theorem div_nan (x : Float64) : x.div .nan = .nan := by cases x <;> rfl

theorem div_finite {m j m' j' : ℕ} {ok : IsDouble m j} {ok' : IsDouble m' j'} :
    (finite false m j ok).div (finite false m' j' ok') = round false (m * 2 ^ j) (m' * 2 ^ j') := rfl

theorem div_inf {m j : ℕ} {ok : IsDouble m j} : (finite false m j ok).div (.inf false) = round false 0 1 := rfl

theorem ceil_finite {m j : ℕ} {ok : IsDouble m j} :
    (finite false m j ok).ceil = some (((m * 2 ^ j + (unit - 1)) / unit : ℕ) : ℤ) := rfl

/-! ### Rounding to an integer -/

section Nearest

variable {num den num' den' k : ℕ}

/-- A quotient is rounded to `k` or more from `k - 1/2` on, if `k` is even, and above it otherwise. -/
theorem lt_divRound_iff (hden : 0 < den) :
    k < divRound num den ↔ (2 * k + 1) * den < 2 * num ∨ ((2 * k + 1) * den = 2 * num ∧ k % 2 = 1) := by
  have hnum : 2 * num = 2 * (num / den) * den + 2 * (num % den) := by
    have := Nat.div_add_mod num den
    nlinarith
  have hr := Nat.mod_lt num hden
  unfold divRound
  generalize num / den = q at *
  generalize num % den = r at *
  rw [hnum]
  rcases lt_trichotomy k q with hk | rfl | hk
  · obtain ⟨d, rfl⟩ := Nat.exists_eq_add_of_lt hk
    have hlt : (2 * k + 1) * den < 2 * (k + d + 1) * den + 2 * r := by nlinarith
    refine iff_of_true ?_ (.inl hlt)
    dsimp only
    split_ifs <;> omega
  · have hmul : (2 * k + 1) * den = 2 * k * den + den := by ring
    dsimp only
    rw [hmul]
    split_ifs <;> omega
  · obtain ⟨d, rfl⟩ := Nat.exists_eq_add_of_lt hk
    have hlt : 2 * q * den + 2 * r < (2 * (q + d + 1) + 1) * den := by nlinarith
    refine iff_of_false ?_ (by omega)
    dsimp only
    split_ifs <;> omega

/-- Rounding to an integer keeps the order of quotients. -/
theorem divRound_mono (hden : 0 < den) (hden' : 0 < den') (h : num * den' ≤ num' * den) :
    divRound num den ≤ divRound num' den' := by
  refine Nat.le_of_not_lt fun hlt => ?_
  obtain ⟨k, hk⟩ : ∃ k, divRound num' den' = k := ⟨_, rfl⟩
  have hup := (lt_divRound_iff hden).1 hlt
  have hdown := mt (lt_divRound_iff hden').2 (lt_irrefl (divRound num' den'))
  rw [hk] at hup hdown
  rw [not_or, not_and, Nat.not_lt] at hdown
  rcases hup with hup | ⟨hup, hodd⟩
  · have : (2 * k + 1) * den * den' < 2 * num * den' := Nat.mul_lt_mul_of_pos_right hup hden'
    nlinarith
  · have hge : (2 * k + 1) * den' ≤ 2 * num' := by
      have : (2 * k + 1) * den * den' = 2 * num * den' := by rw [hup]
      nlinarith
    exact hdown.2 (le_antisymm hge hdown.1) hodd

end Nearest

/-! ### Rounding to a double -/

/-- The exponent that a fraction is rounded at. -/
def exponentOf (num den : ℕ) : ℕ := Nat.log2 (num * unit / den) - 52

/-- The fraction to the nearest double, in units of `2^-1074`, if the exponent is in range. -/
def rounded (num den : ℕ) : ℕ :=
  divRound (num * unit) (den * 2 ^ exponentOf num den) * 2 ^ exponentOf num den

section Rounded

variable {num den num' den' m : ℕ}

theorem divRound_le (hden : 0 < den) (h : num ≤ m * den) : divRound num den ≤ m := by
  rw [← @divRound_mul m 1 Nat.one_pos]
  exact divRound_mono hden Nat.one_pos (by simpa using h)

theorem le_divRound (hden : 0 < den) (h : m * den ≤ num) : m ≤ divRound num den := by
  rw [← @divRound_mul m 1 Nat.one_pos]
  exact divRound_mono Nat.one_pos hden (by simpa using h)

theorem rounded_zero (hden : 0 < den) : rounded 0 den = 0 := by
  have hzero : divRound (0 * unit) (den * 2 ^ exponentOf 0 den) ≤ 0 := divRound_le (by positivity) (by simp)
  rw [rounded, Nat.le_zero.1 hzero, Nat.zero_mul]

/-- The significand has 53 bits, or the exponent is the least. -/
theorem significand_bounds (num : ℕ) (hden : 0 < den) :
    divRound (num * unit) (den * 2 ^ exponentOf num den) ≤ 2 ^ 53 ∧
      (exponentOf num den = 0 ∨ 2 ^ 52 ≤ divRound (num * unit) (den * 2 ^ exponentOf num den)) := by
  have hstep : 0 < den * 2 ^ exponentOf num den := by positivity
  constructor
  · refine divRound_le hstep ?_
    have hlog : num * unit / den < 2 ^ (53 + exponentOf num den) := by
      by_cases h0 : num * unit / den = 0
      · rw [h0]
        positivity
      · rw [← Nat.log2_lt h0]
        unfold exponentOf
        omega
    have hlt := (Nat.div_lt_iff_lt_mul hden).1 hlog
    rw [pow_add] at hlt
    nlinarith
  · by_cases he : exponentOf num den = 0
    · exact .inl he
    · right
      refine le_divRound hstep ?_
      have hlog : 2 ^ (52 + exponentOf num den) ≤ num * unit / den := by
        have h0 : num * unit / den ≠ 0 := by
          intro h0
          apply he
          simp [exponentOf, h0]
        rw [← Nat.le_log2 h0]
        unfold exponentOf at he ⊢
        omega
      have hle := (Nat.le_div_iff_mul_le hden).1 hlog
      rw [pow_add] at hle
      nlinarith

/-- **Rounding keeps the order of fractions.** -/
theorem rounded_mono (hden : 0 < den) (hden' : 0 < den') (h : num * den' ≤ num' * den) :
    rounded num den ≤ rounded num' den' := by
  have hunits : num * unit * den' ≤ num' * unit * den := by nlinarith
  have hfloor : num * unit / den ≤ num' * unit / den' := by
    rw [Nat.le_div_iff_mul_le hden']
    refine Nat.le_of_mul_le_mul_right ?_ hden
    calc num * unit / den * den' * den = num * unit / den * den * den' := by ring
      _ ≤ num * unit * den' := Nat.mul_le_mul_right _ (Nat.div_mul_le_self _ _)
      _ ≤ num' * unit * den := hunits
  have hexp : exponentOf num den ≤ exponentOf num' den' := by
    unfold exponentOf
    have hlog : Nat.log2 (num * unit / den) ≤ Nat.log2 (num' * unit / den') := by
      rw [Nat.log2_eq_log_two, Nat.log2_eq_log_two]
      exact Nat.log_mono_right hfloor
    omega
  unfold rounded
  rcases hexp.eq_or_lt with he | hlt
  · rw [he]
    refine Nat.mul_le_mul_right _ (divRound_mono (by positivity) (by positivity) ?_)
    calc num * unit * (den' * 2 ^ exponentOf num' den') = num * unit * den' * 2 ^ exponentOf num' den' := by ring
      _ ≤ num' * unit * den * 2 ^ exponentOf num' den' := Nat.mul_le_mul_right _ hunits
      _ = num' * unit * (den * 2 ^ exponentOf num' den') := by ring
  · -- the smaller one is at most a power of two, and the greater one at least
    have hsmall := (significand_bounds num hden).1
    have hgreat := (significand_bounds num' hden').2.resolve_left (by omega)
    obtain ⟨d, hd⟩ := Nat.exists_eq_add_of_lt hlt
    calc divRound (num * unit) (den * 2 ^ exponentOf num den) * 2 ^ exponentOf num den
        ≤ 2 ^ 53 * 2 ^ exponentOf num den := Nat.mul_le_mul_right _ hsmall
      _ = 2 ^ 52 * 2 ^ (exponentOf num den + 1) := by ring
      _ ≤ 2 ^ 52 * 2 ^ exponentOf num' den' := Nat.mul_le_mul_left _ (Nat.pow_le_pow_right (by decide) (by omega))
      _ ≤ _ := Nat.mul_le_mul_right _ hgreat

/-- What is a double is not changed. -/
theorem rounded_exact {j : ℕ} (hden : 0 < den) (hm : m < 2 ^ 53) (h : num * unit = m * 2 ^ j * den) :
    rounded num den = m * 2 ^ j := by
  have hfloor : num * unit / den = m * 2 ^ j := by rw [h, Nat.mul_div_cancel _ hden]
  have hexp : exponentOf num den ≤ j := by
    unfold exponentOf
    rw [hfloor]
    by_cases h0 : m * 2 ^ j = 0
    · simp [h0]
    · have hlog : Nat.log2 (m * 2 ^ j) < 53 + j := by
        rw [Nat.log2_lt h0, pow_add]
        exact Nat.mul_lt_mul_of_pos_right hm (by positivity)
      omega
  obtain ⟨d, hd⟩ := Nat.exists_eq_add_of_le' hexp
  unfold rounded
  generalize exponentOf num den = e at *
  have hnum : num * unit = m * 2 ^ d * (den * 2 ^ e) := by
    rw [h, hd, pow_add]
    ring
  rw [hnum, divRound_mul _ (by positivity), hd, pow_add]
  ring

/-- The finite double that a fraction is rounded to. -/
theorem exists_round {neg : Bool} (h : (round neg num den).isFinite = true) :
    ∃ m j ok, round neg num den = .finite neg m j ok ∧ m * 2 ^ j = rounded num den := by
  have hpack : ∀ {m j : ℕ}, (pack neg m j).isFinite = true → ∃ ok, pack neg m j = .finite neg m j ok := by
    intro m j hm
    unfold pack at hm ⊢
    split at hm
    · next ok => exact ⟨ok, dif_pos ok⟩
    · cases hm
  unfold round at h ⊢
  unfold rounded exponentOf
  dsimp only at h ⊢
  split at h
  · next hm =>
    rw [if_pos hm]
    obtain ⟨ok, hok⟩ := hpack h
    refine ⟨_, _, ok, hok, ?_⟩
    rw [hm]
    ring
  · next hm =>
    rw [if_neg hm]
    obtain ⟨ok, hok⟩ := hpack h
    exact ⟨_, _, ok, hok, rfl⟩

/-- The least power of two above all finite doubles is `2^overflowExp` of the smallest positive one. -/
def overflowExp : ℕ := 2098

theorem units_lt {j : ℕ} (ok : IsDouble m j) : m * 2 ^ j < 2 ^ overflowExp := by
  obtain ⟨hm, hj, -⟩ := ok
  have hexp : 53 + j ≤ overflowExp := Nat.add_le_add_left hj 53
  calc m * 2 ^ j < 2 ^ 53 * 2 ^ j := Nat.mul_lt_mul_of_pos_right hm (by positivity)
    _ = 2 ^ (53 + j) := (pow_add 2 53 j).symm
    _ ≤ 2 ^ overflowExp := Nat.pow_le_pow_right (by decide) hexp

/-- **A fraction is rounded to a finite double if and only if that is in range.** -/
theorem isFinite_round_iff (neg : Bool) (hden : 0 < den) :
    (round neg num den).isFinite = true ↔ rounded num den < 2 ^ overflowExp := by
  constructor
  · intro h
    obtain ⟨m, j, ok, -, hunits⟩ := exists_round h
    exact hunits ▸ units_lt ok
  intro h
  obtain ⟨hle, hnormal⟩ := significand_bounds num hden
  have hexp : ∀ {m j k : ℕ}, 2 ^ k ≤ m → m * 2 ^ j < 2 ^ overflowExp → k + j < overflowExp := by
    intro m j k hm hlt
    refine (Nat.pow_lt_pow_iff_right (by decide : 1 < 2)).1 (Nat.lt_of_le_of_lt ?_ hlt)
    rw [pow_add]
    exact Nat.mul_le_mul_right _ hm
  have hpack : ∀ {m j : ℕ}, IsDouble m j → (pack neg m j).isFinite = true := by
    intro m j ok
    rw [pack, dif_pos ok]
    rfl
  unfold rounded at h
  unfold round
  dsimp only
  split
  · next hm =>
    have hj := hexp (k := 53) hm.ge h
    exact hpack ⟨by decide, by unfold exponentOf overflowExp at hj; omega, .inr le_rfl⟩
  · next hm =>
    refine hpack ⟨lt_of_le_of_ne hle hm, ?_, hnormal⟩
    rcases hnormal with h0 | h52
    · unfold exponentOf at h0
      omega
    · have hj := hexp (k := 52) h52 h
      unfold exponentOf overflowExp at hj
      omega

end Rounded

end Float64

end SharedAi.Num
