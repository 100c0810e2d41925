import SharedAi.Num.Decimal
import Mathlib.Data.List.DropRight

/-!
# Double precision numbers

A finite double is `± m · 2^j / 2^1074` with `m < 2^53`, `j ≤ 2045`, and `m ≥ 2^52` unless `j = 0`: every
double has exactly one such pair, so `=` is equality of sign and value, and `-0.0 ≠ 0.0`.

* `round` — the double nearest to a fraction, ties to the even significand, overflow to an infinity;
* `ofLit` — `float(text)` of a numeral;
* `repr` — `float.__repr__`: the shortest numeral that reads back as the number;
* `ofLit_repr` — a finite double is read back from its `repr`.
-/

namespace SharedAi.Num

def IsDouble (m j : ℕ) : Prop := m < 2 ^ 53 ∧ j ≤ 2045 ∧ (j = 0 ∨ 2 ^ 52 ≤ m)

instance (m j : ℕ) : Decidable (IsDouble m j) := inferInstanceAs (Decidable (_ ∧ _ ∧ _))

/-- A `float`: the finite ones are `± m · 2^j / 2^1074`. -/
inductive Float64 where
  | finite (neg : Bool) (m j : ℕ) (ok : IsDouble m j)
  | inf (neg : Bool)
  | nan
  deriving DecidableEq

namespace Float64

/-- `math.isfinite`. -/
def isFinite : Float64 → Bool
  | .finite .. => true
  | _ => false

/-- The value of a finite double, in units of `2^-1074`. -/
def scaled (neg : Bool) (m j : ℕ) : ℤ := if neg then -(m * 2 ^ j : ℕ) else (m * 2 ^ j : ℕ)

/-- `x < y`. -/
def lt : Float64 → Float64 → Bool
  | .nan, _ => false
  | _, .nan => false
  | .inf a, .inf b => a && !b
  | .inf a, .finite .. => a
  | .finite .., .inf b => !b
  | .finite n m j _, .finite n' m' j' _ => scaled n m j < scaled n' m' j'

/-- `x <= y`. -/
def le (x y : Float64) : Bool :=
  match x, y with
  | .nan, _ => false
  | _, .nan => false
  | x, y => !lt y x

/-! ### Rounding -/

/-- `1.0` is `2^unitExp` of the smallest positive doubles. -/
def unitExp : ℕ := 1074

/-- `1.0`, in units of `2^-1074`. -/
def unit : ℕ := 2 ^ unitExp

/-- `num / den` to the nearest integer, ties to even. -/
def divRound (num den : ℕ) : ℕ :=
  let q := num / den
  let r := num % den
  if 2 * r < den then q else if den < 2 * r then q + 1 else if q % 2 = 0 then q else q + 1

/-- The double `± m · 2^j`, if `m` and `j` are in range. -/
def pack (neg : Bool) (m j : ℕ) : Float64 := if h : IsDouble m j then .finite neg m j h else .inf neg

/-- The double nearest to `± num / den`: `j` is chosen so that the significand has 53 bits (or `j = 0`),
and a significand rounded up to `2^53` moves to the next exponent. -/
def round (neg : Bool) (num den : ℕ) : Float64 :=
  let j := Nat.log2 (num * unit / den) - 52
  let m := divRound (num * unit) (den * 2 ^ j)
  if m = 2 ^ 53 then pack neg (2 ^ 52) (j + 1) else pack neg m j

theorem divRound_mul (m : ℕ) {den : ℕ} (h : 0 < den) : divRound (m * den) den = m := by
  simp [divRound, Nat.mul_div_cancel _ h, h]

theorem log2_sub_of_isDouble {m j : ℕ} (h : IsDouble m j) : Nat.log2 (m * 2 ^ j) - 52 = j := by
  obtain ⟨h53, -, h52⟩ := h
  rcases h52 with rfl | h52
  · by_cases hm : m = 0
    · simp [hm]
    · have := (Nat.log2_lt hm).2 h53
      simp
      omega
  · have hm : m ≠ 0 := by rintro rfl; simp at h52
    have hmj : m * 2 ^ j ≠ 0 := by positivity
    have h1 : Nat.log2 (m * 2 ^ j) < 53 + j := by
      rw [Nat.log2_lt hmj, pow_add]
      exact Nat.mul_lt_mul_of_pos_right h53 (by positivity)
    have h2 : 52 + j ≤ Nat.log2 (m * 2 ^ j) := by
      rw [Nat.le_log2 hmj, pow_add]
      exact Nat.mul_le_mul_right _ h52
    omega

/-- **A representable value is its own rounding.** -/
theorem round_exact {neg : Bool} {m j num den : ℕ} (ok : IsDouble m j) (hden : 0 < den)
    (h : num * unit = m * 2 ^ j * den) : round neg num den = .finite neg m j ok := by
  have hq : num * unit / den = m * 2 ^ j := by rw [h, Nat.mul_div_cancel _ hden]
  have hm : divRound (num * unit) (den * 2 ^ j) = m := by
    rw [h, show m * 2 ^ j * den = m * (den * 2 ^ j) by ring]
    exact divRound_mul m (by positivity)
  have hne : m ≠ 2 ^ 53 := by have := ok.1; omega
  simp only [round, hq, log2_sub_of_isDouble ok, hm]
  rw [if_neg hne, pack, dif_pos ok]

/-! ### Conversions -/

/-- `float(text)` of a numeral: the double nearest to the decimal value. -/
def ofLit (l : NumLit) : Float64 :=
  let d := ofDigits (l.int.toList ++ l.frac)
  let e : ℤ := (l.exp.map Exponent.value).getD 0 - l.frac.length
  if 0 ≤ e then round l.neg (d * 10 ^ e.toNat) 1 else round l.neg d (10 ^ (-e).toNat)

/-- `float(i)`; an infinity stands for `OverflowError`. -/
def ofInt (i : ℤ) : Float64 := round (decide (i < 0)) i.natAbs 1

/-! ### Shortest representation -/

/-- The exponent `p` with `10^(p-1) ≤ n / 2^1074 < 10^p`, for `n > 0`. -/
def decpt (n : ℕ) : ℤ :=
  if unit ≤ n then ((digits (n / unit)).length : ℤ) else 1 - ((digits ((unit - 1) / n)).length : ℤ)

/-- The two `k`-digit decimals `c · 10^s` around `n / 2^1074`, the nearer one first, at a tie the even one. -/
def candidates (n k : ℕ) : List (ℕ × ℤ) :=
  let s : ℤ := decpt n - k
  let num := n * 10 ^ (-s).toNat
  let den := unit * 10 ^ s.toNat
  let c := num / den
  if divRound num den = c then [(c, s), (c + 1, s)] else [(c + 1, s), (c, s)]

/-- The exponent part of `float.__repr__`: a sign and at least two digits. -/
def expPart (e : ℤ) : Exponent :=
  match digits e.natAbs with
  | [] => ⟨decide (e < 0), 0, [0]⟩
  | [d] => ⟨decide (e < 0), 0, [d]⟩
  | d :: ds => ⟨decide (e < 0), d, ds⟩

/-- `± c · 10^s` in the format of `float.__repr__`: fixed notation with at least one fraction digit when
the decimal point falls in `-4 < p ≤ 16`, scientific notation otherwise. -/
def format (neg : Bool) (c : ℕ) (s : ℤ) : NumLit :=
  let all := digits c
  let ds := all.rdropWhile (· == 0)
  let p : ℤ := all.length + s
  if p ≤ -4 ∨ 16 < p then ⟨neg, IntPart.ofDigits (ds.take 1), ds.drop 1, some (expPart (p - 1))⟩
  else if p ≤ 0 then ⟨neg, IntPart.ofDigits [], List.replicate (-p).toNat 0 ++ ds, none⟩
  else if ds.length ≤ p.toNat then
    ⟨neg, IntPart.ofDigits (ds ++ List.replicate (p.toNat - ds.length) 0), [0], none⟩
  else ⟨neg, IntPart.ofDigits (ds.take p.toNat), ds.drop p.toNat, none⟩

/-- The exact value of `± n / 2^1074` as a numeral. -/
def exactLit (neg : Bool) (n : ℕ) : NumLit := ⟨neg, IntPart.ofNat (n * 5 ^ unitExp), [], some ⟨true, 1, [0, 7, 4]⟩⟩

/-- The numerals of one to seventeen digits `float.__repr__` tries, shortest first. -/
def shortLits (neg : Bool) (n : ℕ) : List NumLit :=
  (List.range 17).flatMap fun k => (candidates n (k + 1)).map fun c => format neg c.1 c.2

/-- The numeral is that of a `float`, and the float is `x`. -/
def readsAs (x : Float64) (l : NumLit) : Bool := !l.isInt && ofLit l == x

/-- `float.__repr__` of a finite double.  Seventeen digits always suffice, so the exact numeral at the end
is never the one taken. -/
def repr : Float64 → NumLit
  | .finite neg m j ok =>
    if m = 0 then ⟨neg, IntPart.ofDigits [], [0], none⟩
    else ((shortLits neg (m * 2 ^ j)).find? (readsAs (.finite neg m j ok))).getD (exactLit neg (m * 2 ^ j))
  | _ => ⟨false, IntPart.ofDigits [], [], none⟩

theorem ofLit_of_exp_neg {l : NumLit} {d k : ℕ} (hd : ofDigits (l.int.toList ++ l.frac) = d)
    (he : (l.exp.map Exponent.value).getD 0 - (l.frac.length : ℤ) = -(k : ℤ)) (hk : 0 < k) :
    ofLit l = round l.neg d (10 ^ k) := by
  have hneg : ¬ (0 : ℤ) ≤ -(k : ℤ) := by omega
  have hto : (- -(k : ℤ)).toNat = k := by omega
  unfold ofLit
  simp only [hd, he, if_neg hneg, hto]

theorem exp_exactLit (neg : Bool) (n : ℕ) :
    ((exactLit neg n).exp.map Exponent.value).getD 0 - ((exactLit neg n).frac.length : ℤ) = -(unitExp : ℤ) := rfl

theorem ofLit_exactLit (neg : Bool) {m j : ℕ} (ok : IsDouble m j) :
    ofLit (exactLit neg (m * 2 ^ j)) = .finite neg m j ok := by
  generalize hn : m * 2 ^ j = n
  have hd : ofDigits ((exactLit neg n).int.toList ++ (exactLit neg n).frac) = n * 5 ^ unitExp := by
    rw [exactLit, List.append_nil, IntPart.ofDigits_toList_ofNat]
  have hten : 10 ^ unitExp = unit * 5 ^ unitExp := by rw [unit, ← Nat.mul_pow]
  rw [ofLit_of_exp_neg hd (exp_exactLit neg n) (by decide)]
  apply round_exact ok (Nat.pow_pos (by decide))
  rw [hten, hn, Nat.mul_assoc, Nat.mul_comm unit]

theorem readsAs_iff {x : Float64} {l : NumLit} : readsAs x l = true ↔ l.isInt = false ∧ ofLit l = x := by
  simp [readsAs]

theorem readsAs_repr {neg : Bool} {m j : ℕ} (ok : IsDouble m j) (hm : m ≠ 0) :
    readsAs (.finite neg m j ok) (repr (.finite neg m j ok)) = true := by
  rw [repr, if_neg hm]
  cases hf : (shortLits neg (m * 2 ^ j)).find? (readsAs (.finite neg m j ok)) with
  | none => exact readsAs_iff.2 ⟨rfl, ofLit_exactLit neg ok⟩
  | some l => exact List.find?_some hf

theorem ofLit_zero (neg : Bool) (ok : IsDouble 0 0) :
    ofLit ⟨neg, IntPart.ofDigits [], [0], none⟩ = .finite neg 0 0 ok := by
  have hd : ofDigits ((IntPart.ofDigits []).toList ++ [0]) = 0 := by decide
  unfold ofLit
  simp only [hd]
  rw [if_neg (by simp)]
  exact round_exact ok (by positivity) (by simp)

/-- The `repr` of a finite double is the numeral of a `float`, never that of an `int`. -/
theorem isInt_repr {x : Float64} (h : x.isFinite) : (repr x).isInt = false := by
  cases x with
  | finite neg m j ok =>
    by_cases hm : m = 0
    · subst hm; rfl
    · exact (readsAs_iff.1 (readsAs_repr ok hm)).1
  | inf => cases h
  | nan => cases h

/-- **A finite double is read back from its `repr`.** -/
theorem ofLit_repr {x : Float64} (h : x.isFinite) : ofLit (repr x) = x := by
  cases x with
  | finite neg m j ok =>
    by_cases hm : m = 0
    · subst hm
      obtain rfl : j = 0 := by
        rcases ok.2.2 with h0 | h0
        · exact h0
        · simp at h0
      exact ofLit_zero neg ok
    · exact (readsAs_iff.1 (readsAs_repr ok hm)).2
  | inf => cases h
  | nan => cases h

/-! ### The order of finite doubles -/

theorem le_iff_not_lt {x y : Float64} (hx : x.isFinite) (hy : y.isFinite) : le x y = true ↔ lt y x = false := by
  cases x <;> cases y <;> simp_all [le, isFinite]

theorem lt_of_le_of_lt {x y z : Float64} (h1 : le x y = true) (h2 : lt y z = true) : lt x z = true := by
  cases x <;> cases y <;> cases z <;> simp_all [le, lt]
  omega

end Float64

end SharedAi.Num
