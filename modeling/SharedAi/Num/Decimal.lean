import Mathlib.Data.Nat.Digits.Lemmas

/-!
# Decimal numerals

Digits are written most significant first.  `digits n` has no leading zero (and is empty for `0`), and
`NumLit` is a numeral as JSON spells one: a sign, an integer part without leading zeros, a fraction and
an exponent.
-/

namespace SharedAi.Num

abbrev Digit := Fin 10

/-- The numerals of `Digit` rest on this. -/
instance (priority := 1100) neZero_ten : NeZero 10 := ⟨by decide⟩

/-- The number a list of digits denotes. -/
def ofDigits (ds : List Digit) : ℕ := ds.foldl (fun n d => 10 * n + d.val) 0

/-- The digits of a number, none for `0`. -/
def digits (n : ℕ) : List Digit := ((Nat.digits 10 n).map (Fin.ofNat 10)).reverse

theorem ofDigits_digits (n : ℕ) : ofDigits (digits n) = n := by
  have key : ∀ l : List ℕ, (∀ d ∈ l, d < 10) →
      (l.map (Fin.ofNat 10)).foldr (fun d n => 10 * n + d.val) 0 = Nat.ofDigits 10 l := by
    intro l
    induction l with
    | nil => simp
    | cons d l ih =>
      intro h
      have hd := h d (by simp)
      rw [List.map_cons, List.foldr_cons, ih fun x hx => h x (List.mem_cons_of_mem _ hx), Nat.ofDigits_cons]
      simp only [Fin.val_ofNat, Nat.mod_eq_of_lt hd]
      omega
  unfold ofDigits digits
  rw [List.foldl_reverse, key _ fun d hd => Nat.digits_lt_base (by decide) hd, Nat.ofDigits_digits]

theorem ofDigits_eq (ds : List Digit) : ofDigits ds = Nat.ofDigits 10 (ds.reverse.map Fin.val) := by
  induction ds using List.reverseRecOn with
  | nil => rfl
  | append_singleton ds d ih =>
    unfold ofDigits at ih ⊢
    rw [List.foldl_append, ih, List.reverse_append, List.reverse_singleton, List.singleton_append, List.map_cons,
      Nat.ofDigits_cons]
    simp only [List.foldl_cons, List.foldl_nil]
    omega

/-- Digits without a leading zero are the digits of their number. -/
theorem digits_ofDigits {ds : List Digit} (h : ds.head? ≠ some 0) : digits (ofDigits ds) = ds := by
  have hlt : ∀ d ∈ ds.reverse.map Fin.val, d < 10 := by
    intro d hd
    obtain ⟨e, -, rfl⟩ := List.mem_map.1 hd
    exact e.isLt
  have hlast : ∀ hne : ds.reverse.map Fin.val ≠ [], (ds.reverse.map Fin.val).getLast hne ≠ 0 := by
    intro hne h0
    rw [List.getLast_map] at h0
    have hds : ds ≠ [] := by
      rintro rfl
      exact hne rfl
    rw [List.getLast_reverse] at h0
    apply h
    rw [List.head?_eq_some_head hds]
    exact congrArg some (Fin.ext h0)
  unfold digits
  rw [ofDigits_eq, Nat.digits_ofDigits 10 (by decide) _ hlt hlast, List.map_map]
  have hid : (Fin.ofNat 10 ∘ Fin.val : Digit → Digit) = id := by
    funext d
    exact Fin.ext (Nat.mod_eq_of_lt d.isLt)
  rw [hid, List.map_id, List.reverse_reverse]

theorem ofDigits_zero_cons (ds : List Digit) : ofDigits (0 :: ds) = ofDigits ds := by simp [ofDigits]

/-! ### Numerals -/

/-- The integer part of a numeral: `0`, or digits of which the first is not `0`. -/
structure IntPart where
  lead : Digit
  rest : List Digit
  noLeadingZero : lead = 0 → rest = []
  deriving DecidableEq

namespace IntPart

theorem zero_single : (0 : Digit) = 0 → ([] : List Digit) = [] := fun _ => rfl

def toList (i : IntPart) : List Digit := i.lead :: i.rest

def value (i : IntPart) : ℕ := Num.ofDigits i.toList

/-- The integer part with the given digits, leading zeros dropped. -/
def ofDigits : List Digit → IntPart
  | [] => ⟨0, [], fun _ => rfl⟩
  | d :: ds => if h : d = 0 then ofDigits ds else ⟨d, ds, fun h0 => absurd h0 h⟩

theorem value_ofDigits (ds : List Digit) : (ofDigits ds).value = Num.ofDigits ds := by
  induction ds with
  | nil => rfl
  | cons d ds ih =>
    unfold ofDigits
    split
    · next h => rw [ih, h, ofDigits_zero_cons]
    · rfl

theorem length_toList_ofDigits {ds : List Digit} {k : ℕ} (hk : 1 ≤ k) (h : ds.length ≤ k) :
    (ofDigits ds).toList.length ≤ k := by
  induction ds with
  | nil => exact hk
  | cons d ds ih =>
    unfold ofDigits
    split
    · exact ih ((Nat.le_succ _).trans h)
    · exact h

/-- `int.__repr__` of a natural number. -/
def ofNat (n : ℕ) : IntPart := ofDigits (digits n)

@[simp] theorem value_ofNat (n : ℕ) : (ofNat n).value = n := by
  rw [ofNat, value_ofDigits, ofDigits_digits]

theorem ofDigits_toList_ofNat (n : ℕ) : Num.ofDigits (ofNat n).toList = n := value_ofNat n

/-- A numeral is the one of its value. -/
theorem ofNat_value (i : IntPart) : ofNat i.value = i := by
  obtain ⟨d, ds, hz⟩ := i
  by_cases hd : d = 0
  · subst hd
    obtain rfl := hz rfl
    rfl
  · have hhead : (d :: ds).head? ≠ some 0 := by simpa using hd
    rw [ofNat, value, toList, digits_ofDigits hhead, ofDigits, dif_neg hd]

def length (i : IntPart) : ℕ := i.rest.length + 1

end IntPart

/-- The exponent of a numeral: `e`, a sign and at least one digit. -/
structure Exponent where
  neg : Bool
  lead : Digit
  rest : List Digit
  deriving DecidableEq

def Exponent.value (e : Exponent) : ℤ :=
  if e.neg then -(ofDigits (e.lead :: e.rest) : ℤ) else ofDigits (e.lead :: e.rest)

/-- A numeral; `frac = []` is the absence of a fraction. -/
structure NumLit where
  neg : Bool
  int : IntPart
  frac : List Digit
  exp : Option Exponent
  deriving DecidableEq

namespace NumLit

/-- Neither fraction nor exponent: the numeral of an `int`. -/
def isInt (l : NumLit) : Bool := l.frac.isEmpty && l.exp.isNone

/-- The `int` a numeral denotes. -/
def intValue (l : NumLit) : ℤ := if l.neg then -(l.int.value : ℤ) else l.int.value

/-- The numeral of an `int`, as `int.__repr__` writes it. -/
def ofInt (i : ℤ) : NumLit := ⟨decide (i < 0), IntPart.ofNat i.natAbs, [], none⟩

@[simp] theorem isInt_ofInt (i : ℤ) : (ofInt i).isInt = true := rfl

@[simp] theorem intValue_ofInt (i : ℤ) : (ofInt i).intValue = i := by
  unfold intValue ofInt
  simp only [IntPart.value_ofNat, decide_eq_true_eq]
  split <;> omega

/-- An `int` is written with the digits that it was read from. -/
theorem int_ofInt_intValue (l : NumLit) : (ofInt l.intValue).int = l.int := by
  have habs : l.intValue.natAbs = l.int.value := by
    unfold intValue
    split <;> omega
  rw [ofInt, habs, IntPart.ofNat_value]

end NumLit

end SharedAi.Num
