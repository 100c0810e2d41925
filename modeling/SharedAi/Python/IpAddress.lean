import SharedAi.Json.RoundTrip
import SharedAi.Net.Uri

/-!
# IP addresses

Which texts `ipaddress` and `urllib.parse` take for an address, without its value.

* `decimal?`, `decimal` — `int` of ASCII digits, and `str` of what it gives;
* `isIPv4`, `isIPv6` — `IPv4Address(text)` and `IPv6Address(text)` succeed;
* `checkBracketedHost` — `_check_bracketed_host`: an IPv6 address or one of a future version.
-/

namespace SharedAi.Python

open SharedAi.Net SharedAi.Num SharedAi.Text

/-- `int(s)` of a text for which `s.isdigit() and s.isascii()`. -/
def decimal? (s : Str) : Option ℕ := if s = [] then none else (s.mapM Json.digit?).map ofDigits

theorem digit?_eq_some {c : PyChar} {d : Digit} : Json.digit? c = some d ↔ c = Json.digitChar d := by
  constructor
  · intro h
    unfold Json.digit? at h
    split at h
    · next hc =>
      cases h
      have key : ∀ n < 10, (Char.ofNat (48 + n)).toNat = 48 + n := by decide
      apply PyChar.ord_injective
      show c.ord = (Char.ofNat (48 + (c.ord - 48))).toNat
      rw [key _ (by omega)]
      omega
    · cases h
  · rintro rfl
    exact Json.digit?_digitChar d

theorem mapM_digit?_eq_some {s : Str} {ds : List Digit} : s.mapM Json.digit? = some ds ↔ s = Json.renderDigits ds := by
  induction s generalizing ds with
  | nil => rcases ds with - | ⟨d, ds⟩ <;> simp [Json.renderDigits]
  | cons c s ih =>
    rw [List.mapM_cons]
    simp only [bind, Option.bind_eq_some_iff, pure, Option.some.injEq]
    constructor
    · rintro ⟨d, hd, ds', hds, rfl⟩
      rw [digit?_eq_some.1 hd, ih.1 hds]
      rfl
    · intro h
      rcases ds with - | ⟨d, ds⟩
      · cases h
      · obtain ⟨hc, hs⟩ := List.cons.inj h
        exact ⟨d, digit?_eq_some.2 hc, ds, ih.2 hs, rfl⟩

theorem decimal?_eq_some {s : Str} {n : ℕ} :
    decimal? s = some n ↔ s ≠ [] ∧ ∃ ds, s = Json.renderDigits ds ∧ ofDigits ds = n := by
  unfold decimal?
  by_cases hs : s = []
  · simp [hs]
  · simp [hs, mapM_digit?_eq_some]

theorem isDigit_digitChar : ∀ d : Digit, (Json.digitChar d).isDigit = true := by decide

theorem isDigit_of_decimal? {s : Str} {n : ℕ} (h : decimal? s = some n) : ∀ c ∈ s, c.isDigit = true := by
  obtain ⟨-, ds, rfl, -⟩ := decimal?_eq_some.1 h
  intro c hc
  obtain ⟨d, -, rfl⟩ := List.mem_map.1 hc
  exact isDigit_digitChar d

/-- `str(n)`. -/
def decimal (n : ℕ) : Str := Json.renderDigits (IntPart.ofNat n).toList

theorem decimal?_decimal (n : ℕ) : decimal? (decimal n) = some n :=
  decimal?_eq_some.2 ⟨nofun, _, rfl, IntPart.ofDigits_toList_ofNat n⟩

theorem isDigit_decimal (n : ℕ) : ∀ c ∈ decimal n, c.isDigit = true := isDigit_of_decimal? (decimal?_decimal n)

theorem length_decimal {n k : ℕ} (hk : 1 ≤ k) (h : n < 10 ^ k) : (decimal n).length ≤ k := by
  have hlen : (digits n).length ≤ k := by
    rw [digits, List.length_reverse, List.length_map, Nat.digits_length_le_iff (by decide)]
    exact h
  rw [decimal, Json.renderDigits, List.length_map]
  exact (IntPart.length_toList_ofDigits hk hlen)

/-! ### Version 4 -/

/-- `_parse_octet` succeeds. -/
def isOctet (s : Str) : Bool :=
  match decimal? s with
  | none => false
  | some n => s.length ≤ 3 && (s == str "0" || s.head? != some (.scalar '0')) && n ≤ 255

/-- `IPv4Address(s)` succeeds. -/
def isIPv4 (s : Str) : Bool :=
  let octets := s.splitOn (.scalar '.')
  octets.length == 4 && octets.all isOctet

/-! ### Version 6 -/

def isHexDigit (c : PyChar) : Bool :=
  c.isDigit || (0x41 ≤ c.ord && c.ord ≤ 0x46) || (0x61 ≤ c.ord && c.ord ≤ 0x66)

/-- `_parse_hextet` succeeds. -/
def isHextet (s : Str) : Bool := s != [] && s.all isHexDigit && s.length ≤ 4

/-- The parts between colons; an IPv4 address at the end counts as two hextets. -/
def ipv6Parts (s : Str) : Option (List Str) :=
  let parts := s.splitOn colon
  let last := parts.getLast?.getD []
  if parts.length < 3 then none
  else if last.contains (.scalar '.') then
    if isIPv4 last then some (parts.dropLast ++ [str "0", str "0"]) else none
  else some parts

/-- The hextets on one side of `::`, given as a list that begins at the end of the address. -/
def sideOf : List Str → Option (List Str)
  | [[]] => some []
  | [] :: _ => none
  | parts => some parts

/-- `_ip_int_from_string` succeeds. -/
def hasHextets (parts : List Str) : Bool :=
  if 9 < parts.length then false
  else
    let inner := parts.tail.dropLast
    match inner.findIdx? (· == []) with
    | none => parts.length == 8 && parts.all isHextet
    | some i =>
      inner.count [] == 1 &&
        match sideOf (parts.take (i + 1)), sideOf (parts.drop (i + 2)).reverse with
        | some hi, some lo => hi.length + lo.length ≤ 7 && hi.all isHextet && lo.all isHextet
        | _, _ => false

/-- `IPv6Address(s)` succeeds. -/
def isIPv6 (s : Str) : Bool :=
  let zone := cut percent s
  !s.contains slash && zone.2.all (fun z => z != [] && !z.contains percent) && (ipv6Parts zone.1).any hasHextets

/-! ### Brackets -/

/-- `\Av[a-fA-F0-9]+\..+\Z`. -/
def isIPvFuture : Str → Bool
  | .scalar 'v' :: r =>
    r.head?.any isHexDigit &&
      match r.dropWhile isHexDigit with
      | .scalar '.' :: t => t != [] && !t.contains (.scalar '\n')
      | _ => false
  | _ => false

/-- `_check_bracketed_host` succeeds. -/
def checkBracketedHost (s : Str) : Bool := if s.head? = some (.scalar 'v') then isIPvFuture s else isIPv6 s

theorem colon_mem_of_isIPv6 {s : Str} (h : isIPv6 s = true) : colon ∈ s := by
  simp only [isIPv6, Bool.and_eq_true, Option.any_eq_true] at h
  obtain ⟨-, parts, hparts, -⟩ := h
  have hbefore : ∀ c ∈ (cut percent s).1, c ∈ s := fun c hc => (List.takeWhile_prefix _).subset hc
  by_contra hs
  have hone := List.splitOn_eq_singleton fun h => hs (hbefore _ h)
  rw [ipv6Parts, hone] at hparts
  simp at hparts

/-- What stands in brackets has a colon, or a `v` and a dot. -/
theorem mem_of_checkBracketedHost {s : Str} (h : checkBracketedHost s = true) :
    colon ∈ s ∨ (.scalar 'v' ∈ s ∧ .scalar '.' ∈ s) := by
  unfold checkBracketedHost at h
  split at h
  · right
    unfold isIPvFuture at h
    split at h
    · next r =>
      refine ⟨List.mem_cons_self .., List.mem_cons_of_mem _ ?_⟩
      rw [Bool.and_eq_true] at h
      have h := h.2
      split at h
      · next t ht =>
        apply (List.dropWhile_suffix isHexDigit).subset
        rw [ht]
        exact List.mem_cons_self ..
      · cases h
    · cases h
  · exact .inl (colon_mem_of_isIPv6 h)

end SharedAi.Python
