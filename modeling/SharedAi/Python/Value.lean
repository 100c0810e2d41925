import SharedAi.Data.Assoc
import SharedAi.Num.Float64
import SharedAi.Text.Codec

/-!
# Python values

`PyVal` is what a name of the program can be bound to, as far as the program tells values apart: an
`isinstance` test is a match on a constructor.  A dictionary is the list of its items.

* `distinctKeys`, `Value` — no dictionary holds a key twice, which Python guarantees;
* `stack` — how many frames a recursion over a JSON value takes;
* `jsonEq` — equality as JSON: up to the order of members, with `1`, `1.0` and `True` kept apart.
-/

namespace SharedAi.Python

open SharedAi.Data SharedAi.Num SharedAi.Text

/-- A dictionary key: a string, or another object that hashes. -/
inductive PyKey where
  | str (s : Str)
  | object (id : ℕ)
  deriving DecidableEq

/-- A value; `proxy` is a `Mapping` that is not a `dict` (`MappingProxyType`), `object` everything else. -/
inductive PyVal where
  | none
  | bool (b : Bool)
  | int (n : ℤ)
  | float (x : Float64)
  | str (s : Str)
  | bytes (b : Bytes)
  | list (vs : List PyVal)
  | tuple (vs : List PyVal)
  | dict (ms : List (PyKey × PyVal))
  | proxy (ms : List (PyKey × PyVal))
  | object (id : ℕ)

namespace PyVal

/-- Induction on values: the elements and the members of a container satisfy the claim. -/
theorem ind {P : PyVal → Prop} (none : P .none) (bool : ∀ b, P (.bool b)) (int : ∀ n, P (.int n))
    (float : ∀ x, P (.float x)) (str : ∀ s, P (.str s)) (bytes : ∀ b, P (.bytes b))
    (list : ∀ vs, (∀ v ∈ vs, P v) → P (.list vs)) (tuple : ∀ vs, (∀ v ∈ vs, P v) → P (.tuple vs))
    (dict : ∀ ms, (∀ m ∈ ms, P m.2) → P (.dict ms)) (proxy : ∀ ms, (∀ m ∈ ms, P m.2) → P (.proxy ms))
    (object : ∀ i, P (.object i)) : ∀ v, P v :=
  PyVal.rec (motive_1 := P) (motive_2 := fun vs => ∀ v ∈ vs, P v) (motive_3 := fun ms => ∀ m ∈ ms, P m.2)
    (motive_4 := fun m => P m.2) none bool int float str bytes list tuple dict proxy object (by simp)
    (fun v vs hv hvs w hw => by
      rcases List.mem_cons.1 hw with rfl | hw
      · exact hv
      · exact hvs w hw)
    (by simp)
    (fun m ms hm hms e he => by
      rcases List.mem_cons.1 he with rfl | he
      · exact hm
      · exact hms e he)
    (fun _ _ hv => hv)

/-! ### Dictionaries -/

mutual
/-- No dictionary in the value holds a key twice. -/
def distinctKeys : PyVal → Bool
  | .list vs => distinctKeysList vs
  | .tuple vs => distinctKeysList vs
  | .dict ms => decide (keys ms).Nodup && distinctKeysMembers ms
  | .proxy ms => decide (keys ms).Nodup && distinctKeysMembers ms
  | _ => true
def distinctKeysList : List PyVal → Bool
  | [] => true
  | v :: vs => distinctKeys v && distinctKeysList vs
def distinctKeysMembers : List (PyKey × PyVal) → Bool
  | [] => true
  | (_, v) :: ms => distinctKeys v && distinctKeysMembers ms
end

theorem distinctKeysList_iff {vs : List PyVal} : distinctKeysList vs = true ↔ ∀ v ∈ vs, distinctKeys v = true := by
  induction vs with
  | nil => simp [distinctKeysList]
  | cons v vs ih => simp [distinctKeysList, ih]

theorem distinctKeysMembers_iff {ms : List (PyKey × PyVal)} :
    distinctKeysMembers ms = true ↔ ∀ m ∈ ms, distinctKeys m.2 = true := by
  induction ms with
  | nil => simp [distinctKeysMembers]
  | cons m ms ih => simp [distinctKeysMembers, ih]

theorem distinctKeys_list {vs : List PyVal} :
    distinctKeys (.list vs) = true ↔ ∀ v ∈ vs, distinctKeys v = true := distinctKeysList_iff

theorem distinctKeys_dict {ms : List (PyKey × PyVal)} :
    distinctKeys (.dict ms) = true ↔ (keys ms).Nodup ∧ ∀ m ∈ ms, distinctKeys m.2 = true := by
  simp [distinctKeys, distinctKeysMembers_iff]

/-- `d.get(key)` of a `dict`. -/
def get? (ms : List (PyKey × PyVal)) (key : String) : Option PyVal := ms.lookup (.str (Text.str key))

/-! ### Stack -/

section Stack

variable (m s : ℕ)

mutual
/-- The frames open at the deepest place of a JSON value, of a recursion that takes `m` at an object and `s` at an
array. -/
def stack : PyVal → ℕ
  | .list vs => s + stackList vs
  | .dict ms => m + stackMembers ms
  | _ => 0
def stackList : List PyVal → ℕ
  | [] => 0
  | v :: vs => max (stack v) (stackList vs)
def stackMembers : List (PyKey × PyVal) → ℕ
  | [] => 0
  | (_, v) :: ms => max (stack v) (stackMembers ms)
end

variable {m s} {n : ℕ}

theorem stackList_le {vs : List PyVal} : stackList m s vs ≤ n ↔ ∀ v ∈ vs, stack m s v ≤ n := by
  induction vs with
  | nil => simp [stackList]
  | cons v vs ih => simp [stackList, ih]

theorem stackMembers_le {ms : List (PyKey × PyVal)} : stackMembers m s ms ≤ n ↔ ∀ e ∈ ms, stack m s e.2 ≤ n := by
  induction ms with
  | nil => simp [stackMembers]
  | cons e ms ih => simp [stackMembers, ih]

theorem stack_list_le {vs : List PyVal} : stack m s (.list vs) ≤ n ↔ s ≤ n ∧ ∀ v ∈ vs, stack m s v ≤ n - s := by
  rw [stack, ← stackList_le]
  omega

theorem stack_dict_le {ms : List (PyKey × PyVal)} :
    stack m s (.dict ms) ≤ n ↔ m ≤ n ∧ ∀ e ∈ ms, stack m s e.2 ≤ n - m := by
  rw [stack, ← stackMembers_le]
  omega

end Stack

/-! ### Equality as JSON -/

mutual
/-- Equality as JSON: arrays element by element, objects up to the order of their members, and scalars of
one type only. -/
def jsonEq : PyVal → PyVal → Bool
  | .none, .none => true
  | .bool a, .bool b => a == b
  | .int a, .int b => a == b
  | .float a, .float b => a == b
  | .str a, .str b => a == b
  | .list vs, .list ws => jsonEqList vs ws
  | .dict ms, .dict ns => ms.length == ns.length && jsonEqMembers ms ns
  | _, _ => false
def jsonEqList : List PyVal → List PyVal → Bool
  | [], [] => true
  | v :: vs, w :: ws => jsonEq v w && jsonEqList vs ws
  | _, _ => false
def jsonEqMembers : List (PyKey × PyVal) → List (PyKey × PyVal) → Bool
  | [], _ => true
  | (k, v) :: ms, ns => ns.any (fun n => decide (n.1 = k) && jsonEq v n.2) && jsonEqMembers ms ns
end

theorem jsonEqList_iff {vs ws : List PyVal} : jsonEqList vs ws = true ↔ List.Forall₂ (jsonEq · · = true) vs ws := by
  induction vs generalizing ws with
  | nil => cases ws <;> simp [jsonEqList]
  | cons v vs ih => cases ws <;> simp [jsonEqList, ih]

theorem jsonEqMembers_iff {ms ns : List (PyKey × PyVal)} : jsonEqMembers ms ns = true ↔
    ∀ m ∈ ms, ∃ w, (m.1, w) ∈ ns ∧ jsonEq m.2 w = true := by
  induction ms with
  | nil => simp [jsonEqMembers]
  | cons m ms ih =>
    simp only [jsonEqMembers, Bool.and_eq_true, List.any_eq_true, decide_eq_true_eq, ih, List.mem_cons,
      forall_eq_or_imp]
    apply and_congr_left
    intro _
    constructor
    · rintro ⟨⟨k, w⟩, hn, rfl, hw⟩
      exact ⟨w, hn, hw⟩
    · rintro ⟨w, hn, hw⟩
      exact ⟨_, hn, rfl, hw⟩

theorem jsonEq_dict {ms ns : List (PyKey × PyVal)} : jsonEq (.dict ms) (.dict ns) = true ↔
    ms.length = ns.length ∧ ∀ m ∈ ms, ∃ w, (m.1, w) ∈ ns ∧ jsonEq m.2 w = true := by
  rw [jsonEq, Bool.and_eq_true, jsonEqMembers_iff, beq_iff_eq]

/-- Objects are equal if and only if every member of one has a counterpart in the other. -/
theorem jsonEq_dict_iff {ms ns : List (PyKey × PyVal)} (hm : (keys ms).Nodup) (hn : (keys ns).Nodup) :
    jsonEq (.dict ms) (.dict ns) = true ↔
      (∀ m ∈ ms, ∃ w, (m.1, w) ∈ ns ∧ jsonEq m.2 w = true) ∧ ∀ n ∈ ns, ∃ v, (n.1, v) ∈ ms ∧ jsonEq v n.2 = true := by
  rw [jsonEq_dict]
  constructor
  · rintro ⟨hl, h⟩
    exact ⟨h, members_swap (R := fun v w => jsonEq v w = true) hm hn hl h⟩
  · rintro ⟨h, h'⟩
    refine ⟨length_eq_of_keys hm hn fun k => ⟨fun hk => ?_, fun hk => ?_⟩, h⟩
    · obtain ⟨v, hv⟩ := mem_keys.1 hk
      obtain ⟨w, hw, -⟩ := h _ hv
      exact mem_keys_of_mem hw
    · obtain ⟨w, hw⟩ := mem_keys.1 hk
      obtain ⟨v, hv, -⟩ := h' _ hw
      exact mem_keys_of_mem hv

/-- Only a scalar equals a scalar, and only itself. -/
def isScalar : PyVal → Bool
  | .none | .bool _ | .int _ | .float _ | .str _ => true
  | _ => false

theorem eq_of_jsonEq {v w : PyVal} (hv : v.isScalar = true) (h : jsonEq v w = true) : w = v := by
  cases v <;> cases hv <;> cases w <;> simp_all [jsonEq]

theorem dict_of_jsonEq {ms : List (PyKey × PyVal)} {w : PyVal} (h : jsonEq (.dict ms) w = true) :
    ∃ ns, w = .dict ns := by
  cases w <;> first | exact ⟨_, rfl⟩ | cases h

theorem jsonEq_symm {v w : PyVal} (hv : distinctKeys v = true) (hw : distinctKeys w = true)
    (h : jsonEq v w = true) : jsonEq w v = true := by
  induction v using PyVal.ind generalizing w with
  | none | bool | int | float | str =>
    obtain rfl := eq_of_jsonEq rfl h
    exact h
  | bytes | tuple | proxy | object => cases w <;> cases h
  | list vs ih =>
    cases w with
    | list ws =>
      rw [distinctKeys_list] at hv hw
      have hback := forall₂_imp_mem (S := fun v w => jsonEq w v = true) (jsonEqList_iff.1 h)
        fun v hvm w hwm hvw => ih v hvm (hv v hvm) (hw w hwm) hvw
      exact jsonEqList_iff.2 hback.flip
    | _ => cases h
  | dict ms ih =>
    obtain ⟨ns, rfl⟩ := dict_of_jsonEq h
    obtain ⟨hkm, hm⟩ := distinctKeys_dict.1 hv
    obtain ⟨hkn, hn⟩ := distinctKeys_dict.1 hw
    obtain ⟨hmem, hback⟩ := (jsonEq_dict_iff hkm hkn).1 h
    refine (jsonEq_dict_iff hkn hkm).2 ⟨fun n hnm => ?_, fun m hmm => ?_⟩
    · obtain ⟨v, hvm, hvw⟩ := hback n hnm
      exact ⟨v, hvm, ih _ hvm (hm _ hvm) (hn n hnm) hvw⟩
    · obtain ⟨w, hwn, hvw⟩ := hmem m hmm
      exact ⟨w, hwn, ih m hmm (hm m hmm) (hn _ hwn) hvw⟩

/-- Equal objects have equal values under a key, or neither has the key. -/
theorem get?_of_jsonEq {ms ns : List (PyKey × PyVal)} (h : jsonEq (.dict ms) (.dict ns) = true)
    (hm : distinctKeys (.dict ms) = true) (hn : distinctKeys (.dict ns) = true) (key : String) :
    Option.Rel (jsonEq · · = true) (get? ms key) (get? ns key) := by
  have hkm := (distinctKeys_dict.1 hm).1
  have hkn := (distinctKeys_dict.1 hn).1
  obtain ⟨hmem, hback⟩ := (jsonEq_dict_iff hkm hkn).1 h
  unfold get?
  cases hv : ms.lookup (.str (Text.str key)) with
  | some v =>
    obtain ⟨w, hw, hvw⟩ := hmem _ ((lookup_eq_some hkm).1 hv)
    rw [(lookup_eq_some hkn).2 hw]
    exact .some hvw
  | none =>
    have hns : ns.lookup (.str (Text.str key)) = Option.none := by
      rw [lookup_eq_none] at hv ⊢
      intro hk
      obtain ⟨w, hw⟩ := mem_keys.1 hk
      obtain ⟨v, hv', -⟩ := hback _ hw
      exact hv (mem_keys_of_mem hv')
    rw [hns]
    exact .none

theorem get?_scalar {ms ns : List (PyKey × PyVal)} (h : jsonEq (.dict ms) (.dict ns) = true)
    (hm : distinctKeys (.dict ms) = true) (hn : distinctKeys (.dict ns) = true) {key : String} {v : PyVal}
    (hv : get? ms key = some v) (hs : v.isScalar = true) : get? ns key = some v := by
  have hrel := get?_of_jsonEq h hm hn key
  rw [hv] at hrel
  cases hns : get? ns key with
  | none =>
    rw [hns] at hrel
    cases hrel
  | some w =>
    rw [hns] at hrel
    cases hrel with
    | some hvw => rw [eq_of_jsonEq hs hvw]

theorem get?_none {ms ns : List (PyKey × PyVal)} (h : jsonEq (.dict ms) (.dict ns) = true)
    (hm : distinctKeys (.dict ms) = true) (hn : distinctKeys (.dict ns) = true) {key : String}
    (hv : get? ms key = Option.none) : get? ns key = Option.none := by
  have hrel := get?_of_jsonEq h hm hn key
  rw [hv] at hrel
  cases hns : get? ns key with
  | none => rfl
  | some w =>
    rw [hns] at hrel
    cases hrel

theorem get?_dict {ms ns : List (PyKey × PyVal)} (h : jsonEq (.dict ms) (.dict ns) = true)
    (hm : distinctKeys (.dict ms) = true) (hn : distinctKeys (.dict ns) = true) {key : String}
    {ts : List (PyKey × PyVal)} (hv : get? ms key = some (.dict ts)) :
    ∃ us, get? ns key = some (.dict us) ∧ jsonEq (.dict ts) (.dict us) = true := by
  have hrel := get?_of_jsonEq h hm hn key
  rw [hv] at hrel
  cases hns : get? ns key with
  | none =>
    rw [hns] at hrel
    cases hrel
  | some w =>
    rw [hns] at hrel
    cases hrel with
    | some hvw =>
      obtain ⟨us, rfl⟩ := dict_of_jsonEq hvw
      exact ⟨us, rfl, hvw⟩

theorem distinctKeys_of_get? {ms : List (PyKey × PyVal)} (hm : distinctKeys (.dict ms) = true) {key : String}
    {v : PyVal} (hv : get? ms key = some v) : distinctKeys v = true := by
  obtain ⟨hk, hms⟩ := distinctKeys_dict.1 hm
  exact hms _ ((lookup_eq_some hk).1 hv)

/-- Equal values take the same stack. -/
theorem stack_le_of_jsonEq {m s n : ℕ} {v w : PyVal} (hv : distinctKeys v = true) (hw : distinctKeys w = true)
    (h : jsonEq v w = true) (hn : stack m s v ≤ n) : stack m s w ≤ n := by
  induction v using PyVal.ind generalizing w n with
  | none | bool | int | float | str => rwa [eq_of_jsonEq rfl h]
  | bytes | tuple | proxy | object => cases w <;> cases h
  | list vs ih =>
    cases w with
    | list ws =>
      rw [distinctKeys_list] at hv hw
      obtain ⟨hs, hvs⟩ := stack_list_le.1 hn
      refine stack_list_le.2 ⟨hs, fun w hwm => ?_⟩
      obtain ⟨v, hvm, hvw⟩ := forall₂_mem_right (jsonEqList_iff.1 h) hwm
      exact ih v hvm (hv v hvm) (hw w hwm) hvw (hvs v hvm)
    | _ => cases h
  | dict ms ih =>
    obtain ⟨ns, rfl⟩ := dict_of_jsonEq h
    obtain ⟨hkm, hm⟩ := distinctKeys_dict.1 hv
    obtain ⟨hkn, hn'⟩ := distinctKeys_dict.1 hw
    obtain ⟨-, hback⟩ := (jsonEq_dict_iff hkm hkn).1 h
    obtain ⟨hs, hms⟩ := stack_dict_le.1 hn
    refine stack_dict_le.2 ⟨hs, fun e he => ?_⟩
    obtain ⟨v, hvm, hvw⟩ := hback e he
    exact ih _ hvm (hm _ hvm) (hn' e he) hvw (hms _ hvm)

end PyVal

def Value : Type := { v : PyVal // v.distinctKeys = true }

namespace Value

instance : Coe Value PyVal := ⟨Subtype.val⟩

def JsonEq (v w : Value) : Prop := PyVal.jsonEq v w = true

instance (v w : Value) : Decidable (JsonEq v w) := inferInstanceAs (Decidable (_ = _))

end Value

end SharedAi.Python
