import SharedAi.ServiceKit.CanonicalJson

/-!
# Frozen claims

The opaque claims of a grant are kept as a read-only value: `_freeze_json` and back, `_thaw_json`.  Both call
themselves at every container, and the stack is finite.

* `freezeJson`, `thawJson` — the two functions, with the frames they find left;
* `IsFrozen`, `freezeFrames` — what a frozen value is, member by member, and the frames it takes to get there;
* `freezeJson_eq_ok`, `freezeJson_eq_error` — a value is frozen if and only if the frames suffice;
* `thawWithin_of_isFrozen` — where a value was frozen, thawing gives it back.
-/

namespace SharedAi.ServiceKit

open SharedAi.Control SharedAi.Data SharedAi.Python

/-! ### The functions -/

section Freeze

variable (py : Interp)

mutual
/-- `_freeze_json`, with `n` frames left on the stack. -/
def freezeWithin : ℕ → PyVal → Except Exn PyVal
  | n, .dict ms => do
    ensure (py.comprehensionFrames ≤ n) .recursionError
    (freezeMembers (n - py.comprehensionFrames) ms).map .proxy
  | n, .list vs => do
    -- the function itself, and the generator that `tuple` reads
    ensure (2 ≤ n) .recursionError
    (freezeElems (n - 2) vs).map .tuple
  | _, v => .ok v
def freezeElems : ℕ → List PyVal → Except Exn (List PyVal)
  | _, [] => .ok []
  | n, v :: vs => do
    let w ← freezeWithin n v
    let ws ← freezeElems n vs
    pure (w :: ws)
def freezeMembers : ℕ → List (PyKey × PyVal) → Except Exn (List (PyKey × PyVal))
  | _, [] => .ok []
  | n, (k, v) :: ms => do
    let w ← freezeWithin n v
    let ns ← freezeMembers n ms
    pure ((k, w) :: ns)
end

/-- `_freeze_json`. -/
def freezeJson (v : PyVal) : Except Exn PyVal := freezeWithin py py.frames v

mutual
/-- `_thaw_json`, with `n` frames left on the stack. -/
def thawWithin : ℕ → PyVal → Except Exn PyVal
  | n, .dict ms => do
    ensure (py.comprehensionFrames ≤ n) .recursionError
    (thawMembers (n - py.comprehensionFrames) ms).map fun ns => .dict (fromItems ns)
  | n, .proxy ms => do
    ensure (py.comprehensionFrames ≤ n) .recursionError
    (thawMembers (n - py.comprehensionFrames) ms).map fun ns => .dict (fromItems ns)
  | n, .tuple vs => do
    ensure (py.comprehensionFrames ≤ n) .recursionError
    (thawElems (n - py.comprehensionFrames) vs).map .list
  | _, v => .ok v
def thawElems : ℕ → List PyVal → Except Exn (List PyVal)
  | _, [] => .ok []
  | n, v :: vs => do
    let w ← thawWithin n v
    let ws ← thawElems n vs
    pure (w :: ws)
def thawMembers : ℕ → List (PyKey × PyVal) → Except Exn (List (PyKey × PyVal))
  | _, [] => .ok []
  | n, (k, v) :: ms => do
    let w ← thawWithin n v
    let ns ← thawMembers n ms
    pure ((.str (py.keyToStr k), w) :: ns)
end

/-- `_thaw_json`. -/
def thawJson (v : PyVal) : Except Exn PyVal := thawWithin py py.frames v

/-- The frames that `_freeze_json` takes on the stack. -/
def freezeFrames (v : PyVal) : ℕ := v.stack py.comprehensionFrames 2

end Freeze

/-! ### What they do -/

mutual
/-- The second value is the first with its dictionaries read-only and its lists tuples, member by member and
element by element. -/
def IsFrozen : PyVal → PyVal → Prop
  | .dict ms, .proxy ns => IsFrozenMembers ms ns
  | .list vs, .tuple ws => IsFrozenElems vs ws
  | .dict _, _ => False
  | .list _, _ => False
  | v, w => v = w
def IsFrozenElems : List PyVal → List PyVal → Prop
  | [], [] => True
  | v :: vs, w :: ws => IsFrozen v w ∧ IsFrozenElems vs ws
  | _, _ => False
def IsFrozenMembers : List (PyKey × PyVal) → List (PyKey × PyVal) → Prop
  | [], [] => True
  | (k, v) :: ms, (l, w) :: ns => (k = l ∧ IsFrozen v w) ∧ IsFrozenMembers ms ns
  | _, _ => False
end

theorem isFrozenElems_iff {vs ws : List PyVal} : IsFrozenElems vs ws ↔ List.Forall₂ IsFrozen vs ws := by
  induction vs generalizing ws with
  | nil => cases ws <;> simp [IsFrozenElems]
  | cons v vs ih => cases ws <;> simp [IsFrozenElems, ih]

theorem isFrozenMembers_iff {ms ns : List (PyKey × PyVal)} :
    IsFrozenMembers ms ns ↔ List.Forall₂ (fun m n => m.1 = n.1 ∧ IsFrozen m.2 n.2) ms ns := by
  induction ms generalizing ns with
  | nil => cases ns <;> simp [IsFrozenMembers]
  | cons m ms ih => cases ns <;> simp [IsFrozenMembers, ih]

theorem isFrozen_list {vs : List PyVal} {w : PyVal} :
    IsFrozen (.list vs) w ↔ ∃ ws, w = .tuple ws ∧ List.Forall₂ IsFrozen vs ws := by
  cases w <;> simp [IsFrozen, isFrozenElems_iff]

theorem isFrozen_dict {ms : List (PyKey × PyVal)} {w : PyVal} : IsFrozen (.dict ms) w ↔
    ∃ ns, w = .proxy ns ∧ List.Forall₂ (fun m n => m.1 = n.1 ∧ IsFrozen m.2 n.2) ms ns := by
  cases w <;> simp [IsFrozen, isFrozenMembers_iff]

theorem exists_isFrozen (v : PyVal) : ∃ w, IsFrozen v w := by
  induction v using PyVal.ind with
  | list vs ih =>
    obtain ⟨ws, hws⟩ := exists_forall₂ ih
    exact ⟨_, isFrozen_list.2 ⟨ws, rfl, hws⟩⟩
  | dict ms ih =>
    have hmember : ∀ m ∈ ms, ∃ n : PyKey × PyVal, m.1 = n.1 ∧ IsFrozen m.2 n.2 := by
      intro m hm
      obtain ⟨w, hw⟩ := ih m hm
      exact ⟨(m.1, w), rfl, hw⟩
    obtain ⟨ns, hns⟩ := exists_forall₂ hmember
    exact ⟨_, isFrozen_dict.2 ⟨ns, rfl, hns⟩⟩
  | _ => exact ⟨_, rfl⟩

section Freezing

variable {py : Interp} {n : ℕ}

theorem freezeElems_eq_mapM (vs : List PyVal) : freezeElems py n vs = vs.mapM (freezeWithin py n) := by
  induction vs with
  | nil => rfl
  | cons v vs ih => rw [freezeElems, ih, List.mapM_cons]

theorem freezeMembers_eq_mapM (ms : List (PyKey × PyVal)) :
    freezeMembers py n ms = ms.mapM fun m => (freezeWithin py n m.2).map (m.1, ·) := by
  induction ms with
  | nil => rfl
  | cons m ms ih =>
    rw [freezeMembers, ih, List.mapM_cons]
    cases freezeWithin py n m.2 <;> rfl

theorem thawElems_eq_mapM (vs : List PyVal) : thawElems py n vs = vs.mapM (thawWithin py n) := by
  induction vs with
  | nil => rfl
  | cons v vs ih => rw [thawElems, ih, List.mapM_cons]

theorem thawMembers_eq_mapM (ms : List (PyKey × PyVal)) : thawMembers py n ms =
    ms.mapM fun m => (thawWithin py n m.2).map (.str (py.keyToStr m.1), ·) := by
  induction ms with
  | nil => rfl
  | cons m ms ih =>
    rw [thawMembers, ih, List.mapM_cons]
    cases thawWithin py n m.2 <;> rfl

theorem freezeWithin_list {vs : List PyVal} {w : PyVal} : freezeWithin py n (.list vs) = .ok w ↔
    2 ≤ n ∧ ∃ ws, w = .tuple ws ∧ List.Forall₂ (fun v w => freezeWithin py (n - 2) v = .ok w) vs ws := by
  rw [freezeWithin, check_eq_ok, ensure_eq_ok, map_eq_ok, freezeElems_eq_mapM]
  simp only [mapM_eq_ok, eq_comm (b := w)]
  exact and_congr_right fun _ => exists_congr fun _ => and_comm

theorem freezeWithin_dict {ms : List (PyKey × PyVal)} {w : PyVal} : freezeWithin py n (.dict ms) = .ok w ↔
    py.comprehensionFrames ≤ n ∧ ∃ ns, w = .proxy ns ∧ List.Forall₂ (fun m e => m.1 = e.1 ∧
      freezeWithin py (n - py.comprehensionFrames) m.2 = .ok e.2) ms ns := by
  have hturn : ∀ (m e : PyKey × PyVal), (freezeWithin py (n - py.comprehensionFrames) m.2).map (m.1, ·) = .ok e ↔
      m.1 = e.1 ∧ freezeWithin py (n - py.comprehensionFrames) m.2 = .ok e.2 := by
    rintro m ⟨k, w⟩
    rw [map_eq_ok]
    simp [and_comm]
  rw [freezeWithin, check_eq_ok, ensure_eq_ok, map_eq_ok, freezeMembers_eq_mapM]
  simp only [mapM_eq_ok, hturn, eq_comm (b := w)]
  exact and_congr_right fun _ => exists_congr fun _ => and_comm

/-- A value is frozen member by member, if the stack is large enough. -/
theorem freezeWithin_eq_ok {v w : PyVal} :
    freezeWithin py n v = .ok w ↔ IsFrozen v w ∧ v.stack py.comprehensionFrames 2 ≤ n := by
  induction v using PyVal.ind generalizing n w with
  | list vs ih =>
    rw [freezeWithin_list, isFrozen_list, PyVal.stack_list_le]
    constructor
    · rintro ⟨hn, ws, rfl, h⟩
      refine ⟨⟨ws, rfl, forall₂_imp_mem h fun v hv w _ hw => ((ih v hv).1 hw).1⟩, hn, fun v hv => ?_⟩
      obtain ⟨w, -, hw⟩ := forall₂_mem_left h hv
      exact ((ih v hv).1 hw).2
    · rintro ⟨⟨ws, rfl, h⟩, hn, hs⟩
      exact ⟨hn, ws, rfl, forall₂_imp_mem h fun v hv w _ hw => (ih v hv).2 ⟨hw, hs v hv⟩⟩
  | dict ms ih =>
    rw [freezeWithin_dict, isFrozen_dict, PyVal.stack_dict_le]
    constructor
    · rintro ⟨hn, ns, rfl, h⟩
      refine ⟨⟨ns, rfl, forall₂_imp_mem h fun m hm e _ he => ⟨he.1, ((ih m hm).1 he.2).1⟩⟩, hn, fun m hm => ?_⟩
      obtain ⟨e, -, he⟩ := forall₂_mem_left h hm
      exact ((ih m hm).1 he.2).2
    · rintro ⟨⟨ns, rfl, h⟩, hn, hs⟩
      exact ⟨hn, ns, rfl, forall₂_imp_mem h fun m hm e _ he => ⟨he.1, (ih m hm).2 ⟨he.2, hs m hm⟩⟩⟩
  | _ => simp [freezeWithin, IsFrozen, PyVal.stack]

theorem freezeWithin_raisesIn (v : PyVal) : RaisesIn (· = .recursionError) (freezeWithin py n v) := by
  have hroom : ∀ {p : Prop} [Decidable p], RaisesIn (· = .recursionError) (ensure p Exn.recursionError) :=
    raisesIn_ensure rfl
  induction v using PyVal.ind generalizing n with
  | list vs ih =>
    rw [freezeWithin, freezeElems_eq_mapM]
    exact hroom.bind fun _ _ => (raisesIn_mapM fun v hv => ih v hv).map
  | dict ms ih =>
    rw [freezeWithin, freezeMembers_eq_mapM]
    exact hroom.bind fun _ _ => (raisesIn_mapM fun m hm => (ih m hm).map).map
  | _ => exact raisesIn_ok _

theorem freezeJson_eq_ok {v w : PyVal} : freezeJson py v = .ok w ↔ IsFrozen v w ∧ freezeFrames py v ≤ py.frames :=
  freezeWithin_eq_ok

/-- Freezing fails on the values that take too much stack, and on no others. -/
theorem freezeJson_eq_error {v : PyVal} {e : Exn} :
    freezeJson py v = .error e ↔ e = .recursionError ∧ py.frames < freezeFrames py v := by
  cases h : freezeJson py v with
  | ok w =>
    obtain ⟨-, hn⟩ := freezeJson_eq_ok.1 h
    simp [Nat.not_lt.2 hn]
  | error e' =>
    obtain rfl : e' = .recursionError := freezeWithin_raisesIn v _ h
    have hlt : py.frames < freezeFrames py v := by
      by_contra hle
      obtain ⟨w, hw⟩ := exists_isFrozen v
      cases h.symm.trans (freezeJson_eq_ok.2 ⟨hw, Nat.not_lt.1 hle⟩)
    simp [hlt, eq_comm]

theorem thawWithin_tuple {ws : List PyVal} {v : PyVal} : thawWithin py n (.tuple ws) = .ok v ↔
    py.comprehensionFrames ≤ n ∧ ∃ vs, v = .list vs ∧
      List.Forall₂ (fun w v => thawWithin py (n - py.comprehensionFrames) w = .ok v) ws vs := by
  rw [thawWithin, check_eq_ok, ensure_eq_ok, map_eq_ok, thawElems_eq_mapM]
  simp only [mapM_eq_ok, eq_comm (b := v)]
  exact and_congr_right fun _ => exists_congr fun _ => and_comm

theorem thawWithin_proxy {ns : List (PyKey × PyVal)} {v : PyVal} : thawWithin py n (.proxy ns) = .ok v ↔
    py.comprehensionFrames ≤ n ∧ ∃ ms, v = .dict (fromItems ms) ∧ List.Forall₂ (fun e m =>
      m.1 = .str (py.keyToStr e.1) ∧ thawWithin py (n - py.comprehensionFrames) e.2 = .ok m.2) ns ms := by
  have hturn : ∀ (e m : PyKey × PyVal), (thawWithin py (n - py.comprehensionFrames) e.2).map
      (PyKey.str (py.keyToStr e.1), ·) = .ok m ↔ m.1 = .str (py.keyToStr e.1) ∧
        thawWithin py (n - py.comprehensionFrames) e.2 = .ok m.2 := by
    rintro e ⟨k, v⟩
    rw [map_eq_ok]
    simp [and_comm, eq_comm]
  rw [thawWithin, check_eq_ok, ensure_eq_ok, map_eq_ok, thawMembers_eq_mapM]
  simp only [mapM_eq_ok, hturn, eq_comm (b := v)]
  exact and_congr_right fun _ => exists_congr fun _ => and_comm

/-- **Thawing a frozen JSON value gives the value back**, and takes no more stack. -/
theorem thawWithin_of_isFrozen {v w : PyVal} {k : ℕ} (hv : validateWithin k v = .ok ()) (hk : v.distinctKeys = true)
    (hw : IsFrozen v w) (hn : v.stack py.comprehensionFrames 2 ≤ n) : thawWithin py n w = .ok v := by
  induction v using PyVal.ind generalizing k n w with
  | none | bool | int | float | str =>
    obtain rfl : _ = w := hw
    rfl
  | bytes | tuple | proxy | object => cases k <;> cases hv
  | list vs ih =>
    obtain ⟨k, rfl, hvs⟩ := validate_list.1 hv
    have hks := PyVal.distinctKeys_list.1 hk
    obtain ⟨ws, rfl, hws⟩ := isFrozen_list.1 hw
    obtain ⟨h2, hs⟩ := PyVal.stack_list_le.1 hn
    have hle := py.comprehensionFrames_le
    refine thawWithin_tuple.2 ⟨hle.trans h2, vs, rfl, (forall₂_imp_mem hws fun v hv w _ hw => ?_).flip⟩
    exact ih v hv (hvs v hv) (hks v hv) hw ((hs v hv).trans (Nat.sub_le_sub_left hle n))
  | dict ms ih =>
    obtain ⟨k, rfl, hms⟩ := validate_dict.1 hv
    obtain ⟨hnd, hks⟩ := PyVal.distinctKeys_dict.1 hk
    obtain ⟨ns, rfl, hns⟩ := isFrozen_dict.1 hw
    obtain ⟨hle, hs⟩ := PyVal.stack_dict_le.1 hn
    refine thawWithin_proxy.2 ⟨hle, ms, by rw [fromItems_eq hnd], (forall₂_imp_mem hns fun m hm e _ he => ?_).flip⟩
    obtain ⟨⟨key, hkey, -⟩, hvm⟩ := hms m hm
    refine ⟨?_, ih m hm hvm (hks m hm) he.2 (hs m hm)⟩
    rw [← he.1, hkey, Interp.keyToStr]

end Freezing

/-- Equal claims take the same stack. -/
theorem freezeFrames_le_of_jsonEq {py : Interp} {v w : Value} (h : v.JsonEq w) {n : ℕ} :
    freezeFrames py v ≤ n ↔ freezeFrames py w ≤ n :=
  ⟨PyVal.stack_le_of_jsonEq v.2 w.2 h, PyVal.stack_le_of_jsonEq w.2 v.2 (PyVal.jsonEq_symm v.2 w.2 h)⟩

end SharedAi.ServiceKit
