import SharedAi.Json.Reach
import SharedAi.ServiceKit.CanonicalEq

/-!
# Strict parsing

A JSON document is read as its syntax tree, whose objects are lists of members as the text gives them.

* `unambiguous` — no key twice, no constant, no overflow, no lone surrogate, at any depth;
* `valueOf` — the value with exactly the members, elements and scalars of a tree;
* `strictJsonLoads_iff` — `strict_json_loads` returns `valueOf` of the unambiguous trees and nothing else;
* `MeetsLimit` — the texts on which it runs into a limit of the interpreter instead.
-/

namespace SharedAi.ServiceKit

open SharedAi.Control SharedAi.Data SharedAi.Json SharedAi.Num SharedAi.Python SharedAi.Text

/-! ### Trees -/

def noSurrogate (s : Str) : Bool := s.all fun c => !c.isSurrogate

mutual
/-- Nothing in the tree can be read in two ways, or not as JSON. -/
def unambiguous : Doc → Bool
  | .null => true
  | .bool _ => true
  | .num l => l.isInt || (Float64.ofLit l).isFinite
  | .const _ => false
  | .str s => noSurrogate s
  | .arr ds => unambiguousElems ds
  | .obj ms => decide (keys ms).Nodup && unambiguousMembers ms
def unambiguousElems : List Doc → Bool
  | [] => true
  | d :: ds => unambiguous d && unambiguousElems ds
def unambiguousMembers : List (Str × Doc) → Bool
  | [] => true
  | (k, d) :: ms => noSurrogate k && (unambiguous d && unambiguousMembers ms)
end

mutual
/-- The integer literals of the tree are within the digit limit. -/
def intsWithin (py : Interp) : Doc → Bool
  | .num l => !l.isInt || py.withinDigits l.int
  | .arr ds => intsWithinElems py ds
  | .obj ms => intsWithinMembers py ms
  | _ => true
def intsWithinElems (py : Interp) : List Doc → Bool
  | [] => true
  | d :: ds => intsWithin py d && intsWithinElems py ds
def intsWithinMembers (py : Interp) : List (Str × Doc) → Bool
  | [] => true
  | (_, d) :: ms => intsWithin py d && intsWithinMembers py ms
end

mutual
/-- No key twice and no constant, at any depth: what the pairs hook and the constant hook let through. -/
def unrepeated : Doc → Bool
  | .const _ => false
  | .arr ds => unrepeatedElems ds
  | .obj ms => decide (keys ms).Nodup && unrepeatedMembers ms
  | _ => true
def unrepeatedElems : List Doc → Bool
  | [] => true
  | d :: ds => unrepeated d && unrepeatedElems ds
def unrepeatedMembers : List (Str × Doc) → Bool
  | [] => true
  | (_, d) :: ms => unrepeated d && unrepeatedMembers ms
end

def constantValue : Constant → Float64
  | .nan => .nan
  | .infinity => .inf false
  | .negInfinity => .inf true

mutual
def valueOf : Doc → PyVal
  | .null => .none
  | .bool b => .bool b
  | .num l => if l.isInt then .int l.intValue else .float (Float64.ofLit l)
  | .const c => .float (constantValue c)
  | .str s => .str s
  | .arr ds => .list (valueOfElems ds)
  | .obj ms => .dict (valueOfMembers ms)
def valueOfElems : List Doc → List PyVal
  | [] => []
  | d :: ds => valueOf d :: valueOfElems ds
def valueOfMembers : List (Str × Doc) → List (PyKey × PyVal)
  | [] => []
  | (k, d) :: ms => (.str k, valueOf d) :: valueOfMembers ms
end

theorem unambiguousElems_iff {ds : List Doc} : unambiguousElems ds = true ↔ ∀ d ∈ ds, unambiguous d = true := by
  induction ds with
  | nil => simp [unambiguousElems]
  | cons d ds ih => simp [unambiguousElems, ih]

theorem unambiguousMembers_iff {ms : List (Str × Doc)} :
    unambiguousMembers ms = true ↔ ∀ m ∈ ms, noSurrogate m.1 = true ∧ unambiguous m.2 = true := by
  induction ms with
  | nil => simp [unambiguousMembers]
  | cons m ms ih => simp [unambiguousMembers, ih, and_assoc]

theorem intsWithinElems_iff {py : Interp} {ds : List Doc} :
    intsWithinElems py ds = true ↔ ∀ d ∈ ds, intsWithin py d = true := by
  induction ds with
  | nil => simp [intsWithinElems]
  | cons d ds ih => simp [intsWithinElems, ih]

theorem intsWithinMembers_iff {py : Interp} {ms : List (Str × Doc)} :
    intsWithinMembers py ms = true ↔ ∀ m ∈ ms, intsWithin py m.2 = true := by
  induction ms with
  | nil => simp [intsWithinMembers]
  | cons m ms ih => simp [intsWithinMembers, ih]

theorem unrepeatedElems_iff {ds : List Doc} : unrepeatedElems ds = true ↔ ∀ d ∈ ds, unrepeated d = true := by
  induction ds with
  | nil => simp [unrepeatedElems]
  | cons d ds ih => simp [unrepeatedElems, ih]

theorem unrepeatedMembers_iff {ms : List (Str × Doc)} :
    unrepeatedMembers ms = true ↔ ∀ m ∈ ms, unrepeated m.2 = true := by
  induction ms with
  | nil => simp [unrepeatedMembers]
  | cons m ms ih => simp [unrepeatedMembers, ih]

theorem valueOfElems_eq (ds : List Doc) : valueOfElems ds = ds.map valueOf := by
  induction ds with
  | nil => rfl
  | cons d ds ih => rw [valueOfElems, ih, List.map_cons]

theorem valueOfMembers_eq (ms : List (Str × Doc)) : valueOfMembers ms = ms.map fun m => (.str m.1, valueOf m.2) := by
  induction ms with
  | nil => rfl
  | cons m ms ih => rw [valueOfMembers, ih, List.map_cons]

theorem validateStr_eq_ok' {s : Str} : validateStr s = .ok () ↔ noSurrogate s = true := by
  rw [validateStr_eq_ok]
  simp [noSurrogate]

/-! ### The hooks -/

variable {py : Interp}

/-- The hooks build the value of the tree or fail. -/
theorem eq_valueOf {d : Doc} {v : PyVal} (h : build (strictHooks py) d = .ok v) : v = valueOf d := by
  induction d using Doc.ind generalizing v with
  | null | bool | str =>
    cases h
    rfl
  | const c => cases h
  | num l =>
    rw [build, Hooks.number] at h
    rw [valueOf]
    split at h
    · next hi =>
      rw [if_pos hi]
      change (py.parseInt l).map .int = .ok v at h
      unfold Interp.parseInt at h
      split at h
      · cases h
        rfl
      · cases h
    · next hi =>
      rw [if_neg hi]
      cases h
      rfl
  | arr ds ih =>
    obtain ⟨vs, hvs, rfl⟩ := build_arr_eq_ok.1 h
    rw [valueOf, valueOfElems_eq]
    congr 1
    clear h
    induction hvs with
    | nil => rfl
    | cons h _ ihv =>
      rw [List.map_cons, ih _ (List.mem_cons_self ..) h, ihv fun d hd => ih d (List.mem_cons_of_mem _ hd)]
  | obj ms ih =>
    obtain ⟨ps, hps, -, rfl⟩ := build_obj_eq_ok.1 h
    rw [valueOf, valueOfMembers_eq]
    congr 1
    clear h
    induction hps with
    | nil => rfl
    | cons h _ ihp =>
      rw [List.map_cons, List.map_cons, h.1, ih _ (List.mem_cons_self ..) h.2,
        ihp fun m hm => ih m (List.mem_cons_of_mem _ hm)]

/-- What the hooks build holds no key twice. -/
theorem build_distinctKeys {d : Doc} {v : PyVal} (h : build (strictHooks py) d = .ok v) : v.distinctKeys = true := by
  induction d using Doc.ind generalizing v with
  | null | bool | str =>
    cases h
    rfl
  | const c => cases h
  | num l =>
    have hv := eq_valueOf h
    rw [valueOf] at hv
    subst hv
    split <;> rfl
  | arr ds ih =>
    obtain ⟨vs, hvs, rfl⟩ := build_arr_eq_ok.1 h
    apply PyVal.distinctKeys_list.2
    intro v hv
    obtain ⟨d, hd, hdv⟩ := forall₂_mem_right hvs hv
    exact ih d hd hdv
  | obj ms ih =>
    obtain ⟨ps, hps, hn, rfl⟩ := build_obj_eq_ok.1 h
    rw [← keys_eq_of_forall₂ hps] at hn
    refine PyVal.distinctKeys_dict.2 ⟨nodup_keys_map_str.2 hn, fun m hm => ?_⟩
    obtain ⟨p, hp, rfl⟩ := List.mem_map.1 hm
    obtain ⟨m, hm, hmp⟩ := forall₂_mem_right hps hp
    exact ih m hm hmp.2

theorem build_arr_valueOf {ds : List Doc} : build (strictHooks py) (.arr ds) = .ok (valueOf (.arr ds)) ↔
    ∀ d ∈ ds, build (strictHooks py) d = .ok (valueOf d) := by
  rw [build_arr_eq_ok, valueOf, valueOfElems_eq]
  constructor
  · rintro ⟨vs, hvs, -⟩ d hd
    obtain ⟨v, -, hv⟩ := forall₂_mem_left hvs hd
    rw [hv, eq_valueOf hv]
  · intro h
    refine ⟨ds.map valueOf, ?_, rfl⟩
    rw [List.forall₂_map_right_iff, List.forall₂_same]
    exact h

theorem build_obj_valueOf {ms : List (Str × Doc)} : build (strictHooks py) (.obj ms) = .ok (valueOf (.obj ms)) ↔
    (keys ms).Nodup ∧ ∀ m ∈ ms, build (strictHooks py) m.2 = .ok (valueOf m.2) := by
  rw [build_obj_eq_ok, valueOf, valueOfMembers_eq]
  constructor
  · rintro ⟨ps, hps, hn, -⟩
    refine ⟨hn, fun m hm => ?_⟩
    obtain ⟨p, -, hp⟩ := forall₂_mem_left hps hm
    rw [hp.2, eq_valueOf hp.2]
  · rintro ⟨hn, h⟩
    refine ⟨ms.map fun m => (m.1, valueOf m.2), ?_, hn, by rw [List.map_map]; rfl⟩
    rw [List.forall₂_map_right_iff, List.forall₂_same]
    exact fun m hm => ⟨rfl, h m hm⟩

/-- The hooks build a value from the trees with short integers, no key twice and no constant, and from no others. -/
theorem build_valueOf_iff {d : Doc} : build (strictHooks py) d = .ok (valueOf d) ↔
    intsWithin py d = true ∧ unrepeated d = true := by
  induction d using Doc.ind with
  | null | bool | str => simp [build, strictHooks, valueOf, intsWithin, unrepeated]
  | const c => simp [build, strictHooks, rejectJsonConstant, unrepeated]
  | num l =>
    rw [build, Hooks.number, valueOf, intsWithin]
    by_cases hl : l.isInt = true
    · cases hd : py.withinDigits l.int <;> simp [hl, strictHooks, Interp.parseInt, hd, Except.map, unrepeated]
    · simp [hl, strictHooks, unrepeated]
  | arr ds ih =>
    rw [build_arr_valueOf, intsWithin, intsWithinElems_iff, unrepeated, unrepeatedElems_iff]
    constructor
    · intro h
      exact ⟨fun d hd => ((ih d hd).1 (h d hd)).1, fun d hd => ((ih d hd).1 (h d hd)).2⟩
    · rintro ⟨hi, hu⟩ d hd
      exact (ih d hd).2 ⟨hi d hd, hu d hd⟩
  | obj ms ih =>
    rw [build_obj_valueOf, intsWithin, intsWithinMembers_iff, unrepeated, Bool.and_eq_true, decide_eq_true_eq,
      unrepeatedMembers_iff]
    constructor
    · rintro ⟨hk, h⟩
      exact ⟨fun m hm => ((ih m hm).1 (h m hm)).1, hk, fun m hm => ((ih m hm).1 (h m hm)).2⟩
    · rintro ⟨hi, hk, hu⟩
      exact ⟨hk, fun m hm => (ih m hm).2 ⟨hi m hm, hu m hm⟩⟩

/-- Building the value of a tree and validating it, at every depth: `RecursionError` aside, what is
rejected is what is ambiguous. -/
theorem build_and_validate_iff {d : Doc} (hi : intsWithin py d = true) {n : ℕ} :
    (build (strictHooks py) d = .ok (valueOf d) ∧ validateWithin n (valueOf d) = .ok ()) ↔
      unambiguous d = true ∧ depth d ≤ n := by
  induction d using Doc.ind generalizing n with
  | null | bool => simp [build, strictHooks, valueOf, validateWithin, unambiguous, depth]
  | str s => simp [build, strictHooks, valueOf, validateWithin, unambiguous, depth, validateStr_eq_ok']
  | const c => simp [build, strictHooks, rejectJsonConstant, unambiguous]
  | num l =>
    rw [build, Hooks.number, valueOf, unambiguous]
    rw [intsWithin] at hi
    by_cases hl : l.isInt = true
    · have hd : py.withinDigits l.int = true := by simpa [hl] using hi
      simp [hl, strictHooks, Interp.parseInt, hd, validateWithin, Except.map, depth]
    · simp [hl, strictHooks, validateWithin, depth]
  | arr ds ih =>
    have hids := intsWithinElems_iff.1 hi
    rw [build_arr_valueOf, valueOf, valueOfElems_eq, validate_list, unambiguous, unambiguousElems_iff, depth]
    constructor
    · rintro ⟨hb, n, rfl, hv⟩
      have h := fun d hd => (ih d hd (hids d hd)).1 ⟨hb d hd, hv _ (List.mem_map_of_mem hd)⟩
      exact ⟨fun d hd => (h d hd).1, Nat.succ_le_succ (depthElems_le.2 fun d hd => (h d hd).2)⟩
    · rintro ⟨hu, hn⟩
      obtain ⟨n, rfl⟩ := Nat.exists_eq_add_of_le' (Nat.le_trans (Nat.le_add_left 1 _) hn)
      have hds := depthElems_le.1 (Nat.le_of_succ_le_succ hn)
      have h := fun d hd => (ih d hd (hids d hd)).2 ⟨hu d hd, hds d hd⟩
      refine ⟨fun d hd => (h d hd).1, n, rfl, fun v hv => ?_⟩
      obtain ⟨d, hd, rfl⟩ := List.mem_map.1 hv
      exact (h d hd).2
  | obj ms ih =>
    have hims := intsWithinMembers_iff.1 hi
    rw [build_obj_valueOf, valueOf, valueOfMembers_eq, validate_dict, unambiguous, Bool.and_eq_true, decide_eq_true_eq,
      unambiguousMembers_iff, depth]
    constructor
    · rintro ⟨⟨hk, hb⟩, n, rfl, hv⟩
      have h := fun m hm => (ih m hm (hims m hm)).1 ⟨hb m hm, (hv _ (List.mem_map_of_mem hm)).2⟩
      refine ⟨⟨hk, fun m hm => ⟨?_, (h m hm).1⟩⟩, Nat.succ_le_succ (depthMembers_le.2 fun m hm => (h m hm).2)⟩
      obtain ⟨⟨k, hk, hs⟩, -⟩ := hv _ (List.mem_map_of_mem hm)
      cases hk
      exact validateStr_eq_ok'.1 hs
    · rintro ⟨⟨hk, hu⟩, hn⟩
      obtain ⟨n, rfl⟩ := Nat.exists_eq_add_of_le' (Nat.le_trans (Nat.le_add_left 1 _) hn)
      have hds := depthMembers_le.1 (Nat.le_of_succ_le_succ hn)
      have h := fun m hm => (ih m hm (hims m hm)).2 ⟨(hu m hm).2, hds m hm⟩
      refine ⟨⟨hk, fun m hm => (h m hm).1⟩, n, rfl, fun v hv => ?_⟩
      obtain ⟨m, hm, rfl⟩ := List.mem_map.1 hv
      exact ⟨⟨m.1, rfl, validateStr_eq_ok'.2 (hu m hm).1⟩, (h m hm).2⟩

/-- A tree without repeated keys, whose value is equal to one that can be written, is unambiguous. -/
theorem unambiguous_of_jsonEq {d : Doc} {v : PyVal} {e : Doc} {n : ℕ} (h : (valueOf d).jsonEq v = true)
    (hk : (valueOf d).distinctKeys = true) (hv : validateWithin n v = .ok ()) (he : toDoc py v = .ok e) :
    intsWithin py d = true ∧ unambiguous d = true := by
  induction d using Doc.ind generalizing v e n with
  | null | bool => exact ⟨rfl, rfl⟩
  | const c =>
    rw [PyVal.eq_of_jsonEq rfl h] at he
    obtain ⟨hf, -⟩ := toDoc_float.1 he
    cases c <;> cases hf
  | str s =>
    rw [PyVal.eq_of_jsonEq rfl h] at hv
    exact ⟨rfl, validateStr_eq_ok'.1 hv⟩
  | num l =>
    rw [valueOf] at h
    split at h
    · next hl =>
      rw [PyVal.eq_of_jsonEq rfl h] at he
      obtain ⟨hd, -⟩ := toDoc_int.1 he
      rw [NumLit.int_ofInt_intValue] at hd
      exact ⟨by simp [intsWithin, hd], by simp [unambiguous, hl]⟩
    · next hl =>
      rw [PyVal.eq_of_jsonEq rfl h] at he
      obtain ⟨hf, -⟩ := toDoc_float.1 he
      exact ⟨by simp [intsWithin, hl], by simp [unambiguous, hf]⟩
  | arr ds ih =>
    rw [valueOf, valueOfElems_eq] at h hk
    have hks := PyVal.distinctKeys_list.1 hk
    cases v with
    | list vs =>
      obtain ⟨n, rfl, hvs⟩ := validate_list.1 hv
      obtain ⟨es, hes, -⟩ := toDoc_list.1 he
      have hds : ∀ d ∈ ds, intsWithin py d = true ∧ unambiguous d = true := by
        intro d hd
        have hd' : valueOf d ∈ ds.map valueOf := List.mem_map_of_mem hd
        obtain ⟨v, hv, hdv⟩ := forall₂_mem_left (PyVal.jsonEqList_iff.1 h) hd'
        obtain ⟨e, -, hve⟩ := forall₂_mem_left hes hv
        exact ih d hd hdv (hks _ hd') (hvs v hv) hve
      exact ⟨intsWithinElems_iff.2 fun d hd => (hds d hd).1, unambiguousElems_iff.2 fun d hd => (hds d hd).2⟩
    | _ => cases h
  | obj ms ih =>
    rw [valueOf, valueOfMembers_eq] at h hk
    obtain ⟨hnd, hks⟩ := PyVal.distinctKeys_dict.1 hk
    obtain ⟨ns, rfl⟩ := PyVal.dict_of_jsonEq h
    obtain ⟨n, rfl, hns⟩ := validate_dict.1 hv
    obtain ⟨es, hes, -⟩ := toDoc_dict.1 he
    have hms : ∀ m ∈ ms, noSurrogate m.1 = true ∧ intsWithin py m.2 = true ∧ unambiguous m.2 = true := by
      intro m hm
      have hm' : (PyKey.str m.1, valueOf m.2) ∈ ms.map fun m => (PyKey.str m.1, valueOf m.2) :=
        List.mem_map_of_mem hm
      obtain ⟨w, hw, hmw⟩ := (PyVal.jsonEq_dict.1 h).2 _ hm'
      obtain ⟨⟨k, hk, hs⟩, hvw⟩ := hns _ hw
      cases hk
      obtain ⟨e, -, hwe⟩ := forall₂_mem_left hes hw
      exact ⟨validateStr_eq_ok'.1 hs, ih m hm hmw (hks _ hm') hvw hwe.2⟩
    have hkeys : (keys ms).Nodup := by
      have hmap := keys_map_str (ms.map fun m => (m.1, valueOf m.2))
      rw [List.map_map, keys_map fun _ d => valueOf d] at hmap
      exact (hmap ▸ hnd).of_map
    refine ⟨intsWithinMembers_iff.2 fun m hm => (hms m hm).2.1, ?_⟩
    rw [unambiguous, Bool.and_eq_true, decide_eq_true_eq]
    exact ⟨hkeys, unambiguousMembers_iff.2 fun m hm => ⟨(hms m hm).1, (hms m hm).2.2⟩⟩

/-! ### Documents -/

/-- The text spells the tree `d`, which is nested within the recursion limits: a text past the limit of
`json.loads` spells nothing, and one past the limit of the walk over its value is left to `MeetsLimit`. -/
def Spells (py : Interp) (text : Str) (d : Doc) : Prop :=
  loads (strictHooks py).tree py.readNesting text = .ok d ∧ depth d ≤ py.frames

/-- The argument of `strict_json_loads`, decoded. -/
def decoded : PyVal → Option Str
  | .bytes value => decodeUtf8 value
  | .str text => some text
  | _ => none

theorem strictJsonLoads_of_decoded {value : PyVal} {text : Str} (h : decoded value = some text) :
    strictJsonLoads py value = strictLoadsText py text := by
  cases value <;> simp_all [decoded, strictJsonLoads]

theorem spells_ne_nil {text : Str} {d : Doc} (h : Spells py text d) : text ≠ [] := by
  rintro rfl
  have he : loads (strictHooks py).tree py.readNesting [] = .error .jsonDecodeError := loads_nil _ _
  cases he.symm.trans h.1

theorem strictLoadsText_eq_ok {text : Str} {d : Doc} {v : PyVal} (h : Spells py text d) :
    strictLoadsText py text = .ok v ↔
      build (strictHooks py) d = .ok (valueOf d) ∧ validateJsonValue py (valueOf d) = .ok () ∧ v = valueOf d := by
  rw [strictLoadsText, if_neg (spells_ne_nil h), bind_eq_ok]
  simp only [catching_eq_ok, loads_build _ h.1]
  constructor
  · rintro ⟨w, hw, hv⟩
    obtain ⟨hv, h⟩ := check_eq_ok.1 hv
    cases h
    obtain rfl := eq_valueOf hw
    exact ⟨hw, hv, rfl⟩
  · rintro ⟨hb, hv, rfl⟩
    exact ⟨_, hb, check_eq_ok.2 ⟨hv, rfl⟩⟩

/-- What is returned is the value of a tree that the text spells. -/
theorem strictLoadsText_sound {text : Str} {v : PyVal} (h : strictLoadsText py text = .ok v) :
    ∃ d, Spells py text d ∧ intsWithin py d = true ∧ unambiguous d = true ∧ v = valueOf d := by
  unfold strictLoadsText at h
  split at h
  · cases h
  obtain ⟨w, hw, h⟩ := bind_eq_ok.1 h
  obtain ⟨hv, h⟩ := check_eq_ok.1 h
  cases h
  obtain ⟨d, hd, hb⟩ := loads_eq_ok _ (catching_eq_ok.1 hw)
  obtain rfl := eq_valueOf hb
  obtain ⟨hi, -⟩ := build_valueOf_iff.1 hb
  obtain ⟨hu, hdepth⟩ := (build_and_validate_iff hi).1 ⟨hb, hv⟩
  exact ⟨d, ⟨hd, hdepth⟩, hi, hu, rfl⟩

/-- The value of an unambiguous tree is returned. -/
theorem strictLoadsText_complete {text : Str} {d : Doc} (hd : Spells py text d) (hi : intsWithin py d = true)
    (hu : unambiguous d = true) : strictLoadsText py text = .ok (valueOf d) := by
  obtain ⟨hb, hv⟩ := (build_and_validate_iff hi).2 ⟨hu, hd.2⟩
  exact (strictLoadsText_eq_ok hd).2 ⟨hb, hv, rfl⟩

/-- A parsed value is valid and holds no key twice. -/
theorem strictJsonLoads_ok {value w : PyVal} (h : strictJsonLoads py value = .ok w) :
    validateJsonValue py w = .ok () ∧ w.distinctKeys = true := by
  have htext : ∀ text, strictLoadsText py text = .ok w → validateJsonValue py w = .ok () ∧ w.distinctKeys = true := by
    intro text h
    unfold strictLoadsText at h
    split at h
    · cases h
    obtain ⟨u, hu, h⟩ := bind_eq_ok.1 h
    obtain ⟨hv, h⟩ := check_eq_ok.1 h
    cases h
    obtain ⟨d, -, hd⟩ := loads_eq_ok _ (catching_eq_ok.1 hu)
    exact ⟨hv, build_distinctKeys hd⟩
  cases value with
  | bytes b =>
    cases hb : decodeUtf8 b with
    | none => simp [strictJsonLoads, hb] at h
    | some text =>
      rw [strictJsonLoads_of_decoded (show decoded (.bytes b) = some text from hb)] at h
      exact htext text h
  | str text => exact htext text h
  | _ => cases h

/-- A text that spells a value which can be written is read as that value. -/
theorem strictJsonLoads_of_spelled {value : PyVal} {text : Str} {d e : Doc} {v : PyVal}
    (ht : decoded value = some text) (hd : Spells py text d) (hk : (valueOf d).distinctKeys = true)
    (h : (valueOf d).jsonEq v = true) (hv : validateJsonValue py v = .ok ()) (he : toDoc py v = .ok e) :
    strictJsonLoads py value = .ok (valueOf d) := by
  obtain ⟨hi, hu⟩ := unambiguous_of_jsonEq h hk hv he
  rw [strictJsonLoads_of_decoded ht]
  exact strictLoadsText_complete hd hi hu

/-! ### Exceptions -/

/-- A numeral of an integer with more digits than the interpreter converts. -/
def Overlong (py : Interp) (t : Str) : Prop :=
  ∃ l, BeginsWithNumber t l ∧ l.isInt = true ∧ py.withinDigits l.int = false

/-- A value at which `P` holds lies in the text, and what comes before it is read. -/
def Holds (py : Interp) (text : Str) (P : ℕ → Str → Prop) : Prop :=
  expect '\ufeff' text = none ∧ Reaches (strictHooks py) P py.readNesting (skipWs text)

/-- The text runs into a limit of the interpreter before anything else is wrong with it: an integer has too many
digits, a container is nested too deeply for `json.loads`, or the value is for the walk that validates it. -/
inductive MeetsLimit (py : Interp) (text : Str) : Exn → Prop
  | digits (h : Holds py text fun _ => Overlong py) : MeetsLimit py text .valueError
  | reading (h : Holds py text TooDeep) : MeetsLimit py text .recursionError
  | walking {d : Doc} (tree : loads (strictHooks py).tree py.readNesting text = .ok d) (ints : intsWithin py d = true)
      (keys : unrepeated d = true) (deep : Sinks py.frames (valueOf d)) : MeetsLimit py text .recursionError

theorem MeetsLimit.isLimit {text : Str} {e : Exn} (h : MeetsLimit py text e) : e.IsLimit := by
  cases h with
  | digits => exact .inl rfl
  | reading => exact .inr rfl
  | walking => exact .inr rfl

theorem uniqueJsonObject_ne_error {e : Exn} (he : e.IsLimit) (ps : List (Str × PyVal)) :
    uniqueJsonObject ps ≠ .error e := by
  rw [uniqueJsonObject_eq]
  split
  · exact nofun
  · rintro h
    cases h
    rcases he with he | he
    · cases he
    · cases he

theorem rejectJsonConstant_ne_error {e : Exn} (he : e.IsLimit) (c : Constant) : rejectJsonConstant c ≠ .error e := by
  intro h
  cases h
  rcases he with he | he
  · cases he
  · cases he

theorem strictHooks_number_eq_error {l : NumLit} {e : Exn} : (strictHooks py).number l = .error e ↔
    e = .valueError ∧ l.isInt = true ∧ py.withinDigits l.int = false := by
  rw [Hooks.number]
  split
  · next hl =>
    change (py.parseInt l).map PyVal.int = .error e ↔ _
    rw [map_eq_error, Interp.parseInt]
    split
    · next h => simp [h]
    · next h => simp [h, hl, eq_comm]
  · next hl => simp [strictHooks, hl]

theorem loads_strict_eq_valueError {text : Str} :
    loads (strictHooks py) py.readNesting text = .error .valueError ↔ Holds py text fun _ => Overlong py := by
  have hlimit : Exn.IsLimit .valueError := .inl rfl
  rw [loads_eq_numberError (by simp [strictHooks]) (by simp [strictHooks]) (uniqueJsonObject_ne_error hlimit)
    (rejectJsonConstant_ne_error hlimit)]
  simp only [strictHooks_number_eq_error, true_and]
  rfl

theorem loads_strict_eq_recursionError {text : Str} :
    loads (strictHooks py) py.readNesting text = .error .recursionError ↔ Holds py text TooDeep := by
  have hlimit : Exn.IsLimit .recursionError := .inr rfl
  refine loads_eq_recursionError (H := strictHooks py) (by simp [strictHooks]) (uniqueJsonObject_ne_error hlimit)
    (rejectJsonConstant_ne_error hlimit) fun l h => ?_
  obtain ⟨h, -⟩ := strictHooks_number_eq_error.1 h
  cases h

/-- An integer with too many digits, alone in its document. -/
theorem meetsLimit_of_overlong {l : NumLit} (hi : l.isInt = true) (h : py.withinDigits l.int = false) :
    MeetsLimit py (render (.num l)) .valueError := by
  refine .digits (loads_strict_eq_valueError.1 ?_)
  rw [loads_render _ (Nat.zero_le _), build]
  exact strictHooks_number_eq_error.2 ⟨rfl, hi, h⟩

theorem loads_strict_raisesIn (text : Str) : RaisesIn
    (fun e => e.IsFormatError ∨ e = .jsonDecodeError ∨ e.IsLimit) (loads (strictHooks py) py.readNesting text) := by
  refine loads_raisesIn ⟨.inr (.inl rfl), .inr (.inr (.inr rfl)), ?_, ?_, ?_, ?_⟩ _ _
  · intro l e h
    have h := map_eq_error.1 h
    unfold Interp.parseInt at h
    split at h
    · cases h
    · cases h
      exact .inr (.inr (.inl rfl))
  · intro l e h
    cases h
  · intro c e h
    cases h
    exact .inl (Exn.isFormatError _)
  · intro ps e h
    have h := (uniqueJsonObject_eq ps).symm.trans h
    split at h
    · cases h
    · cases h
      exact .inl (Exn.isFormatError _)

theorem strictLoadsText_raisesIn (text : Str) :
    RaisesIn (fun e => e.IsFormatError ∨ MeetsLimit py text e) (strictLoadsText py text) := by
  unfold strictLoadsText
  split
  · exact raisesIn_error.2 (.inl (Exn.isFormatError _))
  refine RaisesIn.bind (fun e he => ?_) fun v hv => RaisesIn.bind (fun e he => ?_) fun _ _ => raisesIn_pure _
  · obtain ⟨e', he', rfl⟩ := catching_eq_error.1 he
    rcases loads_strict_raisesIn text e' he' with ⟨code, rfl⟩ | rfl | rfl | rfl
    · exact .inl (Exn.isFormatError _)
    · exact .inl (Exn.isFormatError _)
    · exact .inr (.digits (loads_strict_eq_valueError.1 he'))
    · exact .inr (.reading (loads_strict_eq_recursionError.1 he'))
  · rcases validateWithin_raisesIn v _ e he with h | rfl
    · exact .inl h
    · obtain ⟨d, hd, hb⟩ := loads_eq_ok _ (catching_eq_ok.1 hv)
      obtain rfl := eq_valueOf hb
      obtain ⟨hi, hu⟩ := build_valueOf_iff.1 hb
      exact .inr (.walking hd hi hu (validateWithin_eq_recursionError.1 he))

/-- `strict_json_loads` fails with a format error, except where its text runs into a limit. -/
theorem strictJsonLoads_raisesIn (value : PyVal) :
    RaisesIn (fun e => e.IsFormatError ∨ ∃ text, decoded value = some text ∧ MeetsLimit py text e)
      (strictJsonLoads py value) := by
  cases hd : decoded value with
  | some text =>
    rw [strictJsonLoads_of_decoded hd]
    exact (strictLoadsText_raisesIn text).mono fun e he => he.imp_right fun h => ⟨text, rfl, h⟩
  | none =>
    have hformat : RaisesIn Exn.IsFormatError (strictJsonLoads py value) := by
      cases value with
      | bytes b =>
        rw [strictJsonLoads, show decodeUtf8 b = none from hd]
        exact raisesIn_error.2 (Exn.isFormatError _)
      | str text => cases hd
      | _ => exact raisesIn_error.2 (Exn.isFormatError _)
    exact hformat.mono fun _ => .inl

/-- `json.loads` raises a limit of its own, or the walk over the value does. -/
theorem MeetsLimit.raised {text : Str} {e : Exn} (h : MeetsLimit py text e) :
    loads (strictHooks py) py.readNesting text = .error e ∨
      ∃ v, loads (strictHooks py) py.readNesting text = .ok v ∧ validateJsonValue py v = .error e := by
  cases h with
  | digits h => exact .inl (loads_strict_eq_valueError.2 h)
  | reading h => exact .inl (loads_strict_eq_recursionError.2 h)
  | walking tree ints keys deep =>
    have hb := build_valueOf_iff.2 ⟨ints, keys⟩
    exact .inr ⟨_, by rw [loads_build _ tree, hb], validateWithin_eq_recursionError.2 deep⟩

/-- Where the text runs into a limit, `strict_json_loads` lets the exception through. -/
theorem strictJsonLoads_of_meetsLimit {value : PyVal} {text : Str} {e : Exn} (ht : decoded value = some text)
    (h : MeetsLimit py text e) : strictJsonLoads py value = .error e := by
  have hpass : (jsonInvalid e).getD e = e := by
    rcases h.isLimit with rfl | rfl
    · rfl
    · rfl
  have hne : text ≠ [] := by
    rintro rfl
    have hnil : loads (strictHooks py) py.readNesting [] = .error .jsonDecodeError := loads_nil _ _
    rcases h.raised with h' | ⟨v, h', -⟩
    · rcases h.isLimit with rfl | rfl
      · cases hnil.symm.trans h'
      · cases hnil.symm.trans h'
    · cases hnil.symm.trans h'
  rw [strictJsonLoads_of_decoded ht, strictLoadsText, if_neg hne]
  rcases h.raised with h | ⟨v, hv, h⟩
  · exact bind_eq_error.2 (.inl (catching_eq_error.2 ⟨e, h, hpass⟩))
  · exact bind_eq_error.2 (.inr ⟨v, catching_eq_ok.2 hv, bind_eq_error.2 (.inl h)⟩)

/-- **Strict parsing returns the value of an unambiguous document, and nothing else.**  Documents nested past the
recursion limits are left out, by `Spells`. -/
theorem strictJsonLoads_iff (py : Interp) {value : PyVal} {text : Str} {d : Doc} (ht : decoded value = some text)
    (hd : Spells py text d) (hi : intsWithin py d = true) :
    ((∃ v, strictJsonLoads py value = .ok v) ↔ unambiguous d = true) ∧
      ∀ v, strictJsonLoads py value = .ok v → v = valueOf d := by
  simp only [strictJsonLoads_of_decoded ht, strictLoadsText_eq_ok hd]
  have h := build_and_validate_iff (n := py.frames) hi
  refine ⟨⟨?_, fun hu => ?_⟩, fun v hv => hv.2.2⟩
  · rintro ⟨v, hb, hv, -⟩
    exact (h.1 ⟨hb, hv⟩).1
  · obtain ⟨hb, hv⟩ := h.2 ⟨hu, hd.2⟩
    exact ⟨valueOf d, hb, hv, rfl⟩

/-- `[{"a": 1, "\u0061": 2}]`: two keys that differ only in their spelling. -/
theorem strictJsonLoads_iff_of_escapedKey :
    ((∃ v, strictJsonLoads .cpython (.str (str "[\x7b\"a\": 1, \"\\u0061\": 2\x7d]")) = .ok v) ↔
        unambiguous (.arr [.obj [(str "a", .num (.ofInt 1)), (str "a", .num (.ofInt 2))]]) = true) ∧
      ∀ v, strictJsonLoads .cpython (.str (str "[\x7b\"a\": 1, \"\\u0061\": 2\x7d]")) = .ok v →
        v = valueOf (.arr [.obj [(str "a", .num (.ofInt 1)), (str "a", .num (.ofInt 2))]]) :=
  strictJsonLoads_iff .cpython rfl ⟨by rfl, by decide⟩ (by decide)

end SharedAi.ServiceKit
