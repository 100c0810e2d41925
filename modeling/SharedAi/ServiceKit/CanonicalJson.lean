import SharedAi.Json.RoundTrip
import SharedAi.Python.Exn

/-!
# Canonical JSON and strict parsing

The two directions of the wire format of `capability_grants.py`:

* `canonicalJsonBytes` — `_validate_json_value`, then `json.dumps` with sorted keys, then UTF-8;
* `strictJsonLoads` — `json.loads` with the hooks `_unique_json_object` and `_reject_json_constant`, then
  `_validate_json_value` on the result.
-/

namespace SharedAi.ServiceKit

open SharedAi.Control SharedAi.Data SharedAi.Json SharedAi.Num SharedAi.Python SharedAi.Text

/-! ### Writing -/

/-- `value.encode("utf-8", errors="strict")`. -/
def encode (s : Str) : Except Exn Bytes :=
  match encodeUtf8 s with
  | none => .error .unicodeError
  | some b => .ok b

def validateStr (s : Str) : Except Exn Unit :=
  match encodeUtf8 s with
  | none => .error (.capabilityGrantFormatError "json_invalid_unicode")
  | some _ => .ok ()

mutual
/-- `_validate_json_value`, within `n` levels of nesting. -/
def validateWithin : ℕ → PyVal → Except Exn Unit
  | _, .none => .ok ()
  | _, .bool _ => .ok ()
  | _, .str s => validateStr s
  | _, .int _ => .ok ()
  | _, .float x => if x.isFinite then .ok () else .error (.capabilityGrantFormatError "json_non_finite_number")
  | 0, .list _ => .error .recursionError
  | n + 1, .list vs => validateElems n vs
  | 0, .dict _ => .error .recursionError
  | n + 1, .dict ms => validateMembers n ms
  | _, _ => .error (.capabilityGrantFormatError "json_value_not_supported")
def validateElems : ℕ → List PyVal → Except Exn Unit
  | _, [] => .ok ()
  | n, v :: vs => do
    validateWithin n v
    validateElems n vs
def validateMembers : ℕ → List (PyKey × PyVal) → Except Exn Unit
  | _, [] => .ok ()
  | _, (.object _, _) :: _ => .error (.capabilityGrantFormatError "json_object_key_must_be_string")
  | n, (.str k, v) :: ms => do
    validateStr k
    validateWithin n v
    validateMembers n ms
end

/-- `_validate_json_value`. -/
def validateJsonValue (py : Interp) (v : PyVal) : Except Exn Unit := validateWithin py.frames v

mutual
/-- The tree that `json.dumps(…, sort_keys=True, allow_nan=False)` writes, of a value that
`_validate_json_value` passed. -/
def toDoc (py : Interp) : PyVal → Except Exn Doc
  | .none => .ok .null
  | .bool b => .ok (.bool b)
  | .int n => (py.intRepr n).map .num
  | .float x => if x.isFinite then .ok (.num x.repr) else .error .valueError
  | .str s => .ok (.str s)
  | .list vs => (toDocElems py vs).map .arr
  | .dict ms => (toDocMembers py ms).map fun ds => .obj (sortByKey ds)
  | _ => .error .typeError
def toDocElems (py : Interp) : List PyVal → Except Exn (List Doc)
  | [] => .ok []
  | v :: vs => do
    let d ← toDoc py v
    let ds ← toDocElems py vs
    pure (d :: ds)
def toDocMembers (py : Interp) : List (PyKey × PyVal) → Except Exn (List (Str × Doc))
  | [] => .ok []
  | (.object _, _) :: _ => .error .typeError
  | (.str k, v) :: ms => do
    let d ← toDoc py v
    let ds ← toDocMembers py ms
    pure ((k, d) :: ds)
end

/-- `except (TypeError, ValueError, UnicodeEncodeError)`. -/
def canonicalizationFailed (e : Exn) : Option Exn :=
  if e = .typeError ∨ e.isValueError then some (.capabilityGrantFormatError "json_canonicalization_failed") else none

/-- `canonical_json_bytes`. -/
def canonicalJsonBytes (py : Interp) (v : PyVal) : Except Exn Bytes := do
  validateJsonValue py v
  catching canonicalizationFailed do
    let d ← toDoc py v
    encode (render d)

/-! ### Reading -/

/-- `_reject_json_constant`. -/
def rejectJsonConstant (_ : Constant) : Except Exn PyVal :=
  .error (.capabilityGrantFormatError "json_non_finite_number")

/-- The loop of `_unique_json_object`, with the members so far. -/
def uniqueFrom : List (PyKey × PyVal) → List (Str × PyVal) → Except Exn PyVal
  | value, [] => .ok (.dict value)
  | value, (key, item) :: pairs =>
    if .str key ∈ keys value then .error (.capabilityGrantFormatError "json_duplicate_object_key")
    else uniqueFrom (value ++ [(.str key, item)]) pairs

/-- `_unique_json_object`. -/
def uniqueJsonObject (pairs : List (Str × PyVal)) : Except Exn PyVal := uniqueFrom [] pairs

/-- The hooks of `strict_json_loads`; what it leaves to `json.loads` builds the Python value. -/
def strictHooks (py : Interp) : Hooks Exn PyVal where
  syntaxError := .jsonDecodeError
  recursionError := .recursionError
  null := .none
  bool := .bool
  parseInt l := (py.parseInt l).map .int
  parseFloat l := .ok (.float (Float64.ofLit l))
  parseConstant := rejectJsonConstant
  string := .str
  array := .list
  objectPairs := uniqueJsonObject

/-- `except (json.JSONDecodeError, TypeError, UnicodeError)`. -/
def jsonInvalid : Exn → Option Exn
  | .jsonDecodeError | .typeError | .unicodeError => some (.capabilityGrantFormatError "json_invalid")
  | _ => none

/-- `strict_json_loads`, once the text is there. -/
def strictLoadsText (py : Interp) (text : Str) : Except Exn PyVal :=
  if text = [] then .error (.capabilityGrantFormatError "json_missing")
  else do
    let parsed ← catching jsonInvalid (loads (strictHooks py) py.readNesting text)
    validateJsonValue py parsed
    pure parsed

/-- `strict_json_loads`. -/
def strictJsonLoads (py : Interp) : PyVal → Except Exn PyVal
  | .bytes value =>
    match decodeUtf8 value with
    | none => .error (.capabilityGrantFormatError "json_not_utf8")
    | some text => strictLoadsText py text
  | .str text => strictLoadsText py text
  | _ => .error (.capabilityGrantFormatError "json_missing")

/-! ### Validation -/

theorem validateStr_eq_ok {s : Str} : validateStr s = .ok () ↔ ∀ c ∈ s, c.isSurrogate = false := by
  rw [← encodeUtf8_isSome_iff, validateStr]
  cases encodeUtf8 s <;> simp

theorem validateElems_eq_ok {n : ℕ} {vs : List PyVal} :
    validateElems n vs = .ok () ↔ ∀ v ∈ vs, validateWithin n v = .ok () := by
  induction vs with
  | nil => simp [validateElems]
  | cons v vs ih => simp [validateElems, check_eq_ok, ih]

theorem validateMembers_eq_ok {n : ℕ} {ms : List (PyKey × PyVal)} : validateMembers n ms = .ok () ↔
    ∀ m ∈ ms, (∃ k, m.1 = .str k ∧ validateStr k = .ok ()) ∧ validateWithin n m.2 = .ok () := by
  induction ms with
  | nil => simp [validateMembers]
  | cons m ms ih =>
    obtain ⟨k, v⟩ := m
    cases k with
    | str k => simp [validateMembers, check_eq_ok, ih, and_assoc]
    | object i => simp [validateMembers]

theorem validate_list {n : ℕ} {vs : List PyVal} : validateWithin n (.list vs) = .ok () ↔
    ∃ k, n = k + 1 ∧ ∀ v ∈ vs, validateWithin k v = .ok () := by
  cases n with
  | zero => simp [validateWithin]
  | succ n => simp [validateWithin, validateElems_eq_ok]

theorem validate_dict {n : ℕ} {ms : List (PyKey × PyVal)} : validateWithin n (.dict ms) = .ok () ↔
    ∃ l, n = l + 1 ∧ ∀ m ∈ ms, (∃ k, m.1 = .str k ∧ validateStr k = .ok ()) ∧ validateWithin l m.2 = .ok () := by
  cases n with
  | zero => simp [validateWithin]
  | succ n => simp [validateWithin, validateMembers_eq_ok]

/-- What is valid within a nesting is valid within a larger one. -/
theorem validate_mono {v : PyVal} {n m : ℕ} (h : n ≤ m) (hv : validateWithin n v = .ok ()) :
    validateWithin m v = .ok () := by
  induction v using PyVal.ind generalizing n m with
  | none | bool | int | float | str => cases n <;> cases m <;> exact hv
  | bytes | tuple | proxy | object => cases n <;> cases hv
  | list vs ih =>
    obtain ⟨n, rfl, hvs⟩ := validate_list.1 hv
    obtain ⟨m, rfl⟩ : ∃ k, m = k + 1 := ⟨m - 1, by omega⟩
    exact validate_list.2 ⟨m, rfl, fun v hv => ih v hv (by omega) (hvs v hv)⟩
  | dict ms ih =>
    obtain ⟨n, rfl, hms⟩ := validate_dict.1 hv
    obtain ⟨m, rfl⟩ : ∃ k, m = k + 1 := ⟨m - 1, by omega⟩
    exact validate_dict.2 ⟨m, rfl, fun e he => ⟨(hms e he).1, ih e he (by omega) (hms e he).2⟩⟩

/-! ### The written tree -/

theorem toDocElems_eq_ok {py : Interp} {vs : List PyVal} {ds : List Doc} :
    toDocElems py vs = .ok ds ↔ List.Forall₂ (fun v d => toDoc py v = .ok d) vs ds := by
  induction vs generalizing ds with
  | nil => simp [toDocElems, eq_comm]
  | cons v vs ih =>
    simp only [toDocElems, bind_eq_ok, List.forall₂_cons_left_iff, ih]
    constructor
    · rintro ⟨d, hd, ds', hds, h⟩
      cases h
      exact ⟨d, ds', hd, hds, rfl⟩
    · rintro ⟨d, ds', hd, hds, rfl⟩
      exact ⟨d, hd, ds', hds, rfl⟩

def WritesMember (py : Interp) (m : PyKey × PyVal) (p : Str × Doc) : Prop := m.1 = .str p.1 ∧ toDoc py m.2 = .ok p.2

theorem toDocMembers_eq_ok {py : Interp} {ms : List (PyKey × PyVal)} {ds : List (Str × Doc)} :
    toDocMembers py ms = .ok ds ↔ List.Forall₂ (WritesMember py) ms ds := by
  induction ms generalizing ds with
  | nil => simp [toDocMembers, eq_comm]
  | cons m ms ih =>
    obtain ⟨k, v⟩ := m
    cases k with
    | object i =>
      simp only [toDocMembers, List.forall₂_cons_left_iff, WritesMember]
      constructor
      · intro h
        cases h
      · rintro ⟨p, ps, ⟨hk, -⟩, -⟩
        cases hk
    | str k =>
      simp only [toDocMembers, bind_eq_ok, List.forall₂_cons_left_iff, ih]
      constructor
      · rintro ⟨d, hd, ds', hds, h⟩
        cases h
        exact ⟨(k, d), ds', ⟨rfl, hd⟩, hds, rfl⟩
      · rintro ⟨⟨k', d⟩, ds', ⟨hk, hd⟩, hds, rfl⟩
        cases hk
        exact ⟨d, hd, ds', hds, rfl⟩

theorem toDoc_list {py : Interp} {vs : List PyVal} {d : Doc} : toDoc py (.list vs) = .ok d ↔
    ∃ ds, List.Forall₂ (fun v d => toDoc py v = .ok d) vs ds ∧ d = .arr ds := by
  simp only [toDoc, map_eq_ok, toDocElems_eq_ok, eq_comm (a := d)]

theorem toDoc_dict {py : Interp} {ms : List (PyKey × PyVal)} {d : Doc} : toDoc py (.dict ms) = .ok d ↔
    ∃ ds, List.Forall₂ (WritesMember py) ms ds ∧ d = .obj (sortByKey ds) := by
  simp only [toDoc, map_eq_ok, toDocMembers_eq_ok, eq_comm (a := d)]

theorem toDoc_int {py : Interp} {n : ℤ} {d : Doc} : toDoc py (.int n) = .ok d ↔
    py.withinDigits (NumLit.ofInt n).int = true ∧ d = .num (.ofInt n) := by
  unfold toDoc Interp.intRepr
  split
  · next h => simp [h, Except.map, eq_comm]
  · next h => simp [h, Except.map]

theorem toDoc_float {py : Interp} {x : Float64} {d : Doc} : toDoc py (.float x) = .ok d ↔
    x.isFinite = true ∧ d = .num x.repr := by
  unfold toDoc
  split
  · next h => simp [h, eq_comm]
  · next h => simp [h]

/-- `canonical_json_bytes` returns the UTF-8 text of the written tree. -/
theorem canonicalJsonBytes_eq_ok {py : Interp} {v : PyVal} {b : Bytes} : canonicalJsonBytes py v = .ok b ↔
    validateJsonValue py v = .ok () ∧ ∃ d, toDoc py v = .ok d ∧ encodeUtf8 (render d) = some b := by
  have he : ∀ s, encode s = .ok b ↔ encodeUtf8 s = some b := by
    intro s
    unfold encode
    cases encodeUtf8 s <;> simp
  rw [canonicalJsonBytes, check_eq_ok, catching_eq_ok]
  simp only [bind_eq_ok, he]

/-! ### Exceptions -/

theorem validateStr_raisesIn (s : Str) : RaisesIn Exn.IsFormatError (validateStr s) := by
  unfold validateStr
  split
  · exact raisesIn_error.2 (Exn.isFormatError _)
  · exact raisesIn_ok ()

section Validate

variable {E : Exn → Prop} (hE : ∀ code, E (.capabilityGrantFormatError code)) {n : ℕ}

theorem validateElems_raisesIn {vs : List PyVal} (h : ∀ v ∈ vs, RaisesIn E (validateWithin n v)) :
    RaisesIn E (validateElems n vs) := by
  induction vs with
  | nil => exact raisesIn_ok ()
  | cons v vs ih =>
    refine (h v (List.mem_cons_self ..)).bind fun _ _ => ?_
    exact ih fun w hw => h w (List.mem_cons_of_mem _ hw)

include hE

theorem validateMembers_raisesIn {ms : List (PyKey × PyVal)} (h : ∀ m ∈ ms, RaisesIn E (validateWithin n m.2)) :
    RaisesIn E (validateMembers n ms) := by
  induction ms with
  | nil => exact raisesIn_ok ()
  | cons m ms ih =>
    obtain ⟨k, v⟩ := m
    cases k with
    | object i => exact raisesIn_error.2 (hE _)
    | str k =>
      have hk : RaisesIn E (validateStr k) := (validateStr_raisesIn k).mono (by
        rintro e ⟨code, rfl⟩
        exact hE code)
      refine hk.bind fun _ _ => (h (.str k, v) (List.mem_cons_self ..)).bind fun _ _ => ?_
      exact ih fun w hw => h w (List.mem_cons_of_mem _ hw)

/-- Outside containers, validation fails with a format error only. -/
theorem validateScalar_raisesIn {v : PyVal} (hl : ∀ vs, v ≠ .list vs) (hd : ∀ ms, v ≠ .dict ms) :
    RaisesIn E (validateWithin n v) := by
  cases v with
  | none | bool | int => cases n <;> exact raisesIn_ok ()
  | bytes | tuple | proxy | object => cases n <;> exact raisesIn_error.2 (hE _)
  | list vs => exact absurd rfl (hl vs)
  | dict ms => exact absurd rfl (hd ms)
  | str s =>
    have hs : RaisesIn E (validateStr s) := (validateStr_raisesIn s).mono (by
      rintro e ⟨code, rfl⟩
      exact hE code)
    cases n <;> exact hs
  | float x =>
    have hx : RaisesIn E (validateWithin 0 (.float x)) := by
      unfold validateWithin
      split
      · exact raisesIn_ok ()
      · exact raisesIn_error.2 (hE _)
    cases n <;> exact hx

end Validate

/-- Validation fails with a format error, or runs out of stack. -/
theorem validateWithin_raisesIn (v : PyVal) (n : ℕ) :
    RaisesIn (fun e => e.IsFormatError ∨ e = .recursionError) (validateWithin n v) := by
  have hE : ∀ code, Exn.IsFormatError (.capabilityGrantFormatError code) ∨
      Exn.capabilityGrantFormatError code = .recursionError := fun code => .inl (Exn.isFormatError code)
  induction v using PyVal.ind generalizing n with
  | list vs ih =>
    cases n with
    | zero => exact raisesIn_error.2 (.inr rfl)
    | succ n => exact validateElems_raisesIn fun v hv => ih v hv n
  | dict ms ih =>
    cases n with
    | zero => exact raisesIn_error.2 (.inr rfl)
    | succ n => exact validateMembers_raisesIn hE fun m hm => ih m hm n
  | _ => exact validateScalar_raisesIn hE (by simp) (by simp)

theorem validateMembers_raisesIn_of_keys {E : Exn → Prop} {n : ℕ} {ms : List (PyKey × PyVal)}
    (hk : ∀ m ∈ ms, ∃ k, m.1 = .str k ∧ validateStr k = .ok ())
    (h : ∀ m ∈ ms, RaisesIn E (validateWithin n m.2)) : RaisesIn E (validateMembers n ms) := by
  induction ms with
  | nil => exact raisesIn_ok ()
  | cons m ms ih =>
    obtain ⟨k, v⟩ := m
    obtain ⟨k, rfl, hs⟩ := hk _ List.mem_cons_self
    unfold validateMembers
    rw [hs]
    refine (h _ List.mem_cons_self).bind fun _ _ => ?_
    exact ih (fun m hm => hk m (List.mem_cons_of_mem _ hm)) fun m hm => h m (List.mem_cons_of_mem _ hm)

/-- A value that is valid within some nesting can only be nested too deeply for another. -/
theorem validateWithin_raisesIn_of_valid {m : ℕ} (hv : validateWithin m v = .ok ()) (n : ℕ) :
    RaisesIn (· = .recursionError) (validateWithin n v) := by
  induction v using PyVal.ind generalizing m n with
  | none | bool | int => cases n <;> exact raisesIn_ok ()
  | str s =>
    have hs : validateWithin n (.str s) = validateWithin m (.str s) := by cases n <;> cases m <;> rfl
    rw [hs, hv]
    exact raisesIn_ok ()
  | float x =>
    have hx : validateWithin n (.float x) = validateWithin m (.float x) := by cases n <;> cases m <;> rfl
    rw [hx, hv]
    exact raisesIn_ok ()
  | bytes | tuple | proxy | object => cases m <;> cases hv
  | list vs ih =>
    obtain ⟨m, rfl, hvs⟩ := validate_list.1 hv
    cases n with
    | zero => exact raisesIn_error.2 rfl
    | succ n => exact validateElems_raisesIn fun v hv => ih v hv (hvs v hv) n
  | dict ms ih =>
    obtain ⟨m, rfl, hms⟩ := validate_dict.1 hv
    cases n with
    | zero => exact raisesIn_error.2 rfl
    | succ n =>
      exact validateMembers_raisesIn_of_keys (fun e he => (hms e he).1) fun e he => ih e he (hms e he).2 n

/-- The containers of the value are nested more than `n` deep at a place that nothing invalid comes before. -/
inductive Sinks : ℕ → PyVal → Prop
  | list (vs : List PyVal) : Sinks 0 (.list vs)
  | dict (ms : List (PyKey × PyVal)) : Sinks 0 (.dict ms)
  | elem {n : ℕ} {before after : List PyVal} {v : PyVal} (valid : ∀ w ∈ before, validateWithin n w = .ok ())
      (deep : Sinks n v) : Sinks (n + 1) (.list (before ++ v :: after))
  | member {n : ℕ} {before after : List (PyKey × PyVal)} {k : Str} {v : PyVal}
      (valid : ∀ m ∈ before, (∃ k, m.1 = .str k ∧ validateStr k = .ok ()) ∧ validateWithin n m.2 = .ok ())
      (key : validateStr k = .ok ()) (deep : Sinks n v) : Sinks (n + 1) (.dict (before ++ (.str k, v) :: after))

/-- The turn of the loop of `_validate_json_value` at one member. -/
def validateMember (n : ℕ) (m : PyKey × PyVal) : Except Exn Unit :=
  match m.1 with
  | .object _ => .error (.capabilityGrantFormatError "json_object_key_must_be_string")
  | .str k => validateStr k >>= fun _ => validateWithin n m.2

theorem validateElems_eq_forM (n : ℕ) (vs : List PyVal) : validateElems n vs = forM vs (validateWithin n) := by
  induction vs with
  | nil => rfl
  | cons v vs ih => rw [validateElems, ih, List.forM_cons]

theorem validateMembers_eq_forM (n : ℕ) (ms : List (PyKey × PyVal)) :
    validateMembers n ms = forM ms (validateMember n) := by
  induction ms with
  | nil => rfl
  | cons m ms ih =>
    obtain ⟨k, v⟩ := m
    rw [List.forM_cons]
    cases k with
    | object i => rfl
    | str k => rw [validateMembers, ih, validateMember, bind_assoc]

theorem validateMember_eq_ok {n : ℕ} {m : PyKey × PyVal} : validateMember n m = .ok () ↔
    (∃ k, m.1 = .str k ∧ validateStr k = .ok ()) ∧ validateWithin n m.2 = .ok () := by
  obtain ⟨k, v⟩ := m
  cases k with
  | object i => simp [validateMember]
  | str k => simp [validateMember, check_eq_ok]

/-- **Validation runs out of stack on the values that sink, and on no others.** -/
theorem validateWithin_eq_recursionError {n : ℕ} {v : PyVal} :
    validateWithin n v = .error .recursionError ↔ Sinks n v := by
  have hscalar : ∀ (n : ℕ) {v : PyVal}, (∀ vs, v ≠ .list vs) → (∀ ms, v ≠ .dict ms) →
      (validateWithin n v = .error .recursionError ↔ Sinks n v) := by
    intro n v hl hd
    constructor
    · intro h
      obtain ⟨code, h⟩ := validateScalar_raisesIn Exn.isFormatError hl hd _ h
      cases h
    · intro h
      cases h with
      | list vs => exact absurd rfl (hl vs)
      | dict ms => exact absurd rfl (hd ms)
      | elem => exact absurd rfl (hl _)
      | member => exact absurd rfl (hd _)
  induction v using PyVal.ind generalizing n with
  | list vs ih =>
    cases n with
    | zero => exact ⟨fun _ => .list vs, fun _ => rfl⟩
    | succ n =>
      rw [validateWithin, validateElems_eq_forM, forM_eq_error]
      constructor
      · rintro ⟨before, v, after, rfl, hbefore, hv⟩
        exact .elem hbefore ((ih v (by simp)).1 hv)
      · intro h
        cases h with
        | @elem _ before after v hbefore hv => exact ⟨before, v, after, rfl, hbefore, (ih v (by simp)).2 hv⟩
  | dict ms ih =>
    cases n with
    | zero => exact ⟨fun _ => .dict ms, fun _ => rfl⟩
    | succ n =>
      rw [validateWithin, validateMembers_eq_forM, forM_eq_error]
      simp only [validateMember_eq_ok]
      constructor
      · rintro ⟨before, ⟨k, v⟩, after, rfl, hbefore, hv⟩
        cases k with
        | object i => cases hv
        | str k =>
          rcases bind_eq_error.1 hv with hk | ⟨_, hk, hv⟩
          · obtain ⟨code, h⟩ := validateStr_raisesIn k _ hk
            cases h
          · exact .member hbefore hk ((ih (.str k, v) (by simp)).1 hv)
      · intro h
        cases h with
        | @member _ before after k v hbefore hk hv =>
          refine ⟨before, (.str k, v), after, rfl, hbefore, bind_eq_error.2 (.inr ⟨(), hk, ?_⟩)⟩
          exact (ih (.str k, v) (by simp)).2 hv
  | _ => exact hscalar n (by simp) (by simp)

/-- Writing the tree fails with one of the errors that `canonical_json_bytes` catches. -/
theorem toDoc_raisesIn (py : Interp) (v : PyVal) :
    RaisesIn (fun e => e = .typeError ∨ e.isValueError = true) (toDoc py v) := by
  have htype : ∀ {α : Type}, RaisesIn (fun e : Exn => e = .typeError ∨ e.isValueError = true)
      (.error .typeError : Except Exn α) := raisesIn_error.2 (.inl rfl)
  have hvalue : ∀ {α : Type}, RaisesIn (fun e : Exn => e = .typeError ∨ e.isValueError = true)
      (.error .valueError : Except Exn α) := raisesIn_error.2 (.inr rfl)
  induction v using PyVal.ind with
  | none | bool | str => exact raisesIn_ok _
  | bytes | tuple | proxy | object => exact htype
  | int n =>
    apply RaisesIn.map
    unfold Interp.intRepr
    split
    · exact raisesIn_ok _
    · exact hvalue
  | float x =>
    unfold toDoc
    split
    · exact raisesIn_ok _
    · exact hvalue
  | list vs ih =>
    apply RaisesIn.map
    induction vs with
    | nil => exact raisesIn_ok _
    | cons v vs ihvs =>
      refine (ih v (List.mem_cons_self ..)).bind fun d _ => ?_
      exact (ihvs fun w hw => ih w (List.mem_cons_of_mem _ hw)).bind fun ds _ => raisesIn_pure _
  | dict ms ih =>
    apply RaisesIn.map
    induction ms with
    | nil => exact raisesIn_ok _
    | cons m ms ihms =>
      obtain ⟨k, v⟩ := m
      cases k with
      | object i => exact htype
      | str k =>
        refine (ih (.str k, v) (List.mem_cons_self ..)).bind fun d _ => ?_
        exact (ihms fun w hw => ih w (List.mem_cons_of_mem _ hw)).bind fun ds _ => raisesIn_pure _

/-- After validation, `canonical_json_bytes` fails with a format error only. -/
theorem canonicalJsonBytes_raisesIn_of_valid {py : Interp} {v : PyVal} (hv : validateJsonValue py v = .ok ()) :
    RaisesIn Exn.IsFormatError (canonicalJsonBytes py v) := by
  have hencode : ∀ s, RaisesIn (fun e => e = .typeError ∨ e.isValueError = true) (encode s) := by
    intro s
    unfold encode
    split
    · exact raisesIn_error.2 (.inr rfl)
    · exact raisesIn_ok _
  unfold canonicalJsonBytes
  rw [hv]
  refine RaisesIn.catching ((toDoc_raisesIn py v).bind fun d _ => hencode _) fun e he => ?_
  rw [canonicalizationFailed, if_pos he]
  exact Exn.isFormatError _

theorem canonicalJsonBytes_raisesIn (py : Interp) (v : PyVal) :
    RaisesIn (fun e => e.IsFormatError ∨ validateJsonValue py v = .error .recursionError ∧ e = .recursionError)
      (canonicalJsonBytes py v) := by
  cases hv : validateJsonValue py v with
  | ok u => exact (canonicalJsonBytes_raisesIn_of_valid hv).mono fun _ => .inl
  | error e =>
    unfold canonicalJsonBytes
    rw [hv]
    refine raisesIn_error.2 ?_
    rcases validateWithin_raisesIn v _ e hv with h | rfl
    · exact .inl h
    · exact .inr ⟨rfl, rfl⟩

/-! ### The pairs hook -/

theorem uniqueFrom_eq (value : List (PyKey × PyVal)) (pairs : List (Str × PyVal)) (h : (keys value).Nodup) :
    uniqueFrom value pairs =
      if (keys (value ++ pairs.map fun p => (.str p.1, p.2))).Nodup then
        .ok (.dict (value ++ pairs.map fun p => (.str p.1, p.2)))
      else .error (.capabilityGrantFormatError "json_duplicate_object_key") := by
  induction pairs generalizing value with
  | nil => simp [uniqueFrom, h]
  | cons p pairs ih =>
    obtain ⟨key, item⟩ := p
    unfold uniqueFrom
    split
    · next hk =>
      rw [if_neg]
      simp only [keys, List.map_append, List.map_cons, List.nodup_append]
      rintro ⟨-, -, hd⟩
      exact hd _ hk _ (List.mem_cons_self ..) rfl
    · next hk =>
      have hn : (keys (value ++ [(PyKey.str key, item)])).Nodup := by
        simp only [keys, List.map_append, List.map_cons, List.map_nil] at hk ⊢
        exact List.nodup_append.2 ⟨h, List.nodup_singleton _, by
          rintro a ha b hb rfl
          rw [List.mem_singleton.1 hb] at ha
          exact hk ha⟩
      rw [ih _ hn]
      simp

theorem keys_map_str {α : Type} (pairs : List (Str × α)) :
    keys (pairs.map fun p => (PyKey.str p.1, p.2)) = (keys pairs).map .str := by
  simp [keys]

theorem nodup_keys_map_str {α : Type} {pairs : List (Str × α)} :
    (keys (pairs.map fun p => (PyKey.str p.1, p.2))).Nodup ↔ (keys pairs).Nodup := by
  rw [keys_map_str, List.nodup_map_iff]
  intro a b h
  cases h
  rfl

/-- The pairs hook accepts a list of members if and only if no key is repeated. -/
theorem uniqueJsonObject_eq (pairs : List (Str × PyVal)) : uniqueJsonObject pairs =
    if (keys pairs).Nodup then .ok (.dict (pairs.map fun p => (.str p.1, p.2)))
    else .error (.capabilityGrantFormatError "json_duplicate_object_key") := by
  have h := uniqueFrom_eq [] pairs List.nodup_nil
  simp only [List.nil_append, nodup_keys_map_str] at h
  exact h

end SharedAi.ServiceKit
