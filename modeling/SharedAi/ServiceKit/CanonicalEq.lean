import SharedAi.ServiceKit.CanonicalJson

/-!
# Canonical JSON is faithful

* `toDoc_congr`, `jsonEq_of_toDoc` — two values have one written tree if and only if they are equal as JSON;
* `build_toDoc` — the strict hooks turn a written tree back into a value that is written the same way;
* `canonicalJsonBytes_faithful` — so the bytes identify a value up to the order of members, and are read
  back as that value.
-/

namespace SharedAi.ServiceKit

open SharedAi.Control SharedAi.Data SharedAi.Json SharedAi.Num SharedAi.Python SharedAi.Text

variable {py : Interp}

/-! ### Equal values have one tree -/

theorem keys_of_writes {ms : List (PyKey × PyVal)} {ds : List (Str × Doc)} (h : List.Forall₂ (WritesMember py) ms ds) :
    keys ms = (keys ds).map .str := by
  induction h with
  | nil => rfl
  | cons h _ ih => rw [keys_cons, keys_cons, List.map_cons, h.1, ih]

theorem nodup_keys_of_writes {ms : List (PyKey × PyVal)} {ds : List (Str × Doc)}
    (h : List.Forall₂ (WritesMember py) ms ds) (hn : (keys ms).Nodup) : (keys ds).Nodup := by
  rw [keys_of_writes h] at hn
  exact hn.of_map

/-- Values that are equal as JSON have one written tree. -/
theorem toDoc_congr {v w : PyVal} (h : v.jsonEq w = true) (hv : v.distinctKeys = true) (hw : w.distinctKeys = true)
    {d : Doc} (hd : toDoc py v = .ok d) : toDoc py w = .ok d := by
  induction v using PyVal.ind generalizing w d with
  | none | bool | int | float | str =>
    cases w <;> simp only [PyVal.jsonEq, Bool.false_eq_true, beq_iff_eq] at h
    all_goals first | exact hd | exact h ▸ hd
  | bytes | tuple | proxy | object => cases w <;> cases h
  | list vs ih =>
    cases w with
    | list ws =>
      obtain ⟨ds, hds, rfl⟩ := toDoc_list.1 hd
      have hvs := PyVal.distinctKeys_list.1 hv
      have hws := PyVal.distinctKeys_list.1 hw
      refine toDoc_list.2 ⟨ds, forall₂_comp (PyVal.jsonEqList_iff.1 h).flip hds ?_, rfl⟩
      exact fun w hw v hv d _ hvw hvd => ih v hv hvw (hvs v hv) (hws w hw) hvd
    | _ => cases h
  | dict ms ih =>
    cases w with
    | dict ns =>
      obtain ⟨hmn, hms⟩ := PyVal.distinctKeys_dict.1 hv
      obtain ⟨hnn, hns⟩ := PyVal.distinctKeys_dict.1 hw
      obtain ⟨hmem, hback⟩ := (PyVal.jsonEq_dict_iff hmn hnn).1 h
      obtain ⟨ds, hds, rfl⟩ := toDoc_dict.1 hd
      -- a member of one dictionary and its counterpart in the other are written the same way
      have hto : ∀ m ∈ ms, ∀ n ∈ ns, m.1 = n.1 → m.2.jsonEq n.2 = true → ∀ p, WritesMember py m p →
          WritesMember py n p := fun m hm n hn hk hj p hp =>
        ⟨hk ▸ hp.1, ih m hm hj (hms m hm) (hns n hn) hp.2⟩
      obtain ⟨es, hes⟩ : ∃ es, List.Forall₂ (WritesMember py) ns es := by
        apply exists_forall₂
        intro n hn
        obtain ⟨v, hm, hj⟩ := hback n hn
        obtain ⟨p, -, hp⟩ := forall₂_mem_left hds hm
        exact ⟨p, hto _ hm n hn rfl hj p hp⟩
      refine toDoc_dict.2 ⟨es, hes, ?_⟩
      have hnd := nodup_keys_of_writes hds hmn
      have hne := nodup_keys_of_writes hes hnn
      have hperm : ds.Perm es := by
        have hsub : ds ⊆ es := by
          intro p hp
          obtain ⟨m, hm, hmp⟩ := forall₂_mem_right hds hp
          obtain ⟨w, hn, hj⟩ := hmem m hm
          obtain ⟨q, hq, hnq⟩ := forall₂_mem_left hes hn
          have hnp := hto m hm _ hn rfl hj p hmp
          have hk : p.1 = q.1 := PyKey.str.inj (hnp.1.symm.trans hnq.1)
          have hd : p.2 = q.2 := Except.ok.inj (hnp.2.symm.trans hnq.2)
          rw [show p = q from Prod.ext hk hd]
          exact hq
        apply (List.subperm_of_subset hnd.of_map hsub).perm_of_length_le
        rw [← hds.length_eq, ← hes.length_eq, (PyVal.jsonEq_dict.1 h).1]
      rw [sortByKey_eq hnd hperm]
    | _ => cases h

/-! ### One tree, equal values -/

/-- What a tree is written from. -/
def WrittenFrom (py : Interp) (v : PyVal) : Doc → Prop
  | .null => v = .none
  | .bool b => v = .bool b
  | .num l => (∃ n, v = .int n ∧ l = .ofInt n) ∨ ∃ x, v = .float x ∧ x.isFinite = true ∧ l = x.repr
  | .const _ => False
  | .str s => v = .str s
  | .arr ds => ∃ vs, v = .list vs ∧ List.Forall₂ (fun v d => toDoc py v = .ok d) vs ds
  | .obj ps => ∃ ms ds, v = .dict ms ∧ List.Forall₂ (WritesMember py) ms ds ∧ ps = sortByKey ds

theorem toDoc_inv {v : PyVal} {d : Doc} (h : toDoc py v = .ok d) : WrittenFrom py v d := by
  cases v with
  | none | bool | str =>
    cases h
    rfl
  | int n =>
    obtain ⟨-, rfl⟩ := toDoc_int.1 h
    exact .inl ⟨n, rfl, rfl⟩
  | float x =>
    obtain ⟨hx, rfl⟩ := toDoc_float.1 h
    exact .inr ⟨x, rfl, hx, rfl⟩
  | bytes | tuple | proxy | object => cases h
  | list vs =>
    obtain ⟨ds, hds, rfl⟩ := toDoc_list.1 h
    exact ⟨vs, rfl, hds⟩
  | dict ms =>
    obtain ⟨ds, hds, rfl⟩ := toDoc_dict.1 h
    exact ⟨ms, ds, rfl, hds, rfl⟩

/-- Values with one written tree are equal as JSON. -/
theorem jsonEq_of_toDoc {v w : PyVal} {d : Doc} (hv : toDoc py v = .ok d) (hw : toDoc py w = .ok d) :
    v.jsonEq w = true := by
  -- an integer is never written as a float
  have hnum : ∀ {n : ℤ} {x : Float64}, x.isFinite = true → NumLit.ofInt n ≠ x.repr := by
    intro n x hx h
    have := Float64.isInt_repr hx
    rw [← h, NumLit.isInt_ofInt] at this
    cases this
  replace hw := toDoc_inv hw
  induction v using PyVal.ind generalizing w d with
  | none | bool | str =>
    cases hv
    subst hw
    simp [PyVal.jsonEq]
  | int n =>
    obtain ⟨-, rfl⟩ := toDoc_int.1 hv
    rcases hw with ⟨m, rfl, h⟩ | ⟨x, rfl, hx, h⟩
    · have := congrArg NumLit.intValue h
      simpa [PyVal.jsonEq] using this
    · exact absurd h (hnum hx)
  | float x =>
    obtain ⟨hx, rfl⟩ := toDoc_float.1 hv
    rcases hw with ⟨m, rfl, h⟩ | ⟨y, rfl, hy, h⟩
    · exact absurd h.symm (hnum hx)
    · have := congrArg Float64.ofLit h
      rw [Float64.ofLit_repr hx, Float64.ofLit_repr hy] at this
      simpa [PyVal.jsonEq] using this
  | bytes | tuple | proxy | object => cases hv
  | list vs ih =>
    obtain ⟨ds, hds, rfl⟩ := toDoc_list.1 hv
    obtain ⟨ws, rfl, hws⟩ := hw
    refine PyVal.jsonEqList_iff.2 (forall₂_comp hds hws.flip ?_)
    exact fun v hv d _ w _ hvd hwd => ih v hv hvd (toDoc_inv hwd)
  | dict ms ih =>
    obtain ⟨ds, hds, rfl⟩ := toDoc_dict.1 hv
    obtain ⟨ns, es, rfl, hes, h⟩ := hw
    have hperm := perm_of_sortByKey_eq h
    refine PyVal.jsonEq_dict.2 ⟨?_, fun m hm => ?_⟩
    · rw [hds.length_eq, hes.length_eq, hperm.length_eq]
    · obtain ⟨p, hp, hmp⟩ := forall₂_mem_left hds hm
      obtain ⟨n, hn, hnp⟩ := forall₂_mem_right hes (hperm.mem_iff.1 hp)
      refine ⟨n.2, ?_, ih m hm hmp.2 (toDoc_inv hnp.2)⟩
      rw [hmp.1, ← hnp.1]
      exact hn

/-! ### Reading back -/

theorem keys_eq_of_forall₂ {ds : List (Str × Doc)} {ps : List (Str × PyVal)}
    (h : List.Forall₂ (fun m p => p.1 = m.1 ∧ build (strictHooks py) m.2 = .ok p.2) ds ps) : keys ps = keys ds := by
  induction h with
  | nil => rfl
  | cons h _ ih => rw [keys_cons, keys_cons, h.1, ih]

theorem build_arr_eq_ok {ds : List Doc} {v : PyVal} : build (strictHooks py) (.arr ds) = .ok v ↔
    ∃ vs, List.Forall₂ (fun d v => build (strictHooks py) d = .ok v) ds vs ∧ v = .list vs := by
  rw [build_arr, map_eq_ok]
  simp only [buildElems_eq_ok]
  exact exists_congr fun vs => and_congr_right fun _ => eq_comm

/-- An object is built from members with different keys. -/
theorem build_obj_eq_ok {ms : List (Str × Doc)} {v : PyVal} : build (strictHooks py) (.obj ms) = .ok v ↔
    ∃ ps : List (Str × PyVal), List.Forall₂ (fun m p => p.1 = m.1 ∧ build (strictHooks py) m.2 = .ok p.2) ms ps ∧
      (keys ms).Nodup ∧ v = .dict (ps.map fun p => (PyKey.str p.1, p.2)) := by
  rw [build_obj]
  apply bind_eq_ok.trans
  simp only [buildMembers_eq_ok]
  refine exists_congr fun ps => and_congr_right fun hps => ?_
  show uniqueJsonObject ps = .ok v ↔ _
  rw [uniqueJsonObject_eq, keys_eq_of_forall₂ hps, ite_eq_ok]
  exact and_congr_right fun _ => eq_comm

/-- What the strict hooks make of a written tree: a value of the same tree, as valid as the first one. -/
def ReadsBack (py : Interp) (n : ℕ) (d : Doc) (w : PyVal) : Prop :=
  build (strictHooks py) d = .ok w ∧ toDoc py w = .ok d ∧ validateWithin n w = .ok () ∧ w.distinctKeys = true ∧
    depth d ≤ n

/-- The strict hooks turn a written tree back into a value that is written the same way. -/
theorem build_toDoc {v : PyVal} {d : Doc} {n : ℕ} (hd : toDoc py v = .ok d) (hv : validateWithin n v = .ok ())
    (hk : v.distinctKeys = true) : ∃ w, ReadsBack py n d w := by
  induction v using PyVal.ind generalizing d n with
  | none | bool | str =>
    cases hd
    exact ⟨_, rfl, rfl, hv, rfl, Nat.zero_le n⟩
  | int i =>
    have hi := hd
    obtain ⟨hw, rfl⟩ := toDoc_int.1 hd
    refine ⟨.int i, ?_, hi, by simp [validateWithin], rfl, Nat.zero_le n⟩
    rw [build, Hooks.number, if_pos (NumLit.isInt_ofInt i)]
    simp only [strictHooks, Interp.parseInt, hw, if_true, NumLit.intValue_ofInt]
    rfl
  | float x =>
    have hx := hd
    obtain ⟨hf, rfl⟩ := toDoc_float.1 hd
    refine ⟨.float x, ?_, hx, by simp [validateWithin, hf], rfl, Nat.zero_le n⟩
    rw [build, Hooks.number, if_neg (by simp [Float64.isInt_repr hf])]
    simp only [strictHooks, Float64.ofLit_repr hf]
  | bytes | tuple | proxy | object => cases hd
  | list vs ih =>
    obtain ⟨ds, hds, rfl⟩ := toDoc_list.1 hd
    obtain ⟨n, rfl, hvs⟩ := validate_list.1 hv
    have hks := PyVal.distinctKeys_list.1 hk
    have hread : ∀ d ∈ ds, ∃ w, ReadsBack py n d w := by
      intro d hd
      obtain ⟨v, hv, hvd⟩ := forall₂_mem_right hds hd
      exact ih v hv hvd (hvs v hv) (hks v hv)
    obtain ⟨ws, hws⟩ := exists_forall₂ hread
    have hmem : ∀ w ∈ ws, ∃ d, ReadsBack py n d w := fun w hw => (forall₂_mem_right hws hw).imp fun _ h => h.2
    refine ⟨.list ws, ?_, ?_, validate_list.2 ⟨n, rfl, ?_⟩, PyVal.distinctKeys_list.2 ?_, ?_⟩
    · exact build_arr_eq_ok.2 ⟨ws, hws.imp fun _ _ h => h.1, rfl⟩
    · exact toDoc_list.2 ⟨ds, (hws.imp fun _ _ h => h.2.1).flip, rfl⟩
    · exact fun w hw => (hmem w hw).elim fun _ h => h.2.2.1
    · exact fun w hw => (hmem w hw).elim fun _ h => h.2.2.2.1
    · exact Nat.succ_le_succ (depthElems_le.2 fun d hd => (hread d hd).elim fun _ h => h.2.2.2.2)
  | dict ms ih =>
    obtain ⟨ds, hds, rfl⟩ := toDoc_dict.1 hd
    obtain ⟨n, rfl, hms⟩ := validate_dict.1 hv
    obtain ⟨hnd, hks⟩ := PyVal.distinctKeys_dict.1 hk
    -- every written member is read back under its own key, and the key is a valid string
    have hread : ∀ p ∈ sortByKey ds, ∃ q : Str × PyVal, q.1 = p.1 ∧ validateStr q.1 = .ok () ∧
        ReadsBack py n p.2 q.2 := by
      intro p hp
      obtain ⟨m, hm, hmp⟩ := forall₂_mem_right hds (mem_sortByKey.1 hp)
      obtain ⟨⟨k, hk, hsk⟩, hvm⟩ := hms m hm
      obtain ⟨w, hw⟩ := ih m hm hmp.2 hvm (hks m hm)
      obtain rfl : k = p.1 := PyKey.str.inj (hk.symm.trans hmp.1)
      exact ⟨(p.1, w), rfl, hsk, hw⟩
    obtain ⟨qs, hqs⟩ := exists_forall₂ hread
    have hbuild : List.Forall₂ (fun m p => p.1 = m.1 ∧ build (strictHooks py) m.2 = .ok p.2) (sortByKey ds) qs :=
      hqs.imp fun _ _ h => ⟨h.1, h.2.2.1⟩
    have hsorted : (keys (sortByKey ds)).Nodup := nodup_keys_sortByKey (nodup_keys_of_writes hds hnd)
    have hkeys : (keys qs).Nodup := by rwa [keys_eq_of_forall₂ hbuild]
    have hwrites : List.Forall₂ (WritesMember py) (qs.map fun q => (PyKey.str q.1, q.2)) (sortByKey ds) := by
      rw [List.forall₂_map_left_iff]
      exact (hqs.imp fun _ _ h => ⟨congrArg PyKey.str h.1, h.2.2.2.1⟩).flip
    have hmem : ∀ q ∈ qs, ∃ p : Str × Doc, validateStr q.1 = .ok () ∧ ReadsBack py n p.2 q.2 :=
      fun q hq => (forall₂_mem_right hqs hq).imp fun _ h => ⟨h.2.2.1, h.2.2.2⟩
    refine ⟨.dict (qs.map fun q => (PyKey.str q.1, q.2)), ?_, ?_, validate_dict.2 ⟨n, rfl, ?_⟩,
      PyVal.distinctKeys_dict.2 ⟨nodup_keys_map_str.2 hkeys, ?_⟩, ?_⟩
    · exact build_obj_eq_ok.2 ⟨qs, hbuild, hsorted, rfl⟩
    · exact toDoc_dict.2 ⟨_, hwrites, by rw [sortByKey_idem]⟩
    · intro m hm
      obtain ⟨q, hq, rfl⟩ := List.mem_map.1 hm
      obtain ⟨p, hs, hr⟩ := hmem q hq
      exact ⟨⟨q.1, rfl, hs⟩, hr.2.2.1⟩
    · intro m hm
      obtain ⟨q, hq, rfl⟩ := List.mem_map.1 hm
      obtain ⟨p, -, hr⟩ := hmem q hq
      exact hr.2.2.2.1
    · refine Nat.succ_le_succ (depthMembers_le.2 fun p hp => ?_)
      obtain ⟨q, -, -, hr⟩ := hread p hp
      exact hr.2.2.2.2

/-- The bytes of a value are read back as a value with the same tree. -/
theorem strictJsonLoads_of_toDoc {v : PyVal} {d : Doc} {b : Bytes} (hv : validateJsonValue py v = .ok ())
    (hk : v.distinctKeys = true) (hd : toDoc py v = .ok d) (hb : encodeUtf8 (render d) = some b) :
    ∃ w, strictJsonLoads py (.bytes b) = .ok w ∧ toDoc py w = .ok d ∧ validateJsonValue py w = .ok () ∧
      w.distinctKeys = true := by
  obtain ⟨w, hw, hwd, hwv, hwk, hn⟩ := build_toDoc hd hv hk
  refine ⟨w, ?_, hwd, hwv, hwk⟩
  obtain ⟨c, t, hr, -⟩ := render_head d
  have hne : render d ≠ [] := by
    rw [hr]
    exact List.cons_ne_nil c t
  have hload : loads (strictHooks py) py.readNesting (render d) = .ok w := by
    rw [loads_render _ (hn.trans py.frames_le), hw]
  simp only [strictJsonLoads, decodeUtf8_of_encode hb, strictLoadsText, if_neg hne, hload, catching]
  exact check_eq_ok.2 ⟨hwv, rfl⟩

theorem canonicalJsonBytes_congr {v w : Value} (h : v.JsonEq w) {b : Bytes}
    (hv : canonicalJsonBytes py v = .ok b) (hw : validateJsonValue py w = .ok ()) :
    canonicalJsonBytes py w = .ok b := by
  obtain ⟨-, d, hd, hb⟩ := canonicalJsonBytes_eq_ok.1 hv
  exact canonicalJsonBytes_eq_ok.2 ⟨hw, d, toDoc_congr h v.2 w.2 hd, hb⟩

/-- Values with the same bytes are equal as JSON. -/
theorem jsonEq_of_bytes {v w : PyVal} {b : Bytes} (hv : canonicalJsonBytes py v = .ok b)
    (hw : canonicalJsonBytes py w = .ok b) : v.jsonEq w = true := by
  obtain ⟨-, d, hd, hb⟩ := canonicalJsonBytes_eq_ok.1 hv
  obtain ⟨-, d', hd', hb'⟩ := canonicalJsonBytes_eq_ok.1 hw
  obtain rfl : d = d' := render_injective (encodeUtf8_injective hb hb')
  exact jsonEq_of_toDoc hd hd'

/-- **Canonical JSON is faithful.** -/
theorem canonicalJsonBytes_faithful (py : Interp) {v w : Value} {b c : Bytes} (hv : canonicalJsonBytes py v = .ok b)
    (hw : canonicalJsonBytes py w = .ok c) :
    (b = c ↔ v.JsonEq w) ∧ ∃ u : Value, strictJsonLoads py (.bytes b) = .ok u.1 ∧ u.JsonEq v := by
  obtain ⟨hvv, d, hd, hb⟩ := canonicalJsonBytes_eq_ok.1 hv
  refine ⟨⟨?_, fun h => ?_⟩, ?_⟩
  · rintro rfl
    exact jsonEq_of_bytes hv hw
  · have := canonicalJsonBytes_congr h hv (canonicalJsonBytes_eq_ok.1 hw).1
    exact Except.ok.inj (this.symm.trans hw)
  · obtain ⟨u, hu, hud, -, huk⟩ := strictJsonLoads_of_toDoc hvv v.2 hd hb
    exact ⟨⟨u, huk⟩, hu, jsonEq_of_toDoc hud hd⟩

/-- `{"b": [1, 1.5, True], "a": None}`. -/
def listedBFirst : Value :=
  ⟨.dict [(.str (str "b"), .list [.int 1, .float (.ofLit ⟨false, .ofNat 1, [5], none⟩), .bool true]),
    (.str (str "a"), .none)], by decide⟩

def listedAFirst : Value :=
  ⟨.dict [(.str (str "a"), .none),
    (.str (str "b"), .list [.int 1, .float (.ofLit ⟨false, .ofNat 1, [5], none⟩), .bool true])], by decide⟩

def listedBytes : Bytes := "\x7b\"a\":null,\"b\":[1,1.5,true]\x7d".toUTF8.toList

theorem canonicalJsonBytes_faithful_of_swap : (listedBytes = listedBytes ↔ listedBFirst.JsonEq listedAFirst) ∧
    ∃ u : Value, strictJsonLoads .cpython (.bytes listedBytes) = .ok u.1 ∧ u.JsonEq listedBFirst :=
  canonicalJsonBytes_faithful .cpython (by decide +kernel) (by decide +kernel)

end SharedAi.ServiceKit
