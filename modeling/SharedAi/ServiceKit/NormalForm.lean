import SharedAi.ServiceKit.StrictParse

/-!
# Canonical JSON as a normal form

* `not_isSurrogate_render` — a written tree is a text without surrogates, if its strings are;
* `exists_toDoc` — what is read strictly can be written;
* `canonicalJsonBytes_of_strictJsonLoads` — canonical JSON is a normal form of the documents that are read strictly.
-/

namespace SharedAi.ServiceKit

open SharedAi.Control SharedAi.Data SharedAi.Json SharedAi.Num SharedAi.Python SharedAi.Text

/-! ### Written texts -/

section Render

variable {c : PyChar}

theorem not_isSurrogate_lit {cs : List Char} (h : c ∈ lit cs) : c.isSurrogate = false := by
  obtain ⟨d, -, rfl⟩ := List.mem_map.1 h
  rfl

theorem not_isSurrogate_renderDigits {ds : List Digit} (h : c ∈ renderDigits ds) : c.isSurrogate = false := by
  obtain ⟨d, -, rfl⟩ := List.mem_map.1 h
  rfl

theorem not_isSurrogate_renderNum {l : NumLit} (h : c ∈ renderNum l) : c.isSurrogate = false := by
  simp only [renderNum, List.mem_append] at h
  rcases h with h | h | h | h
  · split at h
    · exact not_isSurrogate_lit h
    · cases h
  · exact not_isSurrogate_renderDigits h
  · unfold renderFrac at h
    split at h
    · cases h
    · rcases List.mem_cons.1 h with rfl | h
      · rfl
      · exact not_isSurrogate_renderDigits h
  · unfold renderExp at h
    split at h
    · cases h
    · rcases List.mem_cons.1 h with rfl | h
      · rfl
      rcases List.mem_cons.1 h with rfl | h
      · rfl
      · exact not_isSurrogate_renderDigits h

theorem not_isSurrogate_escape {d : PyChar} (hd : d.isSurrogate = false) (h : c ∈ escape d) :
    c.isSurrogate = false := by
  unfold escape at h
  repeat' split at h
  case isFalse =>
    rw [List.mem_singleton.1 h]
    exact hd
  all_goals try exact not_isSurrogate_lit h
  -- a control character
  rcases List.mem_append.1 h with h | h
  · exact not_isSurrogate_lit h
  · simp only [List.mem_cons, List.not_mem_nil, or_false] at h
    rcases h with rfl | rfl <;> rfl

theorem not_isSurrogate_renderStr {s : Str} (hs : ∀ d ∈ s, d.isSurrogate = false) (h : c ∈ renderStr s) :
    c.isSurrogate = false := by
  simp only [renderStr, List.mem_cons, List.mem_append, List.mem_flatMap] at h
  rcases h with rfl | ⟨d, hd, h⟩ | h
  · rfl
  · exact not_isSurrogate_escape (hs d hd) h
  · exact not_isSurrogate_lit h

theorem mem_renderElems {ds : List Doc} (h : c ∈ renderElems ds) : c = .scalar ',' ∨ ∃ d ∈ ds, c ∈ render d := by
  induction ds with
  | nil => cases h
  | cons d ds ih =>
    rw [renderElems_cons] at h
    rcases List.mem_append.1 h with h | h
    · exact .inr ⟨d, by simp, h⟩
    split at h
    · cases h
    rcases List.mem_cons.1 h with rfl | h
    · exact .inl rfl
    rcases ih h with h | ⟨e, he, h⟩
    · exact .inl h
    · exact .inr ⟨e, by simp [he], h⟩

theorem mem_renderMembers {ms : List (Str × Doc)} (h : c ∈ renderMembers ms) :
    (c = .scalar ',' ∨ c = .scalar ':') ∨ ∃ m ∈ ms, c ∈ renderStr m.1 ∨ c ∈ render m.2 := by
  induction ms with
  | nil => cases h
  | cons m ms ih =>
    obtain ⟨k, d⟩ := m
    rw [renderMembers_cons] at h
    rcases List.mem_append.1 h with h | h
    · exact .inr ⟨(k, d), by simp, .inl h⟩
    rcases List.mem_cons.1 h with rfl | h
    · exact .inl (.inr rfl)
    rcases List.mem_append.1 h with h | h
    · exact .inr ⟨(k, d), by simp, .inr h⟩
    split at h
    · cases h
    rcases List.mem_cons.1 h with rfl | h
    · exact .inl (.inl rfl)
    rcases ih h with h | ⟨e, he, h⟩
    · exact .inl h
    · exact .inr ⟨e, by simp [he], h⟩

end Render

/-- A valid value is written as a text without surrogates. -/
theorem not_isSurrogate_render {py : Interp} {v : PyVal} {e : Doc} {n : ℕ} (he : toDoc py v = .ok e)
    (hv : validateWithin n v = .ok ()) : ∀ c ∈ render e, c.isSurrogate = false := by
  induction v using PyVal.ind generalizing e n with
  | none =>
    cases he
    exact fun c => not_isSurrogate_lit
  | bool b =>
    cases he
    cases b <;> exact fun c => not_isSurrogate_lit
  | int i =>
    obtain ⟨-, rfl⟩ := toDoc_int.1 he
    exact fun c => not_isSurrogate_renderNum
  | float x =>
    obtain ⟨-, rfl⟩ := toDoc_float.1 he
    exact fun c => not_isSurrogate_renderNum
  | str s =>
    cases he
    exact fun c => not_isSurrogate_renderStr (validateStr_eq_ok.1 hv)
  | list vs ih =>
    obtain ⟨ds, hds, rfl⟩ := toDoc_list.1 he
    obtain ⟨n, rfl, hvs⟩ := validate_list.1 hv
    intro c hc
    simp only [render, List.mem_cons, List.mem_append] at hc
    rcases hc with rfl | hc | hc
    · rfl
    · rcases mem_renderElems hc with rfl | ⟨d, hd, hc⟩
      · rfl
      · obtain ⟨w, hw, hwd⟩ := forall₂_mem_right hds hd
        exact ih w hw hwd (hvs w hw) c hc
    · exact not_isSurrogate_lit hc
  | dict ms ih =>
    obtain ⟨ds, hds, rfl⟩ := toDoc_dict.1 he
    obtain ⟨n, rfl, hms⟩ := validate_dict.1 hv
    intro c hc
    simp only [render, List.mem_cons, List.mem_append] at hc
    rcases hc with rfl | hc | hc
    · rfl
    · rcases mem_renderMembers hc with (rfl | rfl) | ⟨p, hp, hc⟩
      · rfl
      · rfl
      · obtain ⟨m, hm, hkey, hwrites⟩ := forall₂_mem_right hds (mem_sortByKey.1 hp)
        obtain ⟨⟨k, hk, hs⟩, hvalid⟩ := hms m hm
        rcases hc with hc | hc
        · obtain rfl : k = p.1 := PyKey.str.inj (hk.symm.trans hkey)
          exact not_isSurrogate_renderStr (validateStr_eq_ok.1 hs) hc
        · exact ih m hm hwrites hvalid c hc
    · exact not_isSurrogate_lit hc
  | bytes | tuple | proxy | object => cases he

/-! ### What is read can be written -/

variable {py : Interp}

/-- What is built strictly, and is valid, can be written. -/
theorem exists_toDoc {d : Doc} {v : PyVal} {n : ℕ} (hd : build (strictHooks py) d = .ok v)
    (hv : validateWithin n v = .ok ()) : ∃ e, toDoc py v = .ok e := by
  induction d using Doc.ind generalizing v n with
  | null | bool | str =>
    cases hd
    exact ⟨_, rfl⟩
  | const c => cases hd
  | num l =>
    rw [build, Hooks.number] at hd
    split at hd
    · obtain ⟨i, hi, rfl⟩ := map_eq_ok.1 (show (py.parseInt l).map .int = .ok v from hd)
      unfold Interp.parseInt at hi
      split at hi
      · next hwithin =>
        cases hi
        exact ⟨_, toDoc_int.2 ⟨by rwa [NumLit.int_ofInt_intValue], rfl⟩⟩
      · cases hi
    · cases hd
      have hfinite : (Float64.ofLit l).isFinite = true := by
        rw [validateWithin] at hv
        split at hv
        · assumption
        · cases hv
      exact ⟨_, toDoc_float.2 ⟨hfinite, rfl⟩⟩
  | arr ds ih =>
    obtain ⟨vs, hvs, rfl⟩ := build_arr_eq_ok.1 hd
    obtain ⟨n, rfl, hvalid⟩ := validate_list.1 hv
    have hwrites : ∀ w ∈ vs, ∃ e, toDoc py w = .ok e := by
      intro w hw
      obtain ⟨d, hd, hdw⟩ := forall₂_mem_right hvs hw
      exact ih d hd hdw (hvalid w hw)
    obtain ⟨es, hes⟩ := exists_forall₂ hwrites
    exact ⟨_, toDoc_list.2 ⟨es, hes, rfl⟩⟩
  | obj ms ih =>
    obtain ⟨ps, hps, -, rfl⟩ := build_obj_eq_ok.1 hd
    obtain ⟨n, rfl, hvalid⟩ := validate_dict.1 hv
    have hwrites : ∀ m ∈ ps.map fun p => (PyKey.str p.1, p.2), ∃ e, WritesMember py m e := by
      intro m hm
      obtain ⟨p, hp, rfl⟩ := List.mem_map.1 hm
      obtain ⟨q, hq, -, hbuilt⟩ := forall₂_mem_right hps hp
      obtain ⟨e, he⟩ := ih q hq hbuilt (hvalid _ hm).2
      exact ⟨(p.1, e), rfl, he⟩
    obtain ⟨es, hes⟩ := exists_forall₂ hwrites
    exact ⟨_, toDoc_dict.2 ⟨es, hes, rfl⟩⟩

/-- What is valid and can be written has a canonical form. -/
theorem exists_canonicalJsonBytes_of_toDoc {v : PyVal} {e : Doc} (hv : validateJsonValue py v = .ok ())
    (he : toDoc py v = .ok e) : ∃ b, canonicalJsonBytes py v = .ok b := by
  obtain ⟨b, hb⟩ := Option.isSome_iff_exists.1 ((encodeUtf8_isSome_iff _).2 (not_isSurrogate_render he hv))
  exact ⟨b, canonicalJsonBytes_eq_ok.2 ⟨hv, e, he, hb⟩⟩

/-- What is read strictly has a canonical form. -/
theorem exists_canonicalJsonBytes {s v : PyVal} (h : strictJsonLoads py s = .ok v) :
    ∃ b, canonicalJsonBytes py v = .ok b := by
  have htext : ∀ text, strictLoadsText py text = .ok v → ∃ e, toDoc py v = .ok e := by
    intro text h
    unfold strictLoadsText at h
    split at h
    · cases h
    obtain ⟨u, hu, h⟩ := bind_eq_ok.1 h
    obtain ⟨hv, h⟩ := check_eq_ok.1 h
    cases h
    obtain ⟨d, -, hd⟩ := loads_eq_ok _ (catching_eq_ok.1 hu)
    exact exists_toDoc hd hv
  obtain ⟨hv, -⟩ := strictJsonLoads_ok h
  obtain ⟨e, he⟩ : ∃ e, toDoc py v = .ok e := by
    cases s with
    | bytes b =>
      cases hb : decodeUtf8 b with
      | none => simp [strictJsonLoads, hb] at h
      | some text =>
        rw [strictJsonLoads_of_decoded (show decoded (.bytes b) = some text from hb)] at h
        exact htext text h
    | str text => exact htext text h
    | _ => cases h
  exact exists_canonicalJsonBytes_of_toDoc hv he

/-- **Canonical JSON is a normal form of the documents that are read strictly**: each has one, which reads back to the
same value and is its own; and two documents have one normal form exactly if their values are equal as JSON. -/
theorem canonicalJsonBytes_of_strictJsonLoads (py : Interp) {s t v w : PyVal} (hs : strictJsonLoads py s = .ok v)
    (ht : strictJsonLoads py t = .ok w) :
    ∃ b c, canonicalJsonBytes py v = .ok b ∧ canonicalJsonBytes py w = .ok c ∧ (b = c ↔ v.jsonEq w = true) ∧
      ∃ u, strictJsonLoads py (.bytes b) = .ok u ∧ u.jsonEq v = true ∧ canonicalJsonBytes py u = .ok b := by
  obtain ⟨b, hb⟩ := exists_canonicalJsonBytes hs
  obtain ⟨c, hc⟩ := exists_canonicalJsonBytes ht
  obtain ⟨hvv, hvk⟩ := strictJsonLoads_ok hs
  obtain ⟨hwv, hwk⟩ := strictJsonLoads_ok ht
  refine ⟨b, c, hb, hc, ⟨?_, fun h => ?_⟩, ?_⟩
  · rintro rfl
    exact jsonEq_of_bytes hb hc
  · have hsame := canonicalJsonBytes_congr (show Value.JsonEq ⟨v, hvk⟩ ⟨w, hwk⟩ from h) hb hwv
    exact Except.ok.inj (hsame.symm.trans hc)
  · obtain ⟨-, d, hd, henc⟩ := canonicalJsonBytes_eq_ok.1 hb
    obtain ⟨u, hu, hud, huv, -⟩ := strictJsonLoads_of_toDoc hvv hvk hd henc
    exact ⟨u, hu, jsonEq_of_toDoc hud hd, canonicalJsonBytes_eq_ok.2 ⟨huv, d, hud, henc⟩⟩

theorem strictJsonLoads_of_spells {text : Str} {d : Doc} (hd : Spells py text d) (hi : intsWithin py d = true)
    (hu : unambiguous d = true) : strictJsonLoads py (.str text) = .ok (valueOf d) := by
  obtain ⟨hb, hv⟩ := (build_and_validate_iff hi).2 ⟨hu, hd.2⟩
  exact (strictLoadsText_eq_ok hd).2 ⟨hb, hv, rfl⟩

/-- Two spellings of one object. -/
theorem canonicalJsonBytes_of_strictJsonLoads_of_swap : ∃ v w b,
    strictJsonLoads .cpython (.str (str "\x7b \"b\": [1, 0], \"\\u0061\": null \x7d")) = .ok v ∧
    strictJsonLoads .cpython (.str (str "\x7b\"a\":null,\"b\":[1,-0]\x7d")) = .ok w ∧
    canonicalJsonBytes .cpython v = .ok b ∧ canonicalJsonBytes .cpython w = .ok b := by
  have hs : strictJsonLoads .cpython (.str (str "\x7b \"b\": [1, 0], \"\\u0061\": null \x7d")) = .ok (valueOf
      (.obj [(str "b", .arr [.num (.ofInt 1), .num (.ofInt 0)]), (str "a", .null)])) :=
    strictJsonLoads_of_spells ⟨by rfl, by decide⟩ (by decide) (by decide)
  have ht : strictJsonLoads .cpython (.str (str "\x7b\"a\":null,\"b\":[1,-0]\x7d")) = .ok (valueOf
      (.obj [(str "a", .null), (str "b", .arr [.num (.ofInt 1), .num ⟨true, .ofNat 0, [], none⟩])])) :=
    strictJsonLoads_of_spells ⟨by rfl, by decide⟩ (by decide) (by decide)
  obtain ⟨b, c, hb, hc, hsame, -⟩ := canonicalJsonBytes_of_strictJsonLoads .cpython hs ht
  obtain rfl := hsame.2 (by decide +kernel)
  exact ⟨_, _, _, hs, ht, hb, hc⟩

end SharedAi.ServiceKit
