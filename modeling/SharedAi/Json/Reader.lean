import SharedAi.Control.Raises
import SharedAi.Json.Scan
import Mathlib.Data.List.Forall2

/-!
# What a reader does

* `loads_build`, `loads_eq_ok` — reading with hooks is reading the syntax tree and applying the hooks to it;
* `loads_raisesIn` — the errors of a reader are its own two and those of its hooks.
-/

namespace SharedAi.Json

open SharedAi.Control SharedAi.Text SharedAi.Num

variable {ε α : Type}

/-! ### Hooks -/

/-- How a reader with hooks follows the one that keeps the tree: where that succeeds the hooks decide, and
where that fails so does the reader. -/
def Follows {β γ : Type} (f : β → Except ε γ) (x : Except ε (γ × Str)) (y : Except ε (β × Str)) : Prop :=
  (∀ b r, y = .ok (b, r) → x = (f b).map (·, r)) ∧ ((∃ e, y = .error e) → ∃ e, x = .error e)

theorem follows_error {β γ : Type} {f : β → Except ε γ} (e e' : ε) :
    Follows f (.error e : Except ε (γ × Str)) (.error e') :=
  ⟨(by rintro b r h; cases h), fun _ => ⟨e, rfl⟩⟩

theorem follows_ok {β γ : Type} {f : β → Except ε γ} {x : Except ε (γ × Str)} {b : β} {r : Str}
    (h : x = (f b).map (·, r)) : Follows f x (.ok (b, r)) :=
  ⟨by rintro b' r' h'; cases h'; exact h, by rintro ⟨e, h⟩; cases h⟩

/-- What follows a read value: the reader with hooks goes on from the same place. -/
theorem Follows.bind {β γ β' γ' : Type} {f : β → Except ε γ} {f' : β' → Except ε γ'} {x : Except ε (γ × Str)}
    {y : Except ε (β × Str)} (h : Follows f x y) {k : γ × Str → Except ε (γ' × Str)}
    {k' : β × Str → Except ε (β' × Str)}
    (hk : ∀ b r, (∀ c, f b = .ok c → Follows f' (k (c, r)) (k' (b, r))) ∧
      ∀ e, f b = .error e → ∀ b' r', k' (b, r) = .ok (b', r') → f' b' = .error e) :
    Follows f' (x >>= k) (y >>= k') := by
  obtain ⟨hok, herr⟩ := h
  cases y with
  | error e =>
    obtain ⟨e', rfl⟩ := herr ⟨e, rfl⟩
    exact follows_error e' e
  | ok p =>
    obtain ⟨b, r⟩ := p
    obtain rfl := hok b r rfl
    cases hb : f b with
    | ok c => exact (hk b r).1 c hb
    | error e =>
      refine ⟨?_, fun _ => ⟨e, rfl⟩⟩
      intro b' r' h
      rw [(hk b r).2 e hb b' r' h]
      rfl

theorem scanScalar_follows (H : Hooks ε α) (t : Str) : Follows (build H) (scanScalar H t) (scanScalar H.tree t) := by
  unfold scanScalar
  split
  · exact follows_error _ _
  · exact follows_ok rfl
  split
  · exact follows_ok rfl
  split
  · exact follows_ok rfl
  split
  · exact follows_ok rfl
  split
  · exact follows_ok rfl
  split
  · exact follows_ok rfl
  split
  · exact follows_ok rfl
  split
  · rw [Hooks.tree_number]
    exact follows_ok rfl
  · exact follows_error _ _

theorem buildElems_cons (H : Hooks ε α) (d : Doc) (ds : List Doc) :
    buildElems H (d :: ds) = (build H d).bind fun v => (buildElems H ds).map (v :: ·) := by
  rw [buildElems]
  cases build H d with
  | error e => rfl
  | ok v => cases buildElems H ds <;> rfl

theorem buildMembers_cons (H : Hooks ε α) (k : Str) (d : Doc) (ms : List (Str × Doc)) :
    buildMembers H ((k, d) :: ms) = (build H d).bind fun v => (buildMembers H ms).map ((k, v) :: ·) := by
  rw [buildMembers]
  cases build H d with
  | error e => rfl
  | ok v => cases buildMembers H ms <;> rfl

theorem buildElems_eq_ok {H : Hooks ε α} {ds : List Doc} {vs : List α} :
    buildElems H ds = .ok vs ↔ List.Forall₂ (fun d v => build H d = .ok v) ds vs := by
  induction ds generalizing vs with
  | nil => simp [buildElems, eq_comm]
  | cons d ds ih =>
    simp only [buildElems, bind_eq_ok, List.forall₂_cons_left_iff, ih]
    constructor
    · rintro ⟨v, hv, vs', hvs, h⟩
      cases h
      exact ⟨v, vs', hv, hvs, rfl⟩
    · rintro ⟨v, vs', hv, hvs, rfl⟩
      exact ⟨v, hv, vs', hvs, rfl⟩

theorem buildMembers_eq_ok {H : Hooks ε α} {ms : List (Str × Doc)} {ps : List (Str × α)} :
    buildMembers H ms = .ok ps ↔ List.Forall₂ (fun m p => p.1 = m.1 ∧ build H m.2 = .ok p.2) ms ps := by
  induction ms generalizing ps with
  | nil => simp [buildMembers, eq_comm]
  | cons m ms ih =>
    obtain ⟨k, d⟩ := m
    simp only [buildMembers, bind_eq_ok, List.forall₂_cons_left_iff, ih]
    constructor
    · rintro ⟨v, hv, ps', hps, h⟩
      cases h
      exact ⟨(k, v), ps', ⟨rfl, hv⟩, hps, rfl⟩
    · rintro ⟨⟨k', v⟩, ps', ⟨rfl, hv⟩, hps, rfl⟩
      exact ⟨v, hv, ps', hps, rfl⟩

theorem scanElems_follows (H : Hooks ε α) {p : Str → Except ε (α × Str)} {q : Str → Except ε (Doc × Str)}
    (h : ∀ t, Follows (build H) (p t) (q t)) : ∀ k t,
    Follows (buildElems H) (scanElems H p k t) (scanElems H.tree q k t)
  | 0, _ => follows_error _ _
  | k + 1, t => by
    refine (h t).bind fun d r => ⟨?_, ?_⟩
    · intro v hv
      dsimp only
      split
      · next r' _ =>
        refine (scanElems_follows H h k (skipWs r')).bind fun ds r'' => ⟨?_, ?_⟩
        · intro vs hvs
          exact follows_ok (by rw [buildElems_cons, hv, Except.bind, hvs]; rfl)
        · intro e he b r' hb
          cases hb
          rw [buildElems_cons, hv, Except.bind, he]
          rfl
      split
      · exact follows_ok (by rw [buildElems_cons, hv]; rfl)
      · exact follows_error _ _
    · intro e he b r' hb
      dsimp only at hb
      split at hb
      · next r'' _ =>
        cases hs : scanElems H.tree q k (skipWs r'') with
        | error e =>
          rw [hs] at hb
          cases hb
        | ok ps =>
          rw [hs] at hb
          cases hb
          rw [buildElems_cons, he]
          rfl
      split at hb
      · cases hb
        rw [buildElems_cons, he]
        rfl
      · cases hb

theorem scanMembers_follows (H : Hooks ε α) {p : Str → Except ε (α × Str)} {q : Str → Except ε (Doc × Str)}
    (h : ∀ t, Follows (build H) (p t) (q t)) : ∀ n t,
    Follows (buildMembers H) (scanMembers H p n t) (scanMembers H.tree q n t)
  | 0, _ => follows_error _ _
  | n + 1, t => by
    unfold scanMembers
    split
    · exact follows_error _ _
    dsimp only
    split
    · exact follows_error _ _
    refine (h _).bind fun d r => ⟨?_, ?_⟩
    · intro v hv
      dsimp only
      split
      · next r' _ =>
        refine (scanMembers_follows H h n (skipWs r')).bind fun ms r'' => ⟨?_, ?_⟩
        · intro ps hps
          exact follows_ok (by rw [buildMembers_cons, hv, Except.bind, hps]; rfl)
        · intro e he b r' hb
          cases hb
          rw [buildMembers_cons, hv, Except.bind, he]
          rfl
      split
      · exact follows_ok (by rw [buildMembers_cons, hv]; rfl)
      · exact follows_error _ _
    · intro e he b r' hb
      dsimp only at hb
      split at hb
      · next r'' _ =>
        cases hs : scanMembers H.tree q n (skipWs r'') with
        | error e =>
          rw [hs] at hb
          cases hb
        | ok ps =>
          rw [hs] at hb
          cases hb
          rw [buildMembers_cons, he]
          rfl
      split at hb
      · cases hb
        rw [buildMembers_cons, he]
        rfl
      · cases hb

theorem build_arr (H : Hooks ε α) (ds : List Doc) : build H (.arr ds) = (buildElems H ds).map H.array := by
  rw [build]
  cases buildElems H ds <;> rfl

theorem build_obj (H : Hooks ε α) (ms : List (Str × Doc)) :
    build H (.obj ms) = (buildMembers H ms).bind H.objectPairs := rfl

theorem scanArray_follows (H : Hooks ε α) {p : Str → Except ε (α × Str)} {q : Str → Except ε (Doc × Str)}
    (h : ∀ t, Follows (build H) (p t) (q t)) (t : Str) :
    Follows (build H) (scanArray H p t) (scanArray H.tree q t) := by
  unfold scanArray
  split
  · exact follows_ok rfl
  refine (scanElems_follows H h _ _).bind fun ds r => ⟨?_, ?_⟩
  · intro vs hvs
    exact follows_ok (by rw [Hooks.tree, build_arr, hvs]; rfl)
  · intro e he b r' hb
    cases hb
    rw [Hooks.tree, build_arr, he]
    rfl

theorem scanObject_follows (H : Hooks ε α) {p : Str → Except ε (α × Str)} {q : Str → Except ε (Doc × Str)}
    (h : ∀ t, Follows (build H) (p t) (q t)) (t : Str) :
    Follows (build H) (scanObject H p t) (scanObject H.tree q t) := by
  unfold scanObject
  split
  · apply follows_ok
    rw [build_obj, buildMembers]
    simp only [bind, Except.bind]
    cases H.objectPairs [] <;> rfl
  refine (scanMembers_follows H h _ _).bind fun ms r => ⟨?_, ?_⟩
  · intro ps hps
    apply follows_ok
    rw [build_obj, hps]
    simp only [bind, Except.bind]
    cases H.objectPairs ps <;> rfl
  · intro e he b r' hb
    cases hb
    rw [build_obj, he]
    rfl

theorem scanOnce_follows (H : Hooks ε α) : ∀ n t, Follows (build H) (scanOnce H n t) (scanOnce H.tree n t)
  | 0, t => by
    unfold scanOnce
    split
    · exact follows_error _ _
    · exact scanScalar_follows H t
  | n + 1, t => by
    unfold scanOnce
    split
    · exact scanObject_follows H (scanOnce_follows H n) _
    split
    · exact scanArray_follows H (scanOnce_follows H n) _
    · exact scanScalar_follows H t

/-- Reading with hooks is reading the syntax tree and applying the hooks to it. -/
theorem scanOnce_build (H : Hooks ε α) {n : ℕ} {t : Str} {d : Doc} {r : Str} (h : scanOnce H.tree n t = .ok (d, r)) :
    scanOnce H n t = (build H d).map (·, r) :=
  (scanOnce_follows H n t).1 d r h

theorem loads_build (H : Hooks ε α) {n : ℕ} {t : Str} {d : Doc} (h : loads H.tree n t = .ok d) :
    loads H n t = build H d := by
  unfold loads at h ⊢
  split at h
  · cases h
  · next hbom =>
    rw [if_neg hbom]
    cases hs : scanOnce H.tree n (skipWs t) with
    | error e =>
      rw [hs] at h
      cases h
    | ok p =>
      obtain ⟨d', r⟩ := p
      simp only [hs, bind, Except.bind] at h
      split at h
      · next hr =>
        cases h
        rw [scanOnce_build H hs]
        simp only [bind, Except.bind]
        cases hb : build H d with
        | error e => rfl
        | ok v => simp [Except.map, hr, pure, Except.pure]
      · cases h

/-- A text that is read is read as the value of its syntax tree. -/
theorem loads_eq_ok (H : Hooks ε α) {n : ℕ} {t : Str} {v : α} (h : loads H n t = .ok v) :
    ∃ d, loads H.tree n t = .ok d ∧ build H d = .ok v := by
  cases ht : loads H.tree n t with
  | ok d => exact ⟨d, rfl, by rw [← loads_build H ht, h]⟩
  | error e =>
    exfalso
    unfold loads at h ht
    split at h
    · cases h
    · next hbom =>
      rw [if_neg hbom] at ht
      cases hs : scanOnce H.tree n (skipWs t) with
      | error e' =>
        obtain ⟨e', he⟩ := (scanOnce_follows H n (skipWs t)).2 ⟨e', hs⟩
        rw [he] at h
        cases h
      | ok p =>
        obtain ⟨d, r⟩ := p
        rw [scanOnce_build H hs] at h
        simp only [hs, bind, Except.bind] at h ht
        split at ht
        · cases ht
        · next hr =>
          cases hb : build H d with
          | error e => simp [hb, Except.map] at h
          | ok v' => simp [hb, Except.map, hr] at h

/-! ### Depth and errors -/

theorem depthElems_le {ds : List Doc} {n : ℕ} : depthElems ds ≤ n ↔ ∀ d ∈ ds, depth d ≤ n := by
  induction ds with
  | nil => simp [depthElems]
  | cons d ds ih => simp [depthElems, ih]

theorem depthMembers_le {ms : List (Str × Doc)} {n : ℕ} : depthMembers ms ≤ n ↔ ∀ m ∈ ms, depth m.2 ≤ n := by
  induction ms with
  | nil => simp [depthMembers]
  | cons m ms ih => simp [depthMembers, ih]

/-- The errors among `E` that a reader can raise: its own two and those of its hooks. -/
structure Hooks.ErrorsIn (H : Hooks ε α) (E : ε → Prop) : Prop where
  syntaxError : E H.syntaxError
  recursionError : E H.recursionError
  parseInt : ∀ {l e}, H.parseInt l = .error e → E e
  parseFloat : ∀ {l e}, H.parseFloat l = .error e → E e
  parseConstant : ∀ {c e}, H.parseConstant c = .error e → E e
  objectPairs : ∀ {ps e}, H.objectPairs ps = .error e → E e

section Errors

variable {H : Hooks ε α} {E : ε → Prop} (hE : H.ErrorsIn E)
include hE

theorem number_raisesIn (l : NumLit) : RaisesIn E (H.number l) := by
  unfold Hooks.number
  split
  · exact fun _ => hE.parseInt
  · exact fun _ => hE.parseFloat

theorem scanScalar_raisesIn (t : Str) : RaisesIn E (scanScalar H t) := by
  have hc : ∀ c, RaisesIn E (H.parseConstant c) := fun c _ => hE.parseConstant
  unfold scanScalar
  repeat' split
  · exact raisesIn_error.2 hE.syntaxError
  · exact raisesIn_ok _
  · exact raisesIn_ok _
  · exact raisesIn_ok _
  · exact raisesIn_ok _
  · exact (hc _).map
  · exact (hc _).map
  · exact (hc _).map
  · exact (number_raisesIn hE _).map
  · exact raisesIn_error.2 hE.syntaxError

theorem scanElems_raisesIn {p : Str → Except ε (α × Str)} (hp : ∀ t, RaisesIn E (p t)) :
    ∀ k t, RaisesIn E (scanElems H p k t)
  | 0, _ => raisesIn_error.2 hE.syntaxError
  | k + 1, t => by
    refine (hp t).bind fun q _ => ?_
    dsimp only
    split
    · exact (scanElems_raisesIn hp k _).bind fun q _ => raisesIn_pure _
    split
    · exact raisesIn_pure _
    · exact raisesIn_error.2 hE.syntaxError

theorem scanMembers_raisesIn {p : Str → Except ε (α × Str)} (hp : ∀ t, RaisesIn E (p t)) :
    ∀ n t, RaisesIn E (scanMembers H p n t)
  | 0, _ => raisesIn_error.2 hE.syntaxError
  | n + 1, t => by
    unfold scanMembers
    split
    · exact raisesIn_error.2 hE.syntaxError
    dsimp only
    split
    · exact raisesIn_error.2 hE.syntaxError
    refine (hp _).bind fun q _ => ?_
    split
    · exact (scanMembers_raisesIn hp n _).bind fun q _ => raisesIn_pure _
    split
    · exact raisesIn_pure _
    · exact raisesIn_error.2 hE.syntaxError

theorem scanOnce_raisesIn : ∀ n t, RaisesIn E (scanOnce H n t)
  | 0, t => by
    unfold scanOnce
    split
    · exact raisesIn_error.2 hE.recursionError
    · exact scanScalar_raisesIn hE t
  | n + 1, t => by
    have ho : ∀ ps, RaisesIn E (H.objectPairs ps) := fun ps _ => hE.objectPairs
    unfold scanOnce
    split
    · unfold scanObject
      split
      · exact (ho _).bind fun v _ => raisesIn_pure _
      · refine (scanMembers_raisesIn hE (scanOnce_raisesIn n) _ _).bind fun q _ => ?_
        exact (ho _).bind fun v _ => raisesIn_pure _
    split
    · unfold scanArray
      split
      · exact raisesIn_pure _
      · exact (scanElems_raisesIn hE (scanOnce_raisesIn n) _ _).bind fun q _ => raisesIn_pure _
    · exact scanScalar_raisesIn hE t

/-- **A reader raises only its own two errors and those of its hooks.** -/
theorem loads_raisesIn (n : ℕ) (t : Str) : RaisesIn E (loads H n t) := by
  unfold loads
  split
  · exact raisesIn_error.2 hE.syntaxError
  refine (scanOnce_raisesIn hE n _).bind fun q _ => ?_
  dsimp only
  split
  · exact raisesIn_pure _
  · exact raisesIn_error.2 hE.syntaxError

end Errors

end SharedAi.Json
