import Mathlib.Data.List.Forall2

/-!
# Computations that raise

* `bind_eq_ok`, `check_eq_ok`, `map_eq_ok` — a sequence that returns, taken apart;
* `RaisesIn E x` — every exception that `x` raises is among `E`, with one rule for each way to build `x`;
* `Raises E x` — `x` raises one of the exceptions `E`, with what that says of each way to build `x`;
* `catching` — an `except` clause: the exceptions that `f` recognises are replaced, the others escape.
-/

namespace SharedAi.Control

variable {ε α β : Type}

theorem bind_eq_ok {x : Except ε α} {f : α → Except ε β} {b : β} :
    x >>= f = .ok b ↔ ∃ a, x = .ok a ∧ f a = .ok b := by
  cases x with
  | error e => simp [bind, Except.bind]
  | ok a => simp [bind, Except.bind]

theorem ok_bind (a : α) (f : α → Except ε β) : (Except.ok a >>= f) = f a := rfl

/-- A computation either returns or raises. -/
theorem not_error_of_ok {x : Except ε α} {a : α} {e : ε} (h : x = .ok a) : x ≠ .error e := by
  subst h
  exact nofun

/-- A check, and what follows it. -/
theorem check_eq_ok {x : Except ε Unit} {y : Unit → Except ε β} {b : β} :
    x >>= y = .ok b ↔ x = .ok () ∧ y () = .ok b := by
  cases x with
  | error e => simp [bind, Except.bind]
  | ok u => simp [bind, Except.bind]

theorem bind_eq_error {x : Except ε α} {f : α → Except ε β} {e : ε} :
    x >>= f = .error e ↔ x = .error e ∨ ∃ a, x = .ok a ∧ f a = .error e := by
  cases x with
  | error e' => simp [bind, Except.bind]
  | ok a => simp [bind, Except.bind]

theorem map_eq_ok {x : Except ε α} {f : α → β} {b : β} : x.map f = .ok b ↔ ∃ a, x = .ok a ∧ f a = b := by
  cases x <;> simp [Except.map]

theorem map_eq_error {x : Except ε α} {f : α → β} {e : ε} : x.map f = .error e ↔ x = .error e := by
  cases x <;> simp [Except.map]

/-- A test that passes a value on or raises. -/
theorem ite_eq_ok {p : Prop} [Decidable p] {a b : α} {e : ε} :
    (if p then (.ok a : Except ε α) else .error e) = .ok b ↔ p ∧ a = b := by
  split <;> simp [*]

/-- `if not p: raise e`. -/
def ensure (p : Prop) [Decidable p] (e : ε) : Except ε Unit := if p then .ok () else .error e

@[simp] theorem ensure_eq_ok {p : Prop} [Decidable p] {e : ε} : ensure p e = .ok () ↔ p := by
  unfold ensure
  split <;> simp [*]

theorem forM_eq_ok {f : α → Except ε Unit} {l : List α} : forM l f = .ok () ↔ ∀ a ∈ l, f a = .ok () := by
  induction l with
  | nil => simp [pure, Except.pure]
  | cons a l ih =>
    rw [List.forM_cons, check_eq_ok, ih]
    simp

/-- The first element that fails decides what a loop raises. -/
theorem forM_eq_error {f : α → Except ε Unit} {l : List α} {e : ε} : forM l f = .error e ↔
    ∃ before a after, l = before ++ a :: after ∧ (∀ b ∈ before, f b = .ok ()) ∧ f a = .error e := by
  induction l with
  | nil => simp [pure, Except.pure]
  | cons a l ih =>
    rw [List.forM_cons, bind_eq_error]
    constructor
    · rintro (h | ⟨_, ha, h⟩)
      · exact ⟨[], a, l, rfl, by simp, h⟩
      · obtain ⟨before, b, after, rfl, hbefore, hb⟩ := ih.1 h
        exact ⟨a :: before, b, after, rfl, List.forall_mem_cons.2 ⟨ha, hbefore⟩, hb⟩
    · rintro ⟨before, b, after, h, hbefore, hb⟩
      rcases before with - | ⟨c, before⟩
      · obtain ⟨rfl, rfl⟩ := List.cons.inj h
        exact .inl hb
      · obtain ⟨rfl, rfl⟩ := List.cons.inj h
        obtain ⟨hc, hbefore⟩ := List.forall_mem_cons.1 hbefore
        exact .inr ⟨(), hc, ih.2 ⟨before, b, after, rfl, hbefore, hb⟩⟩

/-- A comprehension returns the value of each element. -/
theorem mapM_eq_ok {f : α → Except ε β} {l : List α} {bs : List β} :
    l.mapM f = .ok bs ↔ List.Forall₂ (fun a b => f a = .ok b) l bs := by
  induction l generalizing bs with
  | nil => simp [pure, Except.pure, eq_comm]
  | cons a l ih =>
    simp only [List.mapM_cons, bind_eq_ok, ih, List.forall₂_cons_left_iff]
    constructor
    · rintro ⟨b, hb, bs', hbs, h⟩
      cases h
      exact ⟨b, bs', hb, hbs, rfl⟩
    · rintro ⟨b, bs', hb, hbs, rfl⟩
      exact ⟨b, hb, bs', hbs, rfl⟩

/-- Every exception that `x` raises is among `E`. -/
def RaisesIn (E : ε → Prop) (x : Except ε α) : Prop := ∀ e, x = .error e → E e

section RaisesIn

variable {E F : ε → Prop} {x : Except ε α}

@[simp] theorem raisesIn_ok (a : α) : RaisesIn E (.ok a : Except ε α) := by
  intro e h
  cases h

@[simp] theorem raisesIn_pure (a : α) : RaisesIn E (pure a : Except ε α) := raisesIn_ok a

@[simp] theorem raisesIn_error {e : ε} : RaisesIn E (.error e : Except ε α) ↔ E e := by
  constructor
  · intro h
    exact h e rfl
  · intro h e' he
    cases he
    exact h

theorem raisesIn_ensure {p : Prop} [Decidable p] {e : ε} (h : E e) : RaisesIn E (ensure p e) := by
  unfold ensure
  split
  · exact raisesIn_ok ()
  · exact raisesIn_error.2 h

theorem RaisesIn.bind {f : α → Except ε β} (hx : RaisesIn E x) (hf : ∀ a, x = .ok a → RaisesIn E (f a)) :
    RaisesIn E (x >>= f) := by
  intro e h
  rcases bind_eq_error.1 h with h | ⟨a, ha, h⟩
  · exact hx e h
  · exact hf a ha e h

theorem RaisesIn.map {f : α → β} (hx : RaisesIn E x) : RaisesIn E (x.map f) := by
  intro e h
  exact hx e (map_eq_error.1 h)

theorem raisesIn_forM {f : α → Except ε Unit} {l : List α} (h : ∀ a ∈ l, RaisesIn E (f a)) :
    RaisesIn E (forM l f) := by
  induction l with
  | nil => exact raisesIn_ok ()
  | cons a l ih =>
    rw [List.forM_cons]
    refine (h a (List.mem_cons_self ..)).bind fun _ _ => ?_
    exact ih fun b hb => h b (List.mem_cons_of_mem _ hb)

theorem raisesIn_mapM {f : α → Except ε β} {l : List α} (h : ∀ a ∈ l, RaisesIn E (f a)) :
    RaisesIn E (l.mapM f) := by
  induction l with
  | nil => exact raisesIn_ok []
  | cons a l ih =>
    rw [List.mapM_cons]
    refine (h a (List.mem_cons_self ..)).bind fun _ _ => ?_
    refine (ih fun b hb => h b (List.mem_cons_of_mem _ hb)).bind fun _ _ => ?_
    exact raisesIn_pure _

theorem RaisesIn.mono (hx : RaisesIn E x) (h : ∀ e, E e → F e) : RaisesIn F x := fun e he => h e (hx e he)

end RaisesIn

/-- `x` raises one of the exceptions `E`. -/
def Raises (E : ε → Prop) (x : Except ε α) : Prop := ∃ e, x = .error e ∧ E e

section Raises

variable {E F : ε → Prop} {x : Except ε α}

@[simp] theorem not_raises_ok (a : α) : ¬ Raises E (.ok a : Except ε α) := by
  rintro ⟨e, h, -⟩
  cases h

@[simp] theorem not_raises_pure (a : α) : ¬ Raises E (pure a : Except ε α) := not_raises_ok a

@[simp] theorem raises_error {e : ε} : Raises E (.error e : Except ε α) ↔ E e := by
  constructor
  · rintro ⟨e', h, he⟩
    cases h
    exact he
  · exact fun h => ⟨e, rfl, h⟩

theorem RaisesIn.not_raises (hx : RaisesIn F x) (h : ∀ e, F e → ¬ E e) : ¬ Raises E x := by
  rintro ⟨e, he, hE⟩
  exact h e (hx e he) hE

@[simp] theorem raises_ensure {p : Prop} [Decidable p] {e : ε} : Raises E (ensure p e) ↔ ¬ p ∧ E e := by
  unfold ensure
  split <;> simp [*]

theorem raises_bind {f : α → Except ε β} :
    Raises E (x >>= f) ↔ Raises E x ∨ ∃ a, x = .ok a ∧ Raises E (f a) := by
  constructor
  · rintro ⟨e, h, he⟩
    rcases bind_eq_error.1 h with h | ⟨a, ha, h⟩
    · exact .inl ⟨e, h, he⟩
    · exact .inr ⟨a, ha, e, h, he⟩
  · rintro (⟨e, h, he⟩ | ⟨a, ha, e, h, he⟩)
    · exact ⟨e, bind_eq_error.2 (.inl h), he⟩
    · exact ⟨e, bind_eq_error.2 (.inr ⟨a, ha, h⟩), he⟩

theorem raises_map {f : α → β} : Raises E (x.map f) ↔ Raises E x := by
  simp only [Raises, map_eq_error]

/-- The first element that fails decides what a comprehension raises. -/
theorem raises_mapM {f : α → Except ε β} {l : List α} : Raises E (l.mapM f) ↔
    ∃ before a after, l = before ++ a :: after ∧ (∀ b ∈ before, ∃ c, f b = .ok c) ∧ Raises E (f a) := by
  induction l with
  | nil => simp
  | cons a l ih =>
    rw [List.mapM_cons, raises_bind]
    simp only [raises_bind, ih, not_raises_pure, and_false, exists_false, or_false]
    constructor
    · rintro (h | ⟨b, hb, before, a', after, rfl, hbefore, h⟩)
      · exact ⟨[], a, l, rfl, by simp, h⟩
      · refine ⟨a :: before, a', after, rfl, ?_, h⟩
        intro c hc
        rcases List.mem_cons.1 hc with rfl | hc
        · exact ⟨b, hb⟩
        · exact hbefore c hc
    · rintro ⟨before, a', after, h, hbefore, ha⟩
      rcases before with - | ⟨b, before⟩
      · obtain ⟨rfl, rfl⟩ := List.cons.inj h
        exact .inl ha
      · obtain ⟨rfl, rfl⟩ := List.cons.inj h
        obtain ⟨c, hc⟩ := hbefore a (List.mem_cons_self ..)
        exact .inr ⟨c, hc, before, a', after, rfl, fun d hd => hbefore d (List.mem_cons_of_mem _ hd), ha⟩

end Raises

/-- `try: x except …: raise f(error)`, for the exceptions that `f` recognises. -/
def catching (f : ε → Option ε) : Except ε α → Except ε α
  | .ok a => .ok a
  | .error e => .error ((f e).getD e)

@[simp] theorem catching_eq_ok {f : ε → Option ε} {x : Except ε α} {a : α} : catching f x = .ok a ↔ x = .ok a := by
  cases x <;> simp [catching]

/-- An `except` clause that recognises every exception of `E` leaves those of `F` only. -/
theorem RaisesIn.catching {E F : ε → Prop} {x : Except ε α} {f : ε → Option ε} (hx : RaisesIn E x)
    (hf : ∀ e, E e → F ((f e).getD e)) : RaisesIn F (catching f x) := by
  cases x with
  | ok a => exact raisesIn_ok a
  | error e => exact raisesIn_error.2 (hf e (hx e rfl))

theorem catching_eq_error {f : ε → Option ε} {x : Except ε α} {e : ε} :
    catching f x = .error e ↔ ∃ e', x = .error e' ∧ (f e').getD e' = e := by
  cases x <;> simp [catching]

end SharedAi.Control
