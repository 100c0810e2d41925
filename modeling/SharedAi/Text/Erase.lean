import Mathlib.Data.List.Infix
import Mathlib.Data.List.DropRight

/-!
# Removing matches

`re.sub(pattern, "", text)`: the matches of a pattern are removed from left to right, and what is removed does not
overlap.

* `Pattern` — where a match ends, for a pattern that matches no empty text;
* `erase` — the text without the matches, and `Erases`, the same as a relation;
* `NoMatch` — there is nothing to remove;
* `Removes` — one of the matches that are removed, with what is kept before it and the text behind it.
-/

namespace SharedAi.Text

variable {α : Type*}

structure Pattern (α : Type*) where
  /-- What follows a match at the beginning of a text. -/
  rest : List α → Option (List α)
  rest_nil : rest [] = none
  /-- A match is not empty. -/
  suffix : ∀ {c s r}, rest (c :: s) = some r → r <:+ s

namespace Pattern

variable {p : Pattern α} {c : α} {s t r w : List α}

/-! ### Removal -/

/-- The text without the matches, when `k` characters of a match are still to go. -/
def eraseFrom (p : Pattern α) : ℕ → List α → List α
  | _, [] => []
  | k + 1, _ :: s => p.eraseFrom k s
  | 0, c :: s =>
    match p.rest (c :: s) with
    | none => c :: p.eraseFrom 0 s
    | some r => p.eraseFrom (s.length - r.length) s

/-- `re.sub(pattern, "", s)`. -/
def erase (p : Pattern α) (s : List α) : List α := p.eraseFrom 0 s

theorem eraseFrom_eq (p : Pattern α) (k : ℕ) (s : List α) : p.eraseFrom k s = p.erase (s.drop k) := by
  induction s generalizing k with
  | nil => simp [erase, eraseFrom]
  | cons c s ih =>
    rcases k with - | k
    · rfl
    · exact ih k

@[simp] theorem erase_nil (p : Pattern α) : p.erase [] = [] := rfl

theorem erase_of_none (h : p.rest (c :: s) = none) : p.erase (c :: s) = c :: p.erase s := by
  rw [erase, eraseFrom, h]
  rfl

theorem erase_of_rest (h : p.rest s = some r) : p.erase s = p.erase r := by
  rcases s with - | ⟨c, s⟩
  · rw [p.rest_nil] at h
    cases h
  · have hdrop : s.drop (s.length - r.length) = r := by
      obtain ⟨u, rfl⟩ := p.suffix h
      rw [List.length_append, Nat.add_sub_cancel, List.drop_left]
    rw [erase, eraseFrom, h]
    show p.eraseFrom (s.length - r.length) s = p.erase r
    rw [eraseFrom_eq, hdrop]

/-- `w` is `s` without the matches. -/
inductive Erases (p : Pattern α) : List α → List α → Prop
  | nil : Erases p [] []
  | keep {c : α} {s w : List α} : p.rest (c :: s) = none → Erases p s w → Erases p (c :: s) (c :: w)
  | drop {s r w : List α} : p.rest s = some r → Erases p r w → Erases p s w

theorem Erases.erase_eq (h : Erases p s w) : p.erase s = w := by
  induction h with
  | nil => rfl
  | keep hnone _ ih => rw [erase_of_none hnone, ih]
  | drop hrest _ ih => rw [erase_of_rest hrest, ih]

theorem length_rest (h : p.rest s = some r) : r.length < s.length := by
  rcases s with - | ⟨c, s⟩
  · rw [p.rest_nil] at h
    cases h
  · exact Nat.lt_succ_of_le (p.suffix h).length_le

theorem erases_erase (p : Pattern α) (s : List α) : Erases p s (p.erase s) := by
  induction hn : s.length using Nat.strong_induction_on generalizing s with
  | _ n ih =>
    rcases hs : p.rest s with - | r
    · rcases s with - | ⟨c, s⟩
      · exact .nil
      · rw [erase_of_none hs]
        exact .keep hs (ih s.length (by rw [← hn]; exact Nat.lt_succ_self _) s rfl)
    · rw [erase_of_rest hs]
      exact .drop hs (ih r.length (hn ▸ length_rest hs) r rfl)

theorem mem_of_mem_erase (h : c ∈ p.erase s) : c ∈ s := by
  have herases := p.erases_erase s
  generalize p.erase s = w at h herases
  induction herases with
  | nil => exact h
  | keep _ _ ih =>
    rcases List.mem_cons.1 h with rfl | h
    · exact List.mem_cons_self ..
    · exact List.mem_cons_of_mem _ (ih h)
  | @drop s r w hrest _ ih =>
    rcases s with - | ⟨d, s⟩
    · rw [p.rest_nil] at hrest
      cases hrest
    · exact List.mem_cons_of_mem _ ((p.suffix hrest).subset (ih h))

/-- A text in which no match begins, whatever follows it, is kept. -/
theorem erase_append (h : ∀ u, u ≠ [] → u <:+ s → p.rest (u ++ t) = none) : p.erase (s ++ t) = s ++ p.erase t := by
  induction s with
  | nil => rfl
  | cons c s ih =>
    have hnone : p.rest (c :: (s ++ t)) = none := h (c :: s) (List.cons_ne_nil _ _) List.suffix_rfl
    rw [List.cons_append, erase_of_none hnone, ih fun u hu hs => h u hu (hs.trans (List.suffix_cons c s)),
      List.cons_append]

theorem length_erase_le (p : Pattern α) (s : List α) : (p.erase s).length ≤ s.length := by
  have herases := p.erases_erase s
  generalize p.erase s = w at herases ⊢
  induction herases with
  | nil => exact le_rfl
  | keep _ _ ih => exact Nat.succ_le_succ ih
  | drop hrest _ ih => exact ih.trans (length_rest hrest).le

/-! ### Nothing to remove -/

/-- `re.search` finds nothing. -/
def NoMatch (p : Pattern α) (s : List α) : Prop := ∀ u, u <:+ s → p.rest u = none

theorem NoMatch.erase_eq (h : NoMatch p s) : p.erase s = s := by
  have herase := erase_append (p := p) (s := s) (t := []) fun u _ hu => by
    rw [List.append_nil]
    exact h u hu
  simpa using herase

theorem NoMatch.of_cons (h : NoMatch p (c :: s)) : NoMatch p s := fun u hu => h u (hu.trans (List.suffix_cons c s))

theorem NoMatch.append (ht : NoMatch p t) (h : ∀ u, u ≠ [] → u <:+ s → p.rest (u ++ t) = none) :
    NoMatch p (s ++ t) := by
  induction s with
  | nil => exact ht
  | cons c s ih =>
    intro u hu
    rcases List.suffix_cons_iff.1 hu with rfl | hu
    · exact h (c :: s) (List.cons_ne_nil _ _) List.suffix_rfl
    · exact ih (fun v hne hv => h v hne (hv.trans (List.suffix_cons c s))) u hu

/-- What the matches do not reach into stays behind. -/
theorem erase_append_right (h : ∀ u, u ≠ [] → u <:+ s → p.rest (u ++ t) = (p.rest u).map (· ++ t)) (ht : NoMatch p t) :
    p.erase (s ++ t) = p.erase s ++ t := by
  have herases := p.erases_erase s
  generalize p.erase s = w at herases ⊢
  induction herases with
  | nil => exact ht.erase_eq
  | @keep c s w hnone _ ih =>
    have hnone' : p.rest (c :: (s ++ t)) = none := by
      rw [← List.cons_append, h (c :: s) (List.cons_ne_nil _ _) List.suffix_rfl, hnone]
      rfl
    rw [List.cons_append, erase_of_none hnone', ih fun u hne hu => h u hne (hu.trans (List.suffix_cons c s)),
      List.cons_append]
  | @drop s r w hsome _ ih =>
    rcases s with - | ⟨c, s⟩
    · rw [p.rest_nil] at hsome
      cases hsome
    · have hsome' : p.rest (c :: s ++ t) = some (r ++ t) := by
        rw [h (c :: s) (List.cons_ne_nil _ _) List.suffix_rfl, hsome]
        rfl
      rw [erase_of_rest hsome', ih fun u hne hu => h u hne ((hu.trans (p.suffix hsome)).trans (List.suffix_cons c s))]

/-! ### One removal -/

/-- When the matches are removed from `s`, one of them has `b` kept before it and the text `t` behind it. -/
inductive Removes (p : Pattern α) : List α → List α → List α → Prop
  | here {s t : List α} : p.rest s = some t → Removes p s [] t
  | keep {c : α} {s b t : List α} : p.rest (c :: s) = none → Removes p s b t → Removes p (c :: s) (c :: b) t
  | drop {s r b t : List α} : p.rest s = some r → Removes p r b t → Removes p s b t

theorem Removes.erase_eq {b : List α} (h : Removes p s b t) : p.erase s = b ++ p.erase t := by
  induction h with
  | here hrest => exact erase_of_rest hrest
  | keep hnone _ ih => rw [erase_of_none hnone, ih, List.cons_append]
  | drop hrest _ ih => rw [erase_of_rest hrest, ih]

end Pattern

end SharedAi.Text
