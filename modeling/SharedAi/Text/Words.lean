import Mathlib.Data.List.Induction

/-!
# Words

The words of a text are the longest runs without a separator.

* `words`, `unwords` — the words of a text, and words with one separator between them;
* `words_append_cons`, `words_of_run` — words end at a separator, and nowhere else;
* `weight` — the length of words, each with a separator behind it; `weight_words_append` bounds it where two texts are
  joined, and a word may run across.
-/

namespace SharedAi.Text

variable {α : Type} (p : α → Bool)

/-- The words between the separators `p`. -/
def words (s : List α) : List (List α) := (s.splitOnP p).filter fun w => !w.isEmpty

/-- `sep.join(ws)`. -/
def unwords (sep : α) (ws : List (List α)) : List α := [sep].intercalate ws

/-- The length of words with a separator behind each. -/
def weight : List (List α) → ℕ
  | [] => 0
  | w :: ws => w.length + 1 + weight ws

section Words

variable {p} {c sep : α} {s t w : List α} {ws vs : List (List α)}

@[simp] theorem words_nil : words p [] = [] := rfl

theorem words_append_cons (hc : p c = true) (s t : List α) : words p (s ++ c :: t) = words p s ++ words p t := by
  unfold words
  rw [List.splitOnP_append_cons s t hc, List.filter_append]

/-- A run without separators is one word, if it is not empty. -/
theorem words_of_run (h : ∀ c ∈ w, p c = false) : words p w = if w.isEmpty then [] else [w] := by
  unfold words
  rw [List.splitOnP_eq_singleton h]
  cases w <;> rfl

theorem words_append_of_separators {x : List α} (hx : ∀ c ∈ x, p c = true) (t : List α) :
    words p (x ++ t) = words p t := by
  induction x with
  | nil => rfl
  | cons c x ih =>
    have hcons : words p (c :: (x ++ t)) = words p [] ++ words p (x ++ t) :=
      words_append_cons (hx c List.mem_cons_self) [] _
    rw [List.cons_append, hcons, ih fun d hd => hx d (List.mem_cons_of_mem _ hd), words_nil, List.nil_append]

/-- Between two texts, one separator does what many do. -/
theorem words_append_append {x : List α} (hne : x ≠ []) (hx : ∀ c ∈ x, p c = true) (s t : List α) :
    words p (s ++ (x ++ t)) = words p s ++ words p t := by
  obtain ⟨c, x, rfl⟩ := List.exists_cons_of_ne_nil hne
  rw [List.cons_append, words_append_cons (hx c List.mem_cons_self),
    words_append_of_separators fun d hd => hx d (List.mem_cons_of_mem _ hd)]

theorem words_append_separators {x : List α} (hx : ∀ c ∈ x, p c = true) (s : List α) :
    words p (s ++ x) = words p s := by
  by_cases hne : x = []
  · rw [hne, List.append_nil]
  · simpa using words_append_append hne hx s []

/-- Every text ends in a run, and what is joined to it changes no word before it. -/
theorem exists_last_run (s : List α) : ∃ b w, s = b ++ w ∧ (∀ c ∈ w, p c = false) ∧
    ∀ t, words p (b ++ t) = words p b ++ words p t := by
  induction s using List.reverseRecOn with
  | nil => exact ⟨[], [], rfl, nofun, fun t => rfl⟩
  | append_singleton s c ih =>
    cases hc : p c with
    | true =>
      refine ⟨s ++ [c], [], by simp, nofun, fun t => ?_⟩
      rw [List.append_assoc, List.singleton_append, words_append_cons hc, words_append_cons hc, words_nil,
        List.append_nil]
    | false =>
      obtain ⟨b, w, rfl, hw, hb⟩ := ih
      refine ⟨b, w ++ [c], by simp, ?_, hb⟩
      intro d hd
      rcases List.mem_append.1 hd with hd | hd
      · exact hw d hd
      · rwa [List.mem_singleton.1 hd]

/-- Every text begins with a run, and what it is joined to changes no word behind it. -/
theorem exists_first_run (t : List α) : ∃ w f, t = w ++ f ∧ (∀ c ∈ w, p c = false) ∧
    ∀ s, words p (s ++ f) = words p s ++ words p f := by
  induction t with
  | nil => exact ⟨[], [], rfl, nofun, fun s => by simp⟩
  | cons c t ih =>
    cases hc : p c with
    | true =>
      refine ⟨[], c :: t, rfl, nofun, fun s => ?_⟩
      have hcons : words p (c :: t) = words p [] ++ words p t := words_append_cons hc [] t
      rw [words_append_cons hc, hcons, words_nil, List.nil_append]
    | false =>
      obtain ⟨w, f, rfl, hw, hf⟩ := ih
      refine ⟨c :: w, f, rfl, ?_, hf⟩
      intro d hd
      rcases List.mem_cons.1 hd with rfl | hd
      · exact hc
      · exact hw d hd

/-! ### Weights -/

@[simp] theorem weight_append : weight (ws ++ vs) = weight ws + weight vs := by
  induction ws with
  | nil => simp [weight]
  | cons w ws ih =>
    rw [List.cons_append, weight, weight, ih]
    omega

theorem weight_words_of_run (h : ∀ c ∈ w, p c = false) :
    weight (words p w) = if w.length = 0 then 0 else w.length + 1 := by
  rw [words_of_run h]
  cases w <;> simp [weight]

/-- **Joined texts have the words of both, but for one that may run across.** -/
theorem weight_words_append (s t : List α) : weight (words p s) ≤ weight (words p (s ++ t)) ∧
    weight (words p t) ≤ weight (words p (s ++ t)) ∧
      weight (words p (s ++ t)) ≤ weight (words p s) + weight (words p t) := by
  obtain ⟨b, w, rfl, hw, hb⟩ := exists_last_run (p := p) s
  obtain ⟨v, f, rfl, hv, hf⟩ := exists_first_run (p := p) t
  have hrun : ∀ c ∈ w ++ v, p c = false := by
    intro c hc
    rcases List.mem_append.1 hc with hc | hc
    · exact hw c hc
    · exact hv c hc
  have hjoin : words p (b ++ w ++ (v ++ f)) = words p b ++ (words p (w ++ v) ++ words p f) := by
    rw [← hf, ← hb]
    simp
  rw [hjoin, hb, hf]
  simp only [weight_append, weight_words_of_run hw, weight_words_of_run hv, weight_words_of_run hrun,
    List.length_append]
  split_ifs <;> omega

theorem two_le_weight (h : words p s ≠ []) : 2 ≤ weight (words p s) := by
  obtain ⟨w, ws, hws⟩ := List.exists_cons_of_ne_nil h
  have hmem : w ∈ words p s := by
    rw [hws]
    exact List.mem_cons_self
  have hne : w ≠ [] := by simpa using (List.mem_filter.1 hmem).2
  have hpos := List.length_pos_iff.2 hne
  rw [hws]
  simp only [weight]
  omega

theorem weight_eq_zero : weight ws = 0 ↔ ws = [] := by
  cases ws <;> simp [weight]

/-- Only separators make no words. -/
theorem words_eq_nil : words p s = [] ↔ ∀ c ∈ s, p c = true := by
  constructor
  · intro h c hc
    by_contra hsep
    obtain ⟨x, y, rfl⟩ := List.append_of_mem hc
    have hback := (weight_words_append (p := p) x (c :: y)).2.1
    have hfront := (weight_words_append (p := p) [c] y).1
    have hone : weight (words p [c]) = 2 := by
      rw [weight_words_of_run (by simpa using hsep)]
      rfl
    have hnone : weight (words p (x ++ c :: y)) = 0 := by rw [h, weight_eq_zero]
    rw [hone] at hfront
    rw [hnone] at hback
    exact absurd (Nat.le_trans hfront hback) (by decide)
  · intro h
    have hall := words_append_of_separators h []
    rwa [List.append_nil] at hall

/-- Joined words have one separator less than words. -/
theorem length_unwords (sep : α) (ws : List (List α)) : (unwords sep ws).length = weight ws - 1 := by
  have hlength : ∀ w ws, (unwords sep (w :: ws)).length + 1 = weight (w :: ws) := by
    intro w ws
    induction ws generalizing w with
    | nil => simp [unwords, weight]
    | cons v ws ih =>
      have hcons : unwords sep (w :: v :: ws) = w ++ sep :: unwords sep (v :: ws) := by
        simp [unwords, List.intercalate]
      rw [hcons, List.length_append, List.length_cons, ih]
      simp only [weight]
      omega
  cases ws with
  | nil => rfl
  | cons w ws =>
    rw [← hlength w ws]
    rfl

end Words

end SharedAi.Text
