import Mathlib.Data.List.Forall2
import Mathlib.Data.List.Sort
import Mathlib.Data.List.Nodup

/-!
# Association lists

A dictionary is the list of its items in the order of insertion, and its keys are distinct.

* `sortByKey` — the items by key; two orders of the same items sort to the same list (`sortByKey_eq`);
* `groupByKey` — the values of each key, in the order of the pairs; it depends on the order of the pairs
  only as far as they share a key (`sortByKey_groupByKey`).
-/

namespace SharedAi.Data

variable {κ α β : Type}

/-! ### Related lists -/

section Related

variable {R : α → β → Prop} {as : List α} {bs : List β}

theorem forall₂_mem_left (h : List.Forall₂ R as bs) {a : α} (ha : a ∈ as) : ∃ b ∈ bs, R a b := by
  induction h with
  | nil => cases ha
  | cons h _ ih =>
    rcases List.mem_cons.1 ha with rfl | ha
    · exact ⟨_, List.mem_cons_self .., h⟩
    · obtain ⟨b, hb, h⟩ := ih ha
      exact ⟨b, List.mem_cons_of_mem _ hb, h⟩

theorem forall₂_mem_right (h : List.Forall₂ R as bs) {b : β} (hb : b ∈ bs) : ∃ a ∈ as, R a b :=
  forall₂_mem_left (R := fun b a => R a b) h.flip hb

theorem forall₂_imp_mem {S : α → β → Prop} (h : List.Forall₂ R as bs)
    (hS : ∀ a ∈ as, ∀ b ∈ bs, R a b → S a b) : List.Forall₂ S as bs := by
  induction h with
  | nil => exact .nil
  | cons h _ ih =>
    refine .cons (hS _ (List.mem_cons_self ..) _ (List.mem_cons_self ..) h) (ih fun a ha b hb => ?_)
    exact hS a (List.mem_cons_of_mem _ ha) b (List.mem_cons_of_mem _ hb)

/-- Lists related through a third one, element by element. -/
theorem forall₂_comp {γ : Type} {cs : List γ} {S : β → γ → Prop} {T : α → γ → Prop} (h : List.Forall₂ R as bs)
    (h' : List.Forall₂ S bs cs) (hT : ∀ a ∈ as, ∀ b ∈ bs, ∀ c ∈ cs, R a b → S b c → T a c) :
    List.Forall₂ T as cs := by
  induction h generalizing cs with
  | nil =>
    cases h'
    exact .nil
  | @cons a b as bs hab _ ih =>
    cases h' with
    | @cons _ c _ cs hbc h' =>
      refine .cons (hT a (List.mem_cons_self ..) b (List.mem_cons_self ..) c (List.mem_cons_self ..) hab hbc) ?_
      exact ih h' fun a ha b hb c hc =>
        hT a (List.mem_cons_of_mem _ ha) b (List.mem_cons_of_mem _ hb) c (List.mem_cons_of_mem _ hc)

theorem exists_forall₂ (h : ∀ a ∈ as, ∃ b, R a b) : ∃ bs, List.Forall₂ R as bs := by
  induction as with
  | nil => exact ⟨[], .nil⟩
  | cons a as ih =>
    obtain ⟨b, hb⟩ := h a (List.mem_cons_self ..)
    obtain ⟨bs, hbs⟩ := ih fun a' ha' => h a' (List.mem_cons_of_mem _ ha')
    exact ⟨b :: bs, .cons hb hbs⟩

end Related

/-! ### Items -/

def keys (ms : List (κ × α)) : List κ := ms.map Prod.fst

@[simp] theorem keys_nil : keys ([] : List (κ × α)) = [] := rfl

@[simp] theorem keys_cons (m : κ × α) (ms : List (κ × α)) : keys (m :: ms) = m.1 :: keys ms := rfl

theorem mem_keys {ms : List (κ × α)} {k : κ} : k ∈ keys ms ↔ ∃ a, (k, a) ∈ ms := by simp [keys]

theorem mem_keys_of_mem {ms : List (κ × α)} {m : κ × α} (h : m ∈ ms) : m.1 ∈ keys ms := mem_keys.2 ⟨m.2, h⟩

theorem keys_map (f : κ → α → β) (ms : List (κ × α)) : keys (ms.map fun m => (m.1, f m.1 m.2)) = keys ms := by
  simp [keys]

/-! ### Lookup -/

theorem mem_unique {ms : List (κ × α)} (h : (keys ms).Nodup) {k : κ} {a b : α} (ha : (k, a) ∈ ms)
    (hb : (k, b) ∈ ms) : a = b :=
  congrArg Prod.snd (List.inj_on_of_nodup_map h ha hb rfl)

theorem lookup_eq_some [DecidableEq κ] {ms : List (κ × α)} (h : (keys ms).Nodup) {k : κ} {a : α} :
    ms.lookup k = some a ↔ (k, a) ∈ ms := by
  induction ms with
  | nil => simp
  | cons m ms ih =>
    obtain ⟨k', b⟩ := m
    rw [keys_cons, List.nodup_cons] at h
    rw [List.lookup_cons, List.mem_cons, Prod.mk.injEq]
    by_cases hk : k = k'
    · subst hk
      have hn : (k, a) ∉ ms := fun hm => h.1 (mem_keys.2 ⟨a, hm⟩)
      simp [hn, eq_comm]
    · rw [beq_false_of_ne hk, ih h.2]
      simp [hk]

/-- Members that are related one by one are found alike. -/
theorem lookup_forall₂ [DecidableEq κ] {ms : List (κ × α)} {ns : List (κ × β)} {R : α → β → Prop}
    (h : List.Forall₂ (fun m n => m.1 = n.1 ∧ R m.2 n.2) ms ns) (k : κ) : Option.Rel R (ms.lookup k) (ns.lookup k) := by
  induction h with
  | nil => exact .none
  | @cons m n _ _ hmn _ ih =>
    obtain ⟨j, a⟩ := m
    obtain ⟨_, b⟩ := n
    obtain ⟨rfl, hab⟩ := hmn
    rw [List.lookup_cons, List.lookup_cons]
    cases k == j with
    | true => exact .some hab
    | false => exact ih

theorem lookup_eq_none [DecidableEq κ] {ms : List (κ × α)} {k : κ} : ms.lookup k = none ↔ k ∉ keys ms := by
  induction ms with
  | nil => simp
  | cons m ms ih =>
    rw [List.lookup_cons, keys_cons, List.mem_cons]
    by_cases hk : k = m.1
    · simp [hk]
    · simp [beq_false_of_ne hk, hk, ih]

/-- Two dictionaries of one size: if every item of the first has a counterpart in the second, then every
item of the second has one in the first. -/
theorem members_swap {ms : List (κ × α)} {ns : List (κ × β)} {R : α → β → Prop} (hm : (keys ms).Nodup)
    (hn : (keys ns).Nodup) (hl : ms.length = ns.length) (h : ∀ m ∈ ms, ∃ b, (m.1, b) ∈ ns ∧ R m.2 b) :
    ∀ n ∈ ns, ∃ a, (n.1, a) ∈ ms ∧ R a n.2 := by
  have hsub : keys ms ⊆ keys ns := by
    intro k hk
    obtain ⟨a, ha⟩ := mem_keys.1 hk
    obtain ⟨b, hb, -⟩ := h _ ha
    exact mem_keys.2 ⟨b, hb⟩
  have hperm : (keys ms).Perm (keys ns) :=
    (List.subperm_of_subset hm hsub).perm_of_length_le (by simp [keys, hl])
  rintro ⟨k, b⟩ hb
  obtain ⟨a, ha⟩ := mem_keys.1 (hperm.mem_iff.2 (mem_keys_of_mem hb))
  obtain ⟨b', hb', hr⟩ := h _ ha
  obtain rfl := mem_unique hn hb hb'
  exact ⟨a, ha, hr⟩

/-- Dictionaries with the same keys have the same size. -/
theorem length_eq_of_keys {ms : List (κ × α)} {ns : List (κ × β)} (hm : (keys ms).Nodup) (hn : (keys ns).Nodup)
    (h : ∀ k, k ∈ keys ms ↔ k ∈ keys ns) : ms.length = ns.length := by
  have hperm : (keys ms).Perm (keys ns) := (List.perm_ext_iff_of_nodup hm hn).2 h
  simpa [keys] using hperm.length_eq

/-! ### Sorting -/

section Sorting

variable [LinearOrder κ]

/-- `sorted(items)`, where no two items share a key. -/
def sortByKey (ms : List (κ × α)) : List (κ × α) := ms.insertionSort fun m n => m.1 ≤ n.1

theorem sortByKey_perm (ms : List (κ × α)) : (sortByKey ms).Perm ms := List.perm_insertionSort _ ms

@[simp] theorem mem_sortByKey {ms : List (κ × α)} {m : κ × α} : m ∈ sortByKey ms ↔ m ∈ ms :=
  (sortByKey_perm ms).mem_iff

theorem keys_sortByKey_perm (ms : List (κ × α)) : (keys (sortByKey ms)).Perm (keys ms) :=
  (sortByKey_perm ms).map _

theorem nodup_keys_sortByKey {ms : List (κ × α)} (h : (keys ms).Nodup) : (keys (sortByKey ms)).Nodup :=
  (keys_sortByKey_perm ms).nodup_iff.2 h

theorem pairwise_sortByKey (ms : List (κ × α)) : (sortByKey ms).Pairwise fun m n => m.1 ≤ n.1 := by
  have : Std.Total fun m n : κ × α => m.1 ≤ n.1 := ⟨fun m n => le_total m.1 n.1⟩
  have : IsTrans (κ × α) fun m n => m.1 ≤ n.1 := ⟨fun _ _ _ => le_trans⟩
  exact List.pairwise_insertionSort _ ms

/-- **Two orders of the same items sort to the same list.** -/
theorem sortByKey_eq {ms ns : List (κ × α)} (h : (keys ms).Nodup) (hp : ms.Perm ns) :
    sortByKey ms = sortByKey ns := by
  have hperm : (sortByKey ms).Perm (sortByKey ns) := (sortByKey_perm ms).trans (hp.trans (sortByKey_perm ns).symm)
  refine hperm.eq_of_pairwise ?_ (pairwise_sortByKey ms) (pairwise_sortByKey ns)
  rintro ⟨k, a⟩ ⟨k', b⟩ ha hb hab hba
  obtain rfl : k = k' := le_antisymm hab hba
  have hb' : (k, b) ∈ ms := hp.mem_iff.2 (mem_sortByKey.1 hb)
  rw [mem_unique h (mem_sortByKey.1 ha) hb']

theorem sortByKey_of_pairwise {ms : List (κ × α)} (h : ms.Pairwise fun m n => m.1 ≤ n.1) : sortByKey ms = ms :=
  List.Pairwise.insertionSort_eq h

@[simp] theorem sortByKey_idem (ms : List (κ × α)) : sortByKey (sortByKey ms) = sortByKey ms :=
  sortByKey_of_pairwise (pairwise_sortByKey ms)

theorem perm_of_sortByKey_eq {ms ns : List (κ × α)} (h : sortByKey ms = sortByKey ns) : ms.Perm ns :=
  (sortByKey_perm ms).symm.trans (h ▸ sortByKey_perm ns)

end Sorting

/-! ### Building -/

section Building

variable [DecidableEq κ]

/-- `d[k] = a`. -/
def setItem (k : κ) (a : α) : List (κ × α) → List (κ × α)
  | [] => [(k, a)]
  | (k', b) :: ms => if k' = k then (k', a) :: ms else (k', b) :: setItem k a ms

/-- `{k: a for k, a in items}`: a later item replaces the value of an earlier one. -/
def fromItems (ps : List (κ × α)) : List (κ × α) := ps.foldl (fun ms p => setItem p.1 p.2 ms) []

theorem setItem_of_not_mem {k : κ} {a : α} {ms : List (κ × α)} (h : k ∉ keys ms) :
    setItem k a ms = ms ++ [(k, a)] := by
  induction ms with
  | nil => rfl
  | cons m ms ih =>
    rw [keys_cons, List.mem_cons, not_or] at h
    rw [setItem, if_neg (Ne.symm h.1), ih h.2]
    rfl

theorem foldl_setItem (ps ms : List (κ × α)) (h : (keys (ms ++ ps)).Nodup) :
    ps.foldl (fun ms p => setItem p.1 p.2 ms) ms = ms ++ ps := by
  induction ps generalizing ms with
  | nil => simp
  | cons p ps ih =>
    have hp : p.1 ∉ keys ms := by
      intro hp
      simp only [keys, List.map_append, List.map_cons, List.nodup_append] at h
      exact h.2.2 _ hp _ (List.mem_cons_self ..) rfl
    rw [List.foldl_cons, setItem_of_not_mem hp, ih _ (by simpa using h)]
    simp

/-- Items with distinct keys are the dictionary they build. -/
theorem fromItems_eq {ps : List (κ × α)} (h : (keys ps).Nodup) : fromItems ps = ps := foldl_setItem ps [] h

end Building

/-! ### Grouping -/

section Grouping

variable [DecidableEq κ]

/-- `grouped[k].append(a)` on a `defaultdict(list)`. -/
def append (k : κ) (a : α) : List (κ × List α) → List (κ × List α)
  | [] => [(k, [a])]
  | (k', as) :: gs => if k' = k then (k', as ++ [a]) :: gs else (k', as) :: append k a gs

def groupFrom (gs : List (κ × List α)) (ps : List (κ × α)) : List (κ × List α) :=
  ps.foldl (fun gs p => append p.1 p.2 gs) gs

def groupByKey (ps : List (κ × α)) : List (κ × List α) := groupFrom [] ps

def valuesOf (ps : List (κ × α)) (k : κ) : List α := (ps.filter fun p => p.1 = k).map Prod.snd

theorem valuesOf_eq_nil {ps : List (κ × α)} {k : κ} (h : k ∉ keys ps) : valuesOf ps k = [] := by
  simp only [valuesOf, List.map_eq_nil_iff, List.filter_eq_nil_iff, decide_eq_true_eq]
  rintro p hp rfl
  exact h (mem_keys_of_mem hp)

theorem mem_keys_append {k : κ} {a : α} {gs : List (κ × List α)} {j : κ} :
    j ∈ keys (append k a gs) ↔ j = k ∨ j ∈ keys gs := by
  induction gs with
  | nil => simp [append]
  | cons g gs ih =>
    obtain ⟨k', as⟩ := g
    by_cases hk : k' = k
    · subst hk
      simp [append]
    · simp only [append, hk, if_false, keys_cons, List.mem_cons, ih]
      tauto

theorem nodup_keys_append {k : κ} {a : α} {gs : List (κ × List α)} (h : (keys gs).Nodup) :
    (keys (append k a gs)).Nodup := by
  induction gs with
  | nil => simp [append]
  | cons g gs ih =>
    obtain ⟨k', as⟩ := g
    rw [keys_cons, List.nodup_cons] at h
    by_cases hk : k' = k
    · simpa [append, hk] using ⟨hk ▸ h.1, h.2⟩
    · simp only [append, hk, if_false, keys_cons, List.nodup_cons, mem_keys_append, false_or]
      exact ⟨h.1, ih h.2⟩

theorem lookup_append {k : κ} {a : α} {gs : List (κ × List α)} (j : κ) :
    ((append k a gs).lookup j).getD [] = (gs.lookup j).getD [] ++ if k = j then [a] else [] := by
  induction gs with
  | nil =>
    by_cases hj : k = j
    · subst hj; simp [append]
    · simp [append, List.lookup_cons, beq_false_of_ne (Ne.symm hj), hj]
  | cons g gs ih =>
    obtain ⟨k', as⟩ := g
    by_cases hk : k' = k
    · subst hk
      by_cases hj : k' = j
      · subst hj; simp [append]
      · simp [append, List.lookup_cons, beq_false_of_ne (Ne.symm hj), hj]
    · by_cases hj : j = k'
      · subst hj
        simp [append, hk, Ne.symm hk]
      · simp [append, hk, List.lookup_cons, beq_false_of_ne hj, ih]

theorem nodup_keys_groupFrom (ps : List (κ × α)) : ∀ gs : List (κ × List α), (keys gs).Nodup →
    (keys (groupFrom gs ps)).Nodup := by
  induction ps with
  | nil => exact fun _ h => h
  | cons p ps ih => exact fun _ h => ih _ (nodup_keys_append h)

theorem nodup_keys_groupByKey (ps : List (κ × α)) : (keys (groupByKey ps)).Nodup :=
  nodup_keys_groupFrom ps [] List.nodup_nil

theorem mem_keys_groupFrom (ps : List (κ × α)) : ∀ (gs : List (κ × List α)) (j : κ),
    j ∈ keys (groupFrom gs ps) ↔ j ∈ keys gs ∨ j ∈ keys ps := by
  induction ps with
  | nil => simp [groupFrom]
  | cons p ps ih =>
    intro gs j
    have := ih (append p.1 p.2 gs) j
    rw [mem_keys_append] at this
    simp only [groupFrom, List.foldl_cons, keys_cons, List.mem_cons] at this ⊢
    rw [this]
    tauto

theorem mem_keys_groupByKey {ps : List (κ × α)} {j : κ} : j ∈ keys (groupByKey ps) ↔ j ∈ keys ps := by
  simpa [groupByKey] using mem_keys_groupFrom ps [] j

theorem lookup_groupFrom (ps : List (κ × α)) : ∀ (gs : List (κ × List α)) (j : κ),
    ((groupFrom gs ps).lookup j).getD [] = (gs.lookup j).getD [] ++ valuesOf ps j := by
  induction ps with
  | nil => simp [groupFrom, valuesOf]
  | cons p ps ih =>
    intro gs j
    have := ih (append p.1 p.2 gs) j
    rw [lookup_append] at this
    by_cases hj : p.1 = j
    · simpa [groupFrom, valuesOf, List.filter_cons, hj] using this
    · simpa [groupFrom, valuesOf, List.filter_cons, hj] using this

/-- A group holds the values of its key. -/
theorem mem_groupByKey {ps : List (κ × α)} {k : κ} {as : List α} :
    (k, as) ∈ groupByKey ps ↔ k ∈ keys ps ∧ as = valuesOf ps k := by
  have hn := nodup_keys_groupByKey ps
  have hl : ((groupByKey ps).lookup k).getD [] = valuesOf ps k := by
    simpa [groupByKey] using lookup_groupFrom ps [] k
  constructor
  · intro h
    rw [(lookup_eq_some hn).2 h] at hl
    exact ⟨mem_keys_groupByKey.1 (mem_keys_of_mem h), hl⟩
  · rintro ⟨hk, rfl⟩
    obtain ⟨as, hm⟩ := mem_keys.1 (mem_keys_groupByKey.2 hk)
    rw [(lookup_eq_some hn).2 hm] at hl
    exact hl ▸ hm

/-- **The groups depend on the order of the pairs only as far as they share a key.** -/
theorem groupByKey_perm {ps qs : List (κ × α)} (h : ∀ k, valuesOf ps k = valuesOf qs k) :
    (groupByKey ps).Perm (groupByKey qs) := by
  have hk : ∀ k, k ∈ keys ps ↔ k ∈ keys qs := by
    have key : ∀ rs : List (κ × α), ∀ k, k ∈ keys rs ↔ valuesOf rs k ≠ [] := by
      intro rs k
      simp [valuesOf, mem_keys, List.filter_eq_nil_iff]
    intro k
    rw [key, key, h]
  apply (List.perm_ext_iff_of_nodup (nodup_keys_groupByKey ps).of_map (nodup_keys_groupByKey qs).of_map).2
  rintro ⟨k, as⟩
  rw [mem_groupByKey, mem_groupByKey, hk, h]

end Grouping

end SharedAi.Data
