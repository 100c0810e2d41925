import Mathlib.Algebra.Order.Monoid.Defs
import Mathlib.Algebra.Order.Monoid.Unbundled.Basic
import Mathlib.Algebra.Group.Defs
import Mathlib.Data.List.Chain
import Mathlib.Data.List.TakeWhile

/-!
# Terms that are renewed

A term of a fixed length begins at an instant `t`, and each of the renewals `us` begins a new one.

* `OnTime` — each renewal comes at most `h` after the one before it;
* `Unbroken` — each renewal comes before the term of the one before it has ended;
* `forall_unbroken_iff` — renewals on time keep a term of length `d` unbroken exactly if `h < d`;
* `Unbroken.exists_term` — unbroken terms leave no gap;
* `lt_lastUpTo_add_iff` — for renewals in order, the latest term lasts whenever any of them does.

Instants need not increase: a renewal that comes before the last one is on time.
-/

namespace SharedAi.Time

variable {K : Type*} [AddCommGroup K] [LinearOrder K] [IsOrderedAddMonoid K] {h d t u x : K} {us : List K}

/-- Each of the instants comes at most `h` after the one before it, and the first one at most `h` after `t`. -/
def OnTime (h t : K) (us : List K) : Prop := List.IsChain (fun s u => u ≤ s + h) (t :: us)

/-- Each of the instants comes before the end of the term of length `d` that the one before it begins. -/
def Unbroken (d t : K) (us : List K) : Prop := List.IsChain (fun s u => u < s + d) (t :: us)

section Steps

omit [IsOrderedAddMonoid K]

@[simp] theorem onTime_nil : OnTime h t [] := List.isChain_singleton t

@[simp] theorem onTime_cons : OnTime h t (u :: us) ↔ u ≤ t + h ∧ OnTime h u us := List.isChain_cons_cons

@[simp] theorem unbroken_nil : Unbroken d t [] := List.isChain_singleton t

@[simp] theorem unbroken_cons : Unbroken d t (u :: us) ↔ u < t + d ∧ Unbroken d u us := List.isChain_cons_cons

/-- **Unbroken terms leave no gap**: until the last one ends, every instant lies in the term that some renewal began. -/
theorem Unbroken.exists_term (hus : Unbroken d t us) (ht : t ≤ x) (hx : x < us.getLastD t + d) :
    ∃ vs, vs <+: us ∧ vs.getLastD t ≤ x ∧ x < vs.getLastD t + d := by
  induction us generalizing t with
  | nil => exact ⟨[], List.prefix_rfl, ht, hx⟩
  | cons u us ih =>
    obtain ⟨hu, hus⟩ := unbroken_cons.1 hus
    by_cases hterm : x < t + d
    · exact ⟨[], List.nil_prefix, ht, hterm⟩
    · -- the first term is over, so that the renewal has come
      have hux : u ≤ x := hu.le.trans (not_lt.1 hterm)
      rw [List.getLastD_cons] at hx
      obtain ⟨vs, hvs, hle, hlt⟩ := ih hus hux hx
      refine ⟨u :: vs, List.cons_prefix_cons.2 ⟨rfl, hvs⟩, ?_, ?_⟩
      · rwa [List.getLastD_cons]
      · rwa [List.getLastD_cons]

end Steps

/-- The last of the instants up to `x`, or `t`. -/
def lastUpTo (t x : K) (us : List K) : K := (us.takeWhile (· ≤ x)).getLastD t

omit [AddCommGroup K] [IsOrderedAddMonoid K] in
theorem lastUpTo_le (ht : t ≤ x) : lastUpTo t x us ≤ x := by
  unfold lastUpTo
  rcases List.eq_nil_or_concat (us.takeWhile (· ≤ x)) with h | ⟨vs, v, h⟩
  · simpa [h] using ht
  · have hv : v ∈ us.takeWhile (· ≤ x) := by simp [h]
    simpa [h] using List.mem_takeWhile_imp hv

/-- **Of renewals in order, the latest begins the term that lasts longest.** -/
theorem lt_lastUpTo_add_iff (hsorted : (t :: us).Pairwise (· ≤ ·)) (ht : t ≤ x) :
    x < lastUpTo t x us + d ↔ ∃ u ∈ t :: us, u ≤ x ∧ x < u + d := by
  unfold lastUpTo
  induction us generalizing t with
  | nil => simp [ht]
  | cons u us ih =>
    obtain ⟨hle, hus⟩ := List.pairwise_cons.1 hsorted
    by_cases hu : u ≤ x
    · rw [List.takeWhile_cons_of_pos (by simpa using hu), List.getLastD_cons, ih hus hu]
      constructor
      · rintro ⟨v, hv, hterm⟩
        exact ⟨v, List.mem_cons_of_mem t hv, hterm⟩
      · rintro ⟨v, hv, hvx, hterm⟩
        rcases List.mem_cons.1 hv with rfl | hv
        · exact ⟨u, List.mem_cons_self .., hu, hterm.trans_le (add_le_add_left (hle u (List.mem_cons_self ..)) d)⟩
        · exact ⟨v, hv, hvx, hterm⟩
    · -- neither this renewal nor a later one has come
      rw [List.takeWhile_cons_of_neg (by simpa using hu), List.getLastD_nil]
      constructor
      · exact fun h => ⟨t, List.mem_cons_self .., ht, h⟩
      · rintro ⟨v, hv, hvx, hterm⟩
        rcases List.mem_cons.1 hv with rfl | hv
        · exact hterm
        · rcases List.mem_cons.1 hv with rfl | hv
          · exact absurd hvx hu
          · exact absurd ((List.rel_of_pairwise_cons hus hv).trans hvx) hu

theorem OnTime.unbroken (hus : OnTime h t us) (hd : h < d) : Unbroken d t us :=
  List.IsChain.imp (fun s _ hu => hu.trans_lt (add_lt_add_right hd s)) hus

/-- **Renewals on time keep a term unbroken exactly if they are more frequent than it is long.** -/
theorem forall_unbroken_iff : (∀ us, OnTime h t us → Unbroken d t us) ↔ h < d := by
  constructor
  · intro hall
    -- a single renewal, as late as it may be
    have hone := hall [t + h] (onTime_cons.2 ⟨le_rfl, onTime_nil⟩)
    exact (add_lt_add_iff_left t).1 (unbroken_cons.1 hone).1
  · exact fun hd us hus => hus.unbroken hd

end SharedAi.Time
