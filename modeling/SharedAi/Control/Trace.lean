import Mathlib.Data.List.Induction

/-!
# Runs of a deterministic machine

* `run` — the state after a list of inputs, from its last input backwards (`run_concat`);
* `Happens` — an input that was taken in a state with a property, and where it was the last one (`happens_concat`);
* `run_induction` — a relation between inputs and states that every step preserves.
-/

namespace SharedAi.Control

variable {σ α : Type} (step : σ → α → σ) (init : σ)

def run (as : List α) : σ := as.foldl step init

/-- Among the inputs was one that `P` holds of, in the state in which it was taken. -/
def Happens (P : σ → α → Prop) (as : List α) : Prop := ∃ p a q, as = p ++ a :: q ∧ P (run step init p) a

section Trace

variable {step init}

theorem run_concat (as : List α) (a : α) : run step init (as ++ [a]) = step (run step init as) a := by
  simp [run]

theorem run_induction {I : List α → σ → Prop} (hinit : I [] init)
    (hstep : ∀ as a, I as (run step init as) → I (as ++ [a]) (step (run step init as) a)) (as : List α) :
    I as (run step init as) := by
  induction as using List.reverseRecOn with
  | nil => exact hinit
  | append_singleton as a ih =>
    rw [run_concat]
    exact hstep as a ih

variable {P : σ → α → Prop}

theorem not_happens_nil : ¬ Happens step init P [] := by
  rintro ⟨p, a, q, h, -⟩
  simp at h

theorem happens_concat {as : List α} {a : α} :
    Happens step init P (as ++ [a]) ↔ Happens step init P as ∨ P (run step init as) a := by
  constructor
  · rintro ⟨p, b, q, h, hb⟩
    rcases List.eq_nil_or_concat q with rfl | ⟨q, c, rfl⟩
    · obtain ⟨rfl, hab⟩ := List.append_inj' h rfl
      obtain rfl := List.head_eq_of_cons_eq hab
      exact .inr hb
    · have hsplit : as ++ [a] = (p ++ b :: q) ++ [c] := by simpa using h
      exact .inl ⟨p, b, q, (List.append_inj' hsplit rfl).1, hb⟩
  · rintro (⟨p, b, q, rfl, hb⟩ | ha)
    · exact ⟨p, b, q ++ [a], by simp, hb⟩
    · exact ⟨as, a, [], rfl, ha⟩

end Trace

end SharedAi.Control
