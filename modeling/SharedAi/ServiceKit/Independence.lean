import Mathlib.Data.Finset.Insert
import SharedAi.ServiceKit.Protocol

/-!
# Requests do not interfere

The network of `Protocol`, seen from one request among the others.

* `CanComeTo` — the results that a request in some phase may still have;
* `exists_finished` — a run in which one request gets any of them, and the others stay where they are;
* `answers_independent` — finitely many requests get any of theirs together, and no others.
-/

namespace SharedAi.ServiceKit

open Relation SharedAi.Control SharedAi.Json SharedAi.Net SharedAi.Num SharedAi.Python SharedAi.Text

/-- What a request in this phase may come to: its result, or an answer of its dependency alone. -/
def CanComeTo (crypto : Crypto) (a : Attempt) (result : Except Exn VerifiedCapabilityGrant) : Phase → Prop
  | .finished r => r = result
  | _ => ∃ client, (a.dependency.requireCapabilityGrant crypto (a.callbacks client) a.request []).1 = result

section Runs

variable {ι : Type} [DecidableEq ι] {crypto : Crypto} {attempts : ι → Attempt} {s t : State ι} {i : ι}
  {result : Except Exn VerifiedCapabilityGrant}

theorem finished_of_run (h : ReflTransGen (Step crypto attempts) s t) (hi : s.phase i = .finished result) :
    t.phase i = .finished result := by
  induction h with
  | refl => exact hi
  | tail _ hstep ih => exact hstep.finished ih

/-- A request has no result in a run that it could not have alone. -/
theorem canComeTo_of_run (hs : Reachable crypto attempts s) (h : ReflTransGen (Step crypto attempts) s t)
    (hi : t.phase i = .finished result) : CanComeTo crypto (attempts i) result (s.phase i) := by
  have ht : Reachable crypto attempts t := hs.trans h
  have halone := ht.invariant.answer hi
  cases hphase : s.phase i with
  | finished r =>
    rw [finished_of_run h hphase] at hi
    exact Phase.finished.inj hi
  | idle => exact halone
  | waiting grant redemption => exact halone

/-- A request that waits gets any response, or exception of its client. -/
theorem exists_resumed {grant : VerifiedCapabilityGrant} {redemption : CapabilityGrantRedemptionRequest}
    (waiting : s.phase i = .waiting grant redemption) (answer : Except Exn Response) :
    ∃ t, ReflTransGen (Step crypto attempts) s t ∧
      t.phase = (s.setPhase i (.finished (resume grant redemption answer))).phase := by
  cases answer with
  | error e => exact ⟨_, .single (.fail e waiting), rfl⟩
  | ok response =>
    have hreply : Step crypto attempts s _ := .reply response
    exact ⟨_, (ReflTransGen.single hreply).tail (.deliver waiting rfl), rfl⟩

/-- **A request gets any result that it may come to**, while the others stay where they are. -/
theorem exists_finished (hs : Invariant crypto attempts s)
    (h : CanComeTo crypto (attempts i) result (s.phase i)) :
    ∃ t, ReflTransGen (Step crypto attempts) s t ∧ t.phase = (s.setPhase i (.finished result)).phase := by
  cases hphase : s.phase i with
  | finished r =>
    rw [hphase] at h
    obtain rfl : r = result := h
    refine ⟨s, .refl, ?_⟩
    rw [← hphase]
    exact (Function.update_eq_self i s.phase).symm
  | waiting grant redemption =>
    rw [hphase] at h
    obtain ⟨client, rfl⟩ := h
    obtain ⟨post, hstart⟩ := hs.started hphase
    rw [requireCapabilityGrant_eq, hstart]
    exact exists_resumed hphase (client post)
  | idle =>
    rw [hphase] at h
    obtain ⟨client, rfl⟩ := h
    rw [requireCapabilityGrant_eq]
    cases hstart : (attempts i).start crypto with
    | error e => exact ⟨_, .single (.refuse hphase hstart), rfl⟩
    | ok started =>
      obtain ⟨grant, redemption, post⟩ := started
      have hpost : Step crypto attempts s _ := .post hphase hstart
      obtain ⟨t, hrun, ht⟩ := @exists_resumed ι _ crypto attempts
        { s.setPhase i (.waiting grant redemption) with posts := s.posts.send (i, post) } i grant redemption
        phase_setPhase_self (client post)
      refine ⟨t, (ReflTransGen.single hpost).trans hrun, ht.trans ?_⟩
      exact Function.update_idem ..

end Runs

/-- **Requests do not interfere.**  From every reachable state, a request comes to nothing that it could not come to
alone, and keeps its result; and finitely many requests come to whatever each of them may, in one run that leaves the
others where they are. -/
theorem answers_independent {ι : Type} [DecidableEq ι] (crypto : Crypto) (attempts : ι → Attempt) {s : State ι}
    (hs : Reachable crypto attempts s) :
    (∀ t, ReflTransGen (Step crypto attempts) s t → ∀ i result,
      (t.phase i = .finished result → CanComeTo crypto (attempts i) result (s.phase i)) ∧
        (s.phase i = .finished result → t.phase i = .finished result)) ∧
    ∀ (F : Finset ι) (results : ι → Except Exn VerifiedCapabilityGrant),
      (∀ i ∈ F, CanComeTo crypto (attempts i) (results i) (s.phase i)) →
      ∃ t, ReflTransGen (Step crypto attempts) s t ∧ (∀ i ∈ F, t.phase i = .finished (results i)) ∧
        ∀ i ∉ F, t.phase i = s.phase i := by
  refine ⟨fun t ht i result => ⟨canComeTo_of_run hs ht, finished_of_run ht⟩, fun F results => ?_⟩
  induction F using Finset.induction_on with
  | empty => exact fun _ => ⟨s, .refl, nofun, fun _ _ => rfl⟩
  | insert i F hi ih =>
    intro h
    obtain ⟨t, hrun, hdone, hothers⟩ := ih fun j hj => h j (Finset.mem_insert_of_mem hj)
    -- the run so far has not touched the request `i`
    have hnext : CanComeTo crypto (attempts i) (results i) (t.phase i) := by
      rw [hothers i hi]
      exact h i (Finset.mem_insert_self i F)
    have ht : Reachable crypto attempts t := hs.trans hrun
    obtain ⟨u, hrun', hu⟩ := exists_finished ht.invariant hnext
    refine ⟨u, hrun.trans hrun', ?_, ?_⟩
    · intro j hj
      rw [hu]
      by_cases hji : j = i
      · rw [hji, phase_setPhase_self]
      · rw [phase_setPhase_of_ne hji]
        exact hdone j (Finset.mem_of_mem_insert_of_ne hj hji)
    · intro j hj
      rw [Finset.mem_insert, not_or] at hj
      rw [hu, phase_setPhase_of_ne hj.1, hothers j hj.2]

/-- Receivers do not keep one grant from two requests; the authority has to. -/
theorem answers_independent_of_two : ∃ (s : State Bool) (grant : VerifiedCapabilityGrant),
    ReflTransGen (Step Sample.crypto fun _ => Sample.attempt) .init s ∧
      ∀ i ∈ ({true, false} : Finset Bool), s.phase i = .finished (.ok grant) := by
  obtain ⟨grant, hstart, -⟩ := Sample.start_attempt
  have halone : CanComeTo Sample.crypto Sample.attempt (.ok grant) .idle := by
    refine ⟨fun _ => .ok Sample.acknowledgement, ?_⟩
    rw [requireCapabilityGrant_eq, hstart]
    exact Sample.resume_acknowledgement grant
  obtain ⟨s, hrun, hdone, -⟩ := (answers_independent Sample.crypto (fun _ : Bool => Sample.attempt) .refl).2
    {true, false} (fun _ => .ok grant) fun _ _ => halone
  exact ⟨s, grant, hrun, hdone⟩

end SharedAi.ServiceKit
