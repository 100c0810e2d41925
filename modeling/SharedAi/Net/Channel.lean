import Mathlib.Data.Multiset.Count

/-!
# A channel that loses and reorders

* `Channel` — what was sent, what is on its way, and what was received and by whom;
* `Channel.Conserved` — nothing is received more often than it was sent, preserved by every step of a channel;
* `Channel.Conserved.mem_sent` — what is received was sent;
* `Channel.Conserved.receiver_unique` — what is sent at most once is received by one receiver.

The messages on their way are a multiset: any of them can be the next to arrive, at any receiver, or be lost.
-/

namespace SharedAi.Net

structure Channel (ι μ : Type) where
  sent : List μ
  inFlight : Multiset μ
  received : List (ι × μ)

namespace Channel

variable {ι μ : Type} {c : Channel ι μ} {m : μ} {rest : Multiset μ}

def empty : Channel ι μ := ⟨[], 0, []⟩

def send (c : Channel ι μ) (m : μ) : Channel ι μ := ⟨m :: c.sent, m ::ₘ c.inFlight, c.received⟩

/-- A message is lost, and `rest` stays on its way. -/
def lose (c : Channel ι μ) (rest : Multiset μ) : Channel ι μ := ⟨c.sent, rest, c.received⟩

/-- The message `m` arrives at `i`, and `rest` stays on its way. -/
def receive (c : Channel ι μ) (i : ι) (m : μ) (rest : Multiset μ) : Channel ι μ := ⟨c.sent, rest, (i, m) :: c.received⟩

/-- Of every kind of message, no more are on their way or received than were sent. -/
def Conserved (c : Channel ι μ) : Prop :=
  ∀ p : μ → Bool, c.inFlight.countP (fun m => p m) + c.received.countP (fun r => p r.2) ≤ c.sent.countP p

theorem conserved_empty : (empty : Channel ι μ).Conserved := fun _ => le_rfl

theorem Conserved.send (hc : c.Conserved) : (c.send m).Conserved := by
  intro p
  have hp := hc p
  simp only [Channel.send, Multiset.countP_cons, List.countP_cons]
  omega

theorem Conserved.lose (hc : c.Conserved) (h : c.inFlight = m ::ₘ rest) : (c.lose rest).Conserved := by
  intro p
  have hp := hc p
  rw [h, Multiset.countP_cons] at hp
  simp only [Channel.lose]
  omega

theorem Conserved.receive {i : ι} (hc : c.Conserved) (h : c.inFlight = m ::ₘ rest) :
    (c.receive i m rest).Conserved := by
  intro p
  have hp := hc p
  rw [h, Multiset.countP_cons] at hp
  simp only [Channel.receive, List.countP_cons]
  omega

/-- What is received was sent. -/
theorem Conserved.mem_sent (hc : c.Conserved) {r : ι × μ} (h : r ∈ c.received) : r.2 ∈ c.sent := by
  classical
  have hpos : 0 < c.received.countP fun q => decide (q.2 = r.2) := List.countP_pos_iff.2 ⟨r, h, by simp⟩
  have hsent := List.countP_pos_iff.1 ((hpos.trans_le (Nat.le_add_left _ _)).trans_le (hc fun m => decide (m = r.2)))
  obtain ⟨m, hm, heq⟩ := hsent
  exact of_decide_eq_true heq ▸ hm

theorem eq_of_countP_le_one {α : Type} {p : α → Bool} {l : List α} (h : l.countP p ≤ 1) {a b : α} (ha : a ∈ l)
    (hb : b ∈ l) (pa : p a = true) (pb : p b = true) : a = b := by
  have ha := List.mem_filter.2 ⟨ha, pa⟩
  have hb := List.mem_filter.2 ⟨hb, pb⟩
  rw [List.countP_eq_length_filter] at h
  rcases hl : l.filter p with _ | ⟨x, _ | ⟨y, t⟩⟩
  · rw [hl] at ha
    cases ha
  · rw [hl] at ha hb
    exact (List.mem_singleton.1 ha).trans (List.mem_singleton.1 hb).symm
  · rw [hl] at h
    simp only [List.length_cons] at h
    omega

/-- A kind of message that is sent at most once is received at most once. -/
theorem Conserved.receiver_unique (hc : c.Conserved) {p : μ → Bool} (h : c.sent.countP p ≤ 1) {a b : ι × μ}
    (ha : a ∈ c.received) (hb : b ∈ c.received) (pa : p a.2 = true) (pb : p b.2 = true) : a = b := by
  have hle : c.received.countP (fun r => p r.2) ≤ 1 := (Nat.le_add_left _ _).trans ((hc p).trans h)
  exact eq_of_countP_le_one hle ha hb pa pb

end Channel

end SharedAi.Net
