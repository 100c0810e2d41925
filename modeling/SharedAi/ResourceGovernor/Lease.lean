import SharedAi.Text.Str
import SharedAi.Time.Renewal
import Mathlib.Algebra.Order.Ring.Rat
import Mathlib.Data.Rat.Cast.Order
import Mathlib.Tactic.NormNum

/-!
# Leases and their heartbeats

* `LeaseRecord.fromRequest`, `LeaseRecord.heartbeat` — a lease as the governor records and renews it;
* `Running` — what a lease keeps through its heartbeats (`Running.heartbeat`, `Running.after`);
* `OnSchedule`, `NeverLost` — a client that heartbeats in the interval it was given, and one that is never late;
* `Running.exists_live` — a lease that is never lost is held without a gap;
* `neverLost_iff` — every client on schedule keeps its lease exactly if the interval is shorter than the TTL.

Times are exact numbers of seconds. The clock and the fresh identifier are arguments.
-/

namespace SharedAi.ResourceGovernor

open SharedAi.Text SharedAi.Time

/-! ### Schemas -/

def defaultHeartbeatIntervalSeconds : ℤ := 10

def defaultLeaseTtlSeconds : ℤ := 60

inductive LeaseDecisionKind
  | granted
  | grantedWithLimits
  | runCpuOnly
  | skipOptional
  | defer
  | deny
  | queueBackground
  deriving DecidableEq

structure LeaseRequest where
  requestedTtlSeconds : Option ℤ

structure LeaseDecision where
  decision : LeaseDecisionKind
  leaseId : Option Str
  ttlSeconds : Option ℤ
  heartbeatIntervalSeconds : Option ℤ

def LeaseDecision.granted (d : LeaseDecision) : Bool :=
  d.decision = .granted || d.decision = .grantedWithLimits || d.decision = .runCpuOnly

structure LeaseRecord where
  leaseId : Str
  request : LeaseRequest
  decision : LeaseDecision
  createdAt : ℚ
  updatedAt : ℚ
  expiresAt : ℚ
  releasedAt : Option ℚ

/-- `a or b`, where what is absent or `empty` is false. -/
def orElse {α : Type} [DecidableEq α] (empty : α) : Option α → α → α
  | some a, b => if a = empty then b else a
  | none, b => b

/-- `LeaseRecord.from_request`, at `now` and with `uuid` for the hexadecimal digits of `uuid4`. -/
def LeaseRecord.fromRequest (now : ℚ) (uuid : Str) (request : LeaseRequest) (decision : LeaseDecision) :
    LeaseRecord :=
  let leaseId := orElse [] decision.leaseId (str "lease_" ++ uuid)
  let ttl := orElse 0 decision.ttlSeconds (orElse 0 request.requestedTtlSeconds defaultLeaseTtlSeconds)
  let normalizedDecision := { decision with
    leaseId := some leaseId
    ttlSeconds := some ttl
    heartbeatIntervalSeconds :=
      some (orElse 0 decision.heartbeatIntervalSeconds (min defaultHeartbeatIntervalSeconds (max 1 (ttl / 3)))) }
  { leaseId := leaseId
    request := request
    decision := normalizedDecision
    createdAt := now
    updatedAt := now
    expiresAt := now + ttl
    releasedAt := none }

def LeaseRecord.heartbeat (r : LeaseRecord) (now : ℚ) : LeaseRecord :=
  let ttl := orElse 0 r.decision.ttlSeconds defaultLeaseTtlSeconds
  { r with updatedAt := now, expiresAt := now + ttl }

def LeaseRecord.after (r : LeaseRecord) (times : List ℚ) : LeaseRecord := times.foldl LeaseRecord.heartbeat r

/-! ### Clients on schedule -/

/-- Each heartbeat comes at most the interval of the record after the call before it, the first one after `last`. -/
def OnSchedule : LeaseRecord → ℚ → List ℚ → Prop
  | _, _, [] => True
  | r, last, now :: times =>
    (∃ interval ∈ r.decision.heartbeatIntervalSeconds, now ≤ last + interval) ∧
      OnSchedule (r.heartbeat now) now times

/-- The record expires its TTL after it was updated. -/
def Timed (r : LeaseRecord) : Prop := ∃ ttl ∈ r.decision.ttlSeconds, r.expiresAt - r.updatedAt = ttl

/-- At `x` the record has been updated and is not expired. -/
def Live (r : LeaseRecord) (x : ℚ) : Prop := r.updatedAt ≤ x ∧ x < r.expiresAt

/-- Every heartbeat comes before the record expires, and every record on the way is timed. -/
def NeverLost : LeaseRecord → List ℚ → Prop
  | r, [] => Timed r
  | r, now :: times => Timed r ∧ now < r.expiresAt ∧ NeverLost (r.heartbeat now) times

def AbsentOrPositive (n : Option ℤ) : Prop := ∀ k ∈ n, 0 < k

instance (n : Option ℤ) : Decidable (AbsentOrPositive n) := inferInstanceAs (Decidable (∀ k ∈ n, 0 < k))

/-- The TTL that a lease is given: by the decision, or else by the request, or else by default. -/
def givenTtl (request : LeaseRequest) (decision : LeaseDecision) : ℤ :=
  (decision.ttlSeconds.or request.requestedTtlSeconds).getD defaultLeaseTtlSeconds

/-- The heartbeat interval, or one second where none is given, is shorter than the TTL. -/
def Roomy (request : LeaseRequest) (decision : LeaseDecision) : Prop :=
  decision.heartbeatIntervalSeconds.getD 1 < givenTtl request decision

instance (request : LeaseRequest) (decision : LeaseDecision) : Decidable (Roomy request decision) :=
  inferInstanceAs (Decidable (_ < _))

/-! ### What a lease keeps -/

/-- A lease with this TTL and interval, last renewed at `last`. -/
structure Running (ttl interval : ℤ) (last : ℚ) (r : LeaseRecord) : Prop where
  ttl_eq : r.decision.ttlSeconds = some ttl
  interval_eq : r.decision.heartbeatIntervalSeconds = some interval
  updatedAt_eq : r.updatedAt = last
  expiresAt_eq : r.expiresAt = last + ttl

section Lease

variable {ttl interval : ℤ} {last now : ℚ} {r : LeaseRecord} {times : List ℚ} {request : LeaseRequest}
  {decision : LeaseDecision}

theorem orElse_of_ne {α : Type} [DecidableEq α] {empty a : α} (h : a ≠ empty) (b : α) :
    orElse empty (some a) b = a := if_neg h

/-- What is absent or positive is used unless it is absent. -/
theorem orElse_eq_getD {n : Option ℤ} (hn : AbsentOrPositive n) (b : ℤ) : orElse 0 n b = n.getD b := by
  cases n with
  | none => rfl
  | some k => exact orElse_of_ne (hn k rfl).ne' b

theorem givenTtl_pos (hrequest : AbsentOrPositive request.requestedTtlSeconds)
    (hdecision : AbsentOrPositive decision.ttlSeconds) : 0 < givenTtl request decision := by
  rw [givenTtl]
  rcases ht : decision.ttlSeconds with - | t
  · rcases hr : request.requestedTtlSeconds with - | t
    · decide
    · exact hrequest t hr
  · exact hdecision t ht

/-- A heartbeat renews the lease and keeps its TTL and its interval. -/
theorem Running.heartbeat (hr : Running ttl interval last r) (hpos : 0 < ttl) (now : ℚ) :
    Running ttl interval now (r.heartbeat now) := by
  refine ⟨hr.ttl_eq, hr.interval_eq, rfl, ?_⟩
  simp only [LeaseRecord.heartbeat, hr.ttl_eq, orElse_of_ne hpos.ne']

theorem Running.after (hr : Running ttl interval last r) (hpos : 0 < ttl) (times : List ℚ) :
    Running ttl interval (times.getLastD last) (r.after times) := by
  induction times generalizing last r with
  | nil => exact hr
  | cons now times ih =>
    rw [List.getLastD_cons]
    exact ih (hr.heartbeat hpos now)

theorem Running.timed (hr : Running ttl interval last r) : Timed r := by
  refine ⟨ttl, hr.ttl_eq, ?_⟩
  rw [hr.expiresAt_eq, hr.updatedAt_eq, add_sub_cancel_left]

/-- A client on schedule renews the term on time. -/
theorem Running.onSchedule_iff (hr : Running ttl interval last r) (hpos : 0 < ttl) :
    OnSchedule r last times ↔ OnTime (interval : ℚ) last times := by
  induction times generalizing last r with
  | nil => simp [OnSchedule]
  | cons now times ih =>
    rw [OnSchedule, onTime_cons, ih (hr.heartbeat hpos now), hr.interval_eq]
    simp

/-- A lease is never lost if the term is not broken. -/
theorem Running.unbroken_iff (hr : Running ttl interval last r) (hpos : 0 < ttl) :
    NeverLost r times ↔ Unbroken (ttl : ℚ) last times := by
  induction times generalizing last r with
  | nil => simp [NeverLost, hr.timed]
  | cons now times ih =>
    rw [NeverLost, unbroken_cons, ih (hr.heartbeat hpos now), hr.expiresAt_eq]
    exact and_iff_right hr.timed

/-- The interval that is worked out of the TTL is shorter than it, unless the TTL is one second. -/
theorem defaultInterval_lt_iff (hpos : 0 < ttl) :
    min defaultHeartbeatIntervalSeconds (max 1 (ttl / 3)) < ttl ↔ 1 < ttl := by
  rw [defaultHeartbeatIntervalSeconds]
  omega

theorem running_fromRequest (hrequest : AbsentOrPositive request.requestedTtlSeconds)
    (httl : AbsentOrPositive decision.ttlSeconds) (hinterval : AbsentOrPositive decision.heartbeatIntervalSeconds)
    (now : ℚ) (uuid : Str) :
    ∃ interval, Running (givenTtl request decision) interval now (LeaseRecord.fromRequest now uuid request decision) ∧
      (interval < givenTtl request decision ↔ Roomy request decision) := by
  -- no number given is zero, so that only an absent one falls back
  have hgiven : orElse 0 decision.ttlSeconds (orElse 0 request.requestedTtlSeconds defaultLeaseTtlSeconds) =
      givenTtl request decision := by
    rw [orElse_eq_getD httl, orElse_eq_getD hrequest, givenTtl]
    cases decision.ttlSeconds <;> rfl
  refine ⟨_, ⟨congrArg some hgiven, rfl, rfl, ?_⟩, ?_⟩
  · rw [← hgiven]
    rfl
  · rw [hgiven, orElse_eq_getD hinterval, Roomy]
    rcases decision.heartbeatIntervalSeconds with - | interval
    · exact defaultInterval_lt_iff (givenTtl_pos hrequest httl)
    · rfl

/-! ### Holding a lease -/

/-- A lease that is never lost is held without a gap: some record of the run is live at every instant until the
last one expires. -/
theorem Running.exists_live (hr : Running ttl interval last r) (hpos : 0 < ttl) (hnever : NeverLost r times)
    {x : ℚ} (hx : last ≤ x) (hexpires : x < (r.after times).expiresAt) :
    ∃ done, done <+: times ∧ Live (r.after done) x := by
  rw [(hr.after hpos times).expiresAt_eq] at hexpires
  obtain ⟨done, hdone, hle, hlt⟩ := ((hr.unbroken_iff hpos).1 hnever).exists_term hx hexpires
  have hafter := hr.after hpos done
  refine ⟨done, hdone, ?_, ?_⟩
  · rwa [hafter.updatedAt_eq]
  · rwa [hafter.expiresAt_eq]

/-! ### Keeping a lease -/

/-- **Every client on schedule keeps its lease if and only if the interval is shorter than the TTL.** -/
theorem neverLost_iff (now : ℚ) (uuid : Str) (hrequest : AbsentOrPositive request.requestedTtlSeconds)
    (httl : AbsentOrPositive decision.ttlSeconds) (hinterval : AbsentOrPositive decision.heartbeatIntervalSeconds) :
    (∀ times, OnSchedule (LeaseRecord.fromRequest now uuid request decision) now times →
      NeverLost (LeaseRecord.fromRequest now uuid request decision) times) ↔ Roomy request decision := by
  obtain ⟨interval, hr, hroomy⟩ := running_fromRequest hrequest httl hinterval now uuid
  have hpos := givenTtl_pos hrequest httl
  simp only [hr.onSchedule_iff hpos, hr.unbroken_iff hpos]
  rw [forall_unbroken_iff, Int.cast_lt, hroomy]

end Lease

def plain : LeaseDecision := ⟨.granted, none, none, none⟩

/-- The defaults leave room, so that a client on schedule keeps its lease. -/
theorem neverLost_of_defaults : Roomy ⟨none⟩ plain ∧
    ∀ times, OnSchedule (LeaseRecord.fromRequest 0 (str "0") ⟨none⟩ plain) 0 times →
      NeverLost (LeaseRecord.fromRequest 0 (str "0") ⟨none⟩ plain) times :=
  ⟨by decide, (neverLost_iff 0 (str "0") (by decide) (by decide) (by decide)).2 (by decide)⟩

/-- A decision that gives the interval and leaves the TTL to the request. -/
def everyTen : LeaseDecision := ⟨.granted, none, none, some 10⟩

/-- A TTL of one second is over when the first heartbeat is due, and so is one shorter than the interval given. -/
theorem not_neverLost_of_short :
    (OnSchedule (LeaseRecord.fromRequest 0 (str "0") ⟨some 1⟩ plain) 0 [1] ∧
      ¬ NeverLost (LeaseRecord.fromRequest 0 (str "0") ⟨some 1⟩ plain) [1]) ∧
    (OnSchedule (LeaseRecord.fromRequest 0 (str "0") ⟨some 5⟩ everyTen) 0 [10] ∧
      ¬ NeverLost (LeaseRecord.fromRequest 0 (str "0") ⟨some 5⟩ everyTen) [10]) := by
  refine ⟨⟨⟨⟨1, rfl, by norm_num⟩, trivial⟩, ?_⟩, ⟨⟨10, rfl, by norm_num⟩, trivial⟩, ?_⟩
  · rintro ⟨-, hlt, -⟩
    norm_num [LeaseRecord.fromRequest, orElse, plain] at hlt
  · rintro ⟨-, hlt, -⟩
    norm_num [LeaseRecord.fromRequest, orElse, everyTen] at hlt

end SharedAi.ResourceGovernor
