import SharedAi.ResourceGovernor.Lease

/-!
# Activities

* `ActivityRecord.fromRequest`, `ActivityRecord.heartbeat` — an activity as the governor records and renews it;
* `ActivityRecord.asOf` — the record at an instant, after the heartbeats up to it;
* `live_asOf_iff` — an activity is live while its registration or some heartbeat is less than its TTL ago;
* `activity_kept_iff` — heartbeats at most `h` apart keep every activity live exactly if `h` is less than its TTL.
-/

namespace SharedAi.ResourceGovernor

open SharedAi.Text SharedAi.Time

structure ActivityRequest where
  ttlSeconds : ℤ

structure ActivityRecord where
  activityId : Str
  request : ActivityRequest
  createdAt : ℚ
  updatedAt : ℚ
  expiresAt : ℚ
  releasedAt : Option ℚ

namespace ActivityRecord

/-- `ActivityRecord.from_request`, at `now` and with `uuid` for the hexadecimal digits of `uuid4`. -/
def fromRequest (now : ℚ) (uuid : Str) (request : ActivityRequest) : ActivityRecord where
  activityId := str "activity_" ++ uuid
  request := request
  createdAt := now
  updatedAt := now
  expiresAt := now + request.ttlSeconds
  releasedAt := none

def heartbeat (r : ActivityRecord) (now : ℚ) : ActivityRecord :=
  { r with updatedAt := now, expiresAt := now + r.request.ttlSeconds }

def after (r : ActivityRecord) (times : List ℚ) : ActivityRecord := times.foldl heartbeat r

/-- The record at `x`, for heartbeats at these times. -/
def asOf (r : ActivityRecord) (times : List ℚ) (x : ℚ) : ActivityRecord := r.after (times.takeWhile (· ≤ x))

/-- At `x` the record has been updated and is not expired. -/
def Live (r : ActivityRecord) (x : ℚ) : Prop := r.updatedAt ≤ x ∧ x < r.expiresAt

end ActivityRecord

open ActivityRecord

/-- The record of an activity that was last renewed at `last`. -/
structure Renewed (request : ActivityRequest) (last : ℚ) (r : ActivityRecord) : Prop where
  request_eq : r.request = request
  updatedAt_eq : r.updatedAt = last
  expiresAt_eq : r.expiresAt = last + request.ttlSeconds

section Activity

variable {r : ActivityRecord} {last now x h : ℚ} {times : List ℚ} {uuid : Str} {request : ActivityRequest}

theorem renewed_fromRequest (now : ℚ) (uuid : Str) (request : ActivityRequest) :
    Renewed request now (fromRequest now uuid request) := ⟨rfl, rfl, rfl⟩

theorem Renewed.heartbeat (hr : Renewed request last r) (now : ℚ) : Renewed request now (r.heartbeat now) := by
  refine ⟨hr.request_eq, rfl, ?_⟩
  rw [ActivityRecord.heartbeat, hr.request_eq]

theorem Renewed.after (hr : Renewed request last r) (times : List ℚ) :
    Renewed request (times.getLastD last) (r.after times) := by
  induction times generalizing last r with
  | nil => exact hr
  | cons now times ih =>
    rw [List.getLastD_cons]
    exact ih (hr.heartbeat now)

/-- **An activity is live while its registration or some heartbeat is less than its TTL ago.** -/
theorem live_asOf_iff (hsorted : (now :: times).Pairwise (· ≤ ·)) (hx : now ≤ x) :
    ((fromRequest now uuid request).asOf times x).Live x ↔
      ∃ u ∈ now :: times, u ≤ x ∧ x < u + request.ttlSeconds := by
  have hr := (renewed_fromRequest now uuid request).after (times.takeWhile (· ≤ x))
  rw [← lt_lastUpTo_add_iff hsorted hx, ActivityRecord.Live, asOf, hr.updatedAt_eq, hr.expiresAt_eq]
  exact and_iff_right (lastUpTo_le hx)

/-- **Heartbeats at most `h` apart keep an activity live until `h` after the last of them, exactly if its TTL is
longer.** -/
theorem activity_kept_iff (now : ℚ) (uuid : Str) (request : ActivityRequest) (hpos : 0 ≤ h) :
    (∀ times, (now :: times).Pairwise (· ≤ ·) → OnTime h now times → ∀ x, now ≤ x → x ≤ times.getLastD now + h →
      ((fromRequest now uuid request).asOf times x).Live x) ↔ h < request.ttlSeconds := by
  constructor
  · intro hall
    -- no heartbeat at all
    have hlive := hall [] (List.pairwise_singleton _ now) onTime_nil (now + h) (by simpa using hpos) le_rfl
    obtain ⟨u, hu, -, hterm⟩ := (live_asOf_iff (List.pairwise_singleton _ now) (by simpa using hpos)).1 hlive
    obtain rfl := List.mem_singleton.1 hu
    exact (add_lt_add_iff_left u).1 hterm
  · intro hh times hsorted htimes x hx hlast
    obtain ⟨us, hus, hle, hlt⟩ := (htimes.unbroken hh).exists_term hx (hlast.trans_lt (by simpa using hh))
    refine (live_asOf_iff hsorted hx).2 ⟨us.getLastD now, ?_, hle, hlt⟩
    rcases List.eq_nil_or_concat us with rfl | ⟨vs, v, rfl⟩
    · exact List.mem_cons_self ..
    · simpa using .inr (hus.subset (by simp))

theorem activity_kept_iff_of_halfway :
    ((fromRequest 0 (str "0") ⟨30⟩).asOf [15, 25] 29).Live 29 := by
  have hsorted : ((0 : ℚ) :: [15, 25]).Pairwise (· ≤ ·) := by decide +kernel
  have htimes : OnTime (15 : ℚ) 0 [15, 25] := by simp; norm_num
  exact (activity_kept_iff 0 (str "0") ⟨30⟩ (by norm_num)).2 (by norm_num) [15, 25] hsorted htimes 29 (by norm_num)
    (by norm_num)

end Activity

end SharedAi.ResourceGovernor
