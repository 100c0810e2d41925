import SharedAi.Control.Calls
import SharedAi.ServiceKit.Token
import SharedAi.ServiceKit.Grant

/-!
# The HTTP redeemer

`AsyncHTTPCapabilityGrantRedeemer`, which posts a redemption to the authority and reads its response.

* `Httpx`, `Httpx.send` — the HTTP client, which posts to what it takes for a URL;
* `AsyncHTTPCapabilityGrantRedeemer.post` — what is posted;
* `verdict` — what is made of the response, and `verdict_eq_true` when it is `True`;
* `AsyncHTTPCapabilityGrantRedeemer.call` — `__call__`, which posts at most once (`call_of_ok`, `call_of_error`);
* `Response.acknowledges` — the acknowledgement of a grant, as the authority means it.

The client is a function from the post to its response or exception, and `str.format` is a function of the
template and the identifier.
-/

namespace SharedAi.ServiceKit

open SharedAi.Control SharedAi.Python SharedAi.Text

/-! ### The client -/

/-- What `httpx.URL` raises: `InvalidURL`, or the `UnicodeEncodeError` of a lone surrogate. -/
inductive UrlRefusal where
  | invalidUrl
  | unicodeError

def UrlRefusal.exn : UrlRefusal → Exn
  | .invalidUrl => .exception "InvalidURL"
  | .unicodeError => .unicodeError

/-- What `httpx` makes of a URL: which texts it refuses, the host and the user information of an authority, and how a
segment of a path is sent. -/
structure Httpx where
  refuses : Str → Option UrlRefusal
  host : Str → Str
  userinfo : Str → Str
  escape : Str → Str

/-- A request to `url`, which the authority answers if it is sent. -/
def Httpx.send {α : Type} (httpx : Httpx) (url : Str) (answer : Except Exn α) : Except Exn α :=
  match httpx.refuses url with
  | some refusal => .error refusal.exn
  | none => answer

/-! ### Posting -/

/-- The bytes that `quote` leaves alone. -/
def isUnreserved (c : PyChar) : Bool := c.isUpper || c.isLower || c.isDigit || (str "_.-~").contains c

/-- `%XX`, in upper case. -/
def quoteByte (b : UInt8) : Str :=
  let c := PyChar.scalar (Char.ofNat b.toNat)
  if isUnreserved c then [c]
  else .scalar '%' :: (hexByte b).map fun d => if d.isLower then .scalar (Char.ofNat (d.ord - 32)) else d

/-- `quote(s, safe="")`. -/
def quote (s : Str) : Except Exn Str :=
  match encodeUtf8 s with
  | none => .error .unicodeError
  | some b => .ok (b.flatMap quoteByte)

/-- `endpoint.startswith("/") and "?" not in endpoint and "#" not in endpoint`. -/
def isEndpoint (s : Str) : Bool :=
  (str "/").isPrefixOf s && !s.contains (.scalar '?') && !s.contains (.scalar '#')

structure AsyncHTTPCapabilityGrantRedeemer where
  baseUrl : Str
  endpointTemplate : Str
  valid : isEndpoint endpointTemplate = true

structure Post where
  url : Str
  json : PyVal
  headers : List (Str × Str)

def optionalText : Option Str → PyVal
  | none => .none
  | some s => .str s

/-- `transport.model_dump(mode="json")`. -/
def CapabilityGrantTransport.modelDump (t : CapabilityGrantTransport) : PyVal :=
  .dict [
    (.str (str "type"), .str t.type), (.str (str "service"), .str t.service), (.str (str "method"), .str t.method),
    (.str (str "path"), .str t.path), (.str (str "auth_profile"), optionalText t.authProfile),
    (.str (str "tls_alias_profile"), optionalText t.tlsAliasProfile)]

/-- `redemption.model_dump(mode="json")`. -/
def CapabilityGrantRedemptionRequest.modelDump (r : CapabilityGrantRedemptionRequest) : PyVal :=
  .dict [
    (.str (str "grant_id"), .str r.grantId), (.str (str "grant_hash"), .str r.grantHash),
    (.str (str "token_fingerprint"), .str r.tokenFingerprint), (.str (str "receiver_id"), .str r.receiverId),
    (.str (str "audience"), .str r.audience), (.str (str "request_hash"), .str r.requestHash),
    (.str (str "transport"), r.transport.modelDump)]

/-- `except (KeyError, ValueError)` around the template. -/
def templateInvalid (e : Exn) : Option Exn :=
  if e.isValueError ∨ e = .exception "KeyError" then
    some (.capabilityGrantFormatError "broker_redeem_endpoint_template_invalid")
  else none

/-- `except httpx.HTTPError` around the post. -/
def transportFailed (e : Exn) : Option Exn :=
  if e = .exception "HTTPError" then
    some (.capabilityGrantRedeemUnavailable "capability_grant_redeem_transport_failed")
  else none

/-- `except (json.JSONDecodeError, UnicodeError, ValueError)` around the response. -/
def responseInvalid (e : Exn) : Option Exn :=
  if e.isValueError then some (.capabilityGrantRedeemUnavailable "capability_grant_redeem_response_invalid") else none

/-! ### Reading the response -/

/-- A response, with what `response.json()` gives. -/
structure Response where
  statusCode : ℕ
  json : Except Exn PyVal

/-- `200 <= response.status_code < 300`. -/
def Response.isSuccess (r : Response) : Bool := 200 ≤ r.statusCode && r.statusCode < 300

/-- `payload.get(name) is True`. -/
def isTrue : Option PyVal → Bool
  | some (.bool true) => true
  | _ => false

/-- `payload.get(name) == text`. -/
def isText (text : Str) : Option PyVal → Bool
  | some (.str s) => s == text
  | _ => false

/-- The checks on `event_id`. -/
def isEventId : Option PyVal → Bool
  | some (.str s) => decide s.Trimmed && (decide (0 < s.length) && decide (s.length ≤ 200))
  | _ => false

/-- The `bool(…)` that `__call__` returns. -/
def acknowledged (grantId : Str) : PyVal → Bool
  | .dict ms =>
    isTrue (PyVal.get? ms "redeemed") && isText grantId (PyVal.get? ms "grant_id") &&
      isEventId (PyVal.get? ms "event_id")
  | _ => false

/-- The part of `__call__` after the response. -/
def verdict (redemption : CapabilityGrantRedemptionRequest) (response : Response) : Except Exn Bool :=
  if response.statusCode = 408 ∨ response.statusCode = 429 then
    .error (.capabilityGrantRedeemUnavailable "capability_grant_redeem_authority_busy")
  else if 400 ≤ response.statusCode ∧ response.statusCode < 500 then .ok false
  else if response.isSuccess then (catching responseInvalid response.json).map (acknowledged redemption.grantId)
  else .error (.capabilityGrantRedeemUnavailable "capability_grant_redeem_authority_failed")

namespace AsyncHTTPCapabilityGrantRedeemer

variable (redeemer : AsyncHTTPCapabilityGrantRedeemer) (format : Str → Str → Except Exn Str)
  (client : Post → Except Exn Response) (redemption : CapabilityGrantRedemptionRequest) (authHeaders : List (Str × Str))

/-- The part of `__call__` before the response. -/
def post : Except Exn Post := do
  let grantId ← quote redemption.grantId
  let endpoint ← catching templateInvalid (format redeemer.endpointTemplate grantId)
  ensure (isEndpoint endpoint = true) (.capabilityGrantFormatError "broker_redeem_endpoint_invalid")
  pure ⟨redeemer.baseUrl ++ endpoint, redemption.modelDump, authHeaders⟩

/-- `__call__`, with what it posts. -/
def call : Calls Post Exn Bool := do
  let post ← Calls.lift (redeemer.post format redemption authHeaders)
  let response ← Calls.catching transportFailed (Calls.call post (client post))
  Calls.lift (verdict redemption response)

end AsyncHTTPCapabilityGrantRedeemer

/-! ### Acknowledgements -/

/-- A 2xx acknowledgement with `redeemed` true that names the grant. -/
def Response.acknowledges (grantId : Str) (r : Response) : Bool :=
  r.isSuccess && match r.json with
    | .ok (.dict ms) => isTrue (PyVal.get? ms "redeemed") && isText grantId (PyVal.get? ms "grant_id")
    | _ => false

theorem isTrue_eq_true {o : Option PyVal} : isTrue o = true ↔ o = some (.bool true) := by
  unfold isTrue
  split
  · simp
  · next h => simpa using h

theorem isText_eq_true {text : Str} {o : Option PyVal} : isText text o = true ↔ o = some (.str text) := by
  unfold isText
  split
  · simp
  · next h =>
    simp only [Bool.false_eq_true, false_iff]
    exact h text

theorem isEventId_eq_true {o : Option PyVal} : isEventId o = true ↔
    ∃ s : Str, o = some (.str s) ∧ s.Trimmed ∧ 0 < s.length ∧ s.length ≤ 200 := by
  unfold isEventId
  split
  · simp
  · next h =>
    simp only [Bool.false_eq_true, false_iff]
    rintro ⟨s, hs, -⟩
    exact h s hs

section Verdict

variable {redemption : CapabilityGrantRedemptionRequest} {response : Response} {grantId : Str}

theorem acknowledged_eq_true {v : PyVal} : acknowledged grantId v = true ↔
    ∃ ms, v = .dict ms ∧ PyVal.get? ms "redeemed" = some (.bool true) ∧
      PyVal.get? ms "grant_id" = some (.str grantId) ∧
      ∃ s : Str, PyVal.get? ms "event_id" = some (.str s) ∧ s.Trimmed ∧ 0 < s.length ∧ s.length ≤ 200 := by
  unfold acknowledged
  split
  · simp [isTrue_eq_true, isText_eq_true, isEventId_eq_true, and_assoc]
  · next h =>
    simp only [Bool.false_eq_true, false_iff]
    rintro ⟨ms, hms, -⟩
    exact h ms hms

theorem acknowledges_eq_true : response.acknowledges grantId = true ↔
    response.isSuccess = true ∧ ∃ ms, response.json = .ok (.dict ms) ∧
      PyVal.get? ms "redeemed" = some (.bool true) ∧ PyVal.get? ms "grant_id" = some (.str grantId) := by
  unfold Response.acknowledges
  rw [Bool.and_eq_true]
  apply and_congr_right
  intro _
  split
  · next ms h => simp [h, isTrue_eq_true, isText_eq_true]
  · next h =>
    simp only [Bool.false_eq_true, false_iff]
    rintro ⟨ms, hms, -⟩
    exact h ms hms

theorem isSuccess_eq_true : response.isSuccess = true ↔ 200 ≤ response.statusCode ∧ response.statusCode < 300 := by
  simp [Response.isSuccess]

/-- The redeemer answers `True` exactly for a 2xx response whose body acknowledges the grant with an event. -/
theorem verdict_eq_true : verdict redemption response = .ok true ↔
    response.isSuccess = true ∧ ∃ v, response.json = .ok v ∧ acknowledged redemption.grantId v = true := by
  unfold verdict
  constructor
  · intro h
    split at h
    · cases h
    split at h
    · cases h
    split at h
    · next hs =>
      obtain ⟨v, hv, ha⟩ := map_eq_ok.1 h
      exact ⟨hs, v, catching_eq_ok.1 hv, ha⟩
    · cases h
  · rintro ⟨hs, v, hv, ha⟩
    have hr := isSuccess_eq_true.1 hs
    rw [if_neg (by omega), if_neg (by omega), if_pos hs]
    exact map_eq_ok.2 ⟨v, catching_eq_ok.2 hv, ha⟩

/-- The redeemer answers `True` to an acknowledgement of the redeemed grant only. -/
theorem acknowledges_of_verdict (h : verdict redemption response = .ok true) :
    response.acknowledges redemption.grantId = true := by
  obtain ⟨hs, v, hv, ha⟩ := verdict_eq_true.1 h
  obtain ⟨ms, rfl, hredeemed, hid, -⟩ := acknowledged_eq_true.1 ha
  exact acknowledges_eq_true.2 ⟨hs, ms, hv, hredeemed, hid⟩

end Verdict

section Call

variable {redeemer : AsyncHTTPCapabilityGrantRedeemer} {format : Str → Str → Except Exn Str}
  {client : Post → Except Exn Response} {redemption : CapabilityGrantRedemptionRequest} {authHeaders : List (Str × Str)}

/-- Without an endpoint nothing is posted. -/
theorem call_of_error {e : Exn} (h : redeemer.post format redemption authHeaders = .error e) :
    redeemer.call format client redemption authHeaders [] = (.error e, []) := by
  rw [AsyncHTTPCapabilityGrantRedeemer.call, Calls.lift_bind, h]

/-- With an endpoint one request is posted, and its response decides. -/
theorem call_of_ok {post : Post} (h : redeemer.post format redemption authHeaders = .ok post) :
    redeemer.call format client redemption authHeaders [] =
      (catching transportFailed (client post) >>= verdict redemption, [post]) := by
  rw [AsyncHTTPCapabilityGrantRedeemer.call, Calls.lift_bind, h]
  dsimp only
  rw [Calls.catching_bind_lift]
  rfl

end Call

end SharedAi.ServiceKit
