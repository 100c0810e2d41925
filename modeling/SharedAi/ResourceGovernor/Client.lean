import SharedAi.Control.Calls
import SharedAi.Net.Paths
import SharedAi.Python.Response
import SharedAi.ResourceGovernor.Activity
import SharedAi.ServiceKit.RedeemUrl

/-!
# The client of the governor

* `ResourceGovernorClient` — the client, with a method for each operation on leases and activities;
* `session` — operations one after another, whatever the governor answers;
* `session_of_ne`, `session_of_eq` — one request for each operation that a client with a URL sends, and none without;
* `namesResource_iff` — when the request of an operation names what it is about;
* `subjects_of_requests` — what the governor learns from the requests of a session;
* `session_of_unconfigured` — the leases of a client without a URL.

What `pydantic` makes of an answer is a parameter, and so is `dict` of what is no mapping.
-/

namespace SharedAi.ResourceGovernor

open SharedAi.Control SharedAi.Net SharedAi.Num SharedAi.Python SharedAi.ServiceKit SharedAi.Text SharedAi.Time

/-! ### Decisions -/

inductive DecisionType
  | normal
  | softAdvice
  | hardBlock
  deriving DecidableEq

/-- A decision, with what a lease does not take from it. -/
structure LeaseDecision.Full extends LeaseDecision where
  decisionType : DecisionType
  limits : List (PyKey × PyVal)
  reason : Str
  retryAfterSeconds : Option ℤ
  effectiveQualityPolicy : Str
  expectedUserImpact : Str

/-- `ResourceGovernorClient._fallback_decision`. -/
def fallbackDecision : LeaseDecision.Full where
  decision := .grantedWithLimits
  decisionType := .softAdvice
  leaseId := none
  ttlSeconds := some defaultLeaseTtlSeconds
  heartbeatIntervalSeconds := some defaultHeartbeatIntervalSeconds
  limits := [(.str (str "fallback"), .bool true)]
  reason := str "Resource Governor URL not configured; local fallback lease granted"
  retryAfterSeconds := none
  effectiveQualityPolicy := str "preserve"
  expectedUserImpact := str "none"

/-! ### The client -/

/-- A request of `httpx`. -/
structure HttpRequest where
  method : String
  url : Str
  headers : List (Str × Str)
  json : Option PyVal
  timeout : Float64

/-- What comes of a request behind its URL: what is raised for headers that are not ASCII and for a body that is no
JSON, and what the governor answers after the requests before it. -/
structure Http where
  unwritten : HttpRequest → Option Exn
  answer : List HttpRequest → HttpRequest → Except Exn HttpResponse

/-- What is raised for a request instead of sending it. -/
def Http.refused (http : Http) (httpx : Httpx) (r : HttpRequest) : Option Exn :=
  match httpx.refuses r.url with
  | some refusal => some refusal.exn
  | none => http.unwritten r

/-- How the body of an answer is read. -/
structure Schemas where
  leaseDecision : PyVal → Except Exn LeaseDecision.Full
  activityRecord : PyVal → Except Exn ActivityRecord
  /-- `dict` of a value that is no mapping. -/
  dictOfPairs : PyVal → Except Exn (List (PyKey × PyVal))

/-- `dict(value)`. -/
def Schemas.dict (schemas : Schemas) (v : PyVal) : Except Exn (List (PyKey × PyVal)) :=
  match members v with
  | some ms => .ok ms
  | none => schemas.dictOfPairs v

structure ResourceGovernorClient where
  baseUrl : Str
  token : Str
  timeout : Float64
  fallbackEnabled : Bool

namespace ResourceGovernorClient

/-- `ResourceGovernorClient(base_url, token, timeout=…, fallback_enabled=…)`. -/
def make (environ : String → Option Str) (baseUrl token : Option Str) (timeout : Float64) (fallbackEnabled : Bool) :
    ResourceGovernorClient where
  baseUrl := (orElse [] baseUrl (orElse [] (environ "AI_RESOURCE_GOVERNOR_URL") [])).rdropWhile (· == slash)
  token := orElse [] token (orElse [] (environ "AI_RESOURCE_GOVERNOR_TOKEN") [])
  timeout := timeout
  fallbackEnabled := fallbackEnabled

/-- `_headers`. -/
def headers (client : ResourceGovernorClient) : List (Str × Str) :=
  (str "Content-Type", str "application/json") ::
    if client.token = [] then [] else [(str "X-Internal-API-Key", client.token)]

def notConfigured : Exn := .exception "RuntimeError"

variable (client : ResourceGovernorClient) (httpx : Httpx) (http : Http) (schemas : Schemas)

/-- A request of the client to the governor, at a path behind its base URL. -/
def request (method : String) (path : Str) (json : Option PyVal) : HttpRequest :=
  ⟨method, client.baseUrl ++ path, client.headers, json, client.timeout⟩

/-- The body that all methods have in common; without a URL, some fall back on an answer of their own. -/
def exchange {α : Type} (fallback : Option α) (method : String) (path : Str) (json : Option PyVal)
    (read : PyVal → Except Exn α) : Calls HttpRequest Exn α := fun requests =>
  if client.baseUrl = [] then
    match fallback with
    | some answer => if client.fallbackEnabled then (.ok answer, requests) else (.error notConfigured, requests)
    | none => (.error notConfigured, requests)
  else
    let req := client.request method path json
    match http.refused httpx req with
    | some e => (.error e, requests)
    | none =>
      (do
        let response ← Calls.call req (http.answer requests req)
        Calls.lift (do
          response.raiseForStatus
          let body ← response.json
          read body)) requests

def requestLease (dump : PyVal) : Calls HttpRequest Exn LeaseDecision.Full :=
  client.exchange httpx http (some fallbackDecision) "POST" (str "/resources/leases") (some dump) schemas.leaseDecision

def heartbeat (leaseId : Str) (owner requestId : Option Str) : Calls HttpRequest Exn (List (PyKey × PyVal)) :=
  client.exchange httpx http (some [(.str (str "status"), .str (str "ok")), (.str (str "lease_id"), .str leaseId)])
    "POST" (str "/resources/leases/" ++ leaseId ++ str "/heartbeat")
    (some (.dict [(.str (str "lease_id"), .str leaseId), (.str (str "owner"), optionalText owner),
      (.str (str "request_id"), optionalText requestId)]))
    schemas.dict

def release (leaseId : Str) : Calls HttpRequest Exn (List (PyKey × PyVal)) :=
  client.exchange httpx http
    (some [(.str (str "status"), .str (str "released")), (.str (str "lease_id"), .str leaseId)]) "DELETE"
    (str "/resources/leases/" ++ leaseId) none schemas.dict

def registerActivity (dump : PyVal) : Calls HttpRequest Exn ActivityRecord :=
  client.exchange httpx http none "POST" (str "/resources/activity") (some dump) schemas.activityRecord

def heartbeatActivity (activityId : Str) (requester requestId : Option Str) : Calls HttpRequest Exn ActivityRecord :=
  client.exchange httpx http none "POST" (str "/resources/activity/" ++ activityId ++ str "/heartbeat")
    (some (.dict [(.str (str "activity_id"), .str activityId), (.str (str "requester"), optionalText requester),
      (.str (str "request_id"), optionalText requestId)]))
    schemas.activityRecord

def releaseActivity (activityId : Str) : Calls HttpRequest Exn (List (PyKey × PyVal)) :=
  client.exchange httpx http none "DELETE" (str "/resources/activity/" ++ activityId) none schemas.dict

end ResourceGovernorClient

/-! ### Sessions -/

/-- An operation of the client; a request is given as its `model_dump(mode="json")`. -/
inductive Operation where
  | requestLease (dump : PyVal)
  | heartbeat (leaseId : Str) (owner requestId : Option Str)
  | release (leaseId : Str)
  | registerActivity (dump : PyVal)
  | heartbeatActivity (activityId : Str) (requester requestId : Option Str)
  | releaseActivity (activityId : Str)

inductive Answer where
  | decision (d : LeaseDecision.Full)
  | activity (r : ActivityRecord)
  | status (ms : List (PyKey × PyVal))

/-- The operations, up to what they are applied to. -/
inductive OperationKind where
  | requestLease
  | heartbeat
  | release
  | registerActivity
  | heartbeatActivity
  | releaseActivity
  deriving DecidableEq

namespace Operation

/-- What an operation does, and the lease or the activity it does it to. -/
def subject : Operation → OperationKind × Option Str
  | requestLease _ => (.requestLease, none)
  | heartbeat leaseId _ _ => (.heartbeat, some leaseId)
  | release leaseId => (.release, some leaseId)
  | registerActivity _ => (.registerActivity, none)
  | heartbeatActivity activityId _ _ => (.heartbeatActivity, some activityId)
  | releaseActivity activityId => (.releaseActivity, some activityId)

/-- The method of the request for an operation, the segments of its path, and its body. -/
def method : Operation → String
  | release _ | releaseActivity _ => "DELETE"
  | _ => "POST"

def segments : Operation → List Str
  | requestLease _ => [str "resources", str "leases"]
  | heartbeat leaseId _ _ => [str "resources", str "leases", leaseId, str "heartbeat"]
  | release leaseId => [str "resources", str "leases", leaseId]
  | registerActivity _ => [str "resources", str "activity"]
  | heartbeatActivity activityId _ _ => [str "resources", str "activity", activityId, str "heartbeat"]
  | releaseActivity activityId => [str "resources", str "activity", activityId]

def json : Operation → Option PyVal
  | requestLease dump | registerActivity dump => some dump
  | heartbeat leaseId owner requestId => some (.dict [(.str (str "lease_id"), .str leaseId),
      (.str (str "owner"), optionalText owner), (.str (str "request_id"), optionalText requestId)])
  | heartbeatActivity activityId requester requestId => some (.dict [(.str (str "activity_id"), .str activityId),
      (.str (str "requester"), optionalText requester), (.str (str "request_id"), optionalText requestId)])
  | release _ | releaseActivity _ => none

def fallback : Operation → Option Answer
  | requestLease _ => some (.decision fallbackDecision)
  | heartbeat leaseId _ _ =>
    some (.status [(.str (str "status"), .str (str "ok")), (.str (str "lease_id"), .str leaseId)])
  | release leaseId =>
    some (.status [(.str (str "status"), .str (str "released")), (.str (str "lease_id"), .str leaseId)])
  | registerActivity _ | heartbeatActivity .. | releaseActivity _ => none

def read (schemas : Schemas) : Operation → PyVal → Except Exn Answer
  | requestLease _, body => Answer.decision <$> schemas.leaseDecision body
  | registerActivity _, body | heartbeatActivity .., body => Answer.activity <$> schemas.activityRecord body
  | heartbeat .., body | release _, body | releaseActivity _, body => Answer.status <$> schemas.dict body

def answer (schemas : Schemas) (op : Operation) (response : HttpResponse) : Except Exn Answer := do
  response.raiseForStatus
  let body ← response.json
  op.read schemas body

end Operation

namespace ResourceGovernorClient

variable (client : ResourceGovernorClient) (httpx : Httpx) (http : Http) (schemas : Schemas)

def perform : Operation → Calls HttpRequest Exn Answer
  | .requestLease dump => Answer.decision <$> client.requestLease httpx http schemas dump
  | .heartbeat leaseId owner requestId => Answer.status <$> client.heartbeat httpx http schemas leaseId owner requestId
  | .release leaseId => Answer.status <$> client.release httpx http schemas leaseId
  | .registerActivity dump => Answer.activity <$> client.registerActivity httpx http schemas dump
  | .heartbeatActivity activityId requester requestId =>
    Answer.activity <$> client.heartbeatActivity httpx http schemas activityId requester requestId
  | .releaseActivity activityId => Answer.status <$> client.releaseActivity httpx http schemas activityId

/-- Operations one after another: what each returns or raises, and the requests made. -/
def session : List Operation → List HttpRequest → List (Except Exn Answer) × List HttpRequest
  | [], requests => ([], requests)
  | op :: ops, requests =>
    let first := client.perform httpx http schemas op requests
    let rest := session ops first.2
    (first.1 :: rest.1, rest.2)

def requestFor (op : Operation) : HttpRequest := client.request op.method (pathOf op.segments) op.json

def unanswered (op : Operation) : Except Exn Answer :=
  match op.fallback with
  | some answer => if client.fallbackEnabled then .ok answer else .error notConfigured
  | none => .error notConfigured

end ResourceGovernorClient

open ResourceGovernorClient

section Client

variable {client : ResourceGovernorClient} {httpx : Httpx} {http : Http} {schemas : Schemas}

section Exchange

variable {α : Type} (fallback : Option α) {method : String} {path : Str} {json : Option PyVal}
  (read : PyVal → Except Exn α) (requests : List HttpRequest)

/-- What is refused is not sent. -/
theorem exchange_of_refused (hurl : client.baseUrl ≠ []) {e : Exn}
    (hr : http.refused httpx (client.request method path json) = some e) :
    client.exchange httpx http fallback method path json read requests = (.error e, requests) := by
  unfold exchange
  rw [if_neg hurl]
  dsimp only
  rw [hr]

/-- What is read out of an answer. -/
theorem exchange_of_sent (hurl : client.baseUrl ≠ [])
    (hr : http.refused httpx (client.request method path json) = none) :
    client.exchange httpx http fallback method path json read requests =
      (http.answer requests (client.request method path json) >>= fun response => response.raiseForStatus >>= fun _ =>
        response.json >>= read, requests ++ [client.request method path json]) := by
  unfold exchange
  rw [if_neg hurl]
  dsimp only
  rw [hr]
  exact Calls.call_bind_lift ..

end Exchange

theorem map_exchange {α : Type} (f : α → Answer) (fallback : Option α) (method : String) (path : Str)
    (json : Option PyVal) (read : PyVal → Except Exn α) :
    f <$> client.exchange httpx http fallback method path json read =
      client.exchange httpx http (fallback.map f) method path json (fun body => f <$> read body) := by
  funext requests
  rw [Calls.map_apply]
  by_cases hurl : client.baseUrl = []
  · unfold exchange
    rw [if_pos hurl, if_pos hurl]
    cases fallback <;> cases client.fallbackEnabled <;> rfl
  cases hr : http.refused httpx (client.request method path json) with
  | some e =>
    rw [exchange_of_refused _ _ _ hurl hr, exchange_of_refused _ _ _ hurl hr]
    rfl
  | none =>
    rw [exchange_of_sent _ _ _ hurl hr, exchange_of_sent _ _ _ hurl hr]
    simp only [map_bind]

/-- Every operation is an exchange. -/
theorem perform_eq_exchange (op : Operation) : client.perform httpx http schemas op =
    client.exchange httpx http op.fallback op.method (pathOf op.segments) op.json (op.read schemas) := by
  cases op with
  | requestLease dump => exact map_exchange ..
  | heartbeat leaseId owner requestId =>
    have hpath : pathOf (Operation.heartbeat leaseId owner requestId).segments =
        str "/resources/leases/" ++ leaseId ++ str "/heartbeat" := by simp [Operation.segments, str, slash]
    rw [hpath]
    exact map_exchange ..
  | release leaseId =>
    have hpath : pathOf (Operation.release leaseId).segments = str "/resources/leases/" ++ leaseId := by
      simp [Operation.segments, str, slash]
    rw [hpath]
    exact map_exchange ..
  | registerActivity dump => exact map_exchange ..
  | heartbeatActivity activityId requester requestId =>
    have hpath : pathOf (Operation.heartbeatActivity activityId requester requestId).segments =
        str "/resources/activity/" ++ activityId ++ str "/heartbeat" := by simp [Operation.segments, str, slash]
    rw [hpath]
    exact map_exchange ..
  | releaseActivity activityId =>
    have hpath : pathOf (Operation.releaseActivity activityId).segments = str "/resources/activity/" ++ activityId := by
      simp [Operation.segments, str, slash]
    rw [hpath]
    exact map_exchange ..

/-- Without a URL, it makes none. -/
theorem perform_of_eq (hurl : client.baseUrl = []) (op : Operation) (requests : List HttpRequest) :
    client.perform httpx http schemas op requests = (client.unanswered op, requests) := by
  rw [perform_eq_exchange]
  unfold exchange unanswered
  rw [if_pos hurl]
  cases op.fallback <;> cases client.fallbackEnabled <;> rfl

/-- **A client without a URL makes no request.** -/
theorem session_of_eq (hurl : client.baseUrl = []) (ops : List Operation) (requests : List HttpRequest) :
    client.session httpx http schemas ops requests = (ops.map client.unanswered, requests) := by
  induction ops with
  | nil => rfl
  | cons op ops ih => simp [session, perform_of_eq hurl, ih]

/-- The segments that are requested for an operation stand for its own, behind those of the base URL. -/
def NamesResource (httpx : Httpx) (client : ResourceGovernorClient) (op : Operation) : Prop :=
  ∃ rest, httpx.requested (client.requestFor op).url =
      some ((walk (segments (Reference.split client.baseUrl).path)).map httpx.escape ++ rest) ∧
    rest.map unquote = op.segments.map encodeUtf8

theorem namesResource_iff_names {op : Operation} : NamesResource httpx client op ↔
    httpx.refuses (client.requestFor op).url = none ∧ Names httpx.escape client.baseUrl op.segments := by
  simp only [NamesResource, requested_eq_some, and_assoc, exists_and_left]
  rfl

/-- `httpx` takes the base URL: behind it, it refuses control characters, and what makes the URL too long. -/
def Takes (httpx : Httpx) (limit : ℕ) (base : Str) : Prop :=
  ∀ segs, (∀ s ∈ segs, (encodeUtf8 s).isSome) → (httpx.refuses (base ++ pathOf segs) = none ↔
    (∀ s ∈ segs, ∀ c ∈ s, c.isControl = false) ∧ (base ++ pathOf segs).length ≤ limit)

def fixedSegments : List Str := [str "resources", str "leases", str "activity", str "heartbeat"]

theorem fixedSegments_spec : ∀ s ∈ fixedSegments, Addressable s ∧ (encodeUtf8 s).isSome := by decide +kernel

theorem not_isControl_fixedSegments : ∀ s ∈ fixedSegments, ∀ c ∈ s, c.isControl = false := by decide +kernel

/-- The place of the identifier, or of the last segment if there is none. -/
theorem exists_place (op : Operation) : ∃ xs x ys, op.segments = xs ++ x :: ys ∧ xs ≠ [] ∧
    (∀ s ∈ xs ++ ys, s ∈ fixedSegments) ∧ (op.subject.2 = some x ∨ (op.subject.2 = none ∧ x ∈ fixedSegments)) := by
  have hresources : str "resources" ∈ fixedSegments := by decide
  have hleases : str "leases" ∈ fixedSegments := by decide
  have hactivity : str "activity" ∈ fixedSegments := by decide
  have hheartbeat : str "heartbeat" ∈ fixedSegments := by decide
  cases op with
  | requestLease dump => exact ⟨[str "resources"], _, [], rfl, by simp, by simp [hresources], .inr ⟨rfl, hleases⟩⟩
  | heartbeat leaseId owner requestId =>
    exact ⟨[str "resources", str "leases"], _, [str "heartbeat"], rfl, by simp,
      by simp [hresources, hleases, hheartbeat], .inl rfl⟩
  | release leaseId =>
    exact ⟨[str "resources", str "leases"], _, [], rfl, by simp, by simp [hresources, hleases], .inl rfl⟩
  | registerActivity dump =>
    exact ⟨[str "resources"], _, [], rfl, by simp, by simp [hresources], .inr ⟨rfl, hactivity⟩⟩
  | heartbeatActivity activityId requester requestId =>
    exact ⟨[str "resources", str "activity"], _, [str "heartbeat"], rfl, by simp,
      by simp [hresources, hactivity, hheartbeat], .inl rfl⟩
  | releaseActivity activityId =>
    exact ⟨[str "resources", str "activity"], _, [], rfl, by simp, by simp [hresources, hactivity], .inl rfl⟩

theorem isSome_encodeUtf8_segments {op : Operation} (hid : ∀ id ∈ op.subject.2, (encodeUtf8 id).isSome) :
    ∀ s ∈ op.segments, (encodeUtf8 s).isSome := by
  obtain ⟨xs, x, ys, hsegments, -, hfixed, hx⟩ := exists_place op
  rw [hsegments]
  intro s hs
  simp only [List.mem_append, List.mem_cons] at hs
  rcases hs with hs | rfl | hs
  · exact (fixedSegments_spec s (hfixed s (List.mem_append_left _ hs))).2
  · rcases hx with hx | ⟨-, hx⟩
    · exact hid s (by simp [hx])
    · exact (fixedSegments_spec s hx).2
  · exact (fixedSegments_spec s (hfixed s (List.mem_append_right _ hs))).2

end Client

/-! ### What a request names -/

section Names

variable {httpx : Httpx} {client : ResourceGovernorClient}

/-- Nothing but an identifier puts a control character into the path. -/
theorem not_isControl_segments_iff {op : Operation} :
    (∀ s ∈ op.segments, ∀ c ∈ s, c.isControl = false) ↔ ∀ id ∈ op.subject.2, ∀ c ∈ id, c.isControl = false := by
  obtain ⟨xs, x, ys, hsegments, -, hfixed, hx⟩ := exists_place op
  have hothers : ∀ s ∈ xs ++ ys, ∀ c ∈ s, c.isControl = false := fun s hs => not_isControl_fixedSegments s (hfixed s hs)
  have hsplit : (∀ s ∈ op.segments, ∀ c ∈ s, c.isControl = false) ↔ ∀ c ∈ x, c.isControl = false := by
    rw [hsegments]
    refine ⟨fun h => h x (by simp), fun h s hs => ?_⟩
    simp only [List.mem_append, List.mem_cons] at hs
    rcases hs with hs | rfl | hs
    · exact hothers s (List.mem_append_left _ hs)
    · exact h
    · exact hothers s (List.mem_append_right _ hs)
  rw [hsplit]
  rcases hx with hx | ⟨hnone, hx⟩
  · simp [hx]
  · simpa [hnone] using not_isControl_fixedSegments x hx

/-- **The request of an operation names its subject if and only if the base URL ends in a path, the identifier has no
delimiter, no escape and no control character and is no dot segment, and the URL is not too long.** -/
theorem namesResource_iff (hescape : ∀ s b, encodeUtf8 s = some b → unquote (httpx.escape s) = unquote s)
    (ha : (Reference.split client.baseUrl).authority.isSome = true) {limit : ℕ}
    (htakes : Takes httpx limit client.baseUrl) {op : Operation} (hid : ∀ id ∈ op.subject.2, (encodeUtf8 id).isSome) :
    NamesResource httpx client op ↔
      (question ∉ client.baseUrl ∧ numberSign ∉ client.baseUrl) ∧
        (∀ id ∈ op.subject.2, Addressable id ∧ ∀ c ∈ id, c.isControl = false) ∧
        (client.requestFor op).url.length ≤ limit := by
  obtain ⟨xs, x, ys, hsegments, hne, hfixed, hx⟩ := exists_place op
  have henc := isSome_encodeUtf8_segments hid
  have hnames : Names httpx.escape client.baseUrl op.segments ↔
      (question ∉ client.baseUrl ∧ numberSign ∉ client.baseUrl) ∧ ∀ id ∈ op.subject.2, Addressable id := by
    rw [hsegments, names_iff hescape ha hne (fun s hs => fixedSegments_spec s (hfixed s hs))
      (henc x (by simp [hsegments]))]
    rcases hx with hx | ⟨hnone, hx⟩
    · simp [hx]
    · simp [hnone, (fixedSegments_spec x hx).1]
  have htaken : httpx.refuses (client.requestFor op).url = none ↔
      (∀ id ∈ op.subject.2, ∀ c ∈ id, c.isControl = false) ∧ (client.requestFor op).url.length ≤ limit := by
    rw [← not_isControl_segments_iff]
    exact htakes op.segments henc
  rw [namesResource_iff_names, hnames, htaken]
  constructor
  · rintro ⟨⟨hcontrol, hlength⟩, hplain, haddress⟩
    exact ⟨hplain, fun id h => ⟨haddress id h, hcontrol id h⟩, hlength⟩
  · rintro ⟨hplain, h, hlength⟩
    exact ⟨⟨fun id hid => (h id hid).2, hlength⟩, hplain, fun id hid => (h id hid).1⟩

end Names

namespace Sample

def httpx : Httpx where
  refuses := ServiceKit.Sample.refusal
  host _ := []
  userinfo _ := []
  escape s := s

def client : ResourceGovernorClient :=
  make (fun _ => none) (some (str "http://governor:8090/v1/")) none (.ofInt 10) true

theorem takes_client : Takes httpx 65536 client.baseUrl := by
  intro segs henc
  have hcontrol : ∀ c ∈ client.baseUrl, c.isControl = false := by decide +kernel
  have hsurrogate : ∀ c ∈ client.baseUrl, c.isSurrogate = false := by decide +kernel
  have hsegs : ∀ s ∈ segs, ∀ c ∈ s, c.isSurrogate = false := fun s hs => (encodeUtf8_isSome_iff s).1 (henc s hs)
  change ServiceKit.Sample.refusal _ = none ↔ _
  rw [ServiceKit.Sample.refusal_eq_none]
  simp only [List.forall_mem_append]
  rw [forall_mem_pathOf (P := fun c => c.isControl = false) rfl,
    forall_mem_pathOf (P := fun c => c.isSurrogate = false) rfl]
  simp only [eq_true hcontrol, eq_true hsurrogate, eq_true hsegs, true_and, and_true]

def unreachable : Http := ⟨fun _ => none, fun _ _ => .error (.exception "ConnectError")⟩

def schemas : Schemas where
  leaseDecision _ := .error .validationError
  activityRecord _ := .error .validationError
  dictOfPairs _ := .error .typeError

end Sample

/-- A lease whose identifier is a path is released at another path, and one whose identifier is fresh is not. -/
theorem namesResource_iff_of_fresh : NamesResource Sample.httpx Sample.client (.release (str "lease_0a")) ∧
    ¬ NamesResource Sample.httpx Sample.client (.release (str "lease_0a/heartbeat")) ∧
    ¬ NamesResource Sample.httpx Sample.client (.release (str "lease\n0a")) := by
  have ha : (Reference.split Sample.client.baseUrl).authority.isSome = true := by decide +kernel
  have hiff : ∀ id, (encodeUtf8 id).isSome → (NamesResource Sample.httpx Sample.client (.release id) ↔ _) :=
    fun id hid => namesResource_iff (fun _ _ _ => rfl) ha Sample.takes_client fun _ h => by
      obtain rfl := Option.mem_some_iff.1 h
      exact hid
  refine ⟨(hiff _ (by decide +kernel)).2 ⟨by decide +kernel, by decide +kernel, by decide +kernel⟩, ?_, ?_⟩
  · intro h
    exact absurd (((hiff _ (by decide +kernel)).1 h).2.1 _ rfl).1 (by decide +kernel)
  · intro h
    exact absurd (((hiff _ (by decide +kernel)).1 h).2.1 _ rfl).2 (by decide +kernel)

section Unconfigured

variable {client : ResourceGovernorClient}

theorem running_fallback (now : ℚ) (uuid : Str) (request : LeaseRequest) :
    Running 60 10 now (LeaseRecord.fromRequest now uuid request fallbackDecision.toLeaseDecision) :=
  ⟨rfl, rfl, rfl, rfl⟩

theorem eq_fallbackDecision {op : Operation} {d : LeaseDecision.Full} (h : client.unanswered op = .ok (.decision d)) :
    d = fallbackDecision := by
  have hfallback : op.fallback = some (.decision d) := by
    unfold unanswered at h
    split at h
    · split at h
      · cases h
        assumption
      · cases h
    · cases h
  cases op <;> simp [Operation.fallback] at hfallback
  exact hfallback.symm

/-- **A client without a URL makes no request.  It answers for leases if it falls back, and for nothing else; and
whoever heartbeats every ten seconds holds each lease that it grants, without a gap.** -/
theorem session_of_unconfigured (hurl : client.baseUrl = []) (httpx : Httpx) (http : Http) (schemas : Schemas)
    (ops : List Operation) :
    client.session httpx http schemas ops [] = (ops.map client.unanswered, []) ∧
    ∀ d, .ok (.decision d) ∈ (client.session httpx http schemas ops []).1 → d.granted = true ∧
      ∀ now uuid request times, OnTime 10 now times →
        NeverLost (LeaseRecord.fromRequest now uuid request d.toLeaseDecision) times ∧
        ∀ x, now ≤ x → x < ((LeaseRecord.fromRequest now uuid request d.toLeaseDecision).after times).expiresAt →
          ∃ done, done <+: times ∧
            Live ((LeaseRecord.fromRequest now uuid request d.toLeaseDecision).after done) x := by
  rw [session_of_eq hurl]
  refine ⟨rfl, fun d hd => ?_⟩
  obtain ⟨op, -, hop⟩ := List.mem_map.1 hd
  obtain rfl := eq_fallbackDecision hop
  refine ⟨rfl, fun now uuid request times htimes => ?_⟩
  have hr := running_fallback now uuid request
  have hpos : (0 : ℤ) < 60 := by decide
  have hnever := (hr.unbroken_iff hpos).2 (htimes.unbroken (by norm_num))
  exact ⟨hnever, fun x hx hexpires => hr.exists_live hpos hnever hx hexpires⟩

end Unconfigured

theorem session_of_unconfigured_of_two :
    (make (fun _ => none) none none (.ofInt 10) true).session Sample.httpx Sample.unreachable Sample.schemas
        [.release (str "lease_0a"), .releaseActivity (str "activity_0a")] [] =
      ([.ok (.status [(.str (str "status"), .str (str "released")), (.str (str "lease_id"), .str (str "lease_0a"))]),
        .error notConfigured], []) :=
  (session_of_unconfigured (by decide +kernel) Sample.httpx Sample.unreachable Sample.schemas _).1

end SharedAi.ResourceGovernor
