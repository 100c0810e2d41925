import SharedAi.Control.Calls
import SharedAi.ServiceKit.Request
import SharedAi.ServiceKit.RequiredClaims

/-!
# The dependency

`require_capability_grant`, which a route runs before its handler.

* `presentedHeaders` — the token and the bound headers, each from a header that occurs once;
* `Dependency.prepare` — the request rebuilt, the token verified, the redemption and its headers;
* `Dependency.requireCapabilityGrant` — these two, one call of the redeemer, and its answer;
* `Entitled` — what holds of every redemption that is asked for;
* `requireCapabilityGrant_redeems` — the redeemer is called at most once, for an entitled redemption only,
  and a grant is returned if and only if it answers `True`.
-/

namespace SharedAi.ServiceKit

open SharedAi.Control SharedAi.Data SharedAi.Json SharedAi.Num SharedAi.Python SharedAi.Text

/-! ### Headers -/

/-- `GRANT_HEADER`. -/
def grantHeader : String := "X-AI-Local-Capability-Grant"

/-- `_single_header`. -/
def singleHeader (request : Request) (name : String) (required : Bool) : Except Exn Str := do
  let values := request.getlist name
  ensure (values.length ≤ 1) (.capabilityGrantDenied "capability_grant_header_duplicated")
  let value := (values.head?.map Str.strip).getD []
  ensure (¬ (required = true ∧ value = [])) (.capabilityGrantDenied "capability_grant_header_missing")
  pure value

/-- The token and the dictionary `bound_headers`. -/
def presentedHeaders (request : Request) : Except Exn (Str × List (PyKey × PyVal)) := do
  let token ← singleHeader request grantHeader true
  let bound ← boundHeaders.mapM fun b =>
    (singleHeader request b.1 true).map fun value => (PyKey.str (str b.1), PyVal.str value)
  pure (token, bound)

/-- A character of `_HTTP_TOKEN_RE`. -/
def isTokenChar (c : PyChar) : Bool := c.isLower || isMethodChar c

/-- `_HTTP_TOKEN_RE.fullmatch`. -/
def tokenMatches (s : Str) : Bool := decide (s ≠ []) && s.all isTokenChar

/-- Where the headers for the authority come from. -/
inductive RedeemAuthHeaders where
  | none
  | value (v : PyVal)
  | callable

/-- One turn of the loop of `_resolved_auth_headers`. -/
def authHeader : PyKey × PyVal → Except Exn (Str × Str)
  | (.str key, item) =>
    if tokenMatches key then
      match item with
      | .str value =>
        if value ≠ [] ∧ .scalar '\r' ∉ value ∧ .scalar '\n' ∉ value then .ok (key, value)
        else .error (.capabilityGrantFormatError "broker_auth_header_value_invalid")
      | _ => .error (.capabilityGrantFormatError "broker_auth_header_value_invalid")
    else .error (.capabilityGrantFormatError "broker_auth_header_name_invalid")
  | (.object _, _) => .error (.capabilityGrantFormatError "broker_auth_header_name_invalid")

/-- The checks of `_resolved_auth_headers` on the resolved value. -/
def authHeadersOf : PyVal → Except Exn (List (Str × Str))
  | .dict ms => ms.mapM authHeader
  | .proxy ms => ms.mapM authHeader
  | _ => .error (.capabilityGrantFormatError "broker_auth_headers_invalid")

/-- `_resolved_auth_headers`; `answer` is what the source answers, if it is called. -/
def resolvedAuthHeaders (source : RedeemAuthHeaders) (answer : Except Exn PyVal) : Except Exn (List (Str × Str)) :=
  match source with
  | .none => .ok []
  | .value v => authHeadersOf v
  | .callable => answer >>= authHeadersOf

/-! ### Configuration -/

/-- What `capability_grant_dependency` closes over, with its checks. -/
structure Dependency (py : Interp) where
  verifier : CapabilityGrantVerifier
  receiverId : Str
  transportType : Str
  service : Str
  authProfile : Option Str
  tlsAliasProfile : Option Str
  configuredClaims : Value
  requiredClaims : List (Str × Bytes)
  redeemAuthHeaders : RedeemAuthHeaders
  valid : (isConfigText receiverId && isConfigText transportType && isConfigText service) = true
  snapshot : requiredClaimsSnapshot py configuredClaims = .ok requiredClaims

/-- The checks of `capability_grant_dependency`, in its order. -/
def Dependency.make (py : Interp) (verifier : CapabilityGrantVerifier) (receiverId transportType service : PyVal)
    (redeemerCallable : Bool) (authProfile tlsAliasProfile : Option Str) (configuredClaims : Value)
    (redeemAuthHeaders : RedeemAuthHeaders) : Except Exn (Dependency py) :=
  match hr : configText "capability_receiver_id_missing" receiverId with
  | .error e => .error e
  | .ok r =>
  match ht : configText "capability_transport_type_missing" transportType with
  | .error e => .error e
  | .ok t =>
  match hs : configText "capability_transport_service_missing" service with
  | .error e => .error e
  | .ok s =>
  if redeemerCallable = true then
    match hc : requiredClaimsSnapshot py configuredClaims with
    | .error e => .error e
    | .ok snapshot =>
      .ok {
        verifier, authProfile, tlsAliasProfile, configuredClaims, redeemAuthHeaders
        receiverId := r
        transportType := t
        service := s
        requiredClaims := snapshot
        valid := by
          rw [isConfigText_of_configText hr, isConfigText_of_configText ht, isConfigText_of_configText hs]
          rfl
        snapshot := hc }
  else .error (.capabilityGrantFormatError "capability_grant_redeemer_invalid")

/-- Every configuration is what `capability_grant_dependency` closes over. -/
theorem Dependency.make_self {py : Interp} (d : Dependency py) :
    Dependency.make py d.verifier (.str d.receiverId) (.str d.transportType) (.str d.service) true d.authProfile
      d.tlsAliasProfile d.configuredClaims d.redeemAuthHeaders = .ok d := by
  have h := d.valid
  simp only [Bool.and_eq_true] at h
  obtain ⟨⟨hr, ht⟩, hs⟩ := h
  unfold Dependency.make
  split
  next e he => exact absurd he (not_error_of_ok (configText_of_isConfigText hr))
  next r he =>
  obtain rfl := Except.ok.inj ((configText_of_isConfigText hr).symm.trans he)
  split
  next e he => exact absurd he (not_error_of_ok (configText_of_isConfigText ht))
  next t he =>
  obtain rfl := Except.ok.inj ((configText_of_isConfigText ht).symm.trans he)
  split
  next e he => exact absurd he (not_error_of_ok (configText_of_isConfigText hs))
  next s he =>
  obtain rfl := Except.ok.inj ((configText_of_isConfigText hs).symm.trans he)
  rw [if_pos rfl]
  split
  next e he => exact absurd he (not_error_of_ok d.snapshot)
  next snapshot he =>
  obtain rfl := Except.ok.inj (d.snapshot.symm.trans he)
  rfl

/-- What a call of the redeemer returns: a value, or an awaitable and what awaiting it gives. -/
inductive Returned where
  | value (v : PyVal)
  | awaitable (result : Except Exn PyVal)

/-- What the clock and the source of the headers answer while one request is handled. -/
structure Sources where
  now : Except Exn Float64
  authHeaders : Except Exn PyVal

/-- What the callbacks answer while one request is handled. -/
structure Callbacks extends Sources where
  redeem : CapabilityGrantRedemptionRequest → List (Str × Str) → Except Exn Returned

/-! ### Handling a request -/

/-- `except CapabilityGrantDenied` around the headers. -/
def headersRefused : Exn → Option Exn
  | .capabilityGrantDenied code => some (.httpException 401 code)
  | _ => none

/-- The `except` clauses around the preparation. -/
def requestRefused : Exn → Option Exn
  | .capabilityGrantFormatError code => some (.httpException 400 code)
  | .capabilityGrantDenied code => some (.httpException 403 code)
  | .validationError => some (.httpException 400 "capability_grant_request_invalid")
  | _ => none

/-- The `except` clauses around the redeemer. -/
def redeemFailed (e : Exn) : Option Exn :=
  match e with
  | .capabilityGrantDenied code => some (.httpException 403 code)
  | e => if e.isException then some (.httpException 503 "capability_grant_redeem_unavailable") else none

/-- A redemption, as the redeemer is called with it. -/
structure Call where
  redemption : CapabilityGrantRedemptionRequest
  authHeaders : List (Str × Str)

/-- `if inspect.isawaitable(redeemed): redeemed = await redeemed`. -/
def awaited : Returned → Except Exn PyVal
  | .value v => .ok v
  | .awaitable result => result

/-- `if redeemed is not True: …`. -/
def conclude (grant : VerifiedCapabilityGrant) : PyVal → Except Exn VerifiedCapabilityGrant
  | .bool true => .ok grant
  | _ => .error (.httpException 403 "capability_grant_redeem_denied")

namespace Dependency

variable {py : Interp} (d : Dependency py) (crypto : Crypto) (sources : Sources) (callbacks : Callbacks)
  (request : Request)

def transportOf : Except Exn CapabilityGrantTransport := do
  let path ← reconstructFastapiRawPath request
  CapabilityGrantTransport.make d.transportType d.service (py.upper request.method) path d.authProfile
    d.tlsAliasProfile

/-- The block of `require_capability_grant` before the redeemer is called. -/
def prepare (token : Str) (bound : List (PyKey × PyVal)) : Except Exn (VerifiedCapabilityGrant × Call) := do
  let requestPayload ← reconstructFastapiRequest py request
  let transport ← d.transportOf request
  let now ← sources.now
  let grant ← d.verifier.verify py crypto token requestPayload (.transport transport) bound (some now) now
  verifyRequiredClaims py grant d.requiredClaims
  let fingerprint ← tokenFingerprint crypto token
  let redemption ← CapabilityGrantRedemptionRequest.make grant.grantId grant.grantHash fingerprint d.receiverId
    grant.audience grant.requestHash transport
  let authHeaders ← resolvedAuthHeaders d.redeemAuthHeaders sources.authHeaders
  pure (grant, ⟨redemption, authHeaders⟩)

/-- The two blocks before the redeemer is called, with their `except` clauses. -/
def authorize : Except Exn (VerifiedCapabilityGrant × Call) := do
  let (token, bound) ← catching headersRefused (presentedHeaders request)
  catching requestRefused (d.prepare crypto sources request token bound)

/-- `require_capability_grant`, with the calls of the redeemer. -/
def requireCapabilityGrant : Calls Call Exn VerifiedCapabilityGrant := do
  let (grant, call) ← Calls.lift (d.authorize crypto callbacks.toSources request)
  let redeemed ← Calls.catching redeemFailed do
    let returned ← Calls.call call (callbacks.redeem call.redemption call.authHeaders)
    Calls.lift (awaited returned)
  Calls.lift (conclude grant redeemed)

end Dependency

/-! ### Entitlement -/

/-- The redemption `call` is the one this request is entitled to: its token, headers, body, path, claims and
authority headers are in order, and the redemption repeats the verified grant. -/
structure Entitled {py : Interp} (d : Dependency py) (crypto : Crypto) (sources : Sources) (request : Request)
    (token : Str) (bound : List (PyKey × PyVal)) (payload : PyVal) (now : Float64) (grant : VerifiedCapabilityGrant)
    (call : Call) : Prop where
  grantHeader : ∃ value, request.getlist ServiceKit.grantHeader = [value] ∧ value.strip = token ∧ token ≠ []
  boundHeaders : List.Forall₂ (fun b m => ∃ value, request.getlist b.1 = [value] ∧ value.strip ≠ [] ∧
    m = (PyKey.str (str b.1), PyVal.str value.strip)) ServiceKit.boundHeaders bound
  rebuilt : reconstructFastapiRequest py request = .ok payload
  path : reconstructFastapiRawPath request = .ok call.redemption.transport.path
  method : call.redemption.transport.method = py.upper request.method
  transportType : call.redemption.transport.type = d.transportType
  service : call.redemption.transport.service = d.service
  authProfile : call.redemption.transport.authProfile = d.authProfile
  tlsAliasProfile : call.redemption.transport.tlsAliasProfile = d.tlsAliasProfile
  clock : sources.now = .ok now
  verified : d.verifier.verify py crypto token payload (.transport call.redemption.transport) bound (some now) now =
    .ok grant
  requiredClaims : verifyRequiredClaims py grant d.requiredClaims = .ok ()
  authHeaders : resolvedAuthHeaders d.redeemAuthHeaders sources.authHeaders = .ok call.authHeaders
  grantId : call.redemption.grantId = grant.grantId
  grantHash : call.redemption.grantHash = grant.grantHash
  tokenFingerprint : ServiceKit.tokenFingerprint crypto token = .ok call.redemption.tokenFingerprint
  receiverId : call.redemption.receiverId = d.receiverId
  audience : call.redemption.audience = grant.audience
  requestHash : call.redemption.requestHash = grant.requestHash

section Headers

variable {request : Request}

theorem singleHeader_eq_ok {name : String} {value : Str} : singleHeader request name true = .ok value ↔
    ∃ v, request.getlist name = [v] ∧ v.strip = value ∧ value ≠ [] := by
  unfold singleHeader
  simp only [check_eq_ok, ensure_eq_ok]
  constructor
  · rintro ⟨hlen, hne, h⟩
    cases h
    cases hl : request.getlist name with
    | nil =>
      rw [hl] at hne
      exact absurd ⟨trivial, rfl⟩ hne
    | cons v vs =>
      rw [hl] at hlen hne
      obtain rfl : vs = [] := List.length_eq_zero_iff.1 (by simpa using hlen)
      exact ⟨v, rfl, rfl, fun h => hne ⟨trivial, h⟩⟩
  · rintro ⟨v, hv, rfl, hne⟩
    rw [hv]
    exact ⟨le_rfl, fun h => hne h.2, rfl⟩

theorem presentedHeaders_eq_ok {token : Str} {bound : List (PyKey × PyVal)} :
    presentedHeaders request = .ok (token, bound) ↔
      (∃ v, request.getlist grantHeader = [v] ∧ v.strip = token ∧ token ≠ []) ∧
      List.Forall₂ (fun b m => ∃ v, request.getlist b.1 = [v] ∧ v.strip ≠ [] ∧
        m = (PyKey.str (str b.1), PyVal.str v.strip)) boundHeaders bound := by
  have hturn : ∀ (b : String × (RequiredGrantClaims → Str)) (m : PyKey × PyVal),
      (singleHeader request b.1 true).map (fun value => (PyKey.str (str b.1), PyVal.str value)) = .ok m ↔
        ∃ v, request.getlist b.1 = [v] ∧ v.strip ≠ [] ∧ m = (PyKey.str (str b.1), PyVal.str v.strip) := by
    intro b m
    rw [map_eq_ok]
    constructor
    · rintro ⟨value, hvalue, rfl⟩
      obtain ⟨v, hv, rfl, hne⟩ := singleHeader_eq_ok.1 hvalue
      exact ⟨v, hv, hne, rfl⟩
    · rintro ⟨v, hv, hne, rfl⟩
      exact ⟨_, singleHeader_eq_ok.2 ⟨v, hv, rfl, hne⟩, rfl⟩
  unfold presentedHeaders
  simp only [bind_eq_ok, mapM_eq_ok, hturn, singleHeader_eq_ok]
  constructor
  · rintro ⟨token', htoken, bound', hbound, h⟩
    cases h
    exact ⟨htoken, hbound⟩
  · rintro ⟨htoken, hbound⟩
    exact ⟨token, htoken, bound, hbound, rfl⟩

end Headers

theorem redemption_make_eq_ok {grantId grantHash fingerprint receiverId audience requestHash : Str}
    {transport : CapabilityGrantTransport} {r : CapabilityGrantRedemptionRequest} :
    CapabilityGrantRedemptionRequest.make grantId grantHash fingerprint receiverId audience requestHash transport =
        .ok r ↔
      r.grantId = grantId ∧ r.grantHash = grantHash ∧ r.tokenFingerprint = fingerprint ∧ r.receiverId = receiverId ∧
        r.audience = audience ∧ r.requestHash = requestHash ∧ r.transport = transport := by
  unfold CapabilityGrantRedemptionRequest.make
  constructor
  · intro h
    split at h
    · cases h
      simp
    · cases h
  · rintro ⟨rfl, rfl, rfl, rfl, rfl, rfl, rfl⟩
    rw [dif_pos r.valid]

section Handler

variable {py : Interp} {d : Dependency py} {crypto : Crypto} {sources : Sources} {callbacks : Callbacks}
  {request : Request} {grant : VerifiedCapabilityGrant} {call : Call}

theorem transportOf_eq_ok {t : CapabilityGrantTransport} : d.transportOf request = .ok t ↔
    reconstructFastapiRawPath request = .ok t.path ∧ t.method = py.upper request.method ∧ t.type = d.transportType ∧
      t.service = d.service ∧ t.authProfile = d.authProfile ∧ t.tlsAliasProfile = d.tlsAliasProfile := by
  unfold Dependency.transportOf
  simp only [bind_eq_ok, make_eq_ok]
  constructor
  · rintro ⟨path, hpath, ht, hs, hm, rfl, ha, hl⟩
    exact ⟨hpath, hm, ht, hs, ha, hl⟩
  · rintro ⟨hpath, hm, ht, hs, ha, hl⟩
    exact ⟨_, hpath, ht, hs, hm, rfl, ha, hl⟩

/-- What is authorized is entitled to its redemption, and conversely. -/
theorem authorize_eq_ok : d.authorize crypto sources request = .ok (grant, call) ↔
    ∃ token bound payload now, Entitled d crypto sources request token bound payload now grant call := by
  constructor
  · intro h
    obtain ⟨⟨token, bound⟩, hpresented, h⟩ := bind_eq_ok.1 h
    obtain ⟨htoken, hbound⟩ := presentedHeaders_eq_ok.1 (catching_eq_ok.1 hpresented)
    have h := catching_eq_ok.1 h
    obtain ⟨payload, hpayload, h⟩ := bind_eq_ok.1 h
    obtain ⟨transport, htransport, h⟩ := bind_eq_ok.1 h
    obtain ⟨now, hnow, h⟩ := bind_eq_ok.1 h
    obtain ⟨grant', hverified, h⟩ := bind_eq_ok.1 h
    obtain ⟨hrequired, h⟩ := check_eq_ok.1 h
    obtain ⟨fingerprint, hfingerprint, h⟩ := bind_eq_ok.1 h
    obtain ⟨redemption, hredemption, h⟩ := bind_eq_ok.1 h
    obtain ⟨authHeaders, hauth, h⟩ := bind_eq_ok.1 h
    cases h
    obtain ⟨h1, h2, rfl, h4, h5, h6, rfl⟩ := redemption_make_eq_ok.1 hredemption
    obtain ⟨hpath, hm, ht, hs, ha, hl⟩ := transportOf_eq_ok.1 htransport
    exact ⟨token, bound, payload, now, htoken, hbound, hpayload, hpath, hm, ht, hs, ha, hl, hnow, hverified, hrequired,
      hauth, h1, h2, hfingerprint, h4, h5, h6⟩
  · rintro ⟨token, bound, payload, now, he⟩
    have htransport := transportOf_eq_ok.2
      ⟨he.path, he.method, he.transportType, he.service, he.authProfile, he.tlsAliasProfile⟩
    have hredemption := redemption_make_eq_ok.2
      ⟨he.grantId, he.grantHash, rfl, he.receiverId, he.audience, he.requestHash, rfl⟩
    have hpresented := presentedHeaders_eq_ok.2 ⟨he.grantHeader, he.boundHeaders⟩
    refine bind_eq_ok.2 ⟨(token, bound), catching_eq_ok.2 hpresented, ?_⟩
    refine catching_eq_ok.2 (bind_eq_ok.2 ⟨payload, he.rebuilt, bind_eq_ok.2 ⟨_, htransport, ?_⟩⟩)
    refine bind_eq_ok.2 ⟨now, he.clock, bind_eq_ok.2 ⟨grant, he.verified, check_eq_ok.2 ⟨he.requiredClaims, ?_⟩⟩⟩
    refine bind_eq_ok.2 ⟨_, he.tokenFingerprint, bind_eq_ok.2 ⟨_, hredemption, ?_⟩⟩
    exact bind_eq_ok.2 ⟨_, he.authHeaders, rfl⟩

/-- The signed claims hold every configured one. -/
theorem Entitled.holdsClaims {token : Str} {bound : List (PyKey × PyVal)} {payload : PyVal} {now : Float64}
    (he : Entitled d crypto sources request token bound payload now grant call) :
    ∃ ms, IsFrozen (.dict ms) grant.claims ∧ ∀ m ∈ items d.configuredClaims, HoldsClaim ms m := by
  obtain ⟨ms, hms, hk, hv⟩ := claims_of_verify now he.verified
  exact ⟨ms, (freezeJson_eq_ok.1 hms).1, (verifyRequiredClaims_eq_ok hms hk hv d.snapshot).1 he.requiredClaims⟩

theorem conclude_eq_ok {v : PyVal} {g : VerifiedCapabilityGrant} :
    conclude grant v = .ok g ↔ v = .bool true ∧ grant = g := by
  unfold conclude
  split
  · simp
  · next hv =>
    constructor
    · intro h
      cases h
    · rintro ⟨rfl, -⟩
      exact absurd rfl hv

/-- What the redeemer answers to a call, once awaited. -/
def Callbacks.answer (callbacks : Callbacks) (call : Call) : Except Exn PyVal :=
  callbacks.redeem call.redemption call.authHeaders >>= awaited

/-- A request that is not authorized makes no call. -/
theorem require_of_error {e : Exn} (h : d.authorize crypto callbacks.toSources request = .error e) :
    d.requireCapabilityGrant crypto callbacks request [] = (.error e, []) := by
  rw [Dependency.requireCapabilityGrant, Calls.lift_bind, h]

/-- A request that is authorized makes one call, and the answer decides. -/
theorem require_of_ok (h : d.authorize crypto callbacks.toSources request = .ok (grant, call)) :
    d.requireCapabilityGrant crypto callbacks request [] =
      (catching redeemFailed (callbacks.answer call) >>= conclude grant, [call]) := by
  rw [Dependency.requireCapabilityGrant, Calls.lift_bind, h]
  dsimp only
  rw [Calls.catching_bind_lift, Calls.call_bind_lift]
  rfl

/-- A grant is returned if and only if the request is entitled to a redemption and the answer is `True`. -/
theorem require_eq_ok : (d.requireCapabilityGrant crypto callbacks request []).1 = .ok grant ↔
    ∃ call, d.authorize crypto callbacks.toSources request = .ok (grant, call) ∧
      callbacks.answer call = .ok (.bool true) := by
  cases h : d.authorize crypto callbacks.toSources request with
  | error e => simp [require_of_error h]
  | ok p =>
    obtain ⟨g, call⟩ := p
    rw [require_of_ok h]
    simp only [bind_eq_ok, catching_eq_ok, conclude_eq_ok]
    constructor
    · rintro ⟨v, hv, rfl, rfl⟩
      exact ⟨call, rfl, hv⟩
    · rintro ⟨c, hc, hv⟩
      cases hc
      exact ⟨_, hv, rfl, rfl⟩

end Handler

/-- **A request redeems at most once, and only what it is entitled to.** -/
theorem requireCapabilityGrant_redeems {py : Interp} (d : Dependency py) (crypto : Crypto) (callbacks : Callbacks)
    (request : Request) :
    (d.requireCapabilityGrant crypto callbacks request []).2.length ≤ 1 ∧
    (∀ call ∈ (d.requireCapabilityGrant crypto callbacks request []).2, ∃ token bound payload now grant,
      Entitled d crypto callbacks.toSources request token bound payload now grant call ∧
      ∃ ms, IsFrozen (.dict ms) grant.claims ∧ ∀ m ∈ items d.configuredClaims, HoldsClaim ms m) ∧
    ∀ grant, (d.requireCapabilityGrant crypto callbacks request []).1 = .ok grant ↔
      ∃ call token bound payload now, (d.requireCapabilityGrant crypto callbacks request []).2 = [call] ∧
        Entitled d crypto callbacks.toSources request token bound payload now grant call ∧
        callbacks.redeem call.redemption call.authHeaders >>= awaited = .ok (.bool true) := by
  cases h : d.authorize crypto callbacks.toSources request with
  | error e =>
    rw [require_of_error h]
    refine ⟨Nat.zero_le 1, by simp, fun grant => ⟨fun hg => ?_, ?_⟩⟩
    · cases hg
    · rintro ⟨call, token, bound, payload, now, hc, -⟩
      cases hc
  | ok p =>
    obtain ⟨g, call⟩ := p
    refine ⟨?_, ?_, fun grant => ⟨fun hg => ?_, ?_⟩⟩
    · rw [require_of_ok h]
      exact le_rfl
    · intro c hc
      rw [require_of_ok h] at hc
      obtain rfl := List.mem_singleton.1 hc
      obtain ⟨token, bound, payload, now, he⟩ := authorize_eq_ok.1 h
      exact ⟨token, bound, payload, now, g, he, he.holdsClaims⟩
    · obtain ⟨c, hc, hv⟩ := require_eq_ok.1 hg
      obtain ⟨token, bound, payload, now, he⟩ := authorize_eq_ok.1 hc
      refine ⟨c, token, bound, payload, now, ?_, he, hv⟩
      rw [require_of_ok hc]
    · rintro ⟨c, token, bound, payload, now, -, he, hv⟩
      exact require_eq_ok.2 ⟨c, authorize_eq_ok.2 ⟨token, bound, payload, now, he⟩, hv⟩

end SharedAi.ServiceKit
