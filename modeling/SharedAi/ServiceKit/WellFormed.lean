import SharedAi.ServiceKit.Issue

/-!
# Well-formed requests

What `require_capability_grant` looks for in a request, in terms of its headers, its path and the text of its body.

* `CarriesBody`, `Carries` — the body as the document that its text spells, and the value hashed for the request;
* `WellFormed` — the headers, the path and this value are in order;
* `HeadersFor` — the headers for the authority, from where they are configured;
* `Qualifies` — the request, its token and its claims qualify for a redemption;
* `qualifies_iff` — these requests are the ones entitled to a redemption.
-/

namespace SharedAi.ServiceKit

open SharedAi.Control SharedAi.Data SharedAi.Json SharedAi.Num SharedAi.Python SharedAi.Text

/-- The body of the request is `v`: it is empty, or the JSON text of an unambiguous document. -/
inductive CarriesBody (py : Interp) (request : Request) : PyVal → Prop
  | empty (empty : request.body = []) : CarriesBody py request .none
  | json {text : Str} {d : Doc} (nonempty : request.body ≠ []) (json : request.hasJson py = true)
      (utf8 : decodeUtf8 request.body = some text) (spelled : Spells py text d) (ints : intsWithin py d = true)
      (clear : unambiguous d = true) : CarriesBody py request (valueOf d)

/-- The value that is hashed for the request: its parameters, its body, or both. -/
inductive Carries (py : Interp) (request : Request) : PyVal → Prop
  | params (safe : isSafeMethod (py.upper request.method) = true) (empty : request.body = []) :
      Carries py request (.dict (groupedParams request.query))
  | body {v : PyVal} (writes : isSafeMethod (py.upper request.method) = false) (carries : CarriesBody py request v)
      (bare : request.query = []) : Carries py request v
  | both {v : PyVal} (writes : isSafeMethod (py.upper request.method) = false) (carries : CarriesBody py request v)
      (query : request.query ≠ []) : Carries py request (envelope v (groupedParams request.query))

/-- The token and the six bound headers, each from a header that occurs once. -/
structure Presents (request : Request) (token : Str) (bound : List (PyKey × PyVal)) : Prop where
  grantHeader : ∃ value, request.getlist ServiceKit.grantHeader = [value] ∧ value.strip = token ∧ token ≠ []
  boundHeaders : List.Forall₂ (fun b m => ∃ value, request.getlist b.1 = [value] ∧ value.strip ≠ [] ∧
    m = (PyKey.str (str b.1), PyVal.str value.strip)) ServiceKit.boundHeaders bound

/-- The request is well formed for this receiver, whatever its token is. -/
structure WellFormed {py : Interp} (d : Dependency py) (request : Request) (token : Str)
    (bound : List (PyKey × PyVal)) (payload : PyVal) (transport : CapabilityGrantTransport) : Prop where
  presents : Presents request token bound
  carries : Carries py request payload
  rawPath : ∃ b, request.rawPath = some b ∧ decodeAscii b = some transport.path
  rooted : (str "//").isPrefixOf transport.path = false
  method : transport.method = py.upper request.method
  transportType : transport.type = d.transportType
  service : transport.service = d.service
  authProfile : transport.authProfile = d.authProfile
  tlsAliasProfile : transport.tlsAliasProfile = d.tlsAliasProfile

/-- Each item of the mapping is a header that can be sent. -/
def SendsHeaders (v : PyVal) (headers : List (Str × Str)) : Prop :=
  ∃ ms, (v = .dict ms ∨ v = .proxy ms) ∧ List.Forall₂ (fun m h => m = (PyKey.str h.1, PyVal.str h.2) ∧
    tokenMatches h.1 = true ∧ h.2 ≠ [] ∧ .scalar '\r' ∉ h.2 ∧ .scalar '\n' ∉ h.2) ms headers

/-- The headers for the authority: none, those configured, or those the source answers. -/
def HeadersFor (source : RedeemAuthHeaders) (answer : Except Exn PyVal) (headers : List (Str × Str)) : Prop :=
  match source with
  | .none => headers = []
  | .value v => SendsHeaders v headers
  | .callable => ∃ v, answer = .ok v ∧ SendsHeaders v headers

/-- A well-formed request arrives with a token whose claims allow it at this time. -/
structure Allowed {py : Interp} (d : Dependency py) (crypto : Crypto) (sources : Sources) (request : Request)
    (token : Str) (bound : List (PyKey × PyVal)) (payload : PyVal) (transport : CapabilityGrantTransport)
    (now : Float64) (c : Value) (ms : List (PyKey × PyVal)) (claims : RequiredGrantClaims) : Prop where
  wellFormed : WellFormed d request token bound payload transport
  clock : sources.now = .ok now
  finite : now.isFinite = true
  authorizes : Authorizes py crypto d.verifier token payload (.transport transport) bound now c ms claims

/-- The claims of an allowed request can be frozen and hold the configured ones, and the redemption repeats them. -/
structure Qualifies {py : Interp} (d : Dependency py) (crypto : Crypto) (sources : Sources) (request : Request)
    (token : Str) (bound : List (PyKey × PyVal)) (payload : PyVal) (now : Float64) (c : Value)
    (ms : List (PyKey × PyVal)) (claims : RequiredGrantClaims) (call : Call) : Prop where
  allowed : Allowed d crypto sources request token bound payload call.redemption.transport now c ms claims
  room : freezeFrames py c ≤ py.frames
  requiredClaims : ∀ m ∈ items d.configuredClaims, HoldsClaim ms m
  authHeaders : HeadersFor d.redeemAuthHeaders sources.authHeaders call.authHeaders
  redemption : RedemptionOf d crypto token claims call.redemption

/-! ### The request -/

section Requests

variable {py : Interp} {d : Dependency py} {request : Request} {token : Str} {bound : List (PyKey × PyVal)}
  {payload : PyVal} {transport : CapabilityGrantTransport}

theorem presentedHeaders_iff : presentedHeaders request = .ok (token, bound) ↔ Presents request token bound := by
  rw [presentedHeaders_eq_ok]
  exact ⟨fun h => ⟨h.1, h.2⟩, fun h => ⟨h.1, h.2⟩⟩

theorem reconstructBody_iff {v : PyVal} : reconstructBody py request = .ok v ↔ CarriesBody py request v := by
  constructor
  · intro h
    unfold reconstructBody at h
    split at h
    · next he =>
      cases h
      exact .empty he
    · next hne =>
      obtain ⟨hjson, h⟩ := check_eq_ok.1 h
      cases ht : decodeUtf8 request.body with
      | none => simp [strictJsonLoads, ht] at h
      | some text =>
        rw [strictJsonLoads_of_decoded (show decoded (.bytes request.body) = some text from ht)] at h
        obtain ⟨d, hd, hi, hu, rfl⟩ := strictLoadsText_sound h
        exact .json hne (ensure_eq_ok.1 hjson) ht hd hi hu
  · rintro (he | ⟨hne, hjson, ht, hd, hi, hu⟩)
    · rw [reconstructBody, if_pos he]
    · rw [reconstructBody, if_neg hne]
      refine check_eq_ok.2 ⟨ensure_eq_ok.2 hjson, ?_⟩
      rw [strictJsonLoads_of_decoded (show decoded (.bytes request.body) = some _ from ht)]
      exact strictLoadsText_complete hd hi hu

theorem reconstructFastapiRequest_iff (hm : methodMatches (py.upper request.method) = true) :
    reconstructFastapiRequest py request = .ok payload ↔ Carries py request payload := by
  rw [reconstructFastapiRequest_eq_ok hm]
  simp only [reconstructBody_iff, requestPayload_eq_ok, ne_eq, groupedParams_eq_nil]
  constructor
  · rintro ⟨hsafe, v, hv, ⟨hs, rfl, rfl⟩ | ⟨hs, hq, rfl⟩ | ⟨hs, hq, rfl⟩⟩
    · exact .params hs (by simpa [hs] using hsafe)
    · exact .body hs hv hq
    · exact .both hs hv hq
  · rintro (⟨hs, he⟩ | ⟨hs, hv, hq⟩ | ⟨hs, hv, hq⟩)
    · exact ⟨fun h => h.2 he, .none, .empty he, .inl ⟨hs, rfl, rfl⟩⟩
    · exact ⟨by simp [hs], _, hv, .inr (.inl ⟨hs, hq, rfl⟩)⟩
    · exact ⟨by simp [hs], _, hv, .inr (.inr ⟨hs, hq, rfl⟩)⟩

/-- A request is well formed if its headers, its value and its path are read. -/
theorem wellFormed_iff : WellFormed d request token bound payload transport ↔
    presentedHeaders request = .ok (token, bound) ∧ reconstructFastapiRequest py request = .ok payload ∧
      d.transportOf request = .ok transport := by
  rw [presentedHeaders_iff, transportOf_eq_ok]
  constructor
  · intro h
    have hm : methodMatches (py.upper request.method) = true := h.method ▸ methodMatches_method transport
    obtain ⟨b, hraw, hb⟩ := h.rawPath
    have hpath := reconstructFastapiRawPath_eq_ok.2 ⟨b, hraw, hb, validPath_path transport, h.rooted⟩
    exact ⟨h.presents, (reconstructFastapiRequest_iff hm).2 h.carries, hpath, h.method, h.transportType, h.service,
      h.authProfile, h.tlsAliasProfile⟩
  · rintro ⟨hp, hr, hpath, hmethod, htype, hservice, hauth, htls⟩
    have hm : methodMatches (py.upper request.method) = true := hmethod ▸ methodMatches_method transport
    obtain ⟨b, hraw, hb, -, hroot⟩ := reconstructFastapiRawPath_eq_ok.1 hpath
    exact ⟨hp, (reconstructFastapiRequest_iff hm).1 hr, ⟨b, hraw, hb⟩, hroot, hmethod, htype, hservice, hauth, htls⟩

end Requests

/-! ### The headers for the authority -/

theorem authHeader_eq_ok {m : PyKey × PyVal} {h : Str × Str} : authHeader m = .ok h ↔
    m = (PyKey.str h.1, PyVal.str h.2) ∧ tokenMatches h.1 = true ∧ h.2 ≠ [] ∧ .scalar '\r' ∉ h.2 ∧
      .scalar '\n' ∉ h.2 := by
  obtain ⟨k, v⟩ := m
  obtain ⟨name, value⟩ := h
  unfold authHeader
  constructor
  · intro h
    split at h
    · next key item heq =>
      cases heq
      split at h
      · next hk =>
        split at h
        · obtain ⟨hs, h⟩ := ite_eq_ok.1 h
          cases h
          exact ⟨rfl, hk, hs⟩
        · cases h
      · cases h
    · cases h
  · rintro ⟨hm, hk, hs⟩
    cases hm
    simp [hk, hs]

theorem authHeadersOf_iff {v : PyVal} {headers : List (Str × Str)} :
    authHeadersOf v = .ok headers ↔ SendsHeaders v headers := by
  have hmembers : ∀ ms : List (PyKey × PyVal), ms.mapM authHeader = .ok headers ↔ _ := fun _ => mapM_eq_ok
  simp only [authHeader_eq_ok] at hmembers
  constructor
  · intro h
    cases v with
    | dict ms => exact ⟨ms, .inl rfl, (hmembers ms).1 h⟩
    | proxy ms => exact ⟨ms, .inr rfl, (hmembers ms).1 h⟩
    | _ => cases h
  · rintro ⟨ms, rfl | rfl, h⟩
    · exact (hmembers ms).2 h
    · exact (hmembers ms).2 h

theorem resolvedAuthHeaders_iff {source : RedeemAuthHeaders} {answer : Except Exn PyVal}
    {headers : List (Str × Str)} :
    resolvedAuthHeaders source answer = .ok headers ↔ HeadersFor source answer headers := by
  cases source with
  | none => simp [resolvedAuthHeaders, HeadersFor, eq_comm]
  | value v => exact authHeadersOf_iff
  | callable =>
    rw [resolvedAuthHeaders, bind_eq_ok]
    exact exists_congr fun v => and_congr_right fun _ => authHeadersOf_iff

/-! ### The redemption -/

section Redemption

variable {py : Interp} {d : Dependency py} {crypto : Crypto} {sources : Sources} {request : Request} {token : Str}
  {bound : List (PyKey × PyVal)} {payload : PyVal} {now : Float64} {call : Call}

/-- **A request is entitled to a redemption if and only if it qualifies for it.** -/
theorem qualifies_iff : (∃ grant, Entitled d crypto sources request token bound payload now grant call) ↔
    ∃ c ms claims, Qualifies d crypto sources request token bound payload now c ms claims call := by
  constructor
  · rintro ⟨grant, he⟩
    have hnow := isFinite_of_verify now he.verified
    obtain ⟨⟨c, hk⟩, ms, claims, ha, hroom, hg⟩ := verify_sound now hnow he.verified
    obtain rfl : c = .dict ms := ha.object
    obtain ⟨b, s, hcan, -⟩ := ha.token
    have hv := (canonicalJsonBytes_eq_ok.1 hcan).1
    refine ⟨_, ms, claims, ⟨?_, he.clock, hnow, ha⟩, hroom, ?_, resolvedAuthHeaders_iff.1 he.authHeaders,
      redemptionOf_of_entitled hg he⟩
    · refine wellFormed_iff.2 ⟨presentedHeaders_eq_ok.2 ⟨he.grantHeader, he.boundHeaders⟩, he.rebuilt, ?_⟩
      exact transportOf_eq_ok.2
        ⟨he.path, he.method, he.transportType, he.service, he.authProfile, he.tlsAliasProfile⟩
    · exact (requiredClaims_of_grantOf hv he.verified hg).1 he.requiredClaims
  · rintro ⟨⟨c, hk⟩, ms, claims, ⟨hwf, hclock, hnow, ha⟩, hroom, hrequired, hauth, hr⟩
    obtain rfl : c = .dict ms := ha.object
    obtain ⟨b, s, hcan, -⟩ := ha.token
    have hv := (canonicalJsonBytes_eq_ok.1 hcan).1
    obtain ⟨grant, hverified, hg⟩ := verify_complete now hnow ha hroom
    obtain ⟨-, hrebuilt, htransport⟩ := wellFormed_iff.1 hwf
    obtain ⟨hpath, hmethod, htype, hservice, hprofile, htls⟩ := transportOf_eq_ok.1 htransport
    exact ⟨grant, {
      grantHeader := hwf.presents.grantHeader
      boundHeaders := hwf.presents.boundHeaders
      rebuilt := hrebuilt
      path := hpath
      method := hmethod
      transportType := htype
      service := hservice
      authProfile := hprofile
      tlsAliasProfile := htls
      clock := hclock
      verified := hverified
      requiredClaims := (requiredClaims_of_grantOf hv hverified hg).2 hrequired
      authHeaders := resolvedAuthHeaders_iff.2 hauth
      grantId := hr.grantId.trans hg.grantId.symm
      grantHash := hr.grantHash.trans hg.grantHash.symm
      tokenFingerprint := hr.tokenFingerprint
      receiverId := hr.receiverId
      audience := hr.audience.trans hg.audience.symm
      requestHash := hr.requestHash.trans hg.requestHash.symm }⟩

end Redemption

end SharedAi.ServiceKit
