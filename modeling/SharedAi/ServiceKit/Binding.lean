import SharedAi.ServiceKit.Dependency

/-!
# What a token binds

Two requests that are accepted with one token have one hashed value (`payload_of_accepted`).  The value of a
body without parameters is the body itself, so a client can send as a body what is hashed for another body
with parameters.

* `SameRequest` — two requests with the same method, path, body and parameters;
* `requestPayload_binds` — the hashed value determines body and parameters, given that both requests have
  parameters or neither has;
* `accepted_same_iff` — the requests a token is accepted for are the same up to that difference.
-/

namespace SharedAi.ServiceKit

open SharedAi.Control SharedAi.Data SharedAi.Json SharedAi.Num SharedAi.Python SharedAi.Text

/-! ### One payload -/

section Payload

variable {m : Str} {b₁ b₂ p₁ p₂ : PyVal} {q₁ q₂ : List (Str × Str)}

theorem jsonEq_envelope {n₁ n₂ : List (PyKey × PyVal)} : (envelope b₁ n₁).jsonEq (envelope b₂ n₂) = true ↔
    b₁.jsonEq b₂ = true ∧ PyVal.jsonEq (.dict n₁) (.dict n₂) = true := by
  have hne : ¬ PyKey.str (str "json") = .str (str "params") := by decide
  simp [envelope, PyVal.jsonEq_dict, hne, Ne.symm hne]

/-- The hashed value determines the body and the parameters, as far as it shows whether there are any. -/
theorem requestPayload_binds (h₁ : requestPayload m b₁ (groupedParams q₁) = .ok p₁)
    (h₂ : requestPayload m b₂ (groupedParams q₂) = .ok p₂) (h : p₁.jsonEq p₂ = true) :
    (b₁.jsonEq b₂ = true ∧ groupedParams q₁ = groupedParams q₂) ↔
      (groupedParams q₁ = [] ↔ groupedParams q₂ = []) := by
  constructor
  · rintro ⟨-, hq⟩
    rw [hq]
  intro hq
  rcases requestPayload_eq_ok.1 h₁ with ⟨hs₁, rfl, rfl⟩ | ⟨hs₁, hn₁, rfl⟩ | ⟨hs₁, hn₁, rfl⟩
  · rcases requestPayload_eq_ok.1 h₂ with ⟨-, rfl, rfl⟩ | ⟨hs₂, -, -⟩ | ⟨hs₂, -, -⟩
    · exact ⟨rfl, groupedParams_eq_of_jsonEq h⟩
    · rw [hs₁] at hs₂
      cases hs₂
    · rw [hs₁] at hs₂
      cases hs₂
  · rcases requestPayload_eq_ok.1 h₂ with ⟨hs₂, -, -⟩ | ⟨-, hn₂, rfl⟩ | ⟨-, hn₂, -⟩
    · rw [hs₁] at hs₂
      cases hs₂
    · exact ⟨h, hn₁.trans hn₂.symm⟩
    · exact absurd (hq.1 hn₁) hn₂
  · rcases requestPayload_eq_ok.1 h₂ with ⟨hs₂, -, -⟩ | ⟨-, hn₂, -⟩ | ⟨-, -, rfl⟩
    · rw [hs₁] at hs₂
      cases hs₂
    · exact absurd (hq.2 hn₂) hn₁
    · obtain ⟨hb, hp⟩ := jsonEq_envelope.1 h
      exact ⟨hb, groupedParams_eq_of_jsonEq hp⟩

end Payload

/-! ### Two accepted requests -/

/-- The two requests agree in method, path, body and parameters; no body is the body `null`. -/
structure SameRequest (py : Interp) (r₁ r₂ : Request) : Prop where
  method : r₁.method = r₂.method
  rawPath : r₁.rawPath = r₂.rawPath
  body : ∃ b₁ b₂, reconstructBody py r₁ = .ok b₁ ∧ reconstructBody py r₂ = .ok b₂ ∧ b₁.jsonEq b₂ = true
  params : canonicalQueryParams py r₁.params = canonicalQueryParams py r₂.params

def Hashed (py : Interp) (request : Request) (b : Bytes) : Prop :=
  ∃ payload, reconstructFastapiRequest py request = .ok payload ∧ canonicalJsonBytes py payload = .ok b

/-- SHA-256 tells the hashed values of the two requests apart. -/
def NoCollision (py : Interp) (crypto : Crypto) (r₁ r₂ : Request) : Prop :=
  ∀ b₁ b₂, Hashed py r₁ b₁ → Hashed py r₂ b₂ → crypto.sha256 b₁ = crypto.sha256 b₂ → b₁ = b₂

def Accepts {py : Interp} (d : Dependency py) (crypto : Crypto) (callbacks : Callbacks) (request : Request) : Prop :=
  ∃ grant, (d.requireCapabilityGrant crypto callbacks request []).1 = .ok grant

/-- The steps of a value that is rebuilt. -/
theorem reconstructFastapiRequest_eq_ok {py : Interp} {request : Request} {payload : PyVal}
    (hm : methodMatches (py.upper request.method) = true) : reconstructFastapiRequest py request = .ok payload ↔
      ¬ (isSafeMethod (py.upper request.method) = true ∧ request.body ≠ []) ∧
      ∃ body, reconstructBody py request = .ok body ∧
        requestPayload (py.upper request.method) body (groupedParams request.query) = .ok payload := by
  have hrest : ∀ body, reconstructBody py request = .ok body →
      (canonicalRequestPayload py (py.upper request.method) body request.params = .ok payload ↔
        requestPayload (py.upper request.method) body (groupedParams request.query) = .ok payload) := by
    intro body hbody
    rw [canonicalRequestPayload_eq_ok, upper_of_methodMatches py hm, sentPairs_eq, queryValuePairs_params]
    simp [hm, validate_of_reconstructBody hbody]
  unfold reconstructFastapiRequest
  rw [check_eq_ok, ensure_eq_ok, bind_eq_ok]
  exact and_congr_right fun _ => exists_congr fun body => and_congr_right fun hbody => hrest body hbody

theorem methodMatches_method (t : CapabilityGrantTransport) : methodMatches t.method = true := by
  have := t.valid
  simp only [transportValid, Bool.and_eq_true] at this
  exact this.1.1.1.2.2

theorem validPath_path (t : CapabilityGrantTransport) : validPath t.path = true := by
  have := t.valid
  simp only [transportValid, Bool.and_eq_true] at this
  exact this.1.1.2.2

/-- A path that is accepted is the decoded raw path, so it determines the raw path. -/
theorem rawPath_eq {r₁ r₂ : Request} {path : Str} (h₁ : reconstructFastapiRawPath r₁ = .ok path)
    (h₂ : reconstructFastapiRawPath r₂ = .ok path) : r₁.rawPath = r₂.rawPath := by
  obtain ⟨b₁, hb₁, hp₁, -⟩ := reconstructFastapiRawPath_eq_ok.1 h₁
  obtain ⟨b₂, hb₂, hp₂, -⟩ := reconstructFastapiRawPath_eq_ok.1 h₂
  rw [hb₁, hb₂, decodeAscii_injective hp₁ hp₂]

section Accepted

variable {py : Interp} {d : Dependency py} {crypto : Crypto} {callbacks : Callbacks} {request : Request}

/-- An accepted request is entitled to a redemption, and its token is the one it presents. -/
theorem Accepts.entitled (h : Accepts d crypto callbacks request) {token : Str}
    (ht : singleHeader request grantHeader true = .ok token) :
    ∃ bound payload now grant call,
      Entitled d crypto callbacks.toSources request token bound payload now grant call := by
  obtain ⟨grant, h⟩ := h
  obtain ⟨call, h, -⟩ := require_eq_ok.1 h
  obtain ⟨token', bound, payload, now, he⟩ := authorize_eq_ok.1 h
  obtain rfl : token' = token := Except.ok.inj ((singleHeader_eq_ok.2 he.grantHeader).symm.trans ht)
  exact ⟨bound, payload, now, grant, call, he⟩

/-- The claims of an accepted token bind the request. -/
theorem Entitled.binds {token : Str} {bound : List (PyKey × PyVal)} {payload : PyVal} {now : Float64}
    {grant : VerifiedCapabilityGrant} {call : Call}
    (he : Entitled d crypto callbacks.toSources request token bound payload now grant call) :
    ∃ c ms claims, Authorizes py crypto d.verifier token payload (.transport call.redemption.transport) bound now c ms
      claims ∧ claims.transport = call.redemption.transport ∧
      ∃ b, canonicalJsonBytes py payload = .ok b ∧ (crypto.sha256 b).hexdigest = claims.requestHash := by
  obtain ⟨c, ms, claims, ha, -⟩ := verify_sound now (isFinite_of_verify now he.verified) he.verified
  exact ⟨c, ms, claims, ha, ha.transport, canonicalSha256_eq_ok.1 ha.requestHash⟩

theorem Entitled.body {token : Str} {bound : List (PyKey × PyVal)} {payload : PyVal} {now : Float64}
    {grant : VerifiedCapabilityGrant} {call : Call}
    (he : Entitled d crypto callbacks.toSources request token bound payload now grant call) :
    ∃ body, reconstructBody py request = .ok body ∧
      requestPayload (py.upper request.method) body (groupedParams request.query) = .ok payload :=
  ((reconstructFastapiRequest_eq_ok (he.method ▸ methodMatches_method _)).1 he.rebuilt).2

end Accepted

/-- Two requests that are accepted with one token have one path, one method in upper case, and equal hashed
values. -/
theorem payload_of_accepted {py : Interp} {d : Dependency py} {crypto : Crypto} {c₁ c₂ : Callbacks} {r₁ r₂ : Request}
    {token : Str} {n₁ n₂ : List (PyKey × PyVal)} {p₁ p₂ : PyVal} {t₁ t₂ : Float64} {g₁ g₂ : VerifiedCapabilityGrant}
    {k₁ k₂ : Call} (h₁ : Entitled d crypto c₁.toSources r₁ token n₁ p₁ t₁ g₁ k₁)
    (h₂ : Entitled d crypto c₂.toSources r₂ token n₂ p₂ t₂ g₂ k₂) (hn : NoCollision py crypto r₁ r₂) :
    r₁.rawPath = r₂.rawPath ∧ py.upper r₁.method = py.upper r₂.method ∧ p₁.jsonEq p₂ = true := by
  obtain ⟨o₁, ms₁, claims, ha₁, ht₁, b₁, hb₁, hh₁⟩ := h₁.binds
  obtain ⟨o₂, ms₂, claims', ha₂, ht₂, b₂, hb₂, hh₂⟩ := h₂.binds
  obtain ⟨-, rfl⟩ := ha₁.claims_unique ha₂
  have htransport : k₁.redemption.transport = k₂.redemption.transport := ht₁.symm.trans ht₂
  have hpath := h₁.path
  have hmethod := h₁.method
  rw [htransport] at hpath hmethod
  have hdigest := hexdigest_injective (hh₁.trans hh₂.symm)
  obtain rfl := hn b₁ b₂ ⟨p₁, h₁.rebuilt, hb₁⟩ ⟨p₂, h₂.rebuilt, hb₂⟩ hdigest
  exact ⟨rawPath_eq hpath h₂.path, hmethod.symm.trans h₂.method, jsonEq_of_bytes hb₁ hb₂⟩

/-! ### One token, two requests -/

namespace Sample

def dependency : Dependency .cpython where
  verifier := verifier
  receiverId := str "files-1"
  transportType := str "http"
  service := str "files"
  authProfile := none
  tlsAliasProfile := none
  configuredClaims := ⟨.none, rfl⟩
  requiredClaims := []
  redeemAuthHeaders := .none
  valid := by decide +kernel
  snapshot := rfl

/-- The authority answers `True`, half a lifetime after the grant was issued. -/
def callbacks : Callbacks where
  now := .ok (.ofInt 1500)
  authHeaders := .ok .none
  redeem _ _ := .ok (.value (.bool true))

def call : Call where
  redemption :=
    ⟨interpreted.grantId, interpreted.grantHash,
      str "0b9e9525a9fc2a5c7bdc470e5a3f46e476ca19f0c175d6d0f4e4c5b8d2bf3bc4", str "files-1", interpreted.audience,
      interpreted.requestHash, transport, by decide +kernel⟩
  authHeaders := []

theorem presents (body : String) (query : List (Str × Str)) :
    singleHeader (request body query) grantHeader true = .ok token := by
  show singleHeader (request "" []) grantHeader true = .ok token
  decide +kernel

theorem presents_bound (body : String) (query : List (Str × Str)) :
    List.Forall₂ (fun b m => ∃ value, (request body query).getlist b.1 = [value] ∧ value.strip ≠ [] ∧
      m = (PyKey.str (str b.1), PyVal.str value.strip)) boundHeaders headers := by
  have hlist : ∀ name, (request body query).getlist name = (request "" []).getlist name := fun _ => rfl
  simp only [hlist]
  have bound : ∀ {name value : String} {claim : RequiredGrantClaims → Str},
      ((request "" []).getlist name = [str value] ∧ (str value).strip = str value ∧ str value ≠ []) →
      ∃ v, (request "" []).getlist (name, claim).1 = [v] ∧ v.strip ≠ [] ∧
        text name value = (PyKey.str (str (name, claim).1), PyVal.str v.strip) := by
    rintro name value claim ⟨hlist, hstrip, hne⟩
    exact ⟨str value, hlist, by rwa [hstrip], by rw [hstrip]; rfl⟩
  refine .cons (bound ?_) (.cons (bound ?_) (.cons (bound ?_) (.cons (bound ?_) (.cons (bound ?_)
    (.cons (bound ?_) .nil)))))
  all_goals decide +kernel

def hashed (request : Request) : Except Exn Bytes :=
  reconstructFastapiRequest .cpython request >>= canonicalJsonBytes .cpython

/-- A request whose hashed bytes are those of the token is entitled to the redemption of the token. -/
theorem entitled {body : String} {query : List (Str × Str)} (h : hashed (request body query) = .ok (bytesOf payload)) :
    ∃ p grant, Entitled dependency crypto callbacks.toSources (request body query) token headers p (.ofInt 1500) grant
      call := by
  obtain ⟨p, hp, hb⟩ := bind_eq_ok.1 h
  have hhash : canonicalSha256 .cpython crypto p = .ok interpreted.requestHash :=
    canonicalSha256_eq_ok.2 ⟨_, hb, by decide +kernel⟩
  have hauth := { authorizes with requestHash := hhash }
  obtain ⟨grant, hgrant, hg⟩ := verify_complete (.ofInt 1500) (by decide +kernel) hauth (by decide +kernel)
  refine ⟨p, grant, ?_⟩
  exact {
    grantHeader := singleHeader_eq_ok.1 (presents body query)
    boundHeaders := presents_bound body query
    rebuilt := hp
    path := show reconstructFastapiRawPath (request "" []) = _ by decide +kernel
    method := show call.redemption.transport.method = Interp.cpython.upper (str "POST") by decide +kernel
    transportType := rfl
    service := rfl
    authProfile := rfl
    tlsAliasProfile := rfl
    clock := rfl
    verified := hgrant
    requiredClaims := rfl
    authHeaders := rfl
    grantId := hg.grantId.symm
    grantHash := hg.grantHash.symm
    tokenFingerprint := by decide +kernel
    receiverId := rfl
    audience := hg.audience.symm
    requestHash := hg.requestHash.symm }

theorem accepts {body : String} {query : List (Str × Str)} (h : hashed (request body query) = .ok (bytesOf payload)) :
    Accepts dependency crypto callbacks (request body query) := by
  obtain ⟨p, grant, he⟩ := entitled h
  exact ⟨grant, require_eq_ok.2 ⟨call, authorize_eq_ok.2 ⟨_, _, _, _, he⟩, rfl⟩⟩

theorem noCollision {r₁ r₂ : Request} {b : Bytes} (h₁ : hashed r₁ = .ok b) (h₂ : hashed r₂ = .ok b) :
    NoCollision .cpython crypto r₁ r₂ := by
  rintro b₁ b₂ ⟨p₁, hp₁, hb₁⟩ ⟨p₂, hp₂, hb₂⟩ -
  have hb₁ := (bind_eq_ok.2 ⟨p₁, hp₁, hb₁⟩).symm.trans h₁
  have hb₂ := (bind_eq_ok.2 ⟨p₂, hp₂, hb₂⟩).symm.trans h₂
  exact Except.ok.inj (hb₁.trans hb₂.symm)

/-- `POST /v1/files?x=1` with the body `{"a": 1}`. -/
def plain : Request := request "\x7b\"a\": 1\x7d" [(str "x", str "1")]

def spaced : Request := request "\x7b \"a\" : 1 \x7d" [(str "x", str "1")]

/-- `POST /v1/files`, with the hashed value of the former as its body. -/
def enveloped : Request := request "\x7b\"json\": \x7b\"a\": 1\x7d, \"params\": \x7b\"x\": \"1\"\x7d\x7d" []

theorem hashed_plain : hashed plain = .ok (bytesOf payload) := by decide +kernel

theorem hashed_spaced : hashed spaced = .ok (bytesOf payload) := by decide +kernel

theorem hashed_enveloped : hashed enveloped = .ok (bytesOf payload) := by decide +kernel

end Sample

/-- The request redeems its grant, with one call of the redeemer. -/
theorem requireCapabilityGrant_redeems_of_plain :
    (∃ grant, (Sample.dependency.requireCapabilityGrant Sample.crypto Sample.callbacks Sample.plain []).1 = .ok grant) ∧
      (Sample.dependency.requireCapabilityGrant Sample.crypto Sample.callbacks Sample.plain []).2 = [Sample.call] := by
  obtain ⟨p, grant, he⟩ := Sample.entitled Sample.hashed_plain
  have hauth : Sample.dependency.authorize Sample.crypto Sample.callbacks.toSources Sample.plain =
      .ok (grant, Sample.call) :=
    authorize_eq_ok.2 ⟨_, _, _, _, he⟩
  have hcalls : (Sample.dependency.requireCapabilityGrant Sample.crypto Sample.callbacks Sample.plain []).2 =
      [Sample.call] := by
    rw [require_of_ok hauth]
  have hredeems := requireCapabilityGrant_redeems Sample.dependency Sample.crypto Sample.callbacks Sample.plain
  exact ⟨⟨grant, (hredeems.2.2 grant).2 ⟨_, _, _, _, _, hcalls, he, rfl⟩⟩, hcalls⟩

/-- **A token is accepted for one request, up to a body that is the hashed value of another request.** -/
theorem accepted_same_iff {py : Interp} (d : Dependency py) (crypto : Crypto) :
    (∀ {c₁ c₂ : Callbacks} {r₁ r₂ : Request} {token : Str}, singleHeader r₁ grantHeader true = .ok token →
      singleHeader r₂ grantHeader true = .ok token → NoCollision py crypto r₁ r₂ → Accepts d crypto c₁ r₁ →
      Accepts d crypto c₂ r₂ →
      (SameRequest py r₁ r₂ ↔ r₁.method = r₂.method ∧ (r₁.query = [] ↔ r₂.query = []))) ∧
    ∀ {method : Str} {body₁ body₂ payload₁ payload₂ : PyVal} {params₁ params₂ : Params} {b : Bytes},
      canonicalRequestPayload py method body₁ params₁ = .ok payload₁ →
      canonicalRequestPayload py method body₂ params₂ = .ok payload₂ → canonicalJsonBytes py payload₁ = .ok b →
      canonicalJsonBytes py payload₂ = .ok b →
      ((body₁.jsonEq body₂ = true ∧ canonicalQueryParams py params₁ = canonicalQueryParams py params₂) ↔
        (canonicalQueryParams py params₁ = .ok [] ↔ canonicalQueryParams py params₂ = .ok [])) := by
  constructor
  · intro c₁ c₂ r₁ r₂ token ht₁ ht₂ hn ha₁ ha₂
    obtain ⟨n₁, p₁, t₁, g₁, k₁, he₁⟩ := ha₁.entitled ht₁
    obtain ⟨n₂, p₂, t₂, g₂, k₂, he₂⟩ := ha₂.entitled ht₂
    obtain ⟨hpath, hmethod, hpayload⟩ := payload_of_accepted he₁ he₂ hn
    obtain ⟨b₁, hb₁, hp₁⟩ := he₁.body
    obtain ⟨b₂, hb₂, hp₂⟩ := he₂.body
    rw [hmethod] at hp₁
    have hbinds := requestPayload_binds hp₁ hp₂ hpayload
    rw [groupedParams_eq_nil, groupedParams_eq_nil] at hbinds
    constructor
    · intro hs
      have hq := hs.params
      rw [canonicalQueryParams_params, canonicalQueryParams_params] at hq
      have hq := Except.ok.inj hq
      refine ⟨hs.method, ?_⟩
      rw [← groupedParams_eq_nil, hq, groupedParams_eq_nil]
    · rintro ⟨hm, hq⟩
      obtain ⟨hbody, hparams⟩ := hbinds.2 hq
      refine ⟨hm, hpath, ⟨b₁, b₂, hb₁, hb₂, hbody⟩, ?_⟩
      rw [canonicalQueryParams_params, canonicalQueryParams_params, hparams]
  · intro method body₁ body₂ payload₁ payload₂ params₁ params₂ b h₁ h₂ hb₁ hb₂
    obtain ⟨-, q₁, hq₁, -, hp₁⟩ := canonicalRequestPayload_eq_ok.1 h₁
    obtain ⟨-, q₂, hq₂, -, hp₂⟩ := canonicalRequestPayload_eq_ok.1 h₂
    have hbinds := requestPayload_binds hp₁ hp₂ (jsonEq_of_bytes hb₁ hb₂)
    simp only [canonicalQueryParams_eq, hq₁, hq₂, Except.map, Except.ok.injEq]
    exact hbinds

theorem accepted_same_iff_of_spaced : SameRequest .cpython Sample.plain Sample.spaced ∧
    Sample.body.1.jsonEq Sample.body = true := by
  obtain ⟨requests, payloads⟩ := accepted_same_iff Sample.dependency Sample.crypto
  refine ⟨?_, ?_⟩
  · refine (requests (Sample.presents _ _) (Sample.presents _ _)
      (Sample.noCollision Sample.hashed_plain Sample.hashed_spaced) (Sample.accepts Sample.hashed_plain)
      (Sample.accepts Sample.hashed_spaced)).2 ⟨rfl, ?_⟩
    exact Iff.rfl
  · exact ((payloads Sample.sent Sample.sent (Sample.written (by decide +kernel))
      (Sample.written (by decide +kernel))).2 Iff.rfl).1

/-- Both requests are accepted with the token, and one of them has no parameters. -/
theorem accepted_not_same :
    singleHeader Sample.plain grantHeader true = .ok Sample.token ∧
    singleHeader Sample.enveloped grantHeader true = .ok Sample.token ∧
    NoCollision .cpython Sample.crypto Sample.plain Sample.enveloped ∧
    Accepts Sample.dependency Sample.crypto Sample.callbacks Sample.plain ∧
    Accepts Sample.dependency Sample.crypto Sample.callbacks Sample.enveloped ∧
    ¬ SameRequest .cpython Sample.plain Sample.enveloped := by
  refine ⟨Sample.presents _ _, Sample.presents _ _,
    Sample.noCollision Sample.hashed_plain Sample.hashed_enveloped, Sample.accepts Sample.hashed_plain,
    Sample.accepts Sample.hashed_enveloped, ?_⟩
  intro h
  have hparams := h.params
  rw [canonicalQueryParams_params, canonicalQueryParams_params] at hparams
  have hnil := groupedParams_eq_nil.1 (Except.ok.inj hparams)
  cases hnil

end SharedAi.ServiceKit
