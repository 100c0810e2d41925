import SharedAi.Python.FormatErrors
import SharedAi.ServiceKit.Redeemer
import SharedAi.ServiceKit.StrictParse
import SharedAi.Text.Encodings

/-!
# Outcomes of the HTTP redeemer

* `jsonLoads` — `json.loads` of the bytes of a body;
* `Reaction` — what the authority does with a post;
* `AsyncHTTPCapabilityGrantRedeemer.outcome` — what `__call__` returns or raises;
* `ThreeOutcomes` — acknowledged, denied, or one of two exceptions;
* `TemplateStrays`, `UrlRefused`, `BodyOverflows` — templates, URLs and bodies that make another exception escape;
* `threeOutcomes_iff` — the three outcomes are all there is, but for these.
-/

namespace SharedAi.ServiceKit

open SharedAi.Control SharedAi.Data SharedAi.Json SharedAi.Num SharedAi.Python SharedAi.Text

/-! ### Bodies -/

/-- The hooks of `json.loads` without arguments; of two members with one name the later one counts. -/
def defaultHooks (py : Interp) : Hooks Exn PyVal where
  syntaxError := .jsonDecodeError
  recursionError := .recursionError
  null := .none
  bool := .bool
  parseInt l := (py.parseInt l).map .int
  parseFloat l := .ok (.float (Float64.ofLit l))
  parseConstant c := .ok (.float (constantValue c))
  string := .str
  array := .list
  objectPairs ps := .ok (.dict (fromItems (ps.map fun p => (.str p.1, p.2))))

/-- `json.loads(body)`. -/
def jsonLoads (py : Interp) (body : Bytes) : Except Exn PyVal :=
  match decodeJson body with
  | none => .error .unicodeError
  | some text => loads (defaultHooks py) py.readNesting text

/-- The text of the body opens one container more than `json.loads` takes, before anything else is wrong with it. -/
def NestedTooDeeply (py : Interp) (body : Bytes) : Prop :=
  ∃ text, decodeJson body = some text ∧ expect '\ufeff' text = none ∧
    Reaches (defaultHooks py) TooDeep py.readNesting (skipWs text)

/-! ### Calls -/

/-- What the authority does with a post: the client raises `httpx.HTTPError`, or there is a response. -/
inductive Reaction where
  | httpError
  | response (statusCode : ℕ) (body : Bytes)

/-- `await self._client.post(…)`. -/
def Reaction.received (py : Interp) : Reaction → Except Exn Response
  | .httpError => .error (.exception "HTTPError")
  | .response statusCode body => .ok ⟨statusCode, jsonLoads py body⟩

/-- `template.format(grant_id=grant_id)`. -/
def formatTemplate (objs : Objects) (template grantId : Str) : Except Exn Str :=
  strFormat objs [(str "grant_id", grantId)] template

/-- An exception that no `except` clause around the template recognises and that is not the redeemer's own. -/
def Stray (e : Exn) : Prop := e.isValueError = false ∧ e ≠ .exception "KeyError" ∧ ¬ e.IsUnavailable

section Outcome

variable (py : Interp) (httpx : Httpx) (objs : Objects) (redeemer : AsyncHTTPCapabilityGrantRedeemer)
  (redemption : CapabilityGrantRedemptionRequest) (authHeaders : List (Str × Str)) (reaction : Reaction)

/-- What `__call__` returns or raises. -/
def AsyncHTTPCapabilityGrantRedeemer.outcome : Except Exn Bool :=
  (redeemer.call (formatTemplate objs) (fun post => httpx.send post.url (reaction.received py)) redemption
    authHeaders []).1

/-- The template stands for this endpoint, and it is valid. -/
def Endpoint (endpoint : Str) : Prop :=
  ∃ grantId, quote redemption.grantId = .ok grantId ∧
    Formats objs [(str "grant_id", grantId)] 2 redeemer.endpointTemplate endpoint ∧ isEndpoint endpoint = true

def HasEndpoint : Prop := ∃ endpoint, Endpoint objs redeemer redemption endpoint

/-- A JSON object that acknowledges the redemption with an event. -/
def Acknowledges (v : PyVal) : Prop :=
  ∃ ms, v = .dict ms ∧ PyVal.get? ms "redeemed" = some (.bool true) ∧
    PyVal.get? ms "grant_id" = some (.str redemption.grantId) ∧
    ∃ s : Str, PyVal.get? ms "event_id" = some (.str s) ∧ s.Trimmed ∧ 0 < s.length ∧ s.length ≤ 200

/-- The status is 2xx and the body acknowledges. -/
def Acknowledged : Prop :=
  ∃ statusCode body v, reaction = .response statusCode body ∧ 200 ≤ statusCode ∧ statusCode < 300 ∧
    jsonLoads py body = .ok v ∧ Acknowledges redemption v

/-- The status is 4xx other than 408 and 429, or 2xx with another JSON body. -/
def Refuses : Prop :=
  ∃ statusCode body, reaction = .response statusCode body ∧
    ((400 ≤ statusCode ∧ statusCode < 500 ∧ statusCode ≠ 408 ∧ statusCode ≠ 429) ∨
      (200 ≤ statusCode ∧ statusCode < 300 ∧ ∃ v, jsonLoads py body = .ok v ∧ ¬ Acknowledges redemption v))

/-- Acknowledged, denied, or one of the two exceptions. -/
structure ThreeOutcomes : Prop where
  returnsTrue : redeemer.outcome py httpx objs redemption authHeaders reaction = .ok true ↔
    HasEndpoint objs redeemer redemption ∧ Acknowledged py redemption reaction
  returnsFalse : redeemer.outcome py httpx objs redemption authHeaders reaction = .ok false ↔
    HasEndpoint objs redeemer redemption ∧ Refuses py redemption reaction
  raises : RaisesIn (fun e => e.IsFormatError ∨ e.IsUnavailable)
    (redeemer.outcome py httpx objs redemption authHeaders reaction)

/-- The template begins with texts and fields in order, and goes on with a field that raises an exception nobody
expects. -/
def TemplateStrays : Prop :=
  ∃ grantId, quote redemption.grantId = .ok grantId ∧
    TemplateRaises Stray objs [(str "grant_id", grantId)] 2 redeemer.endpointTemplate

/-- The base URL with the endpoint behind it is no URL for `httpx`. -/
def UrlRefused : Prop :=
  ∃ endpoint, Endpoint objs redeemer redemption endpoint ∧ (httpx.refuses (redeemer.baseUrl ++ endpoint)).isSome = true

/-- A 2xx response whose body is nested too deeply. -/
def BodyOverflows : Prop :=
  ∃ statusCode body, reaction = .response statusCode body ∧ 200 ≤ statusCode ∧ statusCode < 300 ∧
    NestedTooDeeply py body

end Outcome

/-! ### Reading a reaction -/

section Reading

variable {py : Interp} {redemption : CapabilityGrantRedemptionRequest} {reaction : Reaction}

theorem defaultHooks_parseInt {l : NumLit} {e : Exn} (h : (defaultHooks py).parseInt l = .error e) :
    e = .valueError := by
  have h := map_eq_error.1 h
  unfold Interp.parseInt at h
  split at h
  · cases h
  · cases h
    rfl

theorem loads_default_eq_recursionError {text : Str} :
    loads (defaultHooks py) py.readNesting text = .error .recursionError ↔
      expect '\ufeff' text = none ∧ Reaches (defaultHooks py) TooDeep py.readNesting (skipWs text) := by
  refine loads_eq_recursionError (H := defaultHooks py) (by simp [defaultHooks]) nofun nofun fun l h => ?_
  unfold Hooks.number at h
  split at h
  · cases defaultHooks_parseInt h
  · cases h

theorem jsonLoads_raisesIn (body : Bytes) :
    RaisesIn (fun e => e.isValueError = true ∨ (e = .recursionError ∧ NestedTooDeeply py body))
      (jsonLoads py body) := by
  unfold jsonLoads
  cases hd : decodeJson body with
  | none => exact raisesIn_error.2 (.inl rfl)
  | some text =>
    have herrors : (defaultHooks py).ErrorsIn fun e => e.isValueError = true ∨ e = .recursionError := by
      refine ⟨.inl rfl, .inr rfl, ?_, nofun, nofun, nofun⟩
      intro l e h
      obtain rfl := defaultHooks_parseInt h
      exact .inl rfl
    intro e he
    refine (loads_raisesIn herrors _ _ e he).imp_right ?_
    rintro rfl
    exact ⟨rfl, text, hd, loads_default_eq_recursionError.1 he⟩

theorem jsonLoads_of_nested {body : Bytes} (h : NestedTooDeeply py body) :
    jsonLoads py body = .error .recursionError := by
  obtain ⟨text, hd, hl⟩ := h
  rw [jsonLoads, hd]
  exact loads_default_eq_recursionError.2 hl

def reading (py : Interp) (redemption : CapabilityGrantRedemptionRequest) (reaction : Reaction) : Except Exn Bool :=
  catching transportFailed (reaction.received py) >>= verdict redemption

theorem acknowledges_iff {v : PyVal} : acknowledged redemption.grantId v = true ↔ Acknowledges redemption v :=
  acknowledged_eq_true

theorem reading_eq_true : reading py redemption reaction = .ok true ↔ Acknowledged py redemption reaction := by
  unfold reading Acknowledged
  rw [bind_eq_ok]
  simp only [catching_eq_ok, verdict_eq_true, isSuccess_eq_true, acknowledges_iff]
  constructor
  · rintro ⟨response, hr, ⟨hlo, hhi⟩, v, hv, ha⟩
    rcases reaction with - | ⟨statusCode, body⟩
    · cases hr
    · cases hr
      exact ⟨statusCode, body, v, rfl, hlo, hhi, hv, ha⟩
  · rintro ⟨statusCode, body, v, rfl, hlo, hhi, hv, ha⟩
    exact ⟨_, rfl, ⟨hlo, hhi⟩, v, hv, ha⟩

theorem verdict_eq_false {response : Response} : verdict redemption response = .ok false ↔
    (400 ≤ response.statusCode ∧ response.statusCode < 500 ∧ response.statusCode ≠ 408 ∧ response.statusCode ≠ 429) ∨
      (200 ≤ response.statusCode ∧ response.statusCode < 300 ∧
        ∃ v, response.json = .ok v ∧ ¬ Acknowledges redemption v) := by
  unfold verdict
  by_cases hbusy : response.statusCode = 408 ∨ response.statusCode = 429
  · rw [if_pos hbusy]
    simp only [reduceCtorEq, false_iff, not_or]
    omega
  rw [if_neg hbusy]
  by_cases hclient : 400 ≤ response.statusCode ∧ response.statusCode < 500
  · rw [if_pos hclient]
    simp only [true_iff]
    omega
  rw [if_neg hclient]
  by_cases hsuccess : response.isSuccess = true
  · have hrange := isSuccess_eq_true.1 hsuccess
    rw [if_pos hsuccess, map_eq_ok]
    simp only [catching_eq_ok, ← acknowledges_iff, Bool.not_eq_true]
    constructor
    · rintro ⟨v, hv, ha⟩
      exact .inr ⟨hrange.1, hrange.2, v, hv, ha⟩
    · rintro (h | ⟨-, -, v, hv, ha⟩)
      · omega
      · exact ⟨v, hv, ha⟩
  · have hrange := mt isSuccess_eq_true.2 hsuccess
    rw [if_neg hsuccess]
    simp only [reduceCtorEq, false_iff, not_or]
    omega

theorem reading_eq_false : reading py redemption reaction = .ok false ↔ Refuses py redemption reaction := by
  unfold reading Refuses
  rw [bind_eq_ok]
  simp only [catching_eq_ok, verdict_eq_false]
  constructor
  · rintro ⟨response, hr, h⟩
    rcases reaction with - | ⟨statusCode, body⟩
    · cases hr
    · cases hr
      exact ⟨statusCode, body, rfl, h⟩
  · rintro ⟨statusCode, body, rfl, h⟩
    exact ⟨_, rfl, h⟩

theorem reading_raisesIn :
    RaisesIn (fun e => e.IsUnavailable ∨ (e = .recursionError ∧ BodyOverflows py reaction))
      (reading py redemption reaction) := by
  rcases reaction with - | ⟨statusCode, body⟩
  · exact raisesIn_error.2 (.inl (Exn.isUnavailable _))
  show RaisesIn _ (verdict redemption ⟨statusCode, jsonLoads py body⟩)
  unfold verdict
  split
  · exact raisesIn_error.2 (.inl (Exn.isUnavailable _))
  split
  · exact raisesIn_ok _
  split
  · next hs =>
    have hrange := isSuccess_eq_true.1 hs
    refine RaisesIn.map ((jsonLoads_raisesIn body).catching ?_)
    rintro e (he | ⟨rfl, hn⟩)
    · rw [responseInvalid, if_pos he]
      exact .inl (Exn.isUnavailable _)
    · exact .inr ⟨rfl, statusCode, body, rfl, hrange.1, hrange.2, hn⟩
  · exact raisesIn_error.2 (.inl (Exn.isUnavailable _))

theorem reading_of_overflow (h : BodyOverflows py reaction) :
    reading py redemption reaction = .error .recursionError := by
  obtain ⟨statusCode, body, rfl, hlo, hhi, hn⟩ := h
  have hs : Response.isSuccess ⟨statusCode, jsonLoads py body⟩ = true := isSuccess_eq_true.2 ⟨hlo, hhi⟩
  show verdict redemption ⟨statusCode, jsonLoads py body⟩ = _
  unfold verdict
  rw [if_neg (by dsimp only; omega), if_neg (by dsimp only; omega), if_pos hs]
  dsimp only
  rw [jsonLoads_of_nested hn]
  rfl

end Reading

/-! ### Reaching the authority -/

section Template

variable {py : Interp} {httpx : Httpx} {objs : Objects} {redeemer : AsyncHTTPCapabilityGrantRedeemer}
  {redemption : CapabilityGrantRedemptionRequest} {authHeaders : List (Str × Str)} {reaction : Reaction}

theorem unguarded_stray : Unguarded Stray where
  valueError h := by cases h.1
  keyError h := h.2.1 rfl
  indexError := ⟨rfl, by decide, nofun⟩
  typeError := ⟨rfl, nofun, nofun⟩
  memoryError := ⟨rfl, by decide, nofun⟩

/-- A grant identifier is Unicode text, so it can be quoted. -/
theorem quote_grantId (redemption : CapabilityGrantRedemptionRequest) :
    ∃ grantId, quote redemption.grantId = .ok grantId := by
  have hv := redemption.valid
  simp only [redemptionValid, Bool.and_eq_true] at hv
  have hs : noSurrogate redemption.grantId = true := by
    have := hv.1.1.1.1.1
    rw [validStr, Bool.and_eq_true] at this
    exact this.1
  have hsome : (encodeUtf8 redemption.grantId).isSome := by
    rw [encodeUtf8_isSome_iff]
    simpa [noSurrogate] using hs
  obtain ⟨b, hb⟩ := Option.isSome_iff_exists.1 hsome
  exact ⟨_, by rw [quote, hb]⟩

theorem post_eq_ok {post : Post} : redeemer.post (formatTemplate objs) redemption authHeaders = .ok post ↔
    ∃ endpoint, Endpoint objs redeemer redemption endpoint ∧
      post = ⟨redeemer.baseUrl ++ endpoint, redemption.modelDump, authHeaders⟩ := by
  unfold AsyncHTTPCapabilityGrantRedeemer.post Endpoint formatTemplate
  simp only [bind_eq_ok, catching_eq_ok, strFormat_eq_ok]
  constructor
  · rintro ⟨grantId, hq, endpoint, hf, ⟨⟩, he, hpost⟩
    cases hpost
    exact ⟨endpoint, ⟨grantId, hq, hf, ensure_eq_ok.1 he⟩, rfl⟩
  · rintro ⟨endpoint, ⟨grantId, hq, hf, he⟩, rfl⟩
    exact ⟨grantId, hq, endpoint, hf, (), ensure_eq_ok.2 he, rfl⟩

/-- What the template raises is a format error then, or stays what it is. -/
theorem post_raisesIn : RaisesIn
    (fun e => e.IsFormatError ∨ e.IsUnavailable ∨ (Stray e ∧ TemplateStrays objs redeemer redemption))
    (redeemer.post (formatTemplate objs) redemption authHeaders) := by
  obtain ⟨grantId, hq⟩ := quote_grantId redemption
  unfold AsyncHTTPCapabilityGrantRedeemer.post
  rw [hq]
  refine (raisesIn_ok grantId).bind fun g hg => RaisesIn.bind ?_ fun endpoint _ => ?_
  · obtain rfl := Except.ok.inj hg
    intro e he
    obtain ⟨e', he', rfl⟩ := catching_eq_error.1 he
    by_cases hcaught : e'.isValueError ∨ e' = .exception "KeyError"
    · rw [templateInvalid, if_pos hcaught]
      exact .inl (Exn.isFormatError _)
    · rw [templateInvalid, if_neg hcaught]
      right
      by_cases hu : e'.IsUnavailable
      · exact .inl hu
      · have hstray : Stray e' := ⟨by simpa using fun h => hcaught (.inl h), fun h => hcaught (.inr h), hu⟩
        exact .inr ⟨hstray, grantId, hq, (raises_strFormat unguarded_stray).1 ⟨e', he', hstray⟩⟩
  · refine RaisesIn.bind (raisesIn_ensure ?_) fun _ _ => raisesIn_pure _
    exact .inl (Exn.isFormatError _)

theorem post_of_strays (authHeaders : List (Str × Str)) (h : TemplateStrays objs redeemer redemption) :
    ∃ e, redeemer.post (formatTemplate objs) redemption authHeaders = .error e ∧ Stray e := by
  obtain ⟨grantId, hq, ht⟩ := h
  obtain ⟨e, he, hstray⟩ := (raises_strFormat unguarded_stray).2 ht
  have huncaught : (templateInvalid e).getD e = e := by
    rw [templateInvalid, if_neg]
    · rfl
    · rintro (h | h)
      · exact absurd (h.symm.trans hstray.1) (by decide)
      · exact hstray.2.1 h
  refine ⟨e, bind_eq_error.2 (.inr ⟨grantId, hq, bind_eq_error.2 (.inl ?_)⟩), hstray⟩
  exact catching_eq_error.2 ⟨e, he, huncaught⟩

theorem outcome_of_error {e : Exn} (h : redeemer.post (formatTemplate objs) redemption authHeaders = .error e) :
    redeemer.outcome py httpx objs redemption authHeaders reaction = .error e := by
  rw [AsyncHTTPCapabilityGrantRedeemer.outcome, call_of_error h]

/-- Without a URL nothing is sent, and the exception of `httpx` is no `HTTPError`. -/
theorem outcome_of_refused {post : Post} (h : redeemer.post (formatTemplate objs) redemption authHeaders = .ok post)
    {refusal : UrlRefusal} (hr : httpx.refuses post.url = some refusal) :
    redeemer.outcome py httpx objs redemption authHeaders reaction = .error refusal.exn := by
  rw [AsyncHTTPCapabilityGrantRedeemer.outcome, call_of_ok h, Httpx.send, hr]
  cases refusal <;> rfl

theorem outcome_of_ok {post : Post} (h : redeemer.post (formatTemplate objs) redemption authHeaders = .ok post)
    (hr : httpx.refuses post.url = none) :
    redeemer.outcome py httpx objs redemption authHeaders reaction = reading py redemption reaction := by
  rw [AsyncHTTPCapabilityGrantRedeemer.outcome, call_of_ok h, Httpx.send, hr]
  rfl

theorem refuses_eq_none (hu : ¬ UrlRefused httpx objs redeemer redemption) {endpoint : Str}
    (he : Endpoint objs redeemer redemption endpoint) : httpx.refuses (redeemer.baseUrl ++ endpoint) = none := by
  rw [← Option.not_isSome_iff_eq_none]
  exact fun hr => hu ⟨endpoint, he, hr⟩

/-- What the call returns is read off the reaction, if there is a URL to post to. -/
theorem outcome_eq_ok {b : Bool} (hu : ¬ UrlRefused httpx objs redeemer redemption) :
    redeemer.outcome py httpx objs redemption authHeaders reaction = .ok b ↔
      HasEndpoint objs redeemer redemption ∧ reading py redemption reaction = .ok b := by
  cases hp : redeemer.post (formatTemplate objs) redemption authHeaders with
  | error e =>
    rw [outcome_of_error hp]
    refine ⟨nofun, fun h => ?_⟩
    obtain ⟨endpoint, he⟩ := h.1
    cases hp.symm.trans (post_eq_ok.2 ⟨endpoint, he, rfl⟩)
  | ok post =>
    obtain ⟨endpoint, he, rfl⟩ := post_eq_ok.1 hp
    rw [outcome_of_ok hp (refuses_eq_none hu he)]
    exact (and_iff_right ⟨endpoint, he⟩).symm

end Template

theorem Stray.not_isFormatError {e : Exn} (h : Stray e) : ¬ e.IsFormatError := by
  rintro ⟨code, rfl⟩
  cases h.1

/-- **The redeemer has three outcomes, unless its template strays, its URL is refused or a body overflows.** -/
theorem threeOutcomes_iff (py : Interp) (httpx : Httpx) (objs : Objects) (redeemer : AsyncHTTPCapabilityGrantRedeemer)
    (redemption : CapabilityGrantRedemptionRequest) (authHeaders : List (Str × Str)) (reaction : Reaction) :
    ThreeOutcomes py httpx objs redeemer redemption authHeaders reaction ↔
      ¬ TemplateStrays objs redeemer redemption ∧ ¬ UrlRefused httpx objs redeemer redemption ∧
        (HasEndpoint objs redeemer redemption → ¬ BodyOverflows py reaction) := by
  constructor
  · intro h
    have hurl : ¬ UrlRefused httpx objs redeemer redemption := by
      rintro ⟨endpoint, he, hr⟩
      obtain ⟨refusal, hr⟩ := Option.isSome_iff_exists.1 hr
      rcases h.raises _ (outcome_of_refused (post_eq_ok.2 ⟨endpoint, he, rfl⟩) hr) with ⟨_, hf⟩ | ⟨_, hu⟩
      · cases refusal <;> cases hf
      · cases refusal <;> cases hu
    refine ⟨fun ht => ?_, hurl, ?_⟩
    · obtain ⟨e, he, hstray⟩ := post_of_strays authHeaders ht
      rcases h.raises e (outcome_of_error he) with hf | hu
      · exact hstray.not_isFormatError hf
      · exact hstray.2.2 hu
    · rintro ⟨endpoint, he⟩ hover
      have hpost : redeemer.post (formatTemplate objs) redemption authHeaders = .ok _ :=
        post_eq_ok.2 ⟨endpoint, he, rfl⟩
      have hread : redeemer.outcome py httpx objs redemption authHeaders reaction = reading py redemption reaction :=
        outcome_of_ok hpost (refuses_eq_none hurl he)
      rcases h.raises .recursionError (hread.trans (reading_of_overflow hover)) with ⟨_, hf⟩ | ⟨_, hu⟩
      · cases hf
      · cases hu
  · rintro ⟨ht, hurl, hover⟩
    refine ⟨?_, ?_, ?_⟩
    · rw [outcome_eq_ok hurl, reading_eq_true]
    · rw [outcome_eq_ok hurl, reading_eq_false]
    · intro e he
      cases hp : redeemer.post (formatTemplate objs) redemption authHeaders with
      | error e' =>
        rw [outcome_of_error hp] at he
        cases he
        rcases post_raisesIn e hp with hf | hu | ⟨-, hstrays⟩
        · exact .inl hf
        · exact .inr hu
        · exact absurd hstrays ht
      | ok post =>
        obtain ⟨endpoint, hendpoint, rfl⟩ := post_eq_ok.1 hp
        rw [outcome_of_ok hp (refuses_eq_none hurl hendpoint)] at he
        rcases reading_raisesIn e he with hu | ⟨-, hb⟩
        · exact .inr hu
        · exact absurd hb (hover ⟨endpoint, hendpoint⟩)

namespace Sample

def objects : Objects where
  attr _ _ := .error (.exception "AttributeError")
  itemAt _ _ := .error .typeError
  itemOf _ _ := .error .typeError
  text _ := .error .typeError
  repr _ := .error .typeError
  ascii _ := .error .typeError
  format _ _ := .error .typeError
  maxLength := 1000000

theorem posting_valid :
    transportValid (str "http") (str "files") (str "POST") (str "/v1/files") none none = true := by
  decide +kernel

def posting : CapabilityGrantTransport where
  type := str "http"
  service := str "files"
  method := str "POST"
  path := str "/v1/files"
  authProfile := none
  tlsAliasProfile := none
  valid := posting_valid

def redemption : CapabilityGrantRedemptionRequest where
  grantId := str "grant-1"
  grantHash := List.replicate 64 (.scalar 'a')
  tokenFingerprint := List.replicate 64 (.scalar 'b')
  receiverId := str "receiver"
  audience := str "files"
  requestHash := List.replicate 64 (.scalar 'c')
  transport := posting
  valid := by decide +kernel

/-- A redeemer whose template has a field without a name. -/
def positional : AsyncHTTPCapabilityGrantRedeemer :=
  ⟨str "https://authority", str "/v1/grants/\x7b\x7d/redeem", by decide +kernel⟩

theorem named_valid : isEndpoint (str "/v1/grants/\x7bgrant_id\x7d/redeem") = true := by decide +kernel

def named : AsyncHTTPCapabilityGrantRedeemer :=
  ⟨str "https://authority", str "/v1/grants/\x7bgrant_id\x7d/redeem", named_valid⟩

theorem split_valid : isEndpoint (str "/v1/a\nb/\x7bgrant_id\x7d/redeem") = true := by decide +kernel

/-- A redeemer whose template holds a line feed. -/
def split : AsyncHTTPCapabilityGrantRedeemer :=
  ⟨str "https://authority", str "/v1/a\nb/\x7bgrant_id\x7d/redeem", split_valid⟩

/-- `httpx` refuses control characters, long texts and surrogates. -/
def refusal (url : Str) : Option UrlRefusal :=
  if 65536 < url.length ∨ ∃ c ∈ url, c.isControl = true then some .invalidUrl
  else if ∃ c ∈ url, c.isSurrogate = true then some .unicodeError
  else none

theorem refusal_eq_none {url : Str} : refusal url = none ↔
    ((∀ c ∈ url, c.isControl = false) ∧ ∀ c ∈ url, c.isSurrogate = false) ∧ url.length ≤ 65536 := by
  unfold refusal
  split
  · next h =>
    refine iff_of_false (by simp) ?_
    rintro ⟨⟨hcontrol, -⟩, hlength⟩
    rcases h with h | ⟨c, hc, h⟩
    · omega
    · exact absurd (h.symm.trans (hcontrol c hc)) (by decide)
  · next h =>
    obtain ⟨hlength, hcontrol⟩ := not_or.1 h
    have hcontrol : ∀ c ∈ url, c.isControl = false := by simpa using hcontrol
    simp only [eq_true hcontrol, Nat.not_lt.1 hlength, true_and, and_true]
    simp

def client : Httpx := ⟨refusal, id, fun _ => [], id⟩

theorem decodeUtf8Pass_brackets (n : ℕ) :
    decodeUtf8Pass (List.replicate n 0x5B) = some (List.replicate n (.scalar '[')) := by
  induction n with
  | zero => rfl
  | succ n ih =>
    rw [List.replicate_succ, decodeUtf8Pass.eq_def]
    dsimp only
    rw [if_pos (by decide), ih, List.replicate_succ]
    rfl

theorem decodeJson_brackets (n : ℕ) :
    decodeJson (List.replicate (n + 4) 0x5B) = some (List.replicate (n + 4) (.scalar '[')) := by
  have hdetect : Encoding.detect (List.replicate (n + 4) 0x5B) = .utf8 0 := rfl
  rw [decodeJson, hdetect]
  exact decodeUtf8Pass_brackets (n + 4)

theorem reaches_brackets (H : Hooks Exn PyVal) (n k : ℕ) :
    Reaches H TooDeep n (List.replicate (n + 1 + k) (.scalar '[')) := by
  induction n with
  | zero => exact .here ⟨rfl, .inr (by rw [Nat.zero_add, Nat.add_comm, List.replicate_succ]; rfl)⟩
  | succ n ih =>
    have hlength : n + 1 + 1 + k = (n + 1 + k) + 1 := by omega
    have hskip : skipWs (List.replicate (n + 1 + k) (.scalar '[')) = List.replicate (n + 1 + k) (.scalar '[') := by
      rw [Nat.add_right_comm, List.replicate_succ]
      rfl
    rw [hlength, List.replicate_succ]
    exact .elem (expect_eq_some.2 rfl) (by rw [hskip]; exact .here _) ih

def brackets : Reaction := .response 200 (List.replicate (99996 + 4) 0x5B)

theorem brackets_overflow : BodyOverflows .cpython brackets := by
  refine ⟨200, _, rfl, le_rfl, by omega, _, decodeJson_brackets 99996, rfl, ?_⟩
  exact reaches_brackets _ 9990 90009

theorem quote_grantId : quote redemption.grantId = .ok (str "grant-1") := by decide +kernel

end Sample

/-- An `IndexError` is raised on a template with a positional field, an `InvalidURL` on one with a line feed, and a
`RecursionError` on a body of brackets. -/
theorem not_threeOutcomes_of_positional :
    (Sample.positional.outcome .cpython Sample.client Sample.objects Sample.redemption [] .httpError =
        .error (.exception "IndexError") ∧
      ¬ ThreeOutcomes .cpython Sample.client Sample.objects Sample.positional Sample.redemption [] .httpError) ∧
    (Sample.split.outcome .cpython Sample.client Sample.objects Sample.redemption [] .httpError =
        .error (.exception "InvalidURL") ∧
      ¬ ThreeOutcomes .cpython Sample.client Sample.objects Sample.split Sample.redemption [] .httpError) ∧
    ¬ ThreeOutcomes .cpython Sample.client Sample.objects Sample.named Sample.redemption [] Sample.brackets := by
  have hescapes : ∀ {redeemer : AsyncHTTPCapabilityGrantRedeemer} {name : String},
      redeemer.outcome .cpython Sample.client Sample.objects Sample.redemption [] .httpError =
        .error (.exception name) →
      ¬ ThreeOutcomes .cpython Sample.client Sample.objects redeemer Sample.redemption [] .httpError := by
    intro redeemer name houtcome h
    rcases h.raises _ houtcome with ⟨_, hf⟩ | ⟨_, hu⟩
    · cases hf
    · cases hu
  have hindex : Sample.positional.outcome .cpython Sample.client Sample.objects Sample.redemption [] .httpError =
      .error (.exception "IndexError") := by
    apply outcome_of_error
    refine bind_eq_error.2 (.inr ⟨_, Sample.quote_grantId, bind_eq_error.2 (.inl ?_)⟩)
    exact catching_eq_error.2 ⟨.exception "IndexError", by decide +kernel, rfl⟩
  have hsplit : Sample.split.outcome .cpython Sample.client Sample.objects Sample.redemption [] .httpError =
      .error (.exception "InvalidURL") := by
    have hendpoint : Endpoint Sample.objects Sample.split Sample.redemption (str "/v1/a\nb/grant-1/redeem") :=
      ⟨_, Sample.quote_grantId, strFormat_eq_ok.1 (by decide +kernel), by decide +kernel⟩
    have hrefused : Sample.client.refuses (Sample.split.baseUrl ++ str "/v1/a\nb/grant-1/redeem") =
        some .invalidUrl := by
      have hc : ∃ c ∈ Sample.split.baseUrl ++ str "/v1/a\nb/grant-1/redeem", c.isControl = true :=
        ⟨.scalar '\n', by decide +kernel, by decide⟩
      dsimp only [Sample.client]
      rw [Sample.refusal, if_pos (.inr hc)]
    exact outcome_of_refused (post_eq_ok.2 ⟨_, hendpoint, rfl⟩) hrefused
  refine ⟨⟨hindex, hescapes hindex⟩, ⟨hsplit, hescapes hsplit⟩, fun h => ?_⟩
  refine ((threeOutcomes_iff _ _ _ _ _ _ _).1 h).2.2 ⟨str "/v1/grants/grant-1/redeem", ?_⟩ Sample.brackets_overflow
  exact ⟨_, Sample.quote_grantId, strFormat_eq_ok.1 (by decide +kernel), by decide +kernel⟩

end SharedAi.ServiceKit
