import SharedAi.ServiceKit.Auth
import SharedAi.ServiceKit.Posts

/-!
# The token for the authority

How a receiver shows the authority who it is, and what the route of the authority makes of it.

* `brokerInternalTokenHeaders` — the headers, and `brokerInternalTokenHeaders_eq_ok` when there are any;
* `AuthenticatesWith.resolved` — the dependency hands them on as they are;
* `Brings`, `Request.tokenHeaders` — the headers of a post, as the route reads them;
* `presentedAs`, `presented_of_brings` — the token that the route sees, under each header name;
* `broker_accepts_iff` — of the posts of a run, the route accepts those whose token is its credential.
-/

namespace SharedAi.ServiceKit

open SharedAi.Control SharedAi.Data SharedAi.Python SharedAi.Text

/-! ### The headers -/

/-- `BROKER_TOKEN_HEADER`. -/
def brokerTokenHeader : String := "X-Internal-Token"

/-- `BROKER_RECEIVER_HEADER`. -/
def brokerReceiverHeader : String := "X-AI-Local-Capability-Receiver"

/-- `str | Path`: a `Path` is never false. -/
inductive TokenFile where
  | text (s : Str)
  | path (s : Str)

/-- `str(token_file)`. -/
def TokenFile.str : TokenFile → Str
  | .text s => s
  | .path s => s

/-- `bool(token_file)`. -/
def TokenFile.isSet : TokenFile → Bool
  | .text s => decide (s ≠ [])
  | .path _ => true

/-- `configured_token.strip() if isinstance(configured_token, str) else ""`. -/
def strippedText : PyVal → Str
  | .str s => s.strip
  | _ => []

/-- The token of `broker_internal_token_headers`: the configured one, or that of the file. -/
def brokerToken (env : Environment) (configuredToken : PyVal) (tokenFile : TokenFile) : Except Exn Str :=
  let token := strippedText configuredToken
  if token = [] ∧ tokenFile.isSet = true then readSecretFile env tokenFile.str else .ok token

/-- `_HTTP_TOKEN_RE.fullmatch(header_name)`, for a `str`. -/
def headerNameOf : PyVal → Except Exn Str
  | .str s => if tokenMatches s then .ok s else .error (.capabilityGrantFormatError "broker_auth_header_name_invalid")
  | _ => .error (.capabilityGrantFormatError "broker_auth_header_name_invalid")

/-- `broker_internal_token_headers`. -/
def brokerInternalTokenHeaders (env : Environment) (configuredToken : PyVal) (tokenFile : TokenFile)
    (headerName : PyVal) (receiverId : Str) : Except Exn (List (Str × Str)) := do
  let name ← headerNameOf headerName
  let token ← brokerToken env configuredToken tokenFile
  ensure (token ≠ []) (.capabilityGrantDenied "broker_auth_token_missing")
  ensure (.scalar '\r' ∉ token ∧ .scalar '\n' ∉ token) (.capabilityGrantFormatError "broker_auth_token_invalid")
  if receiverId = [] then pure [(name, token)]
  else do
    ensure (receiverId.Trimmed ∧ receiverId.length ≤ 200 ∧ tokenMatches receiverId = true)
      (.capabilityGrantFormatError "broker_receiver_id_invalid")
    pure (setItem (str brokerReceiverHeader) receiverId [(name, token)])

/-- The headers that a receiver may send: a token that fits in a header, under `name`, and its identifier. -/
structure BrokerHeaders (name token receiverId : Str) (headers : List (Str × Str)) : Prop where
  isName : tokenMatches name = true
  isToken : token ≠ [] ∧ .scalar '\r' ∉ token ∧ .scalar '\n' ∉ token
  isReceiverId : receiverId = [] ∨ receiverId.Trimmed ∧ receiverId.length ≤ 200 ∧ tokenMatches receiverId = true
  eq : headers = if receiverId = [] then [(name, token)]
    else if name = str brokerReceiverHeader then [(name, receiverId)]
    else [(name, token), (str brokerReceiverHeader, receiverId)]

section Headers

variable {env : Environment} {configuredToken headerName : PyVal} {tokenFile : TokenFile} {receiverId : Str}
  {headers : List (Str × Str)}

theorem headerNameOf_eq_ok {name : Str} : headerNameOf headerName = .ok name ↔
    headerName = .str name ∧ tokenMatches name = true := by
  unfold headerNameOf
  split
  · rw [ite_eq_ok, PyVal.str.injEq]
    constructor
    · rintro ⟨h, rfl⟩
      exact ⟨rfl, h⟩
    · rintro ⟨rfl, h⟩
      exact ⟨h, rfl⟩
  · next h =>
    simp only [reduceCtorEq, false_iff]
    rintro ⟨rfl, -⟩
    exact h _ rfl

theorem brokerInternalTokenHeaders_eq_ok :
    brokerInternalTokenHeaders env configuredToken tokenFile headerName receiverId = .ok headers ↔
      ∃ name token, headerName = .str name ∧ brokerToken env configuredToken tokenFile = .ok token ∧
        BrokerHeaders name token receiverId headers := by
  constructor
  · intro h
    obtain ⟨name, hname, h⟩ := bind_eq_ok.1 h
    obtain ⟨token, htoken, h⟩ := bind_eq_ok.1 h
    obtain ⟨hne, h⟩ := check_eq_ok.1 h
    obtain ⟨hline, h⟩ := check_eq_ok.1 h
    have hn := headerNameOf_eq_ok.1 hname
    have ht := And.intro (ensure_eq_ok.1 hne) (ensure_eq_ok.1 hline)
    refine ⟨name, token, hn.1, htoken, ?_⟩
    by_cases hr : receiverId = []
    · rw [if_pos hr] at h
      cases h
      exact ⟨hn.2, ht, .inl hr, by rw [if_pos hr]⟩
    · rw [if_neg hr] at h
      obtain ⟨hid, h⟩ := check_eq_ok.1 h
      cases h
      exact ⟨hn.2, ht, .inr (ensure_eq_ok.1 hid), by rw [if_neg hr]; rfl⟩
  · rintro ⟨name, token, rfl, htoken, h⟩
    refine bind_eq_ok.2 ⟨name, headerNameOf_eq_ok.2 ⟨rfl, h.isName⟩, bind_eq_ok.2 ⟨token, htoken, ?_⟩⟩
    refine check_eq_ok.2 ⟨ensure_eq_ok.2 h.isToken.1, check_eq_ok.2 ⟨ensure_eq_ok.2 h.isToken.2, ?_⟩⟩
    rw [h.eq]
    split
    · rfl
    · next hr =>
      refine check_eq_ok.2 ⟨ensure_eq_ok.2 (h.isReceiverId.resolve_left hr), ?_⟩
      rw [setItem, setItem]
      rfl

/-- What a `MappingProxyType` of the headers is to the dependency. -/
def proxyOf (headers : List (Str × Str)) : PyVal := .proxy (headers.map fun h => (.str h.1, .str h.2))

theorem authHeader_of_valid {name value : Str} (hname : tokenMatches name = true)
    (hvalue : value ≠ [] ∧ .scalar '\r' ∉ value ∧ .scalar '\n' ∉ value) :
    authHeader (.str name, .str value) = .ok (name, value) := by
  show (if tokenMatches name = true then _ else _) = _
  rw [if_pos hname]
  exact if_pos hvalue

/-- An identifier that is one token fits in a header. -/
theorem isHeaderValue_of_tokenMatches {s : Str} (h : tokenMatches s = true) :
    s ≠ [] ∧ .scalar '\r' ∉ s ∧ .scalar '\n' ∉ s := by
  simp only [tokenMatches, Bool.and_eq_true, decide_eq_true_eq, List.all_eq_true] at h
  exact ⟨h.1, fun hc => absurd (h.2 _ hc) (by decide), fun hc => absurd (h.2 _ hc) (by decide)⟩

/-- The headers are read as they are. -/
theorem authHeadersOf_proxyOf {name token : Str} (h : BrokerHeaders name token receiverId headers) :
    authHeadersOf (proxyOf headers) = .ok headers := by
  have htoken := authHeader_of_valid h.isName h.isToken
  show (headers.map fun h => (PyKey.str h.1, PyVal.str h.2)).mapM authHeader = .ok headers
  rw [mapM_eq_ok, List.forall₂_map_left_iff, h.eq]
  split
  · exact .cons htoken .nil
  next hr =>
  have hvalue := isHeaderValue_of_tokenMatches (h.isReceiverId.resolve_left hr).2.2
  split
  · exact .cons (authHeader_of_valid h.isName hvalue) .nil
  · have hname : tokenMatches (str brokerReceiverHeader) = true := by decide +kernel
    exact .cons htoken (.cons (authHeader_of_valid hname hvalue) .nil)

end Headers

/-! ### The route of the authority -/

def sameName (a b : Str) : Bool := a.map PyChar.asciiLower == b.map PyChar.asciiLower

def tokenHeaderNames : List String := ["Authorization", "X-API-Key", "X-Internal-Token"]

/-- The request brings the headers of a post: of those that may carry a token, these values and no others. -/
def Brings (headers : List (Str × Str)) (request : Request) : Prop :=
  ∀ name ∈ tokenHeaderNames, request.getlist name = (headers.filter fun h => sameName h.1 (str name)).map Prod.snd

/-- The headers of `require_service_token`: of each, the first value. -/
def Request.tokenHeaders (request : Request) : TokenHeaders where
  authorization := (request.getlist "Authorization").head?
  xApiKey := (request.getlist "X-API-Key").head?
  xInternalToken := (request.getlist "X-Internal-Token").head?

/-- The token that the route sees, of the token sent under `name`. -/
def presentedAs (name token : Str) : Str :=
  if sameName name (str "X-Internal-Token") || sameName name (str "X-API-Key") then token
  else if sameName name (str "Authorization") then bearer (some token)
  else []

section Route

variable {name token receiverId : Str} {headers : List (Str × Str)} {request : Request}

theorem trimmed_strippedText (v : PyVal) : (strippedText v).Trimmed := by
  cases v with
  | str s => exact Str.trimmed_strip s
  | _ => rfl

theorem trimmed_brokerToken {env : Environment} {configuredToken : PyVal} {tokenFile : TokenFile}
    (h : brokerToken env configuredToken tokenFile = .ok token) : token.Trimmed := by
  unfold brokerToken at h
  dsimp only at h
  split at h
  · exact (isCredential_readSecretFile env _).trimmed _ h
  · rw [← Except.ok.inj h]
    exact trimmed_strippedText configuredToken

theorem sameName_unique {a b : Str} (h : sameName name a = true) (hne : sameName a b = false) :
    sameName name b = false := by
  rw [sameName, beq_iff_eq] at h
  rwa [sameName, h]

/-- Of a header that may carry a token, the first value is the token that is sent under its name. -/
theorem head?_of_brokerHeaders (h : BrokerHeaders name token receiverId headers) {n : Str}
    (hn : sameName (str brokerReceiverHeader) n = false) :
    ((headers.filter fun p => sameName p.1 n).map Prod.snd).head? = if sameName name n then some token else none := by
  rw [h.eq]
  split
  · cases hname : sameName name n <;> simp [hname]
  · split
    · next hreceiver => simp [hreceiver, hn]
    · cases hname : sameName name n <;> simp [hname, hn]

/-- The token that the route sees. -/
theorem presented_of_brings (h : BrokerHeaders name token receiverId headers) (htrimmed : token.Trimmed)
    (hbrings : Brings headers request) : request.tokenHeaders.presented true = presentedAs name token := by
  have hhead : ∀ n ∈ tokenHeaderNames,
      (request.getlist n).head? = if sameName name (str n) then some token else none := by
    intro n hn
    have hother : ∀ n ∈ tokenHeaderNames, sameName (str brokerReceiverHeader) (str n) = false := by decide +kernel
    rw [hbrings n hn, head?_of_brokerHeaders h (hother n hn)]
  unfold Request.tokenHeaders
  rw [hhead _ (by simp [tokenHeaderNames]), hhead _ (by simp [tokenHeaderNames]), hhead _ (by simp [tokenHeaderNames])]
  have hne := h.isToken.1
  have hstrip : Str.strip token = token := htrimmed
  unfold presentedAs TokenHeaders.presented firstNonEmpty
  -- the three names are different
  by_cases hinternal : sameName name (str "X-Internal-Token") = true
  · have hkey : sameName name (str "X-API-Key") = false := sameName_unique hinternal (by decide +kernel)
    have hauth : sameName name (str "Authorization") = false := sameName_unique hinternal (by decide +kernel)
    simp [hinternal, hkey, hauth, hne, hstrip, bearer]
  by_cases hkey : sameName name (str "X-API-Key") = true
  · have hauth : sameName name (str "Authorization") = false := sameName_unique hkey (by decide +kernel)
    simp [hinternal, hkey, hne, hstrip]
  by_cases hauth : sameName name (str "Authorization") = true
  · have hbearer : Str.strip (bearer (some token)) = bearer (some token) := by
      unfold bearer
      dsimp only
      split
      · exact Str.strip_strip _
      · rfl
    by_cases hnil : bearer (some token) = []
    · simp [hinternal, hkey, hauth, hnil, show Str.strip [] = [] from rfl]
    · simp [hinternal, hkey, hauth, hnil, hbearer]
  · simp [hinternal, hkey, hauth, show bearer none = [] from rfl, show Str.strip [] = [] from rfl]

/-- The credential of the route: the internal one, or the generic one where there is none. -/
def routeKey (broker : Environment) : Except Exn Str := internalServiceApiKey broker [] >>= serviceApiKey broker

/-- `service_token_dependency(serviceName, internal_service_api_key, accept_internal_token=True)` on a request. -/
def brokerRoute (serviceName : String) (broker : Environment) (request : Request) : Except Exn Unit :=
  serviceTokenDependency serviceName (internalServiceApiKey · []) true broker request.tokenHeaders

theorem brokerRoute_eq_ok {serviceName : String} {broker : Environment} :
    brokerRoute serviceName broker request = .ok () ↔ ∃ key, routeKey broker = .ok key ∧ key ≠ [] ∧
      key.all PyChar.isAscii = true ∧ request.tokenHeaders.presented true = key := by
  have haccepted : ∀ key, checkToken serviceName request.tokenHeaders true key = .ok () ↔
      key ≠ [] ∧ key.all PyChar.isAscii = true ∧ request.tokenHeaders.presented true = key := by
    intro key
    rw [← outcome_accepted, outcome_checkToken]
    by_cases hk : key = []
    · simp [hk]
    by_cases hsame : request.tokenHeaders.presented true = key
    · by_cases hascii : key.all PyChar.isAscii = true
      · simp [hsame, hk, hascii]
      · simp [hsame, hk, hascii]
    · rw [if_neg hk, if_neg hsame]
      simp only [hsame, and_false, iff_false]
      split
      · exact nofun
      split <;> exact nofun
  unfold brokerRoute serviceTokenDependency verifyServiceToken routeKey
  simp only [bind_eq_ok, haccepted]
  constructor
  · rintro ⟨internal, hinternal, key, hkey, h⟩
    exact ⟨key, ⟨internal, hinternal, hkey⟩, h⟩
  · rintro ⟨key, ⟨internal, hinternal, hkey⟩, h⟩
    exact ⟨internal, hinternal, key, hkey, h⟩

end Route

/-- The receiver takes its headers for the authority from `broker_internal_token_headers`: once, or for each request. -/
inductive AuthenticatesWith (a : Attempt) (headers : List (Str × Str)) : Prop
  | value (source : a.dependency.redeemAuthHeaders = .value (proxyOf headers))
  | callable (source : a.dependency.redeemAuthHeaders = .callable)
      (answer : a.sources.authHeaders = .ok (proxyOf headers))

/-- The dependency hands the headers on as they are. -/
theorem AuthenticatesWith.resolved {a : Attempt} {name token receiverId : Str} {headers : List (Str × Str)}
    (h : AuthenticatesWith a headers) (hb : BrokerHeaders name token receiverId headers) :
    resolvedAuthHeaders a.dependency.redeemAuthHeaders a.sources.authHeaders = .ok headers := by
  rcases h with hsource | ⟨hsource, hanswer⟩
  · rw [hsource]
    exact authHeadersOf_proxyOf hb
  · rw [hsource, hanswer]
    exact authHeadersOf_proxyOf hb

/-- **Of the posts of a run, the route of the authority accepts those whose token, as the route sees it, is the
credential of the route.** -/
theorem broker_accepts_iff {ι : Type} [DecidableEq ι] (crypto : Crypto) (attempts : ι → Attempt) {s : State ι}
    (hs : Reachable crypto attempts s) {i : ι} {post : Post} (hpost : ((), i, post) ∈ s.posts.received)
    {env : Environment} {configuredToken headerName : PyVal} {tokenFile : TokenFile} {receiverId : Str}
    {headers : List (Str × Str)}
    (hheaders : brokerInternalTokenHeaders env configuredToken tokenFile headerName receiverId = .ok headers)
    (hauth : AuthenticatesWith (attempts i) headers) {request : Request} (hbrings : Brings post.headers request)
    (serviceName : String) (broker : Environment) :
    ∃ name token, headerName = .str name ∧ brokerToken env configuredToken tokenFile = .ok token ∧
      BrokerHeaders name token receiverId post.headers ∧
      (brokerRoute serviceName broker request = .ok () ↔
        ∃ key, routeKey broker = .ok key ∧ key ≠ [] ∧ key.all PyChar.isAscii = true ∧
          presentedAs name token = key) := by
  obtain ⟨name, token, hname, htoken, hb⟩ := brokerInternalTokenHeaders_eq_ok.1 hheaders
  obtain ⟨grant, redemption, hstart⟩ := hs.outgoing.started _ (hs.outgoing.conserved.mem_sent hpost)
  obtain ⟨token', bound, payload, now, grant', call, he, -, hsent⟩ := entitledPost_of_start hstart
  have hresolved := he.authHeaders
  rw [hauth.resolved hb, ← hsent] at hresolved
  obtain rfl := Except.ok.inj hresolved
  refine ⟨name, token, hname, htoken, hb, ?_⟩
  rw [brokerRoute_eq_ok, presented_of_brings hb (trimmed_brokerToken htoken) hbrings]

namespace Sample

def receiverEnvironment : Environment where
  environ _ := none
  file path := if path = str "/run/secrets/token" then .text (str "secret\n") else .missing

def brokerHeaders : List (Str × Str) :=
  [(str brokerTokenHeader, str "secret"), (str brokerReceiverHeader, str "files-1")]

def authenticated : Attempt :=
  { attempt with
    dependency := { dependency with redeemAuthHeaders := .callable }
    sources := { callbacks.toSources with authHeaders := .ok (proxyOf brokerHeaders) } }

theorem brokerInternalTokenHeaders_receiver : brokerInternalTokenHeaders receiverEnvironment (.str [])
    (.path (str "/run/secrets/token")) (.str (str brokerTokenHeader)) (str "files-1") = .ok brokerHeaders := by
  decide +kernel

/-- The receiver posts what it would without the headers. -/
theorem start_authenticated : ∃ grant redemption post, authenticated.start crypto = .ok (grant, redemption, post) ∧
    post.headers = brokerHeaders := by
  obtain ⟨p, grant, he⟩ := entitled hashed_plain
  obtain ⟨name, secret, -, -, hb⟩ := brokerInternalTokenHeaders_eq_ok.1 brokerInternalTokenHeaders_receiver
  have hentitled : Entitled authenticated.dependency crypto authenticated.sources authenticated.request token
      Sample.headers p (.ofInt 1500) grant ⟨call.redemption, brokerHeaders⟩ :=
    { he with authHeaders := authHeadersOf_proxyOf hb }
  have hauth := authorize_eq_ok.2 ⟨_, _, _, _, hentitled⟩
  have hpost : redeemer.post attempt.format call.redemption brokerHeaders =
      .ok { Sample.post with headers := brokerHeaders } := by
    have hquote : quote call.redemption.grantId = .ok (str "grant-1") := by decide +kernel
    refine bind_eq_ok.2 ⟨_, hquote, bind_eq_ok.2 ⟨str "/v1/grants/grant-1/redeem", by decide +kernel, ?_⟩⟩
    exact check_eq_ok.2 ⟨ensure_eq_ok.2 (by decide +kernel), rfl⟩
  exact ⟨grant, _, _, start_eq_ok.2 ⟨_, hauth, rfl, hpost⟩, rfl⟩

def brokerRequest : Request where
  method := str "POST"
  headers := [(headerKey brokerTokenHeader, [115, 101, 99, 114, 101, 116]),
    (headerKey brokerReceiverHeader, [102, 105, 108, 101, 115, 45, 49])]
  body := []
  query := []
  rawPath := none

end Sample

theorem broker_accepts_iff_of_file : brokerRoute "broker" (Sample.environment [("INTERNAL_API_KEY", "secret")])
    Sample.brokerRequest = .ok () := by
  obtain ⟨grant, redemption, post, hstart, hheaders⟩ := Sample.start_authenticated
  have hpost : Step Sample.crypto (fun _ : Unit => Sample.authenticated) .init _ := .post (i := ()) rfl hstart
  have hs := (Relation.ReflTransGen.single hpost).tail (.takePost (show _ = _ ::ₘ 0 from rfl))
  have hbrings : Brings post.headers Sample.brokerRequest := by
    rw [hheaders]
    intro name hname
    have hall : ∀ name ∈ tokenHeaderNames, Sample.brokerRequest.getlist name =
        (Sample.brokerHeaders.filter fun h => sameName h.1 (str name)).map Prod.snd := by decide +kernel
    exact hall name hname
  obtain ⟨name, token, hname, htoken, -, haccepts⟩ := broker_accepts_iff Sample.crypto _ hs (List.mem_cons_self ..)
    Sample.brokerInternalTokenHeaders_receiver (.callable rfl rfl) hbrings "broker"
    (Sample.environment [("INTERNAL_API_KEY", "secret")])
  cases hname
  have hfile : brokerToken Sample.receiverEnvironment (.str []) (.path (str "/run/secrets/token")) =
      .ok (str "secret") := by decide +kernel
  obtain rfl := Except.ok.inj (hfile.symm.trans htoken)
  exact haccepts.2 ⟨str "secret", by decide +kernel, by decide +kernel, by decide +kernel, by decide +kernel⟩

end SharedAi.ServiceKit
