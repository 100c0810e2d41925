import SharedAi.Llm.BackendUrl
import SharedAi.Llm.ThinkBlocks
import SharedAi.Python.Response

/-!
# Chat completions

`llm/chat_payload.py` and `llm/http_client.py`: one completion by a local backend.

* `buildChatPayload`, `parseChatContent`, `callChatCompletion` — the payload, the answer, and the call;
* `Dialect` — the two APIs, as a server has them: its paths, what it reads, and how it answers;
* `callChatCompletion_eq` — nothing is posted to a URL that is refused, and one payload to any other;
* `Speaks` — a backend that replies to what it reads;
* `chat_understood` — such a backend is asked in its own API for what the caller asks, and its reply is returned.
-/

namespace SharedAi.Llm

open SharedAi.Control SharedAi.Net SharedAi.Num SharedAi.Python SharedAi.Text

/-! ### The functions -/

structure ChatRequest where
  model : Str
  messages : PyVal
  temperature : Float64
  maxTokens : ℤ

structure ChatPost where
  url : Str
  json : PyVal
  timeout : Float64

/-- `is_ollama_backend`. -/
def isOllamaBackend (lib : UrlLibrary) (baseUrl : Str) : Except Exn Bool :=
  (validatedBaseUrl lib baseUrl).map fun base => base.port == some 11434

/-- `disables_thinking`. -/
def disablesThinking (lib : UrlLibrary) (baseUrl : Str) : Except Exn Bool :=
  (validatedBaseUrl lib baseUrl).map fun base => base.host == str "vllm" || base.port == some 8000

def member (name : String) (v : PyVal) : PyKey × PyVal := (.str (str name), v)

/-- The members that only some backends are sent. -/
def dialectMembers (ollama : Bool) (r : ChatRequest) : List (PyKey × PyVal) :=
  if ollama then
    [member "options" (.dict [member "temperature" (.float r.temperature), member "num_predict" (.int r.maxTokens)]),
      member "think" (.bool false)]
  else [member "temperature" (.float r.temperature), member "max_tokens" (.int r.maxTokens)]

def payloadMembers (ollama disables : Bool) (r : ChatRequest) : List (PyKey × PyVal) :=
  [member "model" (.str r.model), member "messages" r.messages, member "stream" (.bool false)] ++
    dialectMembers ollama r ++
    if disables then [member "chat_template_kwargs" (.dict [member "enable_thinking" (.bool false)])] else []

/-- `build_chat_payload`. -/
def buildChatPayload (lib : UrlLibrary) (baseUrl : Str) (r : ChatRequest) : Except Exn PyVal := do
  let ollama ← isOllamaBackend lib baseUrl
  let disables ← disablesThinking lib baseUrl
  pure (.dict (payloadMembers ollama disables r))

/-- `strip_think(str(content))`. -/
def contentText (py : Interp) (isAlnum : PyChar → Bool) (content : PyVal) : Except Exn Str :=
  (py.toStr content).map (stripThink isAlnum)

/-- `parse_chat_content`. -/
def parseChatContent (py : Interp) (isAlnum : PyChar → Bool) (data : PyVal) : Except Exn Str := do
  if ← hasItem "message" data then
    subscript "message" data >>= subscript "content" >>= contentText py isAlnum
  else if ← hasItem "choices" data then
    subscript "choices" data >>= getFirst >>= subscript "message" >>= subscript "content" >>= contentText py isAlnum
  else .error .valueError

/-- `call_chat_completion`, with what it posts. -/
def callChatCompletion (lib : UrlLibrary) (py : Interp) (isAlnum : PyChar → Bool)
    (post : ChatPost → Except Exn HttpResponse) (baseUrl : Str) (r : ChatRequest) (timeout : Float64) :
    Calls ChatPost Exn Str := do
  let payload ← Calls.lift (buildChatPayload lib baseUrl r)
  let url ← Calls.lift (llmChatUrl lib baseUrl)
  let response ← Calls.call ⟨url, payload, timeout⟩ (post ⟨url, payload, timeout⟩)
  Calls.lift (do
    response.raiseForStatus
    let data ← response.json
    parseChatContent py isAlnum data)

/-! ### The two APIs -/

/-- The API of Ollama, and the one of OpenAI that the other backends have. -/
inductive Dialect where
  | ollama
  | openai
  deriving DecidableEq

namespace Dialect

/-- The API that a path belongs to. -/
def ofPath (path : Str) : Option Dialect :=
  if (str "/api/chat").isSuffixOf path then some .ollama
  else if (str "/chat/completions").isSuffixOf path then some .openai
  else none

/-- Where a server looks for the parameters of a completion, and how it calls the number of tokens. -/
def parameters : Dialect → List (PyKey × PyVal) → Option (List (PyKey × PyVal) × String)
  | ollama, ms =>
    match PyVal.get? ms "options" with
    | some (.dict os) => some (os, "num_predict")
    | _ => none
  | openai, ms => some (ms, "max_tokens")

/-- What a server is asked for, if it is not asked for a stream. -/
def read (d : Dialect) : PyVal → Option ChatRequest
  | .dict ms =>
    match PyVal.get? ms "model", PyVal.get? ms "messages", PyVal.get? ms "stream", d.parameters ms with
    | some (.str model), some messages, some (.bool false), some (ps, tokens) =>
      match PyVal.get? ps "temperature", PyVal.get? ps tokens with
      | some (.float temperature), some (.int maxTokens) => some ⟨model, messages, temperature, maxTokens⟩
      | _, _ => none
    | _, _, _, _ => none
  | _ => none

/-- A body that answers with a text, whatever else it says. -/
def Answers : Dialect → PyVal → Str → Prop
  | ollama, data, text => ∃ ms message, members data = some ms ∧ PyVal.get? ms "message" = some (.dict message) ∧
      PyVal.get? message "content" = some (.str text)
  | openai, data, text => ∃ ms choice rest cs message, members data = some ms ∧ PyVal.get? ms "message" = none ∧
      PyVal.get? ms "choices" = some (.list (choice :: rest)) ∧ members choice = some cs ∧
      PyVal.get? cs "message" = some (.dict message) ∧ PyVal.get? message "content" = some (.str text)

end Dialect

def BaseUrl.dialect (base : BaseUrl) : Dialect := if base.port = some 11434 then .ollama else .openai

section Chat

variable {lib : UrlLibrary} {py : Interp} {isAlnum : PyChar → Bool} {baseUrl : Str} {base : BaseUrl}
  {r : ChatRequest} {data : PyVal} {text : Str}

/-- What a server reads depends on the members of its dialect alone. -/
theorem read_payloadMembers (ollama disables : Bool) :
    (if ollama then Dialect.ollama else .openai).read (.dict (payloadMembers ollama disables r)) = some r := by
  cases ollama <;> cases disables <;> rfl

/-- A payload asks a backend not to think: Ollama always, and in the way of vLLM exactly if it is meant to. -/
theorem thinks_payloadMembers (ollama disables : Bool) :
    PyVal.get? (payloadMembers ollama disables r) "think" = (if ollama then some (.bool false) else none) ∧
    PyVal.get? (payloadMembers ollama disables r) "chat_template_kwargs" =
      if disables then some (.dict [member "enable_thinking" (.bool false)]) else none := by
  cases ollama <;> cases disables <;> exact ⟨rfl, rfl⟩

/-- What is read from the payload is what was asked for. -/
theorem read_payload (h : validatedBaseUrl lib baseUrl = .ok base) :
    ∃ ms, buildChatPayload lib baseUrl r = .ok (.dict ms) ∧ base.dialect.read (.dict ms) = some r ∧
      PyVal.get? ms "think" = (if base.dialect = .ollama then some (.bool false) else none) ∧
      PyVal.get? ms "chat_template_kwargs" = if base.host = str "vllm" ∨ base.port = some 8000 then
        some (.dict [member "enable_thinking" (.bool false)]) else none := by
  have hdialect : base.dialect = if (base.port == some 11434) = true then .ollama else .openai := by
    simp only [BaseUrl.dialect, beq_iff_eq]
  have hollama : base.dialect = .ollama ↔ (base.port == some 11434) = true := by
    rw [hdialect]
    split <;> simp [*]
  have hdisables : (base.host == str "vllm" || base.port == some 8000) = true ↔
      base.host = str "vllm" ∨ base.port = some 8000 := by simp
  unfold buildChatPayload isOllamaBackend disablesThinking
  rw [h]
  refine ⟨_, rfl, hdialect ▸ read_payloadMembers _ _, ?_⟩
  simp only [hollama, ← hdisables]
  exact thinks_payloadMembers _ _

/-- Where the URL is refused, so is the payload. -/
theorem buildChatPayload_of_error {e : Exn} (h : validatedBaseUrl lib baseUrl = .error e) :
    buildChatPayload lib baseUrl r = .error e := by
  unfold buildChatPayload isOllamaBackend
  rw [h]
  rfl

/-- The path of the endpoint belongs to the API of the backend. -/
theorem ofPath_suffix (path : Str) (base : BaseUrl) :
    Dialect.ofPath (path ++ Endpoint.chat.suffix base) = some base.dialect := by
  have hopenai : ∀ x ∈ [str "/chat/completions", str "/v1/chat/completions"],
      Dialect.ofPath (path ++ x) = some .openai := by
    intro x hx
    have hends : str "/chat/completions" <:+ x ∧ ¬ str "/api/chat" <:+ x ∧ (str "/api/chat").length ≤ x.length := by
      revert x
      decide +kernel
    have hollama : ¬ str "/api/chat" <:+ path ++ x := fun h =>
      hends.2.1 (List.suffix_of_suffix_length_le h (List.suffix_append path x) hends.2.2)
    unfold Dialect.ofPath
    rw [if_neg (by rwa [List.isSuffixOf_iff_suffix]),
      if_pos (List.isSuffixOf_iff_suffix.2 (hends.1.trans (List.suffix_append path x)))]
  unfold Endpoint.suffix BaseUrl.dialect
  dsimp only
  split
  · unfold Dialect.ofPath
    rw [if_pos (List.isSuffixOf_iff_suffix.2 (List.suffix_append path _))]
  · split
    · exact hopenai _ (List.mem_cons_self ..)
    · exact hopenai _ (List.mem_cons_of_mem _ (List.mem_cons_self ..))

/-- The URL of the endpoint: under the authority of the base URL, in the API of the backend. -/
theorem llmChatUrl_spec (hlib : lib.Documented) (h : validatedBaseUrl lib baseUrl = .ok base) :
    ∃ url parts, llmChatUrl lib baseUrl = .ok url ∧ urlsplit lib url = .ok parts ∧ parts.scheme = str "https" ∧
      parts.hostname lib = some base.host ∧ parts.port lib = .ok base.port ∧
      Dialect.ofPath parts.path = some base.dialect := by
  obtain ⟨raw, hraw, haccepts⟩ := validatedBaseUrl_eq_ok.1 h
  have hclean := clean_of_urlsplit hraw (haccepts.netloc_ne_nil hlib)
  have hurl : Endpoint.chat.url lib baseUrl = .ok _ :=
    Endpoint.url_eq_ok.2 ⟨base, _, h, haccepts.urlsplit_safe hclean, rfl⟩
  exact ⟨_, _, hurl, haccepts.urlsplit_url .chat hclean, rfl, (haccepts.hostname_eq hlib).2, haccepts.port,
    ofPath_suffix base.path base⟩

/-- An answer of either API is read. -/
theorem parseChatContent_of_answers {d : Dialect} (h : d.Answers data text) :
    parseChatContent py isAlnum data = .ok (stripThink isAlnum text) := by
  have hget : ∀ {v w : PyVal} {ms : List (PyKey × PyVal)} {key : String}, members v = some ms →
      PyVal.get? ms key = some w → subscript key v = .ok w := fun hms hw => subscript_eq_ok.2 ⟨_, hms, hw⟩
  unfold parseChatContent
  cases d with
  | ollama =>
    obtain ⟨ms, message, hms, hmessage, hcontent⟩ := h
    rw [hasItem_of_members hms, hmessage, hget hms hmessage]
    show subscript "content" (.dict message) >>= contentText py isAlnum = _
    rw [hget rfl hcontent]
    rfl
  | openai =>
    obtain ⟨ms, choice, rest, cs, message, hms, hnone, hchoices, hcs, hmessage, hcontent⟩ := h
    rw [hasItem_of_members hms, hasItem_of_members hms, hnone, hchoices, hget hms hchoices]
    show subscript "message" choice >>= subscript "content" >>= contentText py isAlnum = _
    rw [hget hcs hmessage]
    show subscript "content" (.dict message) >>= contentText py isAlnum = _
    rw [hget rfl hcontent]
    rfl

/-! ### One completion -/

variable {post : ChatPost → Except Exn HttpResponse} {timeout : Float64}

/-- A base URL that is refused is not posted to. -/
theorem callChatCompletion_of_error {e : Exn} (h : validatedBaseUrl lib baseUrl = .error e) :
    callChatCompletion lib py isAlnum post baseUrl r timeout [] = (.error e, []) := by
  rw [callChatCompletion, Calls.lift_bind, buildChatPayload_of_error h]

/-- The post of a completion. -/
theorem callChatCompletion_of_ok {payload : PyVal} {url : Str} (hpayload : buildChatPayload lib baseUrl r = .ok payload)
    (hurl : llmChatUrl lib baseUrl = .ok url) :
    callChatCompletion lib py isAlnum post baseUrl r timeout [] =
      (post ⟨url, payload, timeout⟩ >>= fun response => do
        response.raiseForStatus
        let data ← response.json
        parseChatContent py isAlnum data, [⟨url, payload, timeout⟩]) := by
  rw [callChatCompletion, Calls.lift_bind, hpayload]
  dsimp only
  rw [Calls.lift_bind, hurl]
  exact Calls.call_bind_lift ..

/-- A backend that replies, in the API of the path it is asked at, to what it reads there. -/
def Speaks (lib : UrlLibrary) (post : ChatPost → Except Exn HttpResponse) (reply : ChatRequest → Str) : Prop :=
  ∀ p parts d r, urlsplit lib p.url = .ok parts → Dialect.ofPath parts.path = some d → d.read p.json = some r →
    ∃ response data, post p = .ok response ∧ response.raiseForStatus = .ok () ∧ response.json = .ok data ∧
      d.Answers data (reply r)

end Chat

/-- **A completion is asked once, at an allowed host and in the API of the endpoint, for what the caller asks; and the
reply of a backend that speaks both APIs is returned without its think blocks.** -/
theorem chat_understood {lib : UrlLibrary} (hlib : lib.Documented) (py : Interp) (isAlnum : PyChar → Bool)
    (baseUrl : Str) (r : ChatRequest) (timeout : Float64) :
    (∀ post e, validatedBaseUrl lib baseUrl = .error e →
      callChatCompletion lib py isAlnum post baseUrl r timeout [] = (.error e, [])) ∧
    ∀ base, validatedBaseUrl lib baseUrl = .ok base → ∃ url ms parts d,
      (∀ post, (callChatCompletion lib py isAlnum post baseUrl r timeout []).2 = [⟨url, .dict ms, timeout⟩]) ∧
      (urlsplit lib url = .ok parts ∧ parts.scheme = str "https" ∧ parts.hostname lib = some base.host ∧
        base.host ∈ allowedHosts ∧ parts.port lib = .ok base.port) ∧
      (Dialect.ofPath parts.path = some d ∧ d.read (.dict ms) = some r) ∧
      (PyVal.get? ms "think" = if d = .ollama then some (.bool false) else none) ∧
      (PyVal.get? ms "chat_template_kwargs" = if base.host = str "vllm" ∨ base.port = some 8000 then
        some (.dict [member "enable_thinking" (.bool false)]) else none) ∧
      ∀ post reply, Speaks lib post reply →
        (callChatCompletion lib py isAlnum post baseUrl r timeout []).1 = .ok (stripThink isAlnum (reply r)) := by
  refine ⟨fun post e h => callChatCompletion_of_error h, fun base h => ?_⟩
  obtain ⟨ms, hpayload, hread, hthink, hkwargs⟩ := read_payload (r := r) h
  obtain ⟨url, parts, hurl, hparts, hscheme, hhost, hport, hpath⟩ := llmChatUrl_spec hlib h
  obtain ⟨raw, -, haccepts⟩ := validatedBaseUrl_eq_ok.1 h
  refine ⟨url, ms, parts, base.dialect, fun post => ?_, ⟨hparts, hscheme, hhost, haccepts.allowed, hport⟩,
    ⟨hpath, hread⟩, hthink, hkwargs, fun post reply hspeaks => ?_⟩
  · rw [callChatCompletion_of_ok hpayload hurl]
  · obtain ⟨response, data, hresponse, hstatus, hjson, hanswers⟩ :=
      hspeaks ⟨url, .dict ms, timeout⟩ parts base.dialect r hparts hpath hread
    rw [callChatCompletion_of_ok hpayload hurl, hresponse]
    show (response.raiseForStatus >>= fun _ => response.json >>= parseChatContent py isAlnum) = _
    rw [hstatus, hjson]
    exact parseChatContent_of_answers hanswers

namespace Sample

def chatRequest : ChatRequest := ⟨str "llama3.1:8b", .list [], .ofInt 0, 512⟩

def echo (r : ChatRequest) : Str := str "<think>…</think> " ++ r.model

def answer (text : Str) : Dialect → PyVal
  | .ollama => .dict [member "message" (.dict [member "content" (.str text)])]
  | .openai => .dict [member "choices" (.list [.dict [member "message" (.dict [member "content" (.str text)])]])]

def backend (p : ChatPost) : Except Exn HttpResponse := do
  let parts ← urlsplit asciiLibrary p.url
  match Dialect.ofPath parts.path with
  | none => .ok ⟨404, .error .jsonDecodeError⟩
  | some d =>
    match d.read p.json with
    | none => .ok ⟨400, .error .jsonDecodeError⟩
    | some r => .ok ⟨200, .ok (answer (echo r) d)⟩

theorem speaks_backend : Speaks asciiLibrary backend echo := by
  intro p parts d r hparts hpath hread
  refine ⟨⟨200, .ok (answer (echo r) d)⟩, _, ?_, rfl, rfl, ?_⟩
  · unfold backend
    rw [hparts, ok_bind, hpath]
    dsimp only
    rw [hread]
  · cases d with
    | ollama => exact ⟨_, _, rfl, rfl, rfl⟩
    | openai => exact ⟨_, _, _, _, _, rfl, rfl, rfl, rfl, rfl, rfl⟩

end Sample

theorem chat_understood_of_echo :
    (callChatCompletion asciiLibrary .cpython (fun _ => false) Sample.backend (str "https://vllm:8000/v1")
      Sample.chatRequest (.ofInt 15) []).1 = .ok (str "llama3.1:8b") := by
  obtain ⟨-, h⟩ := chat_understood asciiLibrary_documented .cpython (fun _ => false) (str "https://vllm:8000/v1")
    Sample.chatRequest (.ofInt 15)
  have hbase : validatedBaseUrl asciiLibrary (str "https://vllm:8000/v1") =
      .ok ⟨str "https://vllm:8000/v1", str "vllm", some 8000, str "/v1"⟩ := by decide +kernel
  obtain ⟨url, ms, parts, d, -, -, -, -, -, hreply⟩ := h _ hbase
  rw [hreply Sample.backend Sample.echo Sample.speaks_backend]
  decide +kernel

end SharedAi.Llm
