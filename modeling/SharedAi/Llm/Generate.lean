import SharedAi.Llm.Chat

/-!
# The native endpoint of Ollama

`llm/ollama_payload.py`, beside the chat endpoint of the same backend.

* `buildGeneratePayload`, `parseGenerateContent` — the payload and the answer;
* `readGenerate`, `GenerateAnswers` — what the endpoint reads, and how it answers;
* `endpoints_of_accepted` — the two URLs of a base URL;
* `generate_beside_chat` — both endpoints are reached through the same base URLs, at the same place, and a text comes
  out of both alike.
-/

namespace SharedAi.Llm

open SharedAi.Control SharedAi.Net SharedAi.Num SharedAi.Python SharedAi.Text

structure GenerateRequest where
  model : Str
  prompt : Str
  temperature : Float64
  maxTokens : ℤ
  numCtx : Option ℤ

/-- The member `num_ctx`, if it is not `None`. -/
def numCtxMember : Option ℤ → List (PyKey × PyVal)
  | none => []
  | some n => [member "num_ctx" (.int n)]

def generateMembers (r : GenerateRequest) : List (PyKey × PyVal) :=
  [member "model" (.str r.model), member "prompt" (.str r.prompt), member "stream" (.bool false),
    member "options" (.dict ([member "temperature" (.float r.temperature), member "num_predict" (.int r.maxTokens)] ++
      numCtxMember r.numCtx))]

/-- `build_generate_payload`. -/
def buildGeneratePayload (r : GenerateRequest) : PyVal := .dict (generateMembers r)

/-- `parse_generate_content`; what is no mapping has no `get`. -/
def parseGenerateContent (py : Interp) (isAlnum : PyChar → Bool) (data : PyVal) : Except Exn Str :=
  match members data with
  | some ms => contentText py isAlnum ((PyVal.get? ms "response").getD (.str []))
  | none => .error (.exception "AttributeError")

/-! ### The endpoint -/

def readNumCtx (options : List (PyKey × PyVal)) : Option (Option ℤ) :=
  match PyVal.get? options "num_ctx" with
  | none => some none
  | some (.int n) => some (some n)
  | some _ => none

/-- What the endpoint is asked for, if it is not asked for a stream. -/
def readGenerate : PyVal → Option GenerateRequest
  | .dict ms =>
    match PyVal.get? ms "model", PyVal.get? ms "prompt", PyVal.get? ms "stream", PyVal.get? ms "options" with
    | some (.str model), some (.str prompt), some (.bool false), some (.dict os) =>
      match PyVal.get? os "temperature", PyVal.get? os "num_predict", readNumCtx os with
      | some (.float temperature), some (.int maxTokens), some numCtx =>
        some ⟨model, prompt, temperature, maxTokens, numCtx⟩
      | _, _, _ => none
    | _, _, _, _ => none
  | _ => none

/-- A body that answers with a text, whatever else it says. -/
def GenerateAnswers (data : PyVal) (text : Str) : Prop :=
  ∃ ms, members data = some ms ∧ PyVal.get? ms "response" = some (.str text)

section Generate

variable {lib : UrlLibrary} {py : Interp} {isAlnum : PyChar → Bool} {baseUrl : Str} {base : BaseUrl}

/-- What is read from the payload is what was asked for. -/
theorem readGenerate_build (r : GenerateRequest) : readGenerate (buildGeneratePayload r) = some r := by
  obtain ⟨model, prompt, temperature, maxTokens, _ | n⟩ := r <;> rfl

theorem parseGenerateContent_of_answers {data : PyVal} {text : Str} (h : GenerateAnswers data text) :
    parseGenerateContent py isAlnum data = .ok (stripThink isAlnum text) := by
  obtain ⟨ms, hms, hresponse⟩ := h
  rw [parseGenerateContent, hms]
  dsimp only
  rw [hresponse]
  rfl

/-- A base URL that is refused has neither endpoint. -/
theorem Endpoint.url_of_error (endpoint : Endpoint) {e : Exn} (h : validatedBaseUrl lib baseUrl = .error e) :
    endpoint.url lib baseUrl = .error e := by
  cases endpoint
  · show llmChatUrl lib baseUrl = _
    unfold llmChatUrl
    rw [h]
    rfl
  · show ollamaGenerateUrl lib baseUrl = _
    unfold ollamaGenerateUrl
    rw [h]
    rfl

/-- The URLs of the endpoints, under one authority. -/
theorem endpoints_of_accepted (hlib : lib.Documented) (h : validatedBaseUrl lib baseUrl = .ok base) :
    ∃ netloc, SplitResult.hostname lib (httpsParts netloc []) = some base.host ∧
      SplitResult.port lib (httpsParts netloc []) = .ok base.port ∧
      ∀ endpoint : Endpoint, ∃ url, endpoint.url lib baseUrl = .ok url ∧
        urlsplit lib url = .ok (httpsParts netloc (base.path ++ endpoint.suffix base)) := by
  obtain ⟨raw, hraw, haccepts⟩ := validatedBaseUrl_eq_ok.1 h
  have hclean := clean_of_urlsplit hraw (haccepts.netloc_ne_nil hlib)
  refine ⟨raw.netloc, (haccepts.hostname_eq hlib).2, haccepts.port, fun endpoint => ?_⟩
  exact ⟨_, Endpoint.url_eq_ok.2 ⟨base, _, h, haccepts.urlsplit_safe hclean, rfl⟩,
    haccepts.urlsplit_url endpoint hclean⟩

end Generate

/-- **The native endpoint and the chat endpoint belong to one backend**: they refuse the same base URLs with the same
exception; otherwise their URLs differ in the path behind the base path alone, and lead to an allowed host; what is
asked natively is what is read there; and a text that both answer is returned by both alike. -/
theorem generate_beside_chat {lib : UrlLibrary} (hlib : lib.Documented) (py : Interp) (isAlnum : PyChar → Bool)
    (baseUrl : Str) (r : GenerateRequest) :
    (∀ e, ollamaGenerateUrl lib baseUrl = .error e ↔ llmChatUrl lib baseUrl = .error e) ∧
    (∀ base, validatedBaseUrl lib baseUrl = .ok base → ∃ netloc chat generate,
      (SplitResult.hostname lib (httpsParts netloc []) = some base.host ∧ base.host ∈ allowedHosts ∧
        SplitResult.port lib (httpsParts netloc []) = .ok base.port) ∧
      (llmChatUrl lib baseUrl = .ok chat ∧
        urlsplit lib chat = .ok (httpsParts netloc (base.path ++ Endpoint.chat.suffix base))) ∧
      ollamaGenerateUrl lib baseUrl = .ok generate ∧
        urlsplit lib generate = .ok (httpsParts netloc (base.path ++ str "/api/generate"))) ∧
    readGenerate (buildGeneratePayload r) = some r ∧
    ∀ d data data' text, Dialect.Answers d data text → GenerateAnswers data' text →
      parseGenerateContent py isAlnum data' = parseChatContent py isAlnum data := by
  refine ⟨fun e => ?_, fun base h => ?_, readGenerate_build r, fun d data data' text hchat hgenerate => ?_⟩
  · cases h : validatedBaseUrl lib baseUrl with
    | error e' =>
      have hchat : llmChatUrl lib baseUrl = .error e' := Endpoint.chat.url_of_error h
      have hgenerate : ollamaGenerateUrl lib baseUrl = .error e' := Endpoint.generate.url_of_error h
      rw [hchat, hgenerate]
    | ok base =>
      obtain ⟨netloc, -, -, hurl⟩ := endpoints_of_accepted hlib h
      obtain ⟨chat, hchat, -⟩ := hurl .chat
      obtain ⟨generate, hgenerate, -⟩ := hurl .generate
      have hchat : llmChatUrl lib baseUrl = .ok chat := hchat
      have hgenerate : ollamaGenerateUrl lib baseUrl = .ok generate := hgenerate
      simp [hchat, hgenerate]
  · obtain ⟨netloc, hhost, hport, hurl⟩ := endpoints_of_accepted hlib h
    obtain ⟨raw, -, haccepts⟩ := validatedBaseUrl_eq_ok.1 h
    obtain ⟨chat, hchat⟩ := hurl .chat
    obtain ⟨generate, hgenerate⟩ := hurl .generate
    exact ⟨netloc, chat, generate, ⟨hhost, haccepts.allowed, hport⟩, hchat, hgenerate⟩
  · rw [parseGenerateContent_of_answers hgenerate, parseChatContent_of_answers hchat]

theorem generate_beside_chat_of_ollama : ∃ netloc chat generate,
    (SplitResult.hostname asciiLibrary (httpsParts netloc []) = some (str "ollama") ∧ str "ollama" ∈ allowedHosts ∧
      SplitResult.port asciiLibrary (httpsParts netloc []) = .ok (some 11434)) ∧
    (llmChatUrl asciiLibrary (str "https://ollama:11434/llm/") = .ok chat ∧
      urlsplit asciiLibrary chat = .ok (httpsParts netloc (str "/llm" ++ str "/api/chat"))) ∧
    ollamaGenerateUrl asciiLibrary (str "https://ollama:11434/llm/") = .ok generate ∧
      urlsplit asciiLibrary generate = .ok (httpsParts netloc (str "/llm" ++ str "/api/generate")) :=
  (generate_beside_chat asciiLibrary_documented .cpython (fun _ => true) (str "https://ollama:11434/llm/")
    ⟨str "m", str "p", Num.Float64.round false 1 5, 512, none⟩).2.1 _
    (by decide +kernel : validatedBaseUrl asciiLibrary (str "https://ollama:11434/llm/") =
      .ok ⟨str "https://ollama:11434/llm", str "ollama", some 11434, str "/llm"⟩)

end SharedAi.Llm
