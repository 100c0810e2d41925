import SharedAi.Llm.Chat

/-!
# What a completion returns

* `ContentOf` — the content of a response body;
* `parseChatContent_eq_ok`, `parseChatContent_raisesIn` — where it is found, and what is raised elsewhere;
* `completion_iff` — the texts that a completion returns, and the exceptions that it raises.
-/

namespace SharedAi.Llm

open SharedAi.Control SharedAi.Num SharedAi.Python SharedAi.Text

def MessageOf (v content : PyVal) : Prop :=
  ∃ ms message cs, members v = some ms ∧ PyVal.get? ms "message" = some message ∧ members message = some cs ∧
    PyVal.get? cs "content" = some content

/-- The content of a body: of its message, or else, where there is none, of its first choice. -/
def ContentOf (data content : PyVal) : Prop :=
  MessageOf data content ∨ ∃ ms choices choice, members data = some ms ∧ PyVal.get? ms "message" = none ∧
    PyVal.get? ms "choices" = some choices ∧ getFirst choices = .ok choice ∧ MessageOf choice content

/-- What reading a body may raise. -/
def BodyError (e : Exn) : Prop := e = .valueError ∨ ReadError e

section Parse

variable {py : Interp} {isAlnum : PyChar → Bool} {data content v : PyVal} {t : Str}

theorem contentText_eq_ok : contentText py isAlnum content = .ok t ↔
    ∃ text, py.toStr content = .ok text ∧ t = stripThink isAlnum text := by
  simp only [contentText, map_eq_ok, eq_comm (a := t)]

theorem messageOf_iff : subscript "message" v >>= subscript "content" = .ok content ↔ MessageOf v content := by
  rw [bind_eq_ok]
  constructor
  · rintro ⟨message, hmessage, hcontent⟩
    obtain ⟨ms, hms, hmessage⟩ := subscript_eq_ok.1 hmessage
    obtain ⟨cs, hcs, hcontent⟩ := subscript_eq_ok.1 hcontent
    exact ⟨ms, message, cs, hms, hmessage, hcs, hcontent⟩
  · rintro ⟨ms, message, cs, hms, hmessage, hcs, hcontent⟩
    exact ⟨message, subscript_eq_ok.2 ⟨ms, hms, hmessage⟩, subscript_eq_ok.2 ⟨cs, hcs, hcontent⟩⟩

theorem parseChatContent_eq_ok : parseChatContent py isAlnum data = .ok t ↔
    ∃ content text, ContentOf data content ∧ py.toStr content = .ok text ∧ t = stripThink isAlnum text := by
  constructor
  · intro h
    obtain ⟨inMessage, hmessage, h⟩ := bind_eq_ok.1 h
    cases inMessage with
    | true =>
      obtain ⟨content, hcontent, h⟩ := bind_eq_ok.1 h
      obtain ⟨text, htext, rfl⟩ := contentText_eq_ok.1 h
      exact ⟨content, text, .inl (messageOf_iff.1 hcontent), htext, rfl⟩
    | false =>
      obtain ⟨inChoices, -, h⟩ := bind_eq_ok.1 h
      cases inChoices with
      | false => cases h
      | true =>
        obtain ⟨content, hread, ht⟩ := bind_eq_ok.1 h
        obtain ⟨message, hread, hcontent⟩ := bind_eq_ok.1 hread
        obtain ⟨choice, hread, hinner⟩ := bind_eq_ok.1 hread
        obtain ⟨choices, hread, hfirst⟩ := bind_eq_ok.1 hread
        obtain ⟨ms, hms, hchoices⟩ := subscript_eq_ok.1 hread
        obtain ⟨text, htext, rfl⟩ := contentText_eq_ok.1 ht
        -- an object whose members do not include a message
        have habsent : PyVal.get? ms "message" = none := by
          rw [hasItem_of_members hms] at hmessage
          simpa using hmessage
        have hof := messageOf_iff.1 (bind_eq_ok.2 ⟨message, hinner, hcontent⟩)
        exact ⟨content, text, .inr ⟨ms, choices, choice, hms, habsent, hchoices, hfirst, hof⟩, htext, rfl⟩
  · rintro ⟨content, text, hof, htext, rfl⟩
    have hlast : contentText py isAlnum content = .ok (stripThink isAlnum text) :=
      contentText_eq_ok.2 ⟨text, htext, rfl⟩
    rcases hof with hof | ⟨ms, choices, choice, hms, habsent, hchoices, hfirst, hof⟩
    · have hitem := messageOf_iff.2 hof
      obtain ⟨ms, message, -, hms, hmessage, -⟩ := hof
      unfold parseChatContent
      rw [hasItem_of_members hms, hmessage]
      show subscript "message" data >>= subscript "content" >>= contentText py isAlnum = _
      exact bind_eq_ok.2 ⟨content, hitem, hlast⟩
    · obtain ⟨message, hinner, hcontent⟩ := bind_eq_ok.1 (messageOf_iff.2 hof)
      unfold parseChatContent
      rw [hasItem_of_members hms, hasItem_of_members hms, habsent, hchoices]
      show subscript "choices" data >>= getFirst >>= subscript "message" >>= subscript "content" >>=
        contentText py isAlnum = _
      exact bind_eq_ok.2 ⟨content, bind_eq_ok.2 ⟨message, bind_eq_ok.2 ⟨choice, bind_eq_ok.2
        ⟨choices, subscript_eq_ok.2 ⟨ms, hms, hchoices⟩, hfirst⟩, hinner⟩, hcontent⟩, hlast⟩

theorem toStr_raisesIn : RaisesIn (· = .valueError) (py.toStr v) := by
  have hint : ∀ n, RaisesIn (· = Exn.valueError) (py.intRepr n) := by
    intro n
    unfold Interp.intRepr
    split
    · exact raisesIn_ok _
    · exact raisesIn_error.2 rfl
  cases v with
  | int n => exact (hint n).map
  | _ => exact raisesIn_ok _

theorem parseChatContent_raisesIn : RaisesIn BodyError (parseChatContent py isAlnum data) := by
  have hlookup : ∀ {α : Type} {x : Except Exn α}, RaisesIn ReadError x → RaisesIn BodyError x := fun hx =>
    hx.mono fun _ => .inr
  have htext : ∀ content, RaisesIn BodyError (contentText py isAlnum content) := fun content =>
    (toStr_raisesIn.mono fun _ => .inl).map
  refine (hlookup hasItem_raisesIn).bind fun inMessage _ => ?_
  cases inMessage with
  | true =>
    refine RaisesIn.bind (RaisesIn.bind ?_ fun _ _ => ?_) fun content _ => htext content
    · exact hlookup subscript_raisesIn
    · exact hlookup subscript_raisesIn
  | false =>
    refine (hlookup hasItem_raisesIn).bind fun inChoices _ => ?_
    cases inChoices with
    | true =>
      refine RaisesIn.bind (RaisesIn.bind (RaisesIn.bind (RaisesIn.bind ?_ fun _ _ => ?_) fun _ _ => ?_)
        fun _ _ => ?_) fun content _ => htext content
      · exact hlookup subscript_raisesIn
      · exact hlookup getFirst_raisesIn
      · exact hlookup subscript_raisesIn
      · exact hlookup subscript_raisesIn
    | false => exact raisesIn_error.2 (.inl rfl)

end Parse

section Completion

variable {lib : UrlLibrary} {baseUrl : Str}

theorem validatedBaseUrl_raisesIn : RaisesIn (· = .valueError) (validatedBaseUrl lib baseUrl) := by
  refine RaisesIn.bind ?_ fun parts _ => RaisesIn.bind (fun e he => port_eq_error he) fun _ _ => ?_
  · unfold urlsplit
    dsimp only
    split
    · exact raisesIn_ok _
    · exact raisesIn_error.2 rfl
  · refine RaisesIn.bind (raisesIn_ensure rfl) fun _ _ => RaisesIn.bind (raisesIn_ensure rfl) fun _ _ => ?_
    exact RaisesIn.bind (raisesIn_ensure rfl) fun _ _ => raisesIn_pure _

end Completion

/-- **A completion returns the text of what an accepted backend answers with success, and otherwise raises what the
client raises, `HTTPStatusError`, or an exception that tells that the URL or the body is not one it knows.** -/
theorem completion_iff {lib : UrlLibrary} (hlib : lib.Documented) (py : Interp) (isAlnum : PyChar → Bool)
    (post : ChatPost → Except Exn HttpResponse) (baseUrl : Str) (r : ChatRequest) (timeout : Float64) :
    (∀ t, (callChatCompletion lib py isAlnum post baseUrl r timeout []).1 = .ok t ↔
      ∃ url ms response data content text, llmChatUrl lib baseUrl = .ok url ∧
        buildChatPayload lib baseUrl r = .ok (.dict ms) ∧ post ⟨url, .dict ms, timeout⟩ = .ok response ∧
        (200 ≤ response.statusCode ∧ response.statusCode < 300) ∧ response.json = .ok data ∧
        ContentOf data content ∧ py.toStr content = .ok text ∧ t = stripThink isAlnum text) ∧
    ∀ E : Exn → Prop, (∀ p, RaisesIn E (post p)) → (∀ p response, post p = .ok response → RaisesIn E response.json) →
      RaisesIn (fun e => E e ∨ e = .exception "HTTPStatusError" ∨ BodyError e)
        (callChatCompletion lib py isAlnum post baseUrl r timeout []).1 := by
  cases hbase : validatedBaseUrl lib baseUrl with
  | error e =>
    rw [callChatCompletion_of_error hbase]
    have hraises := validatedBaseUrl_raisesIn e hbase
    refine ⟨fun t => ⟨nofun, ?_⟩, fun E _ _ => raisesIn_error.2 (.inr (.inr (.inl hraises)))⟩
    rintro ⟨url, ms, response, data, content, text, -, hpayload, -⟩
    rw [buildChatPayload_of_error hbase] at hpayload
    cases hpayload
  | ok base =>
    obtain ⟨ms, hpayload, -⟩ := read_payload (r := r) hbase
    obtain ⟨url, -, hurl, -⟩ := llmChatUrl_spec hlib hbase
    rw [callChatCompletion_of_ok hpayload hurl, hpayload, hurl]
    constructor
    · intro t
      constructor
      · intro h
        obtain ⟨response, hresponse, h⟩ := bind_eq_ok.1 h
        obtain ⟨hstatus, h⟩ := check_eq_ok.1 h
        obtain ⟨data, hdata, h⟩ := bind_eq_ok.1 h
        obtain ⟨content, text, hof, htext, rfl⟩ := parseChatContent_eq_ok.1 h
        exact ⟨url, ms, response, data, content, text, rfl, rfl, hresponse, ensure_eq_ok.1 hstatus, hdata, hof, htext,
          rfl⟩
      · rintro ⟨url', ms', response, data, content, text, hurl', hms', hresponse, hstatus, hdata, hof, htext, rfl⟩
        cases hurl'
        cases hms'
        refine bind_eq_ok.2 ⟨response, hresponse, check_eq_ok.2 ⟨ensure_eq_ok.2 hstatus, ?_⟩⟩
        refine bind_eq_ok.2 ⟨data, hdata, ?_⟩
        exact parseChatContent_eq_ok.2 ⟨content, text, hof, htext, rfl⟩
    · intro E hpost hjson
      refine ((hpost _).mono fun _ => .inl).bind fun response hresponse => ?_
      refine RaisesIn.bind (raisesIn_ensure (.inr (.inl rfl))) fun _ _ => ?_
      refine ((hjson _ _ hresponse).mono fun _ => .inl).bind fun data _ => ?_
      exact parseChatContent_raisesIn.mono fun _ he => .inr (.inr he)

theorem completion_iff_of_echo : ∃ t,
    (callChatCompletion asciiLibrary .cpython (fun _ => false) Sample.backend (str "https://localhost:11434")
      Sample.chatRequest (.ofInt 15) []).1 = .ok t := by
  obtain ⟨h, -⟩ := completion_iff asciiLibrary_documented .cpython (fun _ => false) Sample.backend
    (str "https://localhost:11434") Sample.chatRequest (.ofInt 15)
  have hbase : validatedBaseUrl asciiLibrary (str "https://localhost:11434") =
      .ok ⟨str "https://localhost:11434", str "localhost", some 11434, []⟩ := by decide +kernel
  obtain ⟨ms, hpayload, hread, -⟩ := read_payload (r := Sample.chatRequest) hbase
  have hurl : llmChatUrl asciiLibrary (str "https://localhost:11434") =
      .ok (str "https://localhost:11434/api/chat") := by
    decide +kernel
  have hparts : urlsplit asciiLibrary (str "https://localhost:11434/api/chat") =
      .ok (httpsParts (str "localhost:11434") (str "/api/chat")) := by decide +kernel
  obtain ⟨response, data, hresponse, hstatus, hjson, hanswers⟩ := Sample.speaks_backend
    ⟨str "https://localhost:11434/api/chat", .dict ms, .ofInt 15⟩ _ .ollama Sample.chatRequest hparts
    (by decide +kernel) hread
  obtain ⟨ns, message, hns, hmessage, hcontent⟩ := hanswers
  exact ⟨_, (h _).2 ⟨_, ms, response, data, _, _, hurl, hpayload, hresponse, ensure_eq_ok.1 hstatus, hjson,
    .inl ⟨ns, _, message, hns, hmessage, rfl, hcontent⟩, rfl, rfl⟩⟩

end SharedAi.Llm
