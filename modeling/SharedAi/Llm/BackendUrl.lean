import SharedAi.Python.UrlParse

/-!
# Backend URLs

`llm/backend_url.py`: the URLs of local LLM backends.

* `validatedBaseUrl` — a base URL with an allowed host, as `BaseUrl`;
* `llmChatUrl`, `ollamaGenerateUrl` — the URLs of the endpoints;
* `StaysInside` — the URL has exactly an allowed host as its authority, and the base URL is its own;
* `staysInside_iff` — where this holds: `Tidy` base URLs.
-/

namespace SharedAi.Llm

open SharedAi.Control SharedAi.Net SharedAi.Python SharedAi.Text

/-! ### The functions -/

/-- `_ALLOWED_HOSTS`. -/
def allowedHosts : List Str :=
  ["localhost", "127.0.0.1", "::1", "host.docker.internal", "ollama", "ollama-proxy", "ollama-runtime", "vllm",
    "central-vllm", "central-fast", "llama-cpp-fast", "llama-cpp-aux", "llama_cpp_fast", "llama_cpp_aux"].map str

/-- What `validated_base_url` returns. -/
structure BaseUrl where
  safe : Str
  host : Str
  port : Option ℕ
  path : Str
  deriving DecidableEq

/-- `path.rstrip("/")`. -/
def rstripSlash (path : Str) : Str := path.rdropWhile (· == slash)

/-- `validated_base_url`. -/
def validatedBaseUrl (lib : UrlLibrary) (baseUrl : Str) : Except Exn BaseUrl := do
  let raw := Str.strip baseUrl
  let parts ← urlsplit lib raw
  let host := lib.lower ((parts.hostname lib).getD [])
  let port ← parts.port lib
  ensure (parts.scheme = str "https" ∧ host ≠ []) .valueError
  ensure (parts.username.getD [] = [] ∧ parts.password.getD [] = [] ∧ parts.query = [] ∧ parts.fragment = [])
    .valueError
  ensure (host ∈ allowedHosts) .valueError
  let path := rstripSlash parts.path
  let safe := urlunsplit ⟨parts.scheme, parts.netloc, path, [], []⟩
  pure ⟨safe, host, port, path⟩

/-- `llm_chat_url`. -/
def llmChatUrl (lib : UrlLibrary) (baseUrl : Str) : Except Exn Str := do
  let base ← validatedBaseUrl lib baseUrl
  let parts ← urlsplit lib base.safe
  let endpoint :=
    if base.port = some 11434 then (if base.path ≠ [] then base.path ++ str "/api/chat" else str "/api/chat")
    else if (str "/v1").isSuffixOf base.path then base.path ++ str "/chat/completions"
    else if base.path ≠ [] then base.path ++ str "/v1/chat/completions" else str "/v1/chat/completions"
  pure (urlunsplit ⟨parts.scheme, parts.netloc, endpoint, [], []⟩)

/-- `ollama_generate_url`. -/
def ollamaGenerateUrl (lib : UrlLibrary) (baseUrl : Str) : Except Exn Str := do
  let base ← validatedBaseUrl lib baseUrl
  let parts ← urlsplit lib base.safe
  let endpoint := if base.path ≠ [] then base.path ++ str "/api/generate" else str "/api/generate"
  pure (urlunsplit ⟨parts.scheme, parts.netloc, endpoint, [], []⟩)

inductive Endpoint where
  | chat
  | generate

def Endpoint.url (lib : UrlLibrary) : Endpoint → Str → Except Exn Str
  | chat => llmChatUrl lib
  | generate => ollamaGenerateUrl lib

def Endpoint.suffix : Endpoint → BaseUrl → Str
  | chat, base =>
    if base.port = some 11434 then str "/api/chat"
    else if (str "/v1").isSuffixOf base.path then str "/chat/completions" else str "/v1/chat/completions"
  | generate, _ => str "/api/generate"

/-! ### What is promised of them -/

/-- One of the allowed hosts, in brackets if it has colons, and optionally a port. -/
def ExactAuthority (lib : UrlLibrary) (netloc : Str) : Prop :=
  ∃ h port, netloc = (if colon ∈ h then openBracket :: (h ++ [closeBracket]) else h) ++ port ∧
    lib.lower h ∈ allowedHosts ∧ (port = [] ∨ ∃ digits, port = colon :: digits ∧ digits ≠ [] ∧
      ∀ c ∈ digits, c.isDigit = true)

/-- The URL `u` of an endpoint stays inside the allowlist. -/
def StaysInside (lib : UrlLibrary) (endpoint : Endpoint) (s u : Str) : Prop :=
  ∃ raw base parts, urlsplit lib (Str.strip s) = .ok raw ∧ validatedBaseUrl lib s = .ok base ∧
    urlsplit lib u = .ok parts ∧ parts.scheme = str "https" ∧ (parts.query = [] ∧ parts.fragment = []) ∧
    (ExactAuthority lib parts.netloc ∧ atSign ∉ parts.netloc) ∧
    (parts.hostname lib = some base.host ∧ parts.port lib = .ok base.port) ∧
    parts.path = rstripSlash raw.path ++ endpoint.suffix base ∧ validatedBaseUrl lib base.safe = .ok base

/-- No user information, no colon without a port, nothing around the brackets, and no white space at the end of the
path. -/
structure Tidy (parts : SplitResult) : Prop where
  userinfo : atSign ∉ parts.netloc
  port : parts.netloc.getLast? ≠ some colon
  brackets : openBracket ∈ parts.netloc → ∃ h r, closeBracket ∉ h ∧
    parts.netloc = openBracket :: (h ++ closeBracket :: r) ∧ (r = [] ∨ r.head? = some colon)
  path : ∀ c ∈ (rstripSlash parts.path).getLast?, c.isSpace = false

/-! ### What is accepted -/

section Accepted

variable {lib : UrlLibrary} {s : Str} {base : BaseUrl}

/-- What `validated_base_url` checks of the parts of a URL. -/
structure Accepts (lib : UrlLibrary) (parts : SplitResult) (base : BaseUrl) : Prop where
  host : base.host = lib.lower ((parts.hostname lib).getD [])
  port : parts.port lib = .ok base.port
  scheme : parts.scheme = str "https"
  username : parts.username.getD [] = []
  password : parts.password.getD [] = []
  query : parts.query = []
  fragment : parts.fragment = []
  host_ne_nil : base.host ≠ []
  allowed : base.host ∈ allowedHosts
  path : base.path = rstripSlash parts.path
  safe : base.safe = urlunsplit ⟨str "https", parts.netloc, base.path, [], []⟩

theorem validatedBaseUrl_eq_ok : validatedBaseUrl lib s = .ok base ↔
    ∃ parts, urlsplit lib (Str.strip s) = .ok parts ∧ Accepts lib parts base := by
  unfold validatedBaseUrl
  simp only [bind_eq_ok]
  constructor
  · rintro ⟨parts, hparts, port, hport, ⟨⟩, hscheme, ⟨⟩, hcredentials, ⟨⟩, hallowed, h⟩
    cases h
    obtain ⟨hscheme, hne⟩ := ensure_eq_ok.1 hscheme
    obtain ⟨huser, hpassword, hquery, hfragment⟩ := ensure_eq_ok.1 hcredentials
    refine ⟨parts, hparts, rfl, hport, hscheme, huser, hpassword, hquery, hfragment, hne, ensure_eq_ok.1 hallowed,
      rfl, ?_⟩
    dsimp only
    rw [hscheme]
  · rintro ⟨parts, hparts, h⟩
    refine ⟨parts, hparts, base.port, h.port, (), ensure_eq_ok.2 ⟨h.scheme, h.host ▸ h.host_ne_nil⟩, (),
      ensure_eq_ok.2 ⟨h.username, h.password, h.query, h.fragment⟩, (), ensure_eq_ok.2 (h.host ▸ h.allowed), ?_⟩
    obtain ⟨safe, host, port, path⟩ := base
    obtain ⟨rfl, -, hscheme, -, -, -, -, -, -, hpath, hsafe⟩ := h
    dsimp only at hpath hsafe ⊢
    rw [hsafe, hscheme, hpath]
    rfl

end Accepted

/-! ### The URLs that are built -/

section Build

variable {lib : UrlLibrary} {raw : SplitResult} {netloc path : Str}

/-- The parts of an `https` URL without query and fragment. -/
def httpsParts (netloc path : Str) : SplitResult := ⟨str "https", netloc, path, [], []⟩

theorem urlunsplit_httpsParts (hne : netloc ≠ []) (hpath : Rooted path) :
    urlunsplit (httpsParts netloc path) = str "https://" ++ netloc ++ path := by
  have hhttps : str "https" ≠ [] := by decide
  have h : urlunsplit (httpsParts netloc path) = str "https" ++ colon :: (str "//" ++ netloc ++ path ++ []) :=
    urlunsplit_of_netloc hhttps hne hpath
  rw [h, List.append_nil, List.append_assoc (str "https://")]
  rfl

def IsPathChar (c : PyChar) : Prop := isUnsafeChar c = false ∧ c ≠ question ∧ c ≠ numberSign

theorem Clean.isPathChar (h : Clean lib raw) : ∀ c ∈ raw.path, IsPathChar c := by
  intro c hc
  refine ⟨h.safe c (by simp [hc]), ?_, ?_⟩
  · rintro rfl
    exact h.path.1 hc
  · rintro rfl
    exact h.path.2 hc

theorem clean_httpsParts (h : Clean lib raw) (hpath : Rooted path) (hmem : ∀ c ∈ path, IsPathChar c) :
    Clean lib (httpsParts raw.netloc path) := by
  have hscheme : (str "https").head?.any isAlpha = true ∧ (str "https").all isSchemeChar = true ∧
      (str "https").map PyChar.asciiLower = str "https" := by decide
  refine ⟨⟨.inr hscheme, h.netloc, hpath, ⟨?_, ?_⟩, by simp [httpsParts], ?_⟩, h.valid⟩
  · exact fun hc => (hmem _ hc).2.1 rfl
  · exact fun hc => (hmem _ hc).2.2 rfl
  · intro c hc
    simp only [httpsParts, List.append_nil, List.mem_append] at hc
    rcases hc with hc | hc
    · exact h.safe c (by simp [hc])
    · exact (hmem c hc).1

theorem rooted_append {suffix : Str} (h : Rooted path) (hs : Rooted suffix) : Rooted (path ++ suffix) := by
  rcases h with hp | ⟨q, hp⟩
  · simpa [hp] using hs
  · exact .inr ⟨q ++ suffix, by rw [hp, List.cons_append]⟩

/-- Stripping a URL strips the end of its path. -/
theorem strip_httpsParts (hne : netloc ≠ []) (hpath : Rooted path)
    (hlast : path = [] → ∀ c ∈ netloc.getLast?, c.isSpace = false) :
    Str.strip (urlunsplit (httpsParts netloc path)) =
      urlunsplit (httpsParts netloc (path.rdropWhile PyChar.isSpace)) := by
  rw [urlunsplit_httpsParts hne hpath, urlunsplit_httpsParts hne (hpath.of_prefix (List.rdropWhile_prefix _ _))]
  have hhead : (str "https://" ++ netloc ++ path).dropWhile PyChar.isSpace = str "https://" ++ netloc ++ path := by
    rw [List.append_assoc]
    exact List.dropWhile_cons_of_neg (by decide)
  rw [Str.strip, hhead]
  rcases hpath with rfl | ⟨p, rfl⟩
  · rw [List.append_nil, List.rdropWhile_nil, List.append_nil, List.rdropWhile_eq_self_iff]
    intro hl
    rw [List.getLast_append_of_ne_nil hl hne]
    simpa using hlast rfl _ (List.getLast?_eq_getLast_of_ne_nil hne)
  · rw [Str.rdropWhile_append_of_mem (List.mem_cons_self ..) (by decide)]

end Build

/-! ### The hosts -/

/-- No allowed host has one of these characters. -/
theorem not_mem_allowedHosts : ∀ h ∈ allowedHosts, percent ∉ h ∧ openBracket ∉ h ∧ closeBracket ∉ h := by decide

/-- Nor has one white space, or both a `v` and a dot. -/
theorem allowedHosts_spec : ∀ h ∈ allowedHosts, h ≠ [] ∧ (∀ c ∈ h, c.isSpace = false) ∧
    ¬(.scalar 'v' ∈ h ∧ .scalar '.' ∈ h) := by decide

section Host

variable {lib : UrlLibrary} {raw : SplitResult} {base : BaseUrl}

/-- An allowed host is the text of the host in lower case. -/
theorem Accepts.hostname_eq (hlib : lib.Documented) (h : Accepts lib raw base) :
    base.host = lib.lower (hostinfo raw.netloc).1 ∧ raw.hostname lib = some base.host := by
  set host := (hostinfo raw.netloc).1 with hhost
  have hlower_nil : lib.lower [] = [] := hlib.lower_ascii [] rfl
  have hne : host ≠ [] := by
    intro h0
    apply h.host_ne_nil
    rw [h.host, SplitResult.hostname, ← hhost, if_pos h0]
    exact hlower_nil
  have hpercent : percent ∉ host := by
    intro hmem
    obtain ⟨p, zone, hcut, hp⟩ := exists_cut hmem
    have hname : raw.hostname lib = some (lib.lower p ++ percent :: zone) := by
      rw [SplitResult.hostname, ← hhost, if_neg hne, hcut, cut_append_cons hp]
    have hpercent : percent ∈ base.host := by
      rw [h.host, hname]
      exact hlib.mem_lower _ _ (by simp) (.inl (by decide))
    exact (not_mem_allowedHosts _ h.allowed).1 hpercent
  have hname : raw.hostname lib = some (lib.lower host) := by
    rw [SplitResult.hostname, ← hhost, if_neg hne, cut_of_not_mem hpercent, List.append_nil]
  have heq : base.host = lib.lower host := by
    rw [h.host, hname]
    exact hlib.lower_lower host
  exact ⟨heq, by rw [hname, heq]⟩

theorem Accepts.netloc_ne_nil (hlib : lib.Documented) (h : Accepts lib raw base) : raw.netloc ≠ [] := by
  intro h0
  have hname := (h.hostname_eq hlib).2
  rw [SplitResult.hostname, h0] at hname
  cases hname

/-- A port behind what cannot end the authority. -/
theorem port_digits {h digits port : Str} (hlast : (h ++ port).getLast? ≠ some colon)
    (hport : port = [] ∧ digits = [] ∨ port = colon :: digits) (hdigits : ∀ c ∈ digits, c.isDigit = true) :
    port = [] ∨ ∃ digits, port = colon :: digits ∧ digits ≠ [] ∧ ∀ c ∈ digits, c.isDigit = true := by
  rcases hport with ⟨hnil, -⟩ | rfl
  · exact .inl hnil
  · right
    refine ⟨digits, rfl, ?_, hdigits⟩
    rintro rfl
    simp at hlast

/-- The text in brackets was checked. -/
theorem checkBracketedHost_of_valid {h r : Str} (hh : closeBracket ∉ h)
    (hvalid : netlocValid lib (openBracket :: (h ++ closeBracket :: r)) = true) : checkBracketedHost h = true := by
  simp only [netlocValid, bracketsValid, partition_brackets hh, Bool.and_eq_true] at hvalid
  have hbracket := hvalid.1.1.2
  rw [Bool.or_eq_true] at hbracket
  rcases hbracket with hno | hyes
  · simp at hno
  · exact hyes

/-- **A tidy authority is exactly an allowed host.** -/
theorem exactAuthority_of_tidy (hlib : lib.Documented) (h : Accepts lib raw base)
    (hvalid : netlocValid lib raw.netloc = true) (ht : Tidy raw) : ExactAuthority lib raw.netloc := by
  have hallowed : lib.lower (hostinfo raw.netloc).1 ∈ allowedHosts := (h.hostname_eq hlib).1 ▸ h.allowed
  have hdigits := isDigit_of_port h.port
  have hlast := ht.port
  by_cases hb : openBracket ∈ raw.netloc
  · obtain ⟨host, r, hh, hnetloc, hr⟩ := ht.brackets hb
    have hat := ht.userinfo
    rw [hnetloc] at hallowed hdigits hat hvalid hlast ⊢
    rw [hostinfo_brackets hat hh] at hallowed hdigits
    have hcolon : colon ∈ host := by
      rcases mem_of_checkBracketedHost (checkBracketedHost_of_valid hh hvalid) with hc | ⟨hv, hdot⟩
      · exact hc
      · -- an address of a future version is not allowed
        exact absurd ⟨hlib.mem_lower _ _ hv (.inl (by decide)), hlib.mem_lower _ _ hdot (.inl (by decide))⟩
          (allowedHosts_spec _ hallowed).2.2
    refine ⟨host, r, by simp [hcolon], hallowed, ?_⟩
    have hr' : r = [] ∧ (partition colon r).2 = [] ∨ r = colon :: (partition colon r).2 := by
      rcases hr with rfl | hr
      · exact .inl ⟨rfl, rfl⟩
      · rcases r with - | ⟨c, t⟩
        · cases hr
        · cases hr
          have hcut := cut_append_cons (List.not_mem_nil (a := colon)) (r := t)
          rw [List.nil_append] at hcut
          rw [partition, hcut]
          exact .inr rfl
    have hlast' : ((openBracket :: (host ++ [closeBracket])) ++ r).getLast? ≠ some colon := by simpa using hlast
    exact port_digits hlast' hr' hdigits
  · rw [hostinfo_of_not_mem ht.userinfo hb] at hallowed hdigits
    obtain ⟨hcolon, hsplit⟩ := partition_colon raw.netloc
    rcases hsplit with ⟨hnetloc, -⟩ | hnetloc
    · refine ⟨(partition colon raw.netloc).1, [], ?_, hallowed, .inl rfl⟩
      rw [if_neg hcolon, List.append_nil]
      exact hnetloc
    · refine ⟨(partition colon raw.netloc).1, colon :: (partition colon raw.netloc).2, ?_, hallowed, ?_⟩
      · rw [if_neg hcolon]
        exact hnetloc
      · rw [hnetloc] at hlast
        exact port_digits hlast (.inr rfl) hdigits

theorem not_space_of_isDigit {c : PyChar} (h : c.isDigit = true) : c ≠ colon ∧ c.isSpace = false := by
  have hord : 0x30 ≤ c.ord ∧ c.ord ≤ 0x39 := by simpa [PyChar.isDigit] using h
  refine ⟨?_, ?_⟩
  · rintro rfl
    cases h
  · simp only [PyChar.isSpace, Bool.or_eq_false_iff, Bool.and_eq_false_iff, decide_eq_false_iff_not,
      beq_eq_false_iff_ne, ne_eq]
    omega

/-- An authority that is exactly an allowed host ends in neither a colon nor white space, and has brackets only around
the host. -/
theorem ExactAuthority.tidy {netloc : Str} (hlib : lib.Documented) (h : ExactAuthority lib netloc) :
    (∀ c ∈ netloc.getLast?, c ≠ colon ∧ c.isSpace = false) ∧
      (openBracket ∈ netloc → ∃ host r, closeBracket ∉ host ∧
        netloc = openBracket :: (host ++ closeBracket :: r) ∧ (r = [] ∨ r.head? = some colon)) := by
  obtain ⟨host, port, rfl, hallowed, hport⟩ := h
  obtain ⟨-, hopen, hclose⟩ := not_mem_allowedHosts _ hallowed
  obtain ⟨-, hspace, -⟩ := allowedHosts_spec _ hallowed
  have hopen' : openBracket ∉ host := fun hm => hopen (hlib.mem_lower _ _ hm (.inl (by decide)))
  have hclose' : closeBracket ∉ host := fun hm => hclose (hlib.mem_lower _ _ hm (.inl (by decide)))
  have hspace' : ∀ c ∈ host, c.isSpace = false := by
    intro c hc
    by_contra hs
    rw [Bool.not_eq_false] at hs
    rw [hspace c (hlib.mem_lower _ _ hc (.inr hs))] at hs
    cases hs
  refine ⟨?_, ?_⟩
  · intro c hc
    rcases hport with rfl | ⟨digits, rfl, hne, hdigits⟩
    · rw [List.append_nil] at hc
      by_cases hcolon : colon ∈ host
      · rw [if_pos hcolon, ← List.cons_append, List.getLast?_concat] at hc
        cases hc
        decide
      · rw [if_neg hcolon] at hc
        have hmem := List.mem_of_getLast? hc
        exact ⟨fun heq => hcolon (heq ▸ hmem), hspace' c hmem⟩
    · rw [List.append_cons, List.getLast?_append_of_ne_nil _ hne] at hc
      exact not_space_of_isDigit (hdigits c (List.mem_of_getLast? hc))
  · intro hmem
    have hport' : port = [] ∨ port.head? = some colon := by
      rcases hport with rfl | ⟨digits, rfl, -, -⟩
      · exact .inl rfl
      · exact .inr rfl
    by_cases hcolon : colon ∈ host
    · exact ⟨host, port, hclose', by simp [hcolon], hport'⟩
    · -- without brackets around it there are none at all
      rw [if_neg hcolon, List.mem_append] at hmem
      rcases hmem with hmem | hmem
      · exact absurd hmem hopen'
      · rcases hport with rfl | ⟨digits, rfl, -, hdigits⟩
        · cases hmem
        · rcases List.mem_cons.1 hmem with hmem | hmem
          · cases hmem
          · cases hdigits _ hmem

end Host

/-! ### Staying inside -/

section Inside

variable {lib : UrlLibrary} {endpoint : Endpoint} {s u : Str} {raw : SplitResult} {base : BaseUrl}

theorem Endpoint.suffix_spec (endpoint : Endpoint) (base : BaseUrl) :
    Rooted (endpoint.suffix base) ∧ ∀ c ∈ endpoint.suffix base, IsPathChar c := by
  have key : ∀ x ∈ ["/api/chat", "/chat/completions", "/v1/chat/completions", "/api/generate"].map str,
      x.head? = some slash ∧ ∀ c ∈ x, isUnsafeChar c = false ∧ c ≠ question ∧ c ≠ numberSign := by decide
  have hmem : endpoint.suffix base ∈
      ["/api/chat", "/chat/completions", "/v1/chat/completions", "/api/generate"].map str := by
    rcases endpoint with - | -
    · unfold Endpoint.suffix
      dsimp only
      split
      · exact List.mem_cons_self ..
      · split
        · exact List.mem_cons_of_mem _ (List.mem_cons_self ..)
        · exact List.mem_cons_of_mem _ (List.mem_cons_of_mem _ (List.mem_cons_self ..))
    · exact List.mem_of_getLast? rfl
  obtain ⟨hhead, hchars⟩ := key _ hmem
  refine ⟨.inr ?_, hchars⟩
  rcases hx : endpoint.suffix base with - | ⟨c, r⟩
  · rw [hx] at hhead
    cases hhead
  · rw [hx] at hhead
    cases hhead
    exact ⟨r, rfl⟩

/-- The URL of an endpoint: the path of the backend goes on with the suffix. -/
theorem Endpoint.url_eq_ok : endpoint.url lib s = .ok u ↔ ∃ base parts, validatedBaseUrl lib s = .ok base ∧
    urlsplit lib base.safe = .ok parts ∧
    u = urlunsplit ⟨parts.scheme, parts.netloc, base.path ++ endpoint.suffix base, [], []⟩ := by
  have hif : ∀ p x : Str, (if p ≠ [] then p ++ x else x) = p ++ x := by
    intro p x
    by_cases hp : p = [] <;> simp [hp]
  have hchat : ∀ base : BaseUrl,
      (if base.port = some 11434 then base.path ++ str "/api/chat"
        else if (str "/v1").isSuffixOf base.path then base.path ++ str "/chat/completions"
        else base.path ++ str "/v1/chat/completions") = base.path ++ Endpoint.chat.suffix base := by
    intro base
    simp only [Endpoint.suffix, apply_ite (base.path ++ ·)]
  rcases endpoint with - | -
  · simp only [Endpoint.url, llmChatUrl, bind_eq_ok, hif, hchat]
    constructor
    · rintro ⟨base, hbase, parts, hparts, h⟩
      cases h
      exact ⟨base, parts, hbase, hparts, rfl⟩
    · rintro ⟨base, parts, hbase, hparts, rfl⟩
      exact ⟨base, hbase, parts, hparts, rfl⟩
  · simp only [Endpoint.url, ollamaGenerateUrl, bind_eq_ok, hif]
    constructor
    · rintro ⟨base, hbase, parts, hparts, h⟩
      cases h
      exact ⟨base, parts, hbase, hparts, rfl⟩
    · rintro ⟨base, parts, hbase, hparts, rfl⟩
      exact ⟨base, hbase, parts, hparts, rfl⟩

/-- The path that is reported. -/
theorem Accepts.path_spec (h : Accepts lib raw base) (hraw : Clean lib raw) :
    Rooted base.path ∧ ∀ c ∈ base.path, IsPathChar c := by
  rw [h.path, rstripSlash]
  refine ⟨hraw.rooted.of_prefix (List.rdropWhile_prefix _ _), ?_⟩
  intro c hc
  exact Clean.isPathChar hraw c ((List.rdropWhile_prefix _ _).subset hc)

/-- The safe URL has the authority of the base URL and the reported path. -/
theorem Accepts.urlsplit_safe (h : Accepts lib raw base) (hraw : Clean lib raw) :
    urlsplit lib base.safe = .ok (httpsParts raw.netloc base.path) := by
  obtain ⟨hrooted, hchars⟩ := h.path_spec hraw
  rw [h.safe]
  exact (clean_httpsParts hraw hrooted hchars).urlsplit_urlunsplit

/-- So has the URL of an endpoint, with the suffix. -/
theorem Accepts.urlsplit_url (endpoint : Endpoint) (h : Accepts lib raw base) (hraw : Clean lib raw) :
    urlsplit lib (urlunsplit (httpsParts raw.netloc (base.path ++ endpoint.suffix base))) =
      .ok (httpsParts raw.netloc (base.path ++ endpoint.suffix base)) := by
  obtain ⟨hrooted, hchars⟩ := h.path_spec hraw
  obtain ⟨hsuffix, hsuffixChars⟩ := endpoint.suffix_spec base
  apply (clean_httpsParts hraw (rooted_append hrooted hsuffix) _).urlsplit_urlunsplit
  intro c hc
  rcases List.mem_append.1 hc with hc | hc
  · exact hchars c hc
  · exact hsuffixChars c hc

/-- A safe URL that is its own base URL has no white space at the end of its path. -/
theorem Accepts.path_of_fixed (hlib : lib.Documented) (h : Accepts lib raw base) (hraw : Clean lib raw)
    (hfixed : validatedBaseUrl lib base.safe = .ok base) : ∀ c ∈ base.path.getLast?, c.isSpace = false := by
  obtain ⟨hrooted, hchars⟩ := h.path_spec hraw
  obtain ⟨parts, hparts, hsafe⟩ := validatedBaseUrl_eq_ok.1 hfixed
  intro c hc
  have hne : base.path ≠ [] := by
    intro h0
    rw [h0] at hc
    cases hc
  have hstrip := strip_httpsParts (h.netloc_ne_nil hlib) hrooted fun h0 => absurd h0 hne
  have hstripped : Rooted (base.path.rdropWhile PyChar.isSpace) :=
    hrooted.of_prefix (List.rdropWhile_prefix _ _)
  have hclean : Clean lib (httpsParts raw.netloc (base.path.rdropWhile PyChar.isSpace)) :=
    clean_httpsParts hraw hstripped fun c hc => hchars c ((List.rdropWhile_prefix _ _).subset hc)
  have hsplit : urlsplit lib (Str.strip base.safe) =
      .ok (httpsParts raw.netloc (base.path.rdropWhile PyChar.isSpace)) := by
    rw [h.safe]
    exact hstrip ▸ hclean.urlsplit_urlunsplit
  rw [hsplit] at hparts
  cases hparts
  -- the path that is reported is no longer than the one that was stripped
  have hpath : base.path = rstripSlash (base.path.rdropWhile PyChar.isSpace) := hsafe.path
  have hlen : base.path.length ≤ (base.path.rdropWhile PyChar.isSpace).length := by
    conv_lhs => rw [hpath]
    exact (List.rdropWhile_prefix _ _).length_le
  have heq := (List.rdropWhile_prefix PyChar.isSpace base.path).eq_of_length_le hlen
  rw [List.rdropWhile_eq_self_iff] at heq
  have hlast := heq hne
  rw [List.getLast?_eq_getLast_of_ne_nil hne] at hc
  cases hc
  simpa using hlast

/-- With an exact authority and no white space at the end of the path, the safe URL is its own base URL. -/
theorem Accepts.fixed (hlib : lib.Documented) (h : Accepts lib raw base) (hraw : Clean lib raw)
    (hauth : ExactAuthority lib raw.netloc) (hpath : ∀ c ∈ base.path.getLast?, c.isSpace = false) :
    validatedBaseUrl lib base.safe = .ok base := by
  obtain ⟨hrooted, -⟩ := h.path_spec hraw
  have hdrop : base.path.rdropWhile PyChar.isSpace = base.path := by
    rw [List.rdropWhile_eq_self_iff]
    intro hl
    simpa using hpath _ (List.getLast?_eq_getLast_of_ne_nil hl)
  have hstrip := strip_httpsParts (h.netloc_ne_nil hlib) hrooted fun _ c hc => ((hauth.tidy hlib).1 c hc).2
  rw [hdrop] at hstrip
  rw [validatedBaseUrl_eq_ok]
  refine ⟨httpsParts raw.netloc base.path, ?_, h.host, h.port, rfl, h.username, h.password, rfl, rfl, h.host_ne_nil,
    h.allowed, ?_, h.safe⟩
  · rw [h.safe]
    exact hstrip.symm ▸ h.safe ▸ h.urlsplit_safe hraw
  · show base.path = rstripSlash base.path
    rw [h.path, rstripSlash, rstripSlash, List.rdropWhile_idempotent]

/-- **The URL of an endpoint stays inside the allowlist if and only if the base URL is tidy.** -/
theorem staysInside_iff (hlib : lib.Documented) (h : endpoint.url lib s = .ok u) :
    StaysInside lib endpoint s u ↔ ∃ raw, urlsplit lib (Str.strip s) = .ok raw ∧ Tidy raw := by
  obtain ⟨base, parts, hbase, hparts, rfl⟩ := Endpoint.url_eq_ok.1 h
  obtain ⟨raw, hraw, haccepts⟩ := validatedBaseUrl_eq_ok.1 hbase
  have hclean := clean_of_urlsplit hraw (haccepts.netloc_ne_nil hlib)
  rw [haccepts.urlsplit_safe hclean] at hparts
  cases hparts
  have hurl := haccepts.urlsplit_url endpoint hclean
  have hpath := haccepts.path
  constructor
  · rintro ⟨raw', base', parts, hraw', hbase', hparts, -, -, ⟨hauth, hat⟩, -, -, hfixed⟩
    rw [hbase] at hbase'
    cases hbase'
    have heq : Except.ok parts = Except.ok (httpsParts raw.netloc (base.path ++ endpoint.suffix base)) :=
      hparts.symm.trans hurl
    cases heq
    refine ⟨raw, hraw, hat, ?_, (hauth.tidy hlib).2, ?_⟩
    · intro hlast
      exact ((hauth.tidy hlib).1 colon hlast).1 rfl
    · rw [← hpath]
      exact haccepts.path_of_fixed hlib hclean hfixed
  · rintro ⟨raw', hraw', ht⟩
    rw [hraw] at hraw'
    cases hraw'
    have hauth := exactAuthority_of_tidy hlib haccepts hclean.valid ht
    refine ⟨raw, base, _, hraw, hbase, hurl, rfl, ⟨rfl, rfl⟩, ⟨hauth, ht.userinfo⟩,
      ⟨(haccepts.hostname_eq hlib).2, haccepts.port⟩, ?_, ?_⟩
    · show base.path ++ endpoint.suffix base = _
      rw [hpath]
    · exact haccepts.fixed hlib hclean hauth (hpath ▸ ht.path)

end Inside

/-- A base URL with an address in brackets, a port and a path. -/
theorem staysInside_brackets : StaysInside asciiLibrary .chat (str " https://[::1]:11434/llm/ ")
    (str "https://[::1]:11434/llm/api/chat") := by
  have hurl : Endpoint.chat.url asciiLibrary (str " https://[::1]:11434/llm/ ") =
      .ok (str "https://[::1]:11434/llm/api/chat") := by decide +kernel
  refine (staysInside_iff asciiLibrary_documented hurl).2 ⟨httpsParts (str "[::1]:11434") (str "/llm/"), ?_, ?_⟩
  · decide +kernel
  · exact ⟨by decide, by decide, fun _ => ⟨str "::1", str ":11434", by decide, rfl, .inr rfl⟩, by decide⟩

/-- Text around the brackets stays in the authority, and what stands before the last slash is stripped later. -/
theorem not_staysInside_of_text :
    (llmChatUrl asciiLibrary (str "https://[::1].example.org") =
        .ok (str "https://[::1].example.org/v1/chat/completions") ∧
      ¬StaysInside asciiLibrary .chat (str "https://[::1].example.org")
        (str "https://[::1].example.org/v1/chat/completions")) ∧
      llmChatUrl asciiLibrary (str "https://localhost/v1 /") = .ok (str "https://localhost/v1 /v1/chat/completions") ∧
        ¬StaysInside asciiLibrary .chat (str "https://localhost/v1 /")
          (str "https://localhost/v1 /v1/chat/completions") := by
  refine ⟨⟨by decide +kernel, ?_⟩, by decide +kernel, ?_⟩
  · rintro ⟨-, -, parts, -, -, hparts, -, -, ⟨hauth, -⟩, -⟩
    have hurl : urlsplit asciiLibrary (str "https://[::1].example.org/v1/chat/completions") =
        .ok (httpsParts (str "[::1].example.org") (str "/v1/chat/completions")) := by decide +kernel
    rw [hurl] at hparts
    cases hparts
    obtain ⟨host, r, hhost, hnetloc, hr⟩ := (hauth.tidy asciiLibrary_documented).2 (by decide)
    have hcut := partition_brackets hhost r
    have hcut' : partition closeBracket (partition openBracket (str "[::1].example.org")).2 =
        (str "::1", str ".example.org") := by decide +kernel
    rw [← hnetloc] at hcut
    have heq : (host, r) = (str "::1", str ".example.org") := hcut.symm.trans hcut'
    cases heq
    rcases hr with hr | hr <;> cases hr
  · rintro ⟨-, base, -, -, hbase, -, -, -, -, -, -, hfixed⟩
    have hbase' : validatedBaseUrl asciiLibrary (str "https://localhost/v1 /") =
        .ok ⟨str "https://localhost/v1 ", str "localhost", none, str "/v1 "⟩ := by decide +kernel
    have hagain : validatedBaseUrl asciiLibrary (str "https://localhost/v1 ") =
        .ok ⟨str "https://localhost/v1", str "localhost", none, str "/v1"⟩ := by decide +kernel
    obtain rfl := Except.ok.inj (hbase'.symm.trans hbase)
    exact absurd (Except.ok.inj (hagain.symm.trans hfixed)) (by decide)

end SharedAi.Llm
