import SharedAi.ServiceKit.Binding

/-!
# Correctly issued grants

A grant that the verifier accepts for a request, with its headers taken verbatim, is meant to reach the redeemer.

* `CorrectlyIssued` — such a grant: every context claim in one header, the request rebuilt, all checks in order;
* `Admitted` — the redeemer is called, and its `True` returns the grant;
* `admitted_iff` — a correctly issued grant is admitted unless a claim has white space at one of its ends, or the
  receiver has no identifier that a redemption can hold.
-/

namespace SharedAi.ServiceKit

open SharedAi.Control SharedAi.Data SharedAi.Json SharedAi.Num SharedAi.Python SharedAi.Text

/-- A text that a header field can carry: Latin-1, with no line break or NUL, and no blank or tab at its ends. -/
def isHeaderText (s : Str) : Bool :=
  decide (s ≠ []) && (s.all fun c => c.ord < 0x100 && c.ord != 0 && c.ord != 0x0A && c.ord != 0x0D) &&
    s.head?.all (fun c => c.ord != 0x20 && c.ord != 0x09) && s.getLast?.all fun c => c.ord != 0x20 && c.ord != 0x09

/-- The bound headers with the values of a request, verbatim. -/
def verbatim (value : String → Str) : List (PyKey × PyVal) :=
  boundHeaders.map fun b => (PyKey.str (str b.1), PyVal.str (value b.1))

/-- The request presents the token and the context in one header each, and the verifier accepts the token for it. -/
structure CorrectlyIssued {py : Interp} (d : Dependency py) (crypto : Crypto) (sources : Sources) (request : Request)
    (token : Str) (value : String → Str) (payload : PyVal) (transport : CapabilityGrantTransport) (now : Float64)
    (grant : VerifiedCapabilityGrant) (authHeaders : List (Str × Str)) : Prop where
  presented : request.getlist grantHeader = [token]
  context : ∀ b ∈ boundHeaders, request.getlist b.1 = [value b.1]
  rebuilt : reconstructFastapiRequest py request = .ok payload
  expected : d.transportOf request = .ok transport
  clock : sources.now = .ok now
  verified : d.verifier.verify py crypto token payload (.transport transport) (verbatim value) (some now) now =
    .ok grant
  requiredClaims : verifyRequiredClaims py grant d.requiredClaims = .ok ()
  authHeaders : resolvedAuthHeaders d.redeemAuthHeaders sources.authHeaders = .ok authHeaders

/-- The redeemer is called, and the grant is returned when it answers `True`. -/
def Admitted {py : Interp} (d : Dependency py) (crypto : Crypto) (callbacks : Callbacks) (request : Request)
    (grant : VerifiedCapabilityGrant) : Prop :=
  ∃ call, (d.requireCapabilityGrant crypto callbacks request []).2 = [call] ∧
    (callbacks.answer call = .ok (.bool true) →
      (d.requireCapabilityGrant crypto callbacks request []).1 = .ok grant)

/-! ### Tokens -/

theorem mem_compactToken {b s : Bytes} {c : PyChar} (h : c ∈ compactToken b s) :
    c.isSpace = false ∧ c.isAscii = true := by
  have hclass : ∀ c, isB64url c = true → c.isSpace = false ∧ c.isAscii = true := by
    intro c hc
    simp only [isB64url, PyChar.isUpper, PyChar.isLower, PyChar.isDigit, Bool.or_eq_true, Bool.and_eq_true,
      decide_eq_true_eq, beq_iff_eq] at hc
    rcases hc with (hc | rfl) | rfl
    · simp only [PyChar.isSpace, PyChar.isAscii, Bool.or_eq_false_iff, Bool.and_eq_false_iff,
        decide_eq_false_iff_not, beq_eq_false_iff_ne, decide_eq_true_eq]
      omega
    · decide
    · decide
  rcases List.mem_append.1 h with h | h
  · exact hclass c (b64urlEncode_all b c h)
  · rcases List.mem_cons.1 h with rfl | h
    · decide
    · exact hclass c (b64urlEncode_all s c h)

theorem trimmed_compactToken (b s : Bytes) : (compactToken b s).Trimmed :=
  Str.trimmed_of_not_space fun _ hc => (mem_compactToken hc).1

theorem compactToken_ne_nil (b s : Bytes) : compactToken b s ≠ [] := by
  unfold compactToken
  simp

theorem tokenFingerprint_compactToken (crypto : Crypto) (b s : Bytes) :
    ∃ f, tokenFingerprint crypto (compactToken b s) = .ok f ∧ isHash f = true := by
  obtain ⟨encoded, he⟩ := encodeAscii_of_ascii fun c hc => (mem_compactToken (b := b) (s := s) hc).2
  refine ⟨(crypto.sha256 encoded).hexdigest, ?_, isHash_hexdigest _⟩
  unfold tokenFingerprint
  rw [if_neg (compactToken_ne_nil b s), he]

/-! ### Headers -/

theorem get?_verbatim (value : String → Str) {b : String × (RequiredGrantClaims → Str)} (hb : b ∈ boundHeaders) :
    PyVal.get? (verbatim value) b.1 = some (.str (value b.1)) := by
  have hkeys : (keys (verbatim value)).Nodup := by
    have hnames : (boundHeaders.map fun b => PyKey.str (str b.1)).Nodup := by decide +kernel
    unfold keys verbatim
    rw [List.map_map]
    exact hnames
  exact (lookup_eq_some hkeys).2 (List.mem_map.2 ⟨b, hb, rfl⟩)

/-- The dependency strips what it reads. -/
theorem bound_eq_verbatim {request : Request} {value : String → Str} {bound : List (PyKey × PyVal)}
    (hv : ∀ b ∈ boundHeaders, request.getlist b.1 = [value b.1])
    (h : List.Forall₂ (fun b m => ∃ v, request.getlist b.1 = [v] ∧ v.strip ≠ [] ∧
      m = (PyKey.str (str b.1), PyVal.str v.strip)) boundHeaders bound) :
    bound = verbatim fun name => (value name).strip := by
  have himp := forall₂_imp_mem (S := fun b m => (PyKey.str (str b.1), PyVal.str (value b.1).strip) = m) h ?_
  · rw [← List.forall₂_map_left_iff, List.forall₂_eq_eq_eq] at himp
    exact himp.symm
  · rintro b hb m - ⟨v, hl, -, rfl⟩
    rw [hv b hb] at hl
    cases hl
    rfl

section Admitted

variable {py : Interp} {d : Dependency py} {crypto : Crypto} {sources : Sources} {callbacks : Callbacks}
  {request : Request} {token : Str} {value : String → Str} {payload : PyVal} {transport : CapabilityGrantTransport}
  {now : Float64} {grant : VerifiedCapabilityGrant} {authHeaders : List (Str × Str)}

/-- What the verifier accepted: claims that the headers repeat. -/
theorem CorrectlyIssued.claims
    (h : CorrectlyIssued d crypto sources request token value payload transport now grant authHeaders) :
    ∃ c ms claims,
      Authorizes py crypto d.verifier token payload (.transport transport) (verbatim value) now c ms claims ∧
      GrantOf claims c grant ∧ ∀ b ∈ boundHeaders, value b.1 = b.2 claims := by
  obtain ⟨c, ms, claims, ha, -, hg⟩ := verify_sound now (isFinite_of_verify now h.verified) h.verified
  refine ⟨c, ms, claims, ha, hg, fun b hb => ?_⟩
  have hget := ha.headers b hb
  rw [get?_verbatim value hb] at hget
  exact PyVal.str.inj (Option.some.inj hget)

theorem isReceiverId_iff : validStr 1 200 d.receiverId = true ↔
    d.receiverId.length ≤ 200 ∧ noSurrogate d.receiverId = true := by
  have hne : d.receiverId ≠ [] := by
    have := d.valid
    simp only [isConfigText, Bool.and_eq_true, decide_eq_true_eq] at this
    exact this.1.1.1
  have hlen := List.length_pos_iff.2 hne
  simp only [validStr, Bool.and_eq_true, decide_eq_true_eq]
  constructor
  · rintro ⟨hs, -, hle⟩
    exact ⟨hle, hs⟩
  · rintro ⟨hle, hs⟩
    exact ⟨hs, hlen, hle⟩

/-- The redemption of a verified grant is valid if the receiver's identifier is. -/
theorem redemptionValid_of_constraints {ms : List (PyKey × PyVal)} {claims : RequiredGrantClaims} {fingerprint : Str}
    {receiverId : Str} (hc : MeetsFieldConstraints ms claims) (hf : isHash fingerprint = true)
    (hr : validStr 1 200 receiverId = true) :
    redemptionValid claims.grantId claims.grantHash fingerprint receiverId claims.audience claims.requestHash =
      true := by
  have hstr : ∀ {name s}, StrClaim ms name 1 200 s → validStr 1 200 s = true := by
    rintro name s ⟨-, hs, hlo, hhi⟩
    simp [validStr, hs, hlo, hhi]
  unfold redemptionValid
  rw [hstr hc.grantId, hc.grantHash.2, hf, hr, hstr hc.audience, hc.requestHash.2]
  rfl

/-- A correctly issued grant whose claims are trimmed is authorized. -/
theorem authorize_of_trimmed
    (h : CorrectlyIssued d crypto sources request token value payload transport now grant authHeaders)
    (ht : ∀ b ∈ boundHeaders, (value b.1).Trimmed) (hr : validStr 1 200 d.receiverId = true) :
    ∃ call, d.authorize crypto sources request = .ok (grant, call) := by
  obtain ⟨c, ms, claims, ha, hg, hclaims⟩ := h.claims
  obtain ⟨b, s, -, -, -, rfl⟩ := ha.token
  obtain ⟨f, hf, hhash⟩ := tokenFingerprint_compactToken crypto b s
  obtain ⟨hpath, hm, htype, hservice, hauth, htls⟩ := transportOf_eq_ok.1 h.expected
  have hvalid := redemptionValid_of_constraints ha.constraints hhash hr
  refine ⟨⟨⟨_, _, _, _, _, _, transport, hvalid⟩, authHeaders⟩,
    authorize_eq_ok.2 ⟨compactToken b s, verbatim value, payload, now, ?_⟩⟩
  exact {
    grantHeader := ⟨_, h.presented, trimmed_compactToken b s, compactToken_ne_nil b s⟩
    boundHeaders := by
      unfold verbatim
      rw [List.forall₂_map_right_iff, List.forall₂_same]
      intro b hb
      refine ⟨value b.1, h.context b hb, ?_, by rw [ht b hb]⟩
      rw [ht b hb, hclaims b hb]
      exact boundHeaders_ne_nil ha.constraints b hb
    rebuilt := h.rebuilt
    path := hpath
    method := hm
    transportType := htype
    service := hservice
    authProfile := hauth
    tlsAliasProfile := htls
    clock := h.clock
    verified := h.verified
    requiredClaims := h.requiredClaims
    authHeaders := h.authHeaders
    grantId := hg.grantId.symm
    grantHash := hg.grantHash.symm
    tokenFingerprint := hf
    receiverId := rfl
    audience := hg.audience.symm
    requestHash := hg.requestHash.symm }

/-- A correctly issued grant that is authorized has trimmed claims. -/
theorem trimmed_of_authorize
    (h : CorrectlyIssued d crypto sources request token value payload transport now grant authHeaders)
    {grant' : VerifiedCapabilityGrant} {call : Call} (hok : d.authorize crypto sources request = .ok (grant', call)) :
    (∀ b ∈ boundHeaders, (value b.1).Trimmed) ∧ validStr 1 200 d.receiverId = true := by
  obtain ⟨c, ms, claims, ha, -, hclaims⟩ := h.claims
  obtain ⟨b, s, -, -, -, htoken⟩ := ha.token
  obtain ⟨token', bound, payload', now', he⟩ := authorize_eq_ok.1 hok
  -- the dependency reads the token as it is, since no token has white space
  obtain ⟨v, hv, rfl, -⟩ := he.grantHeader
  have hsame : v.strip = token := by
    obtain rfl : token = v := by simpa using h.presented.symm.trans hv
    rw [htoken]
    exact trimmed_compactToken b s
  have hverified := he.verified
  rw [hsame, bound_eq_verbatim h.context he.boundHeaders] at hverified
  obtain ⟨c', ms', claims', ha', -⟩ := verify_sound now' (isFinite_of_verify now' hverified) hverified
  obtain ⟨-, rfl⟩ := ha.claims_unique ha'
  constructor
  · intro b hb
    have hget := ha'.headers b hb
    rw [get?_verbatim _ hb, ← hclaims b hb] at hget
    exact PyVal.str.inj (Option.some.inj hget)
  · have hvalid := call.redemption.valid
    simp only [redemptionValid, Bool.and_eq_true] at hvalid
    rw [← he.receiverId]
    exact hvalid.1.1.2

end Admitted

/-- **A correctly issued grant is admitted exactly where stripping leaves its claims alone and a redemption can hold
the receiver's identifier.** -/
theorem admitted_iff {py : Interp} {d : Dependency py} {crypto : Crypto} {callbacks : Callbacks} {request : Request}
    {token : Str} {value : String → Str} {payload : PyVal} {transport : CapabilityGrantTransport} {now : Float64}
    {grant : VerifiedCapabilityGrant} {authHeaders : List (Str × Str)}
    (h : CorrectlyIssued d crypto callbacks.toSources request token value payload transport now grant authHeaders) :
    Admitted d crypto callbacks request grant ↔
      (∀ b ∈ boundHeaders, (value b.1).Trimmed) ∧ d.receiverId.length ≤ 200 ∧ noSurrogate d.receiverId = true := by
  rw [← isReceiverId_iff]
  constructor
  · rintro ⟨call, hcall, -⟩
    cases hok : d.authorize crypto callbacks.toSources request with
    | error e =>
      rw [require_of_error hok] at hcall
      cases hcall
    | ok p => exact trimmed_of_authorize h hok
  · rintro ⟨ht, hr⟩
    obtain ⟨call, hok⟩ := authorize_of_trimmed h ht hr
    refine ⟨call, by rw [require_of_ok hok], fun hanswer => ?_⟩
    exact require_eq_ok.2 ⟨call, hok, hanswer⟩

namespace Sample

def receiver (id : Str) (h : isConfigText id = true) : Dependency .cpython :=
  { dependency with
    receiverId := id
    valid := by
      rw [h]
      decide +kernel }

def value (name : String) : Str :=
  str (([("X-AI-Local-Capability-Grant-ID", "grant-1"), ("X-Task-ID", "task-1"), ("X-Trace-ID", "trace-1"),
    ("X-Agentic-Action-ID", "act-1"), ("X-Agentic-Node-Attempt", "try-1"), ("Idempotency-Key", "idem-1")].lookup
    name).getD "")

theorem correctlyIssued (id : Str) (h : isConfigText id = true) : ∃ payload grant,
    CorrectlyIssued (receiver id h) crypto callbacks.toSources plain token value payload transport (.ofInt 1500) grant
      [] := by
  obtain ⟨p, grant, he⟩ := entitled hashed_plain
  exact ⟨p, grant, {
    presented := by decide +kernel
    context := by decide +kernel
    rebuilt := he.rebuilt
    expected := transportOf_eq_ok.2
      ⟨he.path, he.method, he.transportType, he.service, he.authProfile, he.tlsAliasProfile⟩
    clock := he.clock
    verified := he.verified
    requiredClaims := he.requiredClaims
    authHeaders := he.authHeaders }⟩

def longId : Str := List.replicate 201 (.scalar 'r')

theorem isConfigText_longId : isConfigText longId = true := by decide +kernel

end Sample

theorem admitted_iff_of_plain :
    ∃ grant, Admitted Sample.dependency Sample.crypto Sample.callbacks Sample.plain grant := by
  obtain ⟨payload, grant, h⟩ := Sample.correctlyIssued (str "files-1") (by decide +kernel)
  exact ⟨grant, (admitted_iff h).2 ⟨by decide +kernel, by decide +kernel, by decide +kernel⟩⟩

/-- A receiver whose identifier is too long for a redemption is accepted at construction, and turns every grant
away. -/
theorem not_admitted_of_longId : ¬ ∀ {py : Interp} (d : Dependency py) (crypto : Crypto) (callbacks : Callbacks)
    (request : Request) (token : Str) (value : String → Str) (payload : PyVal) (transport : CapabilityGrantTransport)
    (now : Float64) (grant : VerifiedCapabilityGrant) (authHeaders : List (Str × Str)),
    (∀ b ∈ boundHeaders, isHeaderText (value b.1) = true) →
    CorrectlyIssued d crypto callbacks.toSources request token value payload transport now grant authHeaders →
      Admitted d crypto callbacks request grant := by
  intro h
  obtain ⟨payload, grant, hc⟩ := Sample.correctlyIssued Sample.longId Sample.isConfigText_longId
  have hadmitted := h _ _ Sample.callbacks _ _ _ _ _ _ _ _ (by decide +kernel) hc
  obtain ⟨-, hlen, -⟩ := (admitted_iff hc).1 hadmitted
  revert hlen
  decide +kernel

end SharedAi.ServiceKit
