import SharedAi.ServiceKit.Grant
import SharedAi.ServiceKit.NormalForm

/-!
# The verifier

`CapabilityGrantVerifier.verify` in three steps, each with the checks in the order of the source:

* `openToken` — the compact token: two base64url parts, the signature, strict and canonical JSON;
* `checkClaims` — field constraints, grant hash, issuer, key, audience and time;
* `checkRequest` — request hash, transport and bound headers.

The grant it returns keeps the claims frozen.

`Authorizes` says what a token is that is built for the request, in terms of the claim object alone;
`verify_iff` shows that the verifier accepts these tokens and no others, as far as the claims can be frozen.
-/

namespace SharedAi.ServiceKit

open SharedAi.Control SharedAi.Data SharedAi.Json SharedAi.Num SharedAi.Python SharedAi.Text

/-! ### Configuration -/

/-- `isinstance(value, str) and value and value == value.strip()`. -/
def isConfigText (s : Str) : Bool := decide (s ≠ []) && decide s.Trimmed

/-- One issuer, key and audience to trust. -/
structure CapabilityGrantVerifier where
  issuer : Str
  keyId : Str
  audience : Str
  publicKey : Ed25519PublicKey
  valid : (isConfigText issuer && isConfigText keyId && isConfigText audience) = true

/-- What `public_key` may be at construction. -/
inductive PublicKeyArg where
  | key (k : Ed25519PublicKey)
  | raw (b : Bytes)
  | text (s : Str)
  | other

/-- `Ed25519PublicKey.from_public_bytes`, after the length check in front of it. -/
def publicKeyFromRaw (raw : Bytes) : Except Exn Ed25519PublicKey :=
  if h : raw.length = 32 then .ok ⟨raw, h⟩
  else .error (.capabilityGrantFormatError "ed25519_public_key_length_invalid")

/-- `public_key_from_base64url`. -/
def publicKeyFromBase64url (value : Str) : Except Exn Ed25519PublicKey := do
  let raw ← b64urlDecode value.strip
  publicKeyFromRaw raw

/-- `_coerce_public_key`. -/
def coercePublicKey : PublicKeyArg → Except Exn Ed25519PublicKey
  | .key k => .ok k
  | .raw b => publicKeyFromRaw b
  | .text s => publicKeyFromBase64url s
  | .other => .error (.capabilityGrantFormatError "ed25519_public_key_invalid")

/-- The texts of `__post_init__`, each with the code of its error. -/
def configText (code : String) : PyVal → Except Exn Str
  | .str s => if isConfigText s then .ok s else .error (.capabilityGrantFormatError code)
  | _ => .error (.capabilityGrantFormatError code)

theorem isConfigText_of_configText {code : String} {v : PyVal} {s : Str} (h : configText code v = .ok s) :
    isConfigText s = true := by
  cases v with
  | str t =>
    obtain ⟨ht, rfl⟩ := ite_eq_ok.1 h
    exact ht
  | _ => cases h

/-- `CapabilityGrantVerifier(issuer, key_id, audience, public_key)`. -/
def CapabilityGrantVerifier.make (issuer keyId audience : PyVal) (publicKey : PublicKeyArg) :
    Except Exn CapabilityGrantVerifier :=
  match hi : configText "capability_grant_issuer_missing" issuer with
  | .error e => .error e
  | .ok i =>
  match hk : configText "capability_grant_key_id_missing" keyId with
  | .error e => .error e
  | .ok k =>
  match ha : configText "capability_grant_audience_missing" audience with
  | .error e => .error e
  | .ok a =>
  (coercePublicKey publicKey).map fun key =>
    ⟨i, k, a, key, by
      rw [isConfigText_of_configText hi, isConfigText_of_configText hk, isConfigText_of_configText ha]
      rfl⟩

theorem configText_of_isConfigText {code : String} {s : Str} (h : isConfigText s = true) :
    configText code (.str s) = .ok s := if_pos h

/-- Every verifier is what its constructor returns. -/
theorem CapabilityGrantVerifier.make_self (v : CapabilityGrantVerifier) :
    CapabilityGrantVerifier.make (.str v.issuer) (.str v.keyId) (.str v.audience) (.key v.publicKey) = .ok v := by
  have h := v.valid
  simp only [Bool.and_eq_true] at h
  obtain ⟨⟨hi, hk⟩, ha⟩ := h
  unfold CapabilityGrantVerifier.make
  split
  next e he => exact absurd he (not_error_of_ok (configText_of_isConfigText hi))
  next i he =>
  obtain rfl := Except.ok.inj ((configText_of_isConfigText hi).symm.trans he)
  split
  next e he => exact absurd he (not_error_of_ok (configText_of_isConfigText hk))
  next k he =>
  obtain rfl := Except.ok.inj ((configText_of_isConfigText hk).symm.trans he)
  split
  next e he => exact absurd he (not_error_of_ok (configText_of_isConfigText ha))
  next a he =>
  obtain rfl := Except.ok.inj ((configText_of_isConfigText ha).symm.trans he)
  rfl

/-- The transport a caller expects: a record, or a mapping to be validated. -/
inductive TransportArg where
  | transport (t : CapabilityGrantTransport)
  | mapping (v : PyVal)

/-- `_BOUND_HEADERS`, with the claim each header repeats. -/
def boundHeaders : List (String × (RequiredGrantClaims → Str)) :=
  [("X-AI-Local-Capability-Grant-ID", RequiredGrantClaims.grantId),
    ("X-Task-ID", RequiredGrantClaims.taskId),
    ("X-Trace-ID", RequiredGrantClaims.traceId),
    ("X-Agentic-Action-ID", RequiredGrantClaims.actionId),
    ("X-Agentic-Node-Attempt", RequiredGrantClaims.attemptId),
    ("Idempotency-Key", RequiredGrantClaims.idempotencyKey)]

/-! ### Verification -/

/-- `token.split(".")`, of a token with one `"."`. -/
def splitToken (token : Str) : Except Exn (Str × Str) :=
  if token.count (.scalar '.') = 1 then
    .ok (token.takeWhile (· != .scalar '.'), (token.dropWhile (· != .scalar '.')).tail)
  else .error (.capabilityGrantFormatError "invalid_capability_grant_token")

/-- The claims of a token whose signature verifies. -/
def openToken (py : Interp) (crypto : Crypto) (key : Ed25519PublicKey) (token : Str) :
    Except Exn (List (PyKey × PyVal)) := do
  let (payloadPart, signaturePart) ← splitToken token
  let payloadBytes ← b64urlDecode payloadPart
  let signature ← b64urlDecode signaturePart
  ensure (signature.length = 64) (.capabilityGrantFormatError "ed25519_signature_length_invalid")
  ensure (crypto.ed25519Verify key signature payloadBytes = true)
    (.capabilityGrantDenied "capability_grant_signature_invalid")
  let payload ← strictJsonLoads py (.bytes payloadBytes)
  match payload with
  | .dict ms => do
    let canonical ← canonicalJsonBytes py (.dict ms)
    ensure (canonical = payloadBytes) (.capabilityGrantFormatError "capability_grant_claims_not_canonical")
    ensure ((PyVal.get? ms "signature").isNone = true)
      (.capabilityGrantFormatError "capability_grant_signature_must_be_detached")
    pure ms
  | _ => .error (.capabilityGrantFormatError "capability_grant_claims_not_object")

/-- `except ValidationError` of `verify`. -/
def validationFailed (code : String) (e : Exn) : Option Exn :=
  if e = .validationError then some (.capabilityGrantFormatError code) else none

/-- `unsigned_claims.pop("grant_hash", None)`. -/
def withoutGrantHash (ms : List (PyKey × PyVal)) : List (PyKey × PyVal) :=
  ms.filter fun m => m.1 ≠ .str (str "grant_hash")

/-- The claims that hold whatever the request is; `time` is the answer of `time.time()`. -/
def checkClaims (py : Interp) (crypto : Crypto) (verifier : CapabilityGrantVerifier) (ms : List (PyKey × PyVal))
    (now : Option Float64) (time : Float64) : Except Exn RequiredGrantClaims := do
  let claims ← catching (validationFailed "capability_grant_claims_invalid") (requiredGrantClaims ms)
  let expectedGrantHash ← canonicalSha256 py crypto (.dict (withoutGrantHash ms))
  ensure (claims.grantHash = expectedGrantHash) (.capabilityGrantDenied "capability_grant_hash_mismatch")
  ensure (claims.issuer = verifier.issuer) (.capabilityGrantDenied "capability_grant_issuer_mismatch")
  ensure (claims.keyId = verifier.keyId) (.capabilityGrantDenied "capability_grant_key_mismatch")
  ensure (claims.audience = verifier.audience) (.capabilityGrantDenied "capability_grant_audience_mismatch")
  ensure (¬ (claims.notBefore.lt claims.issuedAt ∨ claims.expiresAt.le claims.notBefore))
    (.capabilityGrantFormatError "capability_grant_time_bounds_invalid")
  let current := now.getD time
  ensure (current.isFinite = true) (.capabilityGrantFormatError "capability_grant_now_invalid")
  ensure (¬ current.lt claims.notBefore) (.capabilityGrantDenied "capability_grant_not_yet_valid")
  ensure (¬ claims.expiresAt.le current) (.capabilityGrantDenied "capability_grant_expired")
  pure claims

/-- One turn of the loop of `_verify_bound_headers`. -/
def verifyBoundHeader (claims : RequiredGrantClaims) (headers : List (PyKey × PyVal))
    (bound : String × (RequiredGrantClaims → Str)) : Except Exn Unit :=
  match PyVal.get? headers bound.1 with
  | some (.str provided) => do
    ensure (provided ≠ []) (.capabilityGrantDenied "capability_grant_bound_header_missing")
    ensure (provided = bound.2 claims) (.capabilityGrantDenied "capability_grant_bound_header_mismatch")
  | _ => .error (.capabilityGrantDenied "capability_grant_bound_header_missing")

/-- `_verify_bound_headers`. -/
def verifyBoundHeaders (claims : RequiredGrantClaims) (headers : List (PyKey × PyVal)) : Except Exn Unit :=
  forM boundHeaders (verifyBoundHeader claims headers)

/-- `CapabilityGrantTransport.model_validate(transport)`. -/
def expectedTransport : TransportArg → Except Exn CapabilityGrantTransport
  | .transport t => .ok t
  | .mapping v => CapabilityGrantTransport.validate v

/-- The claims that bind one request. -/
def checkRequest (py : Interp) (crypto : Crypto) (claims : RequiredGrantClaims) (requestPayload : PyVal)
    (transport : TransportArg) (headers : List (PyKey × PyVal)) : Except Exn Unit := do
  let expectedRequestHash ← canonicalSha256 py crypto requestPayload
  ensure (claims.requestHash = expectedRequestHash) (.capabilityGrantDenied "capability_grant_request_mismatch")
  let expected ← catching (validationFailed "capability_grant_expected_transport_invalid")
    (expectedTransport transport)
  ensure (claims.transport = expected) (.capabilityGrantDenied "capability_grant_transport_mismatch")
  verifyBoundHeaders claims headers

def verifiedGrant (claims : RequiredGrantClaims) (frozen : PyVal) : VerifiedCapabilityGrant where
  grantId := claims.grantId
  taskId := claims.taskId
  traceId := claims.traceId
  actionId := claims.actionId
  attemptId := claims.attemptId
  idempotencyKey := claims.idempotencyKey
  audience := claims.audience
  issuer := claims.issuer
  keyId := claims.keyId
  requestHash := claims.requestHash
  grantHash := claims.grantHash
  issuedAt := claims.issuedAt
  notBefore := claims.notBefore
  expiresAt := claims.expiresAt
  transport := claims.transport
  claims := frozen

/-- `CapabilityGrantVerifier.verify`. -/
def CapabilityGrantVerifier.verify (verifier : CapabilityGrantVerifier) (py : Interp) (crypto : Crypto) (token : Str)
    (requestPayload : PyVal) (transport : TransportArg) (headers : List (PyKey × PyVal)) (now : Option Float64)
    (time : Float64) : Except Exn VerifiedCapabilityGrant := do
  let ms ← openToken py crypto verifier.publicKey token
  let claims ← checkClaims py crypto verifier ms now time
  checkRequest py crypto claims requestPayload transport headers
  let frozen ← freezeJson py (.dict ms)
  pure (verifiedGrant claims frozen)

/-! ### Tokens -/

def compactToken (payload signature : Bytes) : Str := b64urlEncode payload ++ .scalar '.' :: b64urlEncode signature

theorem splitToken_eq_ok {token a b : Str} : splitToken token = .ok (a, b) ↔
    token = a ++ .scalar '.' :: b ∧ .scalar '.' ∉ a ∧ .scalar '.' ∉ b := by
  constructor
  · intro h
    obtain ⟨hc, he⟩ := ite_eq_ok.1 h
    obtain ⟨rfl, rfl⟩ := Prod.mk.inj he
    have hnot : PyChar.scalar '.' ∉ token.takeWhile (· != .scalar '.') := by
      intro hm
      simpa using List.mem_takeWhile_imp hm
    have hsplit := List.takeWhile_append_dropWhile (p := (· != PyChar.scalar '.')) (l := token)
    cases hd : token.dropWhile (· != .scalar '.') with
    | nil =>
      rw [hd, List.append_nil] at hsplit
      rw [hsplit] at hnot
      rw [List.count_eq_zero_of_not_mem hnot] at hc
      cases hc
    | cons c r =>
      have hc' : c = .scalar '.' := by
        have := List.head?_dropWhile_not (· != PyChar.scalar '.') token
        rw [hd] at this
        simpa using this
      subst hc'
      rw [hd] at hsplit
      refine ⟨hsplit.symm, hnot, ?_⟩
      rw [← hsplit, List.count_append, List.count_eq_zero_of_not_mem hnot, List.count_cons_self] at hc
      exact List.count_eq_zero.1 (by simpa using hc)
  · rintro ⟨rfl, ha, hb⟩
    have hwhile : ∀ c ∈ a, (c != PyChar.scalar '.') = true := by
      rintro c hc
      rw [bne_iff_ne]
      rintro rfl
      exact ha hc
    refine ite_eq_ok.2 ⟨?_, ?_⟩
    · rw [List.count_append, List.count_eq_zero_of_not_mem ha, List.count_cons_self,
        List.count_eq_zero_of_not_mem hb]
    · rw [List.takeWhile_append_of_pos hwhile, List.dropWhile_append_of_pos hwhile]
      simp

theorem dot_not_mem_encode (b : Bytes) : PyChar.scalar '.' ∉ b64urlEncode b := by
  intro h
  have := b64urlEncode_all b _ h
  revert this
  decide

theorem splitToken_compactToken (payload signature : Bytes) :
    splitToken (compactToken payload signature) = .ok (b64urlEncode payload, b64urlEncode signature) :=
  splitToken_eq_ok.2 ⟨rfl, dot_not_mem_encode _, dot_not_mem_encode _⟩

/-- The text of a tree is not empty, and neither are its bytes. -/
theorem canonicalJsonBytes_ne_nil {py : Interp} {v : PyVal} {b : Bytes} (h : canonicalJsonBytes py v = .ok b) :
    b ≠ [] := by
  obtain ⟨-, d, -, hb⟩ := canonicalJsonBytes_eq_ok.1 h
  obtain ⟨c, t, hr, -⟩ := render_head d
  rintro rfl
  have hd := decodeUtf8_of_encode hb
  rw [hr] at hd
  cases hd

section OpenToken

variable {py : Interp} {crypto : Crypto} {key : Ed25519PublicKey}

/-- What an accepted token is. -/
theorem openToken_sound {token : Str} {ms : List (PyKey × PyVal)} (h : openToken py crypto key token = .ok ms) :
    ∃ b s, token = compactToken b s ∧ s.length = 64 ∧ crypto.ed25519Verify key s b = true ∧
      canonicalJsonBytes py (.dict ms) = .ok b ∧ PyVal.get? ms "signature" = none ∧
      PyVal.distinctKeys (.dict ms) = true := by
  obtain ⟨⟨p, q⟩, hsplit, h⟩ := bind_eq_ok.1 h
  obtain ⟨b, hb, h⟩ := bind_eq_ok.1 h
  obtain ⟨s, hs, h⟩ := bind_eq_ok.1 h
  obtain ⟨hlen, h⟩ := check_eq_ok.1 h
  obtain ⟨hver, h⟩ := check_eq_ok.1 h
  obtain ⟨payload, hload, h⟩ := bind_eq_ok.1 h
  cases payload with
  | dict ns =>
    obtain ⟨b', hcan, h⟩ := bind_eq_ok.1 h
    obtain ⟨heq, h⟩ := check_eq_ok.1 h
    obtain ⟨hsig, h⟩ := check_eq_ok.1 h
    cases h
    rw [ensure_eq_ok] at hlen hver heq hsig
    subst heq
    obtain ⟨rfl, -⟩ := b64urlDecode_eq_ok.1 hb
    obtain ⟨rfl, -⟩ := b64urlDecode_eq_ok.1 hs
    obtain ⟨rfl, -⟩ := splitToken_eq_ok.1 hsplit
    exact ⟨b', s, rfl, hlen, hver, hcan, Option.isNone_iff_eq_none.1 hsig, (strictJsonLoads_ok hload).2⟩
  | _ => cases h

/-- The token of a signed claim object is accepted, up to the order of members. -/
theorem openToken_complete {ms : List (PyKey × PyVal)} {b s : Bytes} (hk : PyVal.distinctKeys (.dict ms) = true)
    (hcan : canonicalJsonBytes py (.dict ms) = .ok b) (hlen : s.length = 64)
    (hver : crypto.ed25519Verify key s b = true) (hsig : PyVal.get? ms "signature" = none) :
    ∃ ns, openToken py crypto key (compactToken b s) = .ok ns ∧ PyVal.jsonEq (.dict ms) (.dict ns) = true ∧
      PyVal.distinctKeys (.dict ns) = true ∧ canonicalJsonBytes py (.dict ns) = .ok b := by
  obtain ⟨hv, d, hd, hb⟩ := canonicalJsonBytes_eq_ok.1 hcan
  obtain ⟨w, hload, hwd, hwv, hwk⟩ := strictJsonLoads_of_toDoc hv hk hd hb
  have heq := jsonEq_of_toDoc hd hwd
  obtain ⟨ns, rfl⟩ := PyVal.dict_of_jsonEq heq
  have hcan' := canonicalJsonBytes_eq_ok.2 ⟨hwv, d, hwd, hb⟩
  have hs : s ≠ [] := by
    rintro rfl
    cases hlen
  refine ⟨ns, ?_, heq, hwk, hcan'⟩
  unfold openToken
  rw [splitToken_compactToken]
  refine bind_eq_ok.2 ⟨_, rfl, bind_eq_ok.2 ⟨b, b64urlDecode_encode (canonicalJsonBytes_ne_nil hcan), ?_⟩⟩
  refine bind_eq_ok.2 ⟨s, b64urlDecode_encode hs, check_eq_ok.2 ⟨ensure_eq_ok.2 hlen, ?_⟩⟩
  refine check_eq_ok.2 ⟨ensure_eq_ok.2 hver, bind_eq_ok.2 ⟨_, hload, ?_⟩⟩
  refine bind_eq_ok.2 ⟨b, hcan', check_eq_ok.2 ⟨ensure_eq_ok.2 rfl, check_eq_ok.2 ⟨ensure_eq_ok.2 ?_, rfl⟩⟩⟩
  rw [PyVal.get?_none heq hk hwk hsig]
  rfl

end OpenToken

/-! ### Specification -/

def IsExpected : TransportArg → CapabilityGrantTransport → Prop
  | .transport t, t' => t' = t
  | .mapping v, t' => ∃ ms, v = .dict ms ∧ IsTransport ms t'

/-- The token is built from the claim object `c`, whose members are `ms` and whose interpreted claims are
`claims`, and these are in force at the time `now`, whatever the request is. -/
structure InForce (py : Interp) (crypto : Crypto) (verifier : CapabilityGrantVerifier) (token : Str)
    (now : Float64) (c : Value) (ms : List (PyKey × PyVal)) (claims : RequiredGrantClaims) : Prop where
  object : c.1 = .dict ms
  token : ∃ b s, canonicalJsonBytes py c = .ok b ∧ s.length = 64 ∧
    crypto.ed25519Verify verifier.publicKey s b = true ∧ token = compactToken b s
  detached : PyVal.get? ms "signature" = none
  constraints : MeetsFieldConstraints ms claims
  grantHash : canonicalSha256 py crypto (.dict (withoutGrantHash ms)) = .ok claims.grantHash
  issuer : claims.issuer = verifier.issuer
  keyId : claims.keyId = verifier.keyId
  audience : claims.audience = verifier.audience
  notBefore : claims.issuedAt.le claims.notBefore = true
  started : claims.notBefore.le now = true
  unexpired : now.lt claims.expiresAt = true

/-- The claims that are in force allow this request. -/
structure Authorizes (py : Interp) (crypto : Crypto) (verifier : CapabilityGrantVerifier) (token : Str)
    (requestPayload : PyVal) (transport : TransportArg) (headers : List (PyKey × PyVal)) (now : Float64) (c : Value)
    (ms : List (PyKey × PyVal)) (claims : RequiredGrantClaims) : Prop
    extends InForce py crypto verifier token now c ms claims where
  requestHash : canonicalSha256 py crypto requestPayload = .ok claims.requestHash
  transport : IsExpected transport claims.transport
  headers : ∀ bound ∈ boundHeaders, PyVal.get? headers bound.1 = some (.str (bound.2 claims))

/-- The grant repeats the claims field by field, and keeps the whole object `c` frozen, member by member. -/
structure GrantOf (claims : RequiredGrantClaims) (c : Value) (grant : VerifiedCapabilityGrant) : Prop where
  grantId : grant.grantId = claims.grantId
  taskId : grant.taskId = claims.taskId
  traceId : grant.traceId = claims.traceId
  actionId : grant.actionId = claims.actionId
  attemptId : grant.attemptId = claims.attemptId
  idempotencyKey : grant.idempotencyKey = claims.idempotencyKey
  audience : grant.audience = claims.audience
  issuer : grant.issuer = claims.issuer
  keyId : grant.keyId = claims.keyId
  requestHash : grant.requestHash = claims.requestHash
  grantHash : grant.grantHash = claims.grantHash
  issuedAt : grant.issuedAt = claims.issuedAt
  notBefore : grant.notBefore = claims.notBefore
  expiresAt : grant.expiresAt = claims.expiresAt
  transport : grant.transport = claims.transport
  claims : ∃ c' : Value, IsFrozen c' grant.claims ∧ c'.JsonEq c

/-! ### The checks -/

section Checks

variable {py : Interp} {crypto : Crypto} {verifier : CapabilityGrantVerifier} {ms : List (PyKey × PyVal)}
  {claims : RequiredGrantClaims}

/-- A number of valid claims is finite. -/
theorem NumberClaim.isFinite {name : String} {x : Float64} (hx : NumberClaim ms name x) {n : ℕ}
    (hv : validateWithin n (.dict ms) = .ok ()) (hk : PyVal.distinctKeys (.dict ms) = true) : x.isFinite = true := by
  rcases hx with hx | ⟨i, -, rfl, hx⟩
  · obtain ⟨n, rfl, hms⟩ := validate_dict.1 hv
    have hm := (lookup_eq_some (PyVal.distinctKeys_dict.1 hk).1).1 hx
    have hval := (hms _ hm).2
    simp only [validateWithin] at hval
    exact (ite_eq_ok.1 hval).1
  · exact hx

/-- The time of the checks lies in the interval of the claims. -/
theorem times_iff {issuedAt notBefore expiresAt current : Float64} (hi : issuedAt.isFinite = true)
    (hn : notBefore.isFinite = true) (he : expiresAt.isFinite = true) (hc : current.isFinite = true) :
    (¬ (notBefore.lt issuedAt = true ∨ expiresAt.le notBefore = true) ∧ ¬ current.lt notBefore = true ∧
      ¬ expiresAt.le current = true) ↔
    issuedAt.le notBefore = true ∧ notBefore.le current = true ∧ current.lt expiresAt = true := by
  rw [Float64.le_iff_not_lt hi hn, Float64.le_iff_not_lt hn hc, Float64.le_iff_not_lt he hn,
    Float64.le_iff_not_lt he hc]
  simp only [not_or, Bool.not_eq_true, Bool.not_eq_false]
  constructor
  · rintro ⟨⟨h1, -⟩, h3, h4⟩
    exact ⟨h1, h3, h4⟩
  · rintro ⟨h1, h3, h4⟩
    have hle := (Float64.le_iff_not_lt hn hc).2 h3
    exact ⟨⟨h1, Float64.lt_of_le_of_lt hle h4⟩, h3, h4⟩

theorem checkClaims_eq_ok (now : Option Float64) (time : Float64) (hnow : (now.getD time).isFinite = true) {n : ℕ}
    (hv : validateWithin n (.dict ms) = .ok ()) (hk : PyVal.distinctKeys (.dict ms) = true) :
    checkClaims py crypto verifier ms now time = .ok claims ↔
      MeetsFieldConstraints ms claims ∧
      canonicalSha256 py crypto (.dict (withoutGrantHash ms)) = .ok claims.grantHash ∧
      claims.issuer = verifier.issuer ∧ claims.keyId = verifier.keyId ∧ claims.audience = verifier.audience ∧
      claims.issuedAt.le claims.notBefore = true ∧ claims.notBefore.le (now.getD time) = true ∧
      (now.getD time).lt claims.expiresAt = true := by
  have times : MeetsFieldConstraints ms claims → _ := fun hc =>
    times_iff (hc.issuedAt.1.isFinite hv hk) (hc.notBefore.1.isFinite hv hk) (hc.expiresAt.1.isFinite hv hk) hnow
  constructor
  · intro h
    obtain ⟨claims', hreq, h⟩ := bind_eq_ok.1 h
    obtain ⟨hash, hhash, h⟩ := bind_eq_ok.1 h
    obtain ⟨h1, h⟩ := check_eq_ok.1 h
    obtain ⟨h2, h⟩ := check_eq_ok.1 h
    obtain ⟨h3, h⟩ := check_eq_ok.1 h
    obtain ⟨h4, h⟩ := check_eq_ok.1 h
    obtain ⟨h5, h⟩ := check_eq_ok.1 h
    obtain ⟨-, h⟩ := check_eq_ok.1 h
    obtain ⟨h7, h⟩ := check_eq_ok.1 h
    obtain ⟨h8, h⟩ := check_eq_ok.1 h
    cases h
    rw [ensure_eq_ok] at h1 h2 h3 h4 h5 h7 h8
    have hc := requiredGrantClaims_eq_ok.1 (catching_eq_ok.1 hreq)
    exact ⟨hc, h1 ▸ hhash, h2, h3, h4, (times hc).1 ⟨h5, h7, h8⟩⟩
  · rintro ⟨hc, hhash, h2, h3, h4, ht⟩
    obtain ⟨h5, h7, h8⟩ := (times hc).2 ht
    unfold checkClaims
    refine bind_eq_ok.2 ⟨claims, catching_eq_ok.2 (requiredGrantClaims_eq_ok.2 hc), bind_eq_ok.2 ⟨_, hhash, ?_⟩⟩
    refine check_eq_ok.2 ⟨ensure_eq_ok.2 rfl, check_eq_ok.2 ⟨ensure_eq_ok.2 h2, ?_⟩⟩
    refine check_eq_ok.2 ⟨ensure_eq_ok.2 h3, check_eq_ok.2 ⟨ensure_eq_ok.2 h4, ?_⟩⟩
    refine check_eq_ok.2 ⟨ensure_eq_ok.2 h5, check_eq_ok.2 ⟨ensure_eq_ok.2 hnow, ?_⟩⟩
    exact check_eq_ok.2 ⟨ensure_eq_ok.2 h7, check_eq_ok.2 ⟨ensure_eq_ok.2 h8, rfl⟩⟩

theorem isFinite_of_checkClaims {now time : Float64}
    (h : checkClaims py crypto verifier ms (some now) time = .ok claims) : now.isFinite = true := by
  obtain ⟨claims', -, h⟩ := bind_eq_ok.1 h
  obtain ⟨hash, -, h⟩ := bind_eq_ok.1 h
  obtain ⟨-, h⟩ := check_eq_ok.1 h
  obtain ⟨-, h⟩ := check_eq_ok.1 h
  obtain ⟨-, h⟩ := check_eq_ok.1 h
  obtain ⟨-, h⟩ := check_eq_ok.1 h
  obtain ⟨-, h⟩ := check_eq_ok.1 h
  exact ensure_eq_ok.1 (check_eq_ok.1 h).1

theorem verifyBoundHeader_eq_ok {headers : List (PyKey × PyVal)} {bound : String × (RequiredGrantClaims → Str)} :
    verifyBoundHeader claims headers bound = .ok () ↔
      PyVal.get? headers bound.1 = some (.str (bound.2 claims)) ∧ bound.2 claims ≠ [] := by
  unfold verifyBoundHeader
  split
  · next provided h =>
    rw [check_eq_ok, ensure_eq_ok, ensure_eq_ok, h]
    constructor
    · rintro ⟨hne, rfl⟩
      exact ⟨rfl, hne⟩
    · rintro ⟨he, hne⟩
      cases he
      exact ⟨hne, rfl⟩
  · next h =>
    constructor
    · intro h'
      cases h'
    · rintro ⟨h', -⟩
      exact absurd h' (h _)

/-- No bound claim is empty. -/
theorem boundHeaders_ne_nil (hc : MeetsFieldConstraints ms claims) : ∀ bound ∈ boundHeaders, bound.2 claims ≠ [] := by
  have hne : ∀ {name : String} {hi : ℕ} {s : Str}, StrClaim ms name 1 hi s → s ≠ [] := by
    rintro name hi s ⟨-, -, hlen, -⟩ rfl
    cases hlen
  simp only [boundHeaders, List.forall_mem_cons]
  exact ⟨hne hc.grantId, hne hc.taskId, hne hc.traceId, hne hc.actionId, hne hc.attemptId, hne hc.idempotencyKey,
    by simp⟩

theorem expectedTransport_eq_ok {transport : TransportArg} {t : CapabilityGrantTransport} :
    expectedTransport transport = .ok t ↔ IsExpected transport t := by
  cases transport with
  | transport t' => simp [expectedTransport, IsExpected, eq_comm]
  | mapping v => exact transport_validate_eq_ok

theorem checkRequest_eq_ok {requestPayload : PyVal} {transport : TransportArg} {headers : List (PyKey × PyVal)}
    (hc : MeetsFieldConstraints ms claims) :
    checkRequest py crypto claims requestPayload transport headers = .ok () ↔
      canonicalSha256 py crypto requestPayload = .ok claims.requestHash ∧ IsExpected transport claims.transport ∧
      ∀ bound ∈ boundHeaders, PyVal.get? headers bound.1 = some (.str (bound.2 claims)) := by
  constructor
  · intro h
    obtain ⟨hash, hhash, h⟩ := bind_eq_ok.1 h
    obtain ⟨h1, h⟩ := check_eq_ok.1 h
    obtain ⟨t, ht, h⟩ := bind_eq_ok.1 h
    obtain ⟨h2, h⟩ := check_eq_ok.1 h
    rw [ensure_eq_ok] at h1 h2
    refine ⟨h1 ▸ hhash, h2 ▸ expectedTransport_eq_ok.1 (catching_eq_ok.1 ht), fun bound hb => ?_⟩
    exact (verifyBoundHeader_eq_ok.1 (forM_eq_ok.1 h bound hb)).1
  · rintro ⟨hhash, ht, hh⟩
    unfold checkRequest
    refine bind_eq_ok.2 ⟨_, hhash, check_eq_ok.2 ⟨ensure_eq_ok.2 rfl, ?_⟩⟩
    refine bind_eq_ok.2 ⟨_, catching_eq_ok.2 (expectedTransport_eq_ok.2 ht), ?_⟩
    refine check_eq_ok.2 ⟨ensure_eq_ok.2 rfl, forM_eq_ok.2 fun bound hb => ?_⟩
    exact verifyBoundHeader_eq_ok.2 ⟨hh bound hb, boundHeaders_ne_nil hc bound hb⟩

theorem distinctKeys_withoutGrantHash (hk : PyVal.distinctKeys (.dict ms) = true) :
    PyVal.distinctKeys (.dict (withoutGrantHash ms)) = true := by
  obtain ⟨hnd, hms⟩ := PyVal.distinctKeys_dict.1 hk
  refine PyVal.distinctKeys_dict.2 ⟨hnd.sublist (List.filter_sublist.map _), fun m hm => ?_⟩
  exact hms m (List.mem_of_mem_filter hm)

theorem validate_withoutGrantHash (hv : validateJsonValue py (.dict ms) = .ok ()) :
    validateJsonValue py (.dict (withoutGrantHash ms)) = .ok () := by
  obtain ⟨n, hn, hms⟩ := validate_dict.1 hv
  exact validate_dict.2 ⟨n, hn, fun m hm => hms m (List.mem_of_mem_filter hm)⟩

/-- The grant hash does not depend on the order of members. -/
theorem withoutGrantHash_congr {ns : List (PyKey × PyVal)} (heq : PyVal.jsonEq (.dict ms) (.dict ns) = true)
    (hk : PyVal.distinctKeys (.dict ms) = true) (hk' : PyVal.distinctKeys (.dict ns) = true)
    (hv : validateJsonValue py (.dict ns) = .ok ()) {s : Str}
    (hs : canonicalSha256 py crypto (.dict (withoutGrantHash ms)) = .ok s) :
    canonicalSha256 py crypto (.dict (withoutGrantHash ns)) = .ok s := by
  have hd := distinctKeys_withoutGrantHash hk
  have hd' := distinctKeys_withoutGrantHash hk'
  obtain ⟨hto, hback⟩ :=
    (PyVal.jsonEq_dict_iff (PyVal.distinctKeys_dict.1 hk).1 (PyVal.distinctKeys_dict.1 hk').1).1 heq
  have heq' : PyVal.jsonEq (.dict (withoutGrantHash ms)) (.dict (withoutGrantHash ns)) = true := by
    refine (PyVal.jsonEq_dict_iff (PyVal.distinctKeys_dict.1 hd).1 (PyVal.distinctKeys_dict.1 hd').1).2 ⟨?_, ?_⟩
    · intro m hm
      obtain ⟨hm, hne⟩ := List.mem_filter.1 hm
      obtain ⟨w, hw, hj⟩ := hto m hm
      exact ⟨w, List.mem_filter.2 ⟨hw, hne⟩, hj⟩
    · intro n hn
      obtain ⟨hn, hne⟩ := List.mem_filter.1 hn
      obtain ⟨v, hv, hj⟩ := hback n hn
      exact ⟨v, List.mem_filter.2 ⟨hv, hne⟩, hj⟩
  obtain ⟨b, hb, rfl⟩ := canonicalSha256_eq_ok.1 hs
  have hc := canonicalJsonBytes_congr (v := ⟨_, hd⟩) (w := ⟨_, hd'⟩) heq' hb
    (validate_withoutGrantHash hv)
  exact canonicalSha256_eq_ok.2 ⟨b, hc, rfl⟩

end Checks

/-! ### A grant to write files -/

namespace Sample

/-- `n.to_bytes(k, "big")`. -/
def toBytes (k n : ℕ) : Bytes := (List.range k).map fun i => UInt8.ofNat (n / 256 ^ (k - 1 - i))

def digest (n : ℕ) : Digest := ⟨toBytes 32 n, by simp [toBytes]⟩

def text (name value : String) : PyKey × PyVal := (.str (str name), .str (str value))

/-- The hashed value of `POST /v1/files?x=1` with the body `{"a": 1}`. -/
def payload : List (PyKey × PyVal) :=
  [(.str (str "json"), .dict [(.str (str "a"), .int 1)]), (.str (str "params"), .dict [text "x" "1"])]

def unsignedClaims : List (PyKey × PyVal) :=
  [text "schema_version" "capability-grant-v1", text "grant_id" "grant-1", text "task_id" "task-1",
    text "trace_id" "trace-1", text "action_id" "act-1", text "attempt_id" "try-1", text "idempotency_key" "idem-1",
    text "audience" "files",
    text "request_hash" "a27b94f71f9f332cf599ac6c9e646a5c8c0042e7e89b84892e57651cdf20165f",
    (.str (str "transport"),
      .dict [text "type" "http", text "service" "files", text "method" "POST", text "path" "/v1/files"]),
    (.str (str "issued_at"), .float (.ofInt 1000)), (.str (str "not_before"), .float (.ofInt 1000)),
    (.str (str "expires_at"), .float (.ofInt 2000)), (.str (str "max_uses"), .int 1), text "issuer" "orchestrator",
    text "key_id" "key-1", text "signature_algorithm" "Ed25519",
    (.str (str "scope"), .dict [(.str (str "limit"), .int 3), (.str (str "paths"), .list [.str (str "/tmp"), .none])])]

def claims : List (PyKey × PyVal) :=
  unsignedClaims ++ [text "grant_hash" "34a440369e254ed0001c7f60a2de0327070cd00abb577b46b42e6b356d982715"]

def signature : Bytes :=
  toBytes 32 0xd43e9f8f908852f9efc900782c3b3fe82d7987ac1b06080e07ad74d2096971ed ++
    toBytes 32 0x62492ecbac8ea6eff31ac0cf504882f2dcbd28a9e2392b59a96eb8c7c4dc5405

def bytesOf (ms : List (PyKey × PyVal)) : Bytes := ((canonicalJsonBytes .cpython (.dict ms)).toOption).getD []

def token : Str := compactToken (bytesOf claims) signature

def publicKey : Ed25519PublicKey :=
  ⟨toBytes 32 0x03a107bff3ce10be1d70dd18e74bc09967e4d6309ba50d5f1ddc8664125531b8, by simp [toBytes]⟩

def crypto : Crypto where
  sha256 b :=
    digest <|
      if b = bytesOf payload then 0xa27b94f71f9f332cf599ac6c9e646a5c8c0042e7e89b84892e57651cdf20165f
      else if b = bytesOf unsignedClaims then 0x34a440369e254ed0001c7f60a2de0327070cd00abb577b46b42e6b356d982715
      else if encodeAscii token = some b then 0x0b9e9525a9fc2a5c7bdc470e5a3f46e476ca19f0c175d6d0f4e4c5b8d2bf3bc4
      else 0
  ed25519Verify key s b := decide (key = publicKey ∧ s = signature ∧ b = bytesOf claims)

def verifier : CapabilityGrantVerifier :=
  ⟨str "orchestrator", str "key-1", str "files", publicKey, by decide +kernel⟩

def transport : CapabilityGrantTransport :=
  ⟨str "http", str "files", str "POST", str "/v1/files", none, none, by decide +kernel⟩

def headers : List (PyKey × PyVal) :=
  [text "X-AI-Local-Capability-Grant-ID" "grant-1", text "X-Task-ID" "task-1", text "X-Trace-ID" "trace-1",
    text "X-Agentic-Action-ID" "act-1", text "X-Agentic-Node-Attempt" "try-1", text "Idempotency-Key" "idem-1"]


def interpreted : RequiredGrantClaims where
  grantId := str "grant-1"
  taskId := str "task-1"
  traceId := str "trace-1"
  actionId := str "act-1"
  attemptId := str "try-1"
  idempotencyKey := str "idem-1"
  audience := str "files"
  requestHash := str "a27b94f71f9f332cf599ac6c9e646a5c8c0042e7e89b84892e57651cdf20165f"
  transport := transport
  issuedAt := .ofInt 1000
  notBefore := .ofInt 1000
  expiresAt := .ofInt 2000
  issuer := str "orchestrator"
  keyId := str "key-1"
  grantHash := str "34a440369e254ed0001c7f60a2de0327070cd00abb577b46b42e6b356d982715"

theorem written {ms : List (PyKey × PyVal)} (h : (canonicalJsonBytes .cpython (.dict ms)).toOption.isSome = true) :
    canonicalJsonBytes .cpython (.dict ms) = .ok (bytesOf ms) := by
  unfold bytesOf
  cases hb : canonicalJsonBytes .cpython (.dict ms) with
  | ok b => rfl
  | error e => simp [hb, Except.toOption] at h

def frozen : PyVal := ((freezeJson .cpython (.dict claims)).toOption).getD .none

theorem freeze_claims : freezeJson .cpython (.dict claims) = .ok frozen := by
  unfold frozen
  cases hf : freezeJson .cpython (.dict claims) with
  | ok w => rfl
  | error e =>
    have hdeep := (freezeJson_eq_error.1 hf).2
    exact absurd hdeep (by decide +kernel)

theorem repeats : verifyBoundHeaders interpreted headers = .ok () := by decide +kernel

theorem authorizes : Authorizes .cpython crypto verifier token (.dict payload) (.transport transport) headers
    (.ofInt 1500) ⟨.dict claims, by decide +kernel⟩ claims interpreted where
  object := rfl
  token := ⟨bytesOf claims, signature, written (by decide +kernel), by simp [signature, toBytes],
    by simp [crypto, verifier], rfl⟩
  detached := by decide +kernel
  constraints := requiredGrantClaims_eq_ok.1 (by decide +kernel)
  grantHash := by decide +kernel
  issuer := rfl
  keyId := rfl
  audience := rfl
  notBefore := by decide +kernel
  started := by decide +kernel
  unexpired := by decide +kernel
  requestHash := by decide +kernel
  transport := rfl
  headers bound hb := (verifyBoundHeader_eq_ok.1 (forM_eq_ok.1 repeats bound hb)).1
end Sample

/-! ### Soundness and completeness -/

section Verify

variable {py : Interp} {crypto : Crypto} {verifier : CapabilityGrantVerifier} {token : Str} {requestPayload : PyVal}
  {transport : TransportArg} {headers : List (PyKey × PyVal)} {now : Float64} (time : Float64)

theorem grantOf_verifiedGrant {claims : RequiredGrantClaims} {c : Value} {ns : List (PyKey × PyVal)} {frozen : PyVal}
    (hk : PyVal.distinctKeys (.dict ns) = true) (h : Value.JsonEq ⟨.dict ns, hk⟩ c)
    (hf : IsFrozen (.dict ns) frozen) : GrantOf claims c (verifiedGrant claims frozen) where
  grantId := rfl
  taskId := rfl
  traceId := rfl
  actionId := rfl
  attemptId := rfl
  idempotencyKey := rfl
  audience := rfl
  issuer := rfl
  keyId := rfl
  requestHash := rfl
  grantHash := rfl
  issuedAt := rfl
  notBefore := rfl
  expiresAt := rfl
  transport := rfl
  claims := ⟨⟨.dict ns, hk⟩, hf, h⟩

/-- Equality as JSON is reflexive on what can be written. -/
theorem jsonEq_refl {v : PyVal} {b : Bytes} (h : canonicalJsonBytes py v = .ok b) : v.jsonEq v = true :=
  jsonEq_of_bytes h h

theorem isFinite_of_verify {grant : VerifiedCapabilityGrant}
    (h : verifier.verify py crypto token requestPayload transport headers (some now) time = .ok grant) :
    now.isFinite = true := by
  obtain ⟨ms, -, h⟩ := bind_eq_ok.1 h
  obtain ⟨claims, h, -⟩ := bind_eq_ok.1 h
  exact isFinite_of_checkClaims h

/-- A token that passes the checks which do not look at the request is in force. -/
theorem inForce_of_checked (hnow : now.isFinite = true) {ms : List (PyKey × PyVal)} {claims : RequiredGrantClaims}
    (hopen : openToken py crypto verifier.publicKey token = .ok ms)
    (hclaims : checkClaims py crypto verifier ms (some now) time = .ok claims) :
    ∃ hk : PyVal.distinctKeys (.dict ms) = true,
      InForce py crypto verifier token now ⟨.dict ms, hk⟩ ms claims := by
  obtain ⟨b, s, htoken, hlen, hver, hcan, hsig, hk⟩ := openToken_sound hopen
  obtain ⟨hc, hhash, h1, h2, h3, h4, h5, h6⟩ :=
    (checkClaims_eq_ok (some now) time hnow (canonicalJsonBytes_eq_ok.1 hcan).1 hk).1 hclaims
  exact ⟨hk, rfl, ⟨b, s, hcan, hlen, hver, htoken⟩, hsig, hc, hhash, h1, h2, h3, h4, h5, h6⟩

/-- A token in force passes the checks which do not look at the request, up to the order of members. -/
theorem InForce.checked (hnow : now.isFinite = true) {c : Value} {ms : List (PyKey × PyVal)}
    {claims : RequiredGrantClaims} (h : InForce py crypto verifier token now c ms claims) :
    ∃ ns : List (PyKey × PyVal), ∃ hk : PyVal.distinctKeys (.dict ns) = true, Value.JsonEq ⟨.dict ns, hk⟩ c ∧
      MeetsFieldConstraints ns claims ∧ openToken py crypto verifier.publicKey token = .ok ns ∧
      checkClaims py crypto verifier ns (some now) time = .ok claims := by
  obtain ⟨c, hk⟩ := c
  obtain rfl : c = .dict ms := h.object
  obtain ⟨b, s, hcan, hlen, hver, rfl⟩ := h.token
  obtain ⟨ns, hopen, heq, hk', hcan'⟩ := openToken_complete hk hcan hlen hver h.detached
  have hv' := (canonicalJsonBytes_eq_ok.1 hcan').1
  have hc := h.constraints.congr heq hk hk'
  refine ⟨ns, hk', jsonEq_of_bytes hcan' hcan, hc, hopen, ?_⟩
  exact (checkClaims_eq_ok (some now) time hnow hv' hk').2
    ⟨hc, withoutGrantHash_congr heq hk hk' hv' h.grantHash, h.issuer, h.keyId, h.audience, h.notBefore, h.started,
      h.unexpired⟩

/-- An accepted token is built from claims that allow the request and can be frozen, and the grant repeats them. -/
theorem verify_sound (hnow : now.isFinite = true) {grant : VerifiedCapabilityGrant}
    (h : verifier.verify py crypto token requestPayload transport headers (some now) time = .ok grant) :
    ∃ c ms claims, Authorizes py crypto verifier token requestPayload transport headers now c ms claims ∧
      freezeFrames py c ≤ py.frames ∧ GrantOf claims c grant := by
  obtain ⟨ms, hopen, h⟩ := bind_eq_ok.1 h
  obtain ⟨claims, hclaims, h⟩ := bind_eq_ok.1 h
  obtain ⟨hreq, h⟩ := check_eq_ok.1 h
  obtain ⟨frozen, hfreeze, h⟩ := bind_eq_ok.1 h
  cases h
  obtain ⟨hf, hroom⟩ := freezeJson_eq_ok.1 hfreeze
  obtain ⟨hk, hforce⟩ := inForce_of_checked time hnow hopen hclaims
  obtain ⟨hpayload, htransport, hheaders⟩ := (checkRequest_eq_ok hforce.constraints).1 hreq
  obtain ⟨b, s, hcan, -⟩ := hforce.token
  exact ⟨⟨.dict ms, hk⟩, ms, claims, ⟨hforce, hpayload, htransport, hheaders⟩, hroom,
    grantOf_verifiedGrant hk (jsonEq_refl hcan) hf⟩

/-- The claims of a verified grant are the frozen members of a valid object. -/
theorem claims_of_verify {now : Option Float64} {grant : VerifiedCapabilityGrant}
    (h : verifier.verify py crypto token requestPayload transport headers now time = .ok grant) :
    ∃ ms, freezeJson py (.dict ms) = .ok grant.claims ∧ PyVal.distinctKeys (.dict ms) = true ∧
      validateJsonValue py (.dict ms) = .ok () := by
  obtain ⟨ms, hopen, h⟩ := bind_eq_ok.1 h
  obtain ⟨claims, -, h⟩ := bind_eq_ok.1 h
  obtain ⟨-, h⟩ := check_eq_ok.1 h
  obtain ⟨frozen, hfreeze, h⟩ := bind_eq_ok.1 h
  cases h
  obtain ⟨b, s, -, -, -, hcan, -, hk⟩ := openToken_sound hopen
  exact ⟨ms, hfreeze, hk, (canonicalJsonBytes_eq_ok.1 hcan).1⟩

/-- A token that is built from claims that allow the request passes every check, up to the order of members. -/
theorem Authorizes.checked (hnow : now.isFinite = true) {c : Value} {ms : List (PyKey × PyVal)}
    {claims : RequiredGrantClaims}
    (h : Authorizes py crypto verifier token requestPayload transport headers now c ms claims) :
    ∃ ns : List (PyKey × PyVal), ∃ hk : PyVal.distinctKeys (.dict ns) = true, Value.JsonEq ⟨.dict ns, hk⟩ c ∧
      verifier.verify py crypto token requestPayload transport headers (some now) time =
        (freezeJson py (.dict ns)).map (verifiedGrant claims) := by
  obtain ⟨ns, hk, heq, hc, hopen, hclaims⟩ := h.toInForce.checked time hnow
  have hreq := (checkRequest_eq_ok hc).2 ⟨h.requestHash, h.transport, h.headers⟩
  refine ⟨ns, hk, heq, ?_⟩
  rw [CapabilityGrantVerifier.verify, hopen, ok_bind, hclaims, ok_bind, hreq, ok_bind]
  cases freezeJson py (.dict ns) <;> rfl

/-- A token that is built from claims that allow the request and can be frozen is accepted, and the grant repeats
them. -/
theorem verify_complete (hnow : now.isFinite = true) {c : Value} {ms : List (PyKey × PyVal)}
    {claims : RequiredGrantClaims}
    (h : Authorizes py crypto verifier token requestPayload transport headers now c ms claims)
    (hroom : freezeFrames py c ≤ py.frames) :
    ∃ grant, verifier.verify py crypto token requestPayload transport headers (some now) time = .ok grant ∧
      GrantOf claims c grant := by
  obtain ⟨ns, hk, heq, hverify⟩ := h.checked time hnow
  obtain ⟨frozen, hf⟩ := exists_isFrozen (.dict ns)
  have hroom' : freezeFrames py (.dict ns) ≤ py.frames := (freezeFrames_le_of_jsonEq heq).2 hroom
  refine ⟨verifiedGrant claims frozen, ?_, grantOf_verifiedGrant hk heq hf⟩
  rw [hverify, freezeJson_eq_ok.2 ⟨hf, hroom'⟩]
  rfl

/-- Claims that cannot be frozen end the verification in the exception of `_freeze_json`. -/
theorem verify_of_deep (hnow : now.isFinite = true) {c : Value} {ms : List (PyKey × PyVal)}
    {claims : RequiredGrantClaims}
    (h : Authorizes py crypto verifier token requestPayload transport headers now c ms claims)
    (hdeep : py.frames < freezeFrames py c) :
    verifier.verify py crypto token requestPayload transport headers (some now) time = .error .recursionError := by
  obtain ⟨ns, hk, heq, hverify⟩ := h.checked time hnow
  have hdeep' : py.frames < freezeFrames py (.dict ns) := by
    by_contra hle
    exact absurd ((freezeFrames_le_of_jsonEq heq).1 (Nat.not_lt.1 hle)) (Nat.not_le.2 hdeep)
  rw [hverify, freezeJson_eq_error.2 ⟨rfl, hdeep'⟩]
  rfl

/-- The claims are determined by the token, whoever verifies it. -/
theorem Authorizes.claims_unique {verifier' : CapabilityGrantVerifier} {payload' : PyVal} {transport' : TransportArg}
    {headers' : List (PyKey × PyVal)} {now' : Float64} {c c' : Value} {ms ms' : List (PyKey × PyVal)}
    {claims claims' : RequiredGrantClaims}
    (h : Authorizes py crypto verifier token requestPayload transport headers now c ms claims)
    (h' : Authorizes py crypto verifier' token payload' transport' headers' now' c' ms' claims') :
    c.JsonEq c' ∧ claims = claims' := by
  obtain ⟨b, s, hcan, -, -, ht⟩ := h.token
  obtain ⟨b', s', hcan', -, -, ht'⟩ := h'.token
  have hsplit := splitToken_compactToken b s
  rw [← ht, ht', splitToken_compactToken] at hsplit
  obtain ⟨hb, -⟩ := Prod.mk.inj (Except.ok.inj hsplit)
  have hbb : b' = b := by
    have h1 := b64urlDecode_encode (canonicalJsonBytes_ne_nil hcan)
    have h2 := b64urlDecode_encode (canonicalJsonBytes_ne_nil hcan')
    rw [hb, h1] at h2
    exact (Except.ok.inj h2).symm
  subst hbb
  have heq := jsonEq_of_bytes hcan hcan'
  refine ⟨heq, ?_⟩
  obtain ⟨c, hk⟩ := c
  obtain ⟨c', hk'⟩ := c'
  obtain rfl : c = .dict ms := h.object
  obtain rfl : c' = .dict ms' := h'.object
  have hc := requiredGrantClaims_eq_ok.2 (h.constraints.congr heq hk hk')
  exact Except.ok.inj (hc.symm.trans (requiredGrantClaims_eq_ok.2 h'.constraints))

/-- **The verifier accepts the tokens that are built for the request from claims that can be frozen, and no
others.** -/
theorem verify_iff (py : Interp) (crypto : Crypto) (verifier : CapabilityGrantVerifier) (token : Str)
    (requestPayload : PyVal) (transport : TransportArg) (headers : List (PyKey × PyVal)) {now : Float64}
    (time : Float64) (hnow : now.isFinite = true) :
    ((∃ grant, verifier.verify py crypto token requestPayload transport headers (some now) time = .ok grant) ↔
      ∃ c ms claims, Authorizes py crypto verifier token requestPayload transport headers now c ms claims ∧
        freezeFrames py c ≤ py.frames) ∧
    ∀ c ms claims, Authorizes py crypto verifier token requestPayload transport headers now c ms claims →
      (∀ grant, verifier.verify py crypto token requestPayload transport headers (some now) time = .ok grant →
        GrantOf claims c grant) ∧
      (py.frames < freezeFrames py c →
        verifier.verify py crypto token requestPayload transport headers (some now) time =
          .error .recursionError) := by
  refine ⟨⟨?_, ?_⟩, ?_⟩
  · rintro ⟨grant, h⟩
    obtain ⟨c, ms, claims, ha, hroom, -⟩ := verify_sound time hnow h
    exact ⟨c, ms, claims, ha, hroom⟩
  · rintro ⟨c, ms, claims, ha, hroom⟩
    obtain ⟨grant, h, -⟩ := verify_complete time hnow ha hroom
    exact ⟨grant, h⟩
  · intro c ms claims ha
    refine ⟨fun grant h => ?_, verify_of_deep time hnow ha⟩
    have hroom : freezeFrames py c ≤ py.frames := by
      by_contra hdeep
      cases h.symm.trans (verify_of_deep time hnow ha (Nat.not_le.1 hdeep))
    obtain ⟨grant', h', hg⟩ := verify_complete time hnow ha hroom
    cases h.symm.trans h'
    exact hg

end Verify

theorem verify_iff_of_writeFiles : ∃ grant,
    Sample.verifier.verify .cpython Sample.crypto Sample.token (.dict Sample.payload) (.transport Sample.transport)
      Sample.headers (some (.ofInt 1500)) (.ofInt 0) = .ok grant ∧
    GrantOf Sample.interpreted ⟨.dict Sample.claims, by decide +kernel⟩ grant := by
  obtain ⟨⟨-, accepts⟩, rest⟩ := verify_iff .cpython Sample.crypto Sample.verifier Sample.token
    (.dict Sample.payload) (.transport Sample.transport) Sample.headers (.ofInt 0)
    (show (Float64.ofInt 1500).isFinite = true by decide +kernel)
  obtain ⟨grant, h⟩ := accepts ⟨_, _, _, Sample.authorizes, by decide +kernel⟩
  exact ⟨grant, h, (rest _ _ _ Sample.authorizes).1 grant h⟩

namespace Sample

/-- `None` in `k` lists. -/
def nested : ℕ → PyVal
  | 0 => .none
  | k + 1 => .list [nested k]

theorem validate_nested {k n : ℕ} (h : k ≤ n) : validateWithin n (nested k) = .ok () := by
  induction k generalizing n with
  | zero => rw [nested, validateWithin]
  | succ k ih => exact validate_list.2 ⟨n - 1, by omega, List.forall_mem_singleton.2 (ih (by omega))⟩

theorem distinctKeys_nested (k : ℕ) : (nested k).distinctKeys = true := by
  induction k with
  | zero => rfl
  | succ k ih => exact PyVal.distinctKeys_list.2 (List.forall_mem_singleton.2 ih)

theorem toDoc_nested (py : Interp) (k : ℕ) : ∃ d, toDoc py (nested k) = .ok d := by
  induction k with
  | zero => exact ⟨_, rfl⟩
  | succ k ih =>
    obtain ⟨d, hd⟩ := ih
    exact ⟨.arr [d], toDoc_list.2 ⟨[d], .cons hd .nil, rfl⟩⟩

theorem stack_nested (m s k : ℕ) : (nested k).stack m s = k * s := by
  induction k with
  | zero => simp [nested, PyVal.stack]
  | succ k ih =>
    rw [nested, PyVal.stack, PyVal.stackList, PyVal.stackList, ih, Nat.max_zero, Nat.succ_mul, Nat.add_comm]

def deepScope : PyKey × PyVal := (.str (str "scope"), nested 600)

/-- The other claims of the grant; every text has one digest here. -/
def shallowClaims : List (PyKey × PyVal) :=
  text "request_hash" "34a440369e254ed0001c7f60a2de0327070cd00abb577b46b42e6b356d982715" ::
    claims.filter fun m => m.1 ≠ .str (str "scope") ∧ m.1 ≠ .str (str "request_hash")

def deepClaims : List (PyKey × PyVal) := deepScope :: shallowClaims

/-- One digest for every text, and every signature is valid. -/
def oneDigest : Crypto where
  sha256 _ := digest 0x34a440369e254ed0001c7f60a2de0327070cd00abb577b46b42e6b356d982715
  ed25519Verify _ _ _ := true

def deepToken : Str := compactToken (bytesOf deepClaims) signature

theorem distinctKeys_deep {ms : List (PyKey × PyVal)} (h : PyVal.distinctKeys (.dict ms) = true)
    (hk : deepScope.1 ∉ keys ms) : PyVal.distinctKeys (.dict (deepScope :: ms)) = true := by
  obtain ⟨hn, hms⟩ := PyVal.distinctKeys_dict.1 h
  exact PyVal.distinctKeys_dict.2
    ⟨List.nodup_cons.2 ⟨hk, hn⟩, List.forall_mem_cons.2 ⟨distinctKeys_nested 600, hms⟩⟩

/-- The scope does not keep claims from being written. -/
theorem written_deep {ms : List (PyKey × PyVal)} (hv : validateJsonValue .cpython (.dict ms) = .ok ())
    (hd : (toDoc .cpython (.dict ms)).toOption.isSome = true) :
    canonicalJsonBytes .cpython (.dict (deepScope :: ms)) = .ok (bytesOf (deepScope :: ms)) := by
  obtain ⟨n, hn, hms⟩ := validate_dict.1 hv
  have hn' : n = 989 := Nat.succ.inj hn.symm
  have hv' : validateJsonValue .cpython (.dict (deepScope :: ms)) = .ok () := by
    refine validate_dict.2 ⟨n, hn, List.forall_mem_cons.2 ⟨⟨⟨str "scope", rfl, rfl⟩, ?_⟩, hms⟩⟩
    exact validate_nested (by omega)
  obtain ⟨d, hd⟩ : ∃ d, toDoc .cpython (.dict ms) = .ok d := by
    cases h : toDoc .cpython (.dict ms) with
    | ok d => exact ⟨d, rfl⟩
    | error e => simp [h, Except.toOption] at hd
  obtain ⟨ds, hds, -⟩ := toDoc_dict.1 hd
  obtain ⟨e, he⟩ := toDoc_nested .cpython 600
  obtain ⟨b, hb⟩ := exists_canonicalJsonBytes_of_toDoc hv'
    (toDoc_dict.2 ⟨(str "scope", e) :: ds, .cons ⟨rfl, he⟩ hds, rfl⟩)
  rw [bytesOf, hb]
  rfl

def deepInterpreted : RequiredGrantClaims :=
  { interpreted with requestHash := str "34a440369e254ed0001c7f60a2de0327070cd00abb577b46b42e6b356d982715" }

theorem repeats_deep : verifyBoundHeaders deepInterpreted headers = .ok () := by decide +kernel

theorem withoutGrantHash_deep : withoutGrantHash deepClaims = deepScope :: withoutGrantHash shallowClaims := by
  rw [deepClaims, withoutGrantHash, List.filter_cons_of_pos (by decide), withoutGrantHash]

theorem grantHash_deep : canonicalSha256 .cpython oneDigest (.dict (withoutGrantHash deepClaims)) =
    .ok (str "34a440369e254ed0001c7f60a2de0327070cd00abb577b46b42e6b356d982715") := by
  rw [withoutGrantHash_deep]
  exact canonicalSha256_eq_ok.2 ⟨_, written_deep (by decide +kernel) (by decide +kernel), by decide +kernel⟩

theorem written_deep_shallow : canonicalJsonBytes .cpython (.dict deepClaims) = .ok (bytesOf deepClaims) :=
  written_deep (by decide +kernel) (by decide +kernel)

theorem authorizes_deep : Authorizes .cpython oneDigest verifier deepToken (.dict payload) (.transport transport)
    headers (.ofInt 1500) ⟨.dict deepClaims, distinctKeys_deep (by decide +kernel) (by decide +kernel)⟩ deepClaims
    deepInterpreted where
  object := rfl
  token := ⟨bytesOf deepClaims, signature, written_deep_shallow,
    by simp [signature, toBytes], rfl, rfl⟩
  detached := by decide +kernel
  constraints := requiredGrantClaims_eq_ok.1 (by decide +kernel)
  grantHash := grantHash_deep
  issuer := rfl
  keyId := rfl
  audience := rfl
  notBefore := by decide +kernel
  started := by decide +kernel
  unexpired := by decide +kernel
  requestHash := canonicalSha256_eq_ok.2 ⟨_, written (by decide +kernel), by decide +kernel⟩
  transport := rfl
  headers bound hb := (verifyBoundHeader_eq_ok.1 (forM_eq_ok.1 repeats_deep bound hb)).1

end Sample

/-- Signed claims in 600 lists, which are canonical JSON, are not accepted: they cannot be frozen. -/
theorem not_verify_of_deepScope :
    Sample.verifier.verify .cpython Sample.oneDigest Sample.deepToken (.dict Sample.payload)
      (.transport Sample.transport) Sample.headers (some (.ofInt 1500)) (.ofInt 0) = .error .recursionError ∧
    ¬ ((∃ grant, Sample.verifier.verify .cpython Sample.oneDigest Sample.deepToken (.dict Sample.payload)
        (.transport Sample.transport) Sample.headers (some (.ofInt 1500)) (.ofInt 0) = .ok grant) ↔
      ∃ c ms claims, Authorizes .cpython Sample.oneDigest Sample.verifier Sample.deepToken (.dict Sample.payload)
        (.transport Sample.transport) Sample.headers (.ofInt 1500) c ms claims) := by
  have hdeep : Interp.cpython.frames < freezeFrames .cpython (.dict Sample.deepClaims) := by
    have hle := (PyVal.stack_dict_le (n := freezeFrames .cpython (.dict Sample.deepClaims))).1 le_rfl
    have h600 := hle.2 Sample.deepScope List.mem_cons_self
    rw [Sample.deepScope, Sample.stack_nested] at h600
    have hframes : Interp.cpython.frames = 990 := rfl
    omega
  have hraised := verify_of_deep (.ofInt 0) (by decide +kernel) Sample.authorizes_deep hdeep
  refine ⟨hraised, fun h => ?_⟩
  obtain ⟨grant, hgrant⟩ := h.2 ⟨_, _, _, Sample.authorizes_deep⟩
  cases hraised.symm.trans hgrant

end SharedAi.ServiceKit
