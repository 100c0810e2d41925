import SharedAi.ServiceKit.Freeze
import SharedAi.ServiceKit.StrictParse
import SharedAi.ServiceKit.Token

/-!
# Grants

The pydantic models of `capability_grants.py`, under strict validation, and the verified grant.

* `CapabilityGrantTransport`, `CapabilityGrantRedemptionRequest` — records that carry their constraints;
* `requiredGrantClaims` — validation of the receiver-neutral claims, with `MeetsFieldConstraints` for what
  it asks of each field (`requiredGrantClaims_eq_ok`);
* `VerifiedCapabilityGrant` — what the verifier returns, with the opaque claims as a read-only value.
-/

namespace SharedAi.ServiceKit

open SharedAi.Control SharedAi.Data SharedAi.Num SharedAi.Python SharedAi.Text

/-! ### Fields -/

/-- `StrictStr` of a length between `lo` and `hi`; pydantic counts the characters of Unicode text. -/
def validStr (lo hi : ℕ) (s : Str) : Bool := noSurrogate s && (decide (lo ≤ s.length) && decide (s.length ≤ hi))

/-- `value != value.strip() or any(ord(char) < 0x20 for char in value)` does not hold. -/
def validIdentifier (s : Str) : Bool := decide s.Trimmed && s.all fun c => decide (0x20 ≤ c.ord)

/-- The characters of `_METHOD_RE` after the first. -/
def isMethodChar (c : PyChar) : Bool :=
  c.isUpper || c.isDigit || (str "!#$%&'*+.^_|~-").contains c || c == .scalar (Char.ofNat 0x60)

/-- `_METHOD_RE.fullmatch`. -/
def methodMatches : Str → Bool
  | [] => false
  | c :: cs => c.isUpper && cs.all isMethodChar

/-- The checks of `validate_path`. -/
def validPath (s : Str) : Bool :=
  (str "/").isPrefixOf s && s.all fun c =>
    c != .scalar '?' && c != .scalar '#' && c != .scalar '\\' && !c.isControl

def transportValid (type service method path : Str) (authProfile tlsAliasProfile : Option Str) : Bool :=
  (validStr 1 80 type && validIdentifier type) && (validStr 1 200 service && validIdentifier service) &&
  (validStr 1 32 method && methodMatches method) && (validStr 1 1000 path && validPath path) &&
  authProfile.all (fun s => validStr 0 200 s && validIdentifier s) &&
  tlsAliasProfile.all fun s => validStr 0 200 s && validIdentifier s

/-- The exact receiver transport bound into a capability grant. -/
structure CapabilityGrantTransport where
  type : Str
  service : Str
  method : Str
  path : Str
  authProfile : Option Str
  tlsAliasProfile : Option Str
  valid : transportValid type service method path authProfile tlsAliasProfile = true
  deriving DecidableEq

/-- `CapabilityGrantTransport(type=…, …)`. -/
def CapabilityGrantTransport.make (type service method path : Str) (authProfile tlsAliasProfile : Option Str) :
    Except Exn CapabilityGrantTransport :=
  if h : transportValid type service method path authProfile tlsAliasProfile = true then
    .ok ⟨type, service, method, path, authProfile, tlsAliasProfile, h⟩
  else .error .validationError

def field {α : Type} (ms : List (PyKey × PyVal)) (name : String) (check : PyVal → Except Exn α) : Except Exn α :=
  match PyVal.get? ms name with
  | none => .error .validationError
  | some v => check v

/-- A field that is `None` by default. -/
def optionalField {α : Type} (ms : List (PyKey × PyVal)) (name : String) (check : PyVal → Except Exn α) :
    Except Exn (Option α) :=
  match PyVal.get? ms name with
  | none => .ok none
  | some .none => .ok none
  | some v => (check v).map some

def anyStr : PyVal → Except Exn Str
  | .str s => .ok s
  | _ => .error .validationError

def strictStr (lo hi : ℕ) : PyVal → Except Exn Str
  | .str s => if validStr lo hi s then .ok s else .error .validationError
  | _ => .error .validationError

def hashStr : PyVal → Except Exn Str
  | .str s => if isHash s then .ok s else .error .validationError
  | _ => .error .validationError

/-- `Literal[…]` of a string. -/
def literalStr (t : String) : PyVal → Except Exn Unit
  | .str s => if s = str t then .ok () else .error .validationError
  | _ => .error .validationError

/-- What is equal to `1`. -/
def isOne (v : PyVal) : Bool :=
  match v with
  | .int n => n == 1
  | .bool b => b
  | .float x => x == .ofInt 1
  | _ => false

/-- `Literal[1]`; also strictly, a value is looked up by its equality, which holds of `True` and `1.0`. -/
def literalOne (v : PyVal) : Except Exn Unit := if isOne v then .ok () else .error .validationError

/-- `StrictFloat` with a bound; an `int` is converted unless that overflows, a `bool` is not a number. -/
def strictFloat (bound : Float64 → Bool) : PyVal → Except Exn Float64
  | .float x => if bound x then .ok x else .error .validationError
  | .int n =>
    if (Float64.ofInt n).isFinite && bound (Float64.ofInt n) then .ok (Float64.ofInt n) else .error .validationError
  | _ => .error .validationError

def transportFields : List PyKey :=
  ["type", "service", "method", "path", "auth_profile", "tls_alias_profile"].map fun s => .str (str s)

/-- `CapabilityGrantTransport.model_validate` of a value that is no instance; strict validation takes a
`dict` only. -/
def CapabilityGrantTransport.validate : PyVal → Except Exn CapabilityGrantTransport
  | .dict ms =>
    if ms.all (fun m => transportFields.contains m.1) then do
      let type ← field ms "type" anyStr
      let service ← field ms "service" anyStr
      let method ← field ms "method" anyStr
      let path ← field ms "path" anyStr
      let authProfile ← optionalField ms "auth_profile" anyStr
      let tlsAliasProfile ← optionalField ms "tls_alias_profile" anyStr
      CapabilityGrantTransport.make type service method path authProfile tlsAliasProfile
    else .error .validationError
  | _ => .error .validationError

/-! ### Required claims -/

/-- `0.0`. -/
def zero : Float64 := .finite false 0 0 (by decide)

/-- The claims the receiver interprets. -/
structure RequiredGrantClaims where
  grantId : Str
  taskId : Str
  traceId : Str
  actionId : Str
  attemptId : Str
  idempotencyKey : Str
  audience : Str
  requestHash : Str
  transport : CapabilityGrantTransport
  issuedAt : Float64
  notBefore : Float64
  expiresAt : Float64
  issuer : Str
  keyId : Str
  grantHash : Str
  deriving DecidableEq

/-- `_RequiredGrantClaims.model_validate`, of a `dict`; other claims stay opaque. -/
def requiredGrantClaims (ms : List (PyKey × PyVal)) : Except Exn RequiredGrantClaims := do
  field ms "schema_version" (literalStr "capability-grant-v1")
  let grantId ← field ms "grant_id" (strictStr 1 200)
  let taskId ← field ms "task_id" (strictStr 1 160)
  let traceId ← field ms "trace_id" (strictStr 1 160)
  let actionId ← field ms "action_id" (strictStr 1 160)
  let attemptId ← field ms "attempt_id" (strictStr 1 500)
  let idempotencyKey ← field ms "idempotency_key" (strictStr 1 1000)
  let audience ← field ms "audience" (strictStr 1 200)
  let requestHash ← field ms "request_hash" hashStr
  let transport ← field ms "transport" CapabilityGrantTransport.validate
  let issuedAt ← field ms "issued_at" (strictFloat fun x => zero.le x)
  let notBefore ← field ms "not_before" (strictFloat fun x => zero.le x)
  let expiresAt ← field ms "expires_at" (strictFloat fun x => zero.lt x)
  field ms "max_uses" literalOne
  let issuer ← field ms "issuer" (strictStr 1 300)
  let keyId ← field ms "key_id" (strictStr 1 200)
  field ms "signature_algorithm" (literalStr "Ed25519")
  let grantHash ← field ms "grant_hash" hashStr
  pure { grantId, taskId, traceId, actionId, attemptId, idempotencyKey, audience, requestHash, transport, issuedAt,
         notBefore, expiresAt, issuer, keyId, grantHash }

/-! ### What validation asks -/

def StrClaim (ms : List (PyKey × PyVal)) (name : String) (lo hi : ℕ) (s : Str) : Prop :=
  PyVal.get? ms name = some (.str s) ∧ noSurrogate s = true ∧ lo ≤ s.length ∧ s.length ≤ hi

def HashClaim (ms : List (PyKey × PyVal)) (name : String) (s : Str) : Prop :=
  PyVal.get? ms name = some (.str s) ∧ isHash s = true

/-- A number, or an integer that is one when converted. -/
def NumberClaim (ms : List (PyKey × PyVal)) (name : String) (x : Float64) : Prop :=
  PyVal.get? ms name = some (.float x) ∨
    ∃ n, PyVal.get? ms name = some (.int n) ∧ Float64.ofInt n = x ∧ x.isFinite = true

def OptionalStr (ms : List (PyKey × PyVal)) (name : String) (o : Option Str) : Prop :=
  ((PyVal.get? ms name = none ∨ PyVal.get? ms name = some .none) ∧ o = none) ∨
    ∃ s, PyVal.get? ms name = some (.str s) ∧ o = some s

/-- The dictionary holds the fields of the transport and no others. -/
structure IsTransport (ms : List (PyKey × PyVal)) (t : CapabilityGrantTransport) : Prop where
  only : ∀ m ∈ ms, m.1 ∈ transportFields
  type : PyVal.get? ms "type" = some (.str t.type)
  service : PyVal.get? ms "service" = some (.str t.service)
  method : PyVal.get? ms "method" = some (.str t.method)
  path : PyVal.get? ms "path" = some (.str t.path)
  authProfile : OptionalStr ms "auth_profile" t.authProfile
  tlsAliasProfile : OptionalStr ms "tls_alias_profile" t.tlsAliasProfile

/-- Every field constraint of `_RequiredGrantClaims`, with the claims as they are read. -/
structure MeetsFieldConstraints (ms : List (PyKey × PyVal)) (c : RequiredGrantClaims) : Prop where
  schemaVersion : PyVal.get? ms "schema_version" = some (.str (str "capability-grant-v1"))
  grantId : StrClaim ms "grant_id" 1 200 c.grantId
  taskId : StrClaim ms "task_id" 1 160 c.taskId
  traceId : StrClaim ms "trace_id" 1 160 c.traceId
  actionId : StrClaim ms "action_id" 1 160 c.actionId
  attemptId : StrClaim ms "attempt_id" 1 500 c.attemptId
  idempotencyKey : StrClaim ms "idempotency_key" 1 1000 c.idempotencyKey
  audience : StrClaim ms "audience" 1 200 c.audience
  requestHash : HashClaim ms "request_hash" c.requestHash
  transport : ∃ ts, PyVal.get? ms "transport" = some (.dict ts) ∧ IsTransport ts c.transport
  issuedAt : NumberClaim ms "issued_at" c.issuedAt ∧ zero.le c.issuedAt = true
  notBefore : NumberClaim ms "not_before" c.notBefore ∧ zero.le c.notBefore = true
  expiresAt : NumberClaim ms "expires_at" c.expiresAt ∧ zero.lt c.expiresAt = true
  maxUses : PyVal.get? ms "max_uses" ∈ [some (.int 1), some (.bool true), some (.float (.ofInt 1))]
  issuer : StrClaim ms "issuer" 1 300 c.issuer
  keyId : StrClaim ms "key_id" 1 200 c.keyId
  signatureAlgorithm : PyVal.get? ms "signature_algorithm" = some (.str (str "Ed25519"))
  grantHash : HashClaim ms "grant_hash" c.grantHash

section Checks

variable {ms : List (PyKey × PyVal)} {name : String}

theorem field_eq_ok {α : Type} {check : PyVal → Except Exn α} {a : α} :
    field ms name check = .ok a ↔ ∃ v, PyVal.get? ms name = some v ∧ check v = .ok a := by
  unfold field
  cases PyVal.get? ms name <;> simp

theorem field_anyStr {s : Str} : field ms name anyStr = .ok s ↔ PyVal.get? ms name = some (.str s) := by
  rw [field_eq_ok]
  constructor
  · rintro ⟨v, hv, h⟩
    cases v <;> cases h
    exact hv
  · exact fun h => ⟨_, h, rfl⟩

theorem field_strictStr {lo hi : ℕ} {s : Str} :
    field ms name (strictStr lo hi) = .ok s ↔ StrClaim ms name lo hi s := by
  rw [field_eq_ok]
  constructor
  · rintro ⟨v, hv, h⟩
    cases v with
    | str t =>
      obtain ⟨hs, rfl⟩ := ite_eq_ok.1 h
      simp only [validStr, Bool.and_eq_true, decide_eq_true_eq] at hs
      exact ⟨hv, hs⟩
    | _ => cases h
  · rintro ⟨h, hs⟩
    refine ⟨_, h, ite_eq_ok.2 ⟨?_, rfl⟩⟩
    simpa [validStr] using hs

theorem field_hashStr {s : Str} : field ms name hashStr = .ok s ↔ HashClaim ms name s := by
  rw [field_eq_ok]
  constructor
  · rintro ⟨v, hv, h⟩
    cases v with
    | str t =>
      obtain ⟨hs, rfl⟩ := ite_eq_ok.1 h
      exact ⟨hv, hs⟩
    | _ => cases h
  · rintro ⟨h, hs⟩
    exact ⟨_, h, ite_eq_ok.2 ⟨hs, rfl⟩⟩

theorem field_literalStr {t : String} :
    field ms name (literalStr t) = .ok () ↔ PyVal.get? ms name = some (.str (str t)) := by
  rw [field_eq_ok]
  constructor
  · rintro ⟨v, hv, h⟩
    cases v with
    | str s =>
      obtain ⟨rfl, -⟩ := ite_eq_ok.1 h
      exact hv
    | _ => cases h
  · intro h
    exact ⟨_, h, ite_eq_ok.2 ⟨rfl, rfl⟩⟩

theorem isOne_iff {v : PyVal} : isOne v = true ↔ v ∈ [.int 1, .bool true, .float (.ofInt 1)] := by
  cases v <;> simp [isOne]

theorem field_literalOne : field ms name literalOne = .ok () ↔
    PyVal.get? ms name ∈ [some (.int 1), some (.bool true), some (.float (.ofInt 1))] := by
  rw [field_eq_ok]
  simp only [literalOne, ite_eq_ok, and_true, isOne_iff]
  constructor
  · rintro ⟨v, hv, h⟩
    rw [hv]
    simpa using h
  · intro h
    simp only [List.mem_cons, List.not_mem_nil, or_false] at h
    rcases h with h | h | h
    · exact ⟨_, h, by simp⟩
    · exact ⟨_, h, by simp⟩
    · exact ⟨_, h, by simp⟩

theorem field_strictFloat {bound : Float64 → Bool} {x : Float64} :
    field ms name (strictFloat bound) = .ok x ↔ NumberClaim ms name x ∧ bound x = true := by
  rw [field_eq_ok]
  constructor
  · rintro ⟨v, hv, h⟩
    cases v with
    | float y =>
      obtain ⟨hb, rfl⟩ := ite_eq_ok.1 h
      exact ⟨.inl hv, hb⟩
    | int n =>
      obtain ⟨hs, rfl⟩ := ite_eq_ok.1 h
      rw [Bool.and_eq_true] at hs
      exact ⟨.inr ⟨_, hv, rfl, hs.1⟩, hs.2⟩
    | _ => cases h
  · rintro ⟨h | ⟨n, h, rfl, hf⟩, hb⟩
    · exact ⟨_, h, ite_eq_ok.2 ⟨hb, rfl⟩⟩
    · exact ⟨_, h, ite_eq_ok.2 ⟨by rw [hf, hb]; rfl, rfl⟩⟩

theorem optionalField_anyStr {o : Option Str} :
    optionalField ms name anyStr = .ok o ↔ OptionalStr ms name o := by
  unfold optionalField OptionalStr
  split
  · next h => simp [h, eq_comm]
  · next h => simp [h, eq_comm]
  · next v hv h =>
    rw [map_eq_ok]
    constructor
    · rintro ⟨s, hs, rfl⟩
      cases v <;> cases hs
      exact .inr ⟨_, h, rfl⟩
    · rintro (⟨h' | h', -⟩ | ⟨s, hs, rfl⟩)
      · rw [h] at h'
        cases h'
      · rw [h] at h'
        cases h'
        exact absurd rfl hv
      · rw [h] at hs
        cases hs
        exact ⟨s, rfl, rfl⟩

theorem make_eq_ok {type service method path : Str} {authProfile tlsAliasProfile : Option Str}
    {t : CapabilityGrantTransport} :
    CapabilityGrantTransport.make type service method path authProfile tlsAliasProfile = .ok t ↔
      t.type = type ∧ t.service = service ∧ t.method = method ∧ t.path = path ∧ t.authProfile = authProfile ∧
        t.tlsAliasProfile = tlsAliasProfile := by
  unfold CapabilityGrantTransport.make
  constructor
  · intro h
    split at h
    · cases h
      simp
    · cases h
  · rintro ⟨rfl, rfl, rfl, rfl, rfl, rfl⟩
    rw [dif_pos t.valid]

end Checks

theorem transport_validate_eq_ok {v : PyVal} {t : CapabilityGrantTransport} :
    CapabilityGrantTransport.validate v = .ok t ↔ ∃ ms, v = .dict ms ∧ IsTransport ms t := by
  have honly : ∀ ms : List (PyKey × PyVal), ms.all (fun m => transportFields.contains m.1) = true ↔
      ∀ m ∈ ms, m.1 ∈ transportFields := by
    intro ms
    simp only [List.all_eq_true, List.contains_iff_mem]
  constructor
  · intro h
    cases v with
    | dict ms =>
      rw [CapabilityGrantTransport.validate] at h
      split at h
      · next ho =>
        simp only [bind_eq_ok, field_anyStr, optionalField_anyStr, make_eq_ok] at h
        obtain ⟨_, h1, _, h2, _, h3, _, h4, _, h5, _, h6, rfl, rfl, rfl, rfl, rfl, rfl⟩ := h
        exact ⟨ms, rfl, ⟨(honly ms).1 ho, h1, h2, h3, h4, h5, h6⟩⟩
      · cases h
    | _ => cases h
  · rintro ⟨ms, rfl, ho, h1, h2, h3, h4, h5, h6⟩
    rw [CapabilityGrantTransport.validate, if_pos ((honly ms).2 ho)]
    simp only [bind_eq_ok, field_anyStr, optionalField_anyStr, make_eq_ok]
    exact ⟨_, h1, _, h2, _, h3, _, h4, _, h5, _, h6, rfl, rfl, rfl, rfl, rfl, rfl⟩

/-- Validation of the required claims is the conjunction of the field constraints. -/
theorem requiredGrantClaims_eq_ok {ms : List (PyKey × PyVal)} {c : RequiredGrantClaims} :
    requiredGrantClaims ms = .ok c ↔ MeetsFieldConstraints ms c := by
  have htransport : ∀ t, field ms "transport" CapabilityGrantTransport.validate = .ok t ↔
      ∃ ts, PyVal.get? ms "transport" = some (.dict ts) ∧ IsTransport ts t := by
    intro t
    simp only [field_eq_ok, transport_validate_eq_ok]
    constructor
    · rintro ⟨v, hv, ts, rfl, h⟩
      exact ⟨ts, hv, h⟩
    · rintro ⟨ts, hv, h⟩
      exact ⟨_, hv, ts, rfl, h⟩
  unfold requiredGrantClaims
  simp only [bind_eq_ok, field_strictStr, field_hashStr, field_strictFloat, htransport]
  constructor
  · rintro ⟨⟨⟩, h1, _, h2, _, h3, _, h4, _, h5, _, h6, _, h7, _, h8, _, h9, _, h10, _, h11, _, h12, _, h13, ⟨⟩, h14,
      _, h15, _, h16, ⟨⟩, h17, _, h18, h⟩
    cases h
    exact ⟨field_literalStr.1 h1, h2, h3, h4, h5, h6, h7, h8, h9, h10, h11, h12, h13, field_literalOne.1 h14, h15, h16,
      field_literalStr.1 h17, h18⟩
  · rintro ⟨h1, h2, h3, h4, h5, h6, h7, h8, h9, h10, h11, h12, h13, h14, h15, h16, h17, h18⟩
    exact ⟨(), field_literalStr.2 h1, _, h2, _, h3, _, h4, _, h5, _, h6, _, h7, _, h8, _, h9, _, h10, _, h11, _, h12,
      _, h13, (), field_literalOne.2 h14, _, h15, _, h16, (), field_literalStr.2 h17, _, h18, rfl⟩

/-! ### Equal claims -/

section Equal

variable {ms ns : List (PyKey × PyVal)} (h : PyVal.jsonEq (.dict ms) (.dict ns) = true)
  (hm : PyVal.distinctKeys (.dict ms) = true) (hn : PyVal.distinctKeys (.dict ns) = true)
include h hm hn

theorem StrClaim.congr {name : String} {lo hi : ℕ} {s : Str} (hs : StrClaim ms name lo hi s) :
    StrClaim ns name lo hi s :=
  ⟨PyVal.get?_scalar h hm hn hs.1 rfl, hs.2⟩

theorem HashClaim.congr {name : String} {s : Str} (hs : HashClaim ms name s) : HashClaim ns name s :=
  ⟨PyVal.get?_scalar h hm hn hs.1 rfl, hs.2⟩

theorem NumberClaim.congr {name : String} {x : Float64} (hx : NumberClaim ms name x) : NumberClaim ns name x := by
  rcases hx with hx | ⟨n, hx, hr⟩
  · exact .inl (PyVal.get?_scalar h hm hn hx rfl)
  · exact .inr ⟨n, PyVal.get?_scalar h hm hn hx rfl, hr⟩

theorem OptionalStr.congr {name : String} {o : Option Str} (ho : OptionalStr ms name o) : OptionalStr ns name o := by
  rcases ho with ⟨ho | ho, rfl⟩ | ⟨s, ho, rfl⟩
  · exact .inl ⟨.inl (PyVal.get?_none h hm hn ho), rfl⟩
  · exact .inl ⟨.inr (PyVal.get?_scalar h hm hn ho rfl), rfl⟩
  · exact .inr ⟨s, PyVal.get?_scalar h hm hn ho rfl, rfl⟩

theorem IsTransport.congr {t : CapabilityGrantTransport} (ht : IsTransport ms t) : IsTransport ns t where
  only := by
    intro n hnm
    obtain ⟨-, hback⟩ := (PyVal.jsonEq_dict_iff (PyVal.distinctKeys_dict.1 hm).1 (PyVal.distinctKeys_dict.1 hn).1).1 h
    obtain ⟨v, hv, -⟩ := hback n hnm
    exact ht.only (n.1, v) hv
  type := PyVal.get?_scalar h hm hn ht.type rfl
  service := PyVal.get?_scalar h hm hn ht.service rfl
  method := PyVal.get?_scalar h hm hn ht.method rfl
  path := PyVal.get?_scalar h hm hn ht.path rfl
  authProfile := ht.authProfile.congr h hm hn
  tlsAliasProfile := ht.tlsAliasProfile.congr h hm hn

/-- The field constraints do not depend on the order of members. -/
theorem MeetsFieldConstraints.congr {c : RequiredGrantClaims} (hc : MeetsFieldConstraints ms c) :
    MeetsFieldConstraints ns c where
  schemaVersion := PyVal.get?_scalar h hm hn hc.schemaVersion rfl
  grantId := hc.grantId.congr h hm hn
  taskId := hc.taskId.congr h hm hn
  traceId := hc.traceId.congr h hm hn
  actionId := hc.actionId.congr h hm hn
  attemptId := hc.attemptId.congr h hm hn
  idempotencyKey := hc.idempotencyKey.congr h hm hn
  audience := hc.audience.congr h hm hn
  requestHash := hc.requestHash.congr h hm hn
  transport := by
    obtain ⟨ts, hts, ht⟩ := hc.transport
    obtain ⟨us, hus, heq⟩ := PyVal.get?_dict h hm hn hts
    exact ⟨us, hus, ht.congr heq (PyVal.distinctKeys_of_get? hm hts) (PyVal.distinctKeys_of_get? hn hus)⟩
  issuedAt := ⟨hc.issuedAt.1.congr h hm hn, hc.issuedAt.2⟩
  notBefore := ⟨hc.notBefore.1.congr h hm hn, hc.notBefore.2⟩
  expiresAt := ⟨hc.expiresAt.1.congr h hm hn, hc.expiresAt.2⟩
  maxUses := by
    have hone := hc.maxUses
    simp only [List.mem_cons, List.not_mem_nil, or_false] at hone ⊢
    exact hone.imp (fun h1 => PyVal.get?_scalar h hm hn h1 rfl) fun hone =>
      hone.imp (fun h1 => PyVal.get?_scalar h hm hn h1 rfl) fun h1 => PyVal.get?_scalar h hm hn h1 rfl
  issuer := hc.issuer.congr h hm hn
  keyId := hc.keyId.congr h hm hn
  signatureAlgorithm := PyVal.get?_scalar h hm hn hc.signatureAlgorithm rfl
  grantHash := hc.grantHash.congr h hm hn

end Equal

/-! ### Verified grants -/

/-- Locally verified grant and its opaque, immutable signed claim set. -/
structure VerifiedCapabilityGrant where
  grantId : Str
  taskId : Str
  traceId : Str
  actionId : Str
  attemptId : Str
  idempotencyKey : Str
  audience : Str
  issuer : Str
  keyId : Str
  requestHash : Str
  grantHash : Str
  issuedAt : Float64
  notBefore : Float64
  expiresAt : Float64
  transport : CapabilityGrantTransport
  claims : PyVal

def redemptionValid (grantId grantHash tokenFingerprint receiverId audience requestHash : Str) : Bool :=
  validStr 1 200 grantId && isHash grantHash && isHash tokenFingerprint && validStr 1 200 receiverId &&
  validStr 1 200 audience && isHash requestHash

/-- Neutral, secret-free payload sent to the single-use authority callback. -/
structure CapabilityGrantRedemptionRequest where
  grantId : Str
  grantHash : Str
  tokenFingerprint : Str
  receiverId : Str
  audience : Str
  requestHash : Str
  transport : CapabilityGrantTransport
  valid : redemptionValid grantId grantHash tokenFingerprint receiverId audience requestHash = true
  deriving DecidableEq

/-- `CapabilityGrantRedemptionRequest(grant_id=…, …)`. -/
def CapabilityGrantRedemptionRequest.make (grantId grantHash tokenFingerprint receiverId audience requestHash : Str)
    (transport : CapabilityGrantTransport) : Except Exn CapabilityGrantRedemptionRequest :=
  if h : redemptionValid grantId grantHash tokenFingerprint receiverId audience requestHash = true then
    .ok ⟨grantId, grantHash, tokenFingerprint, receiverId, audience, requestHash, transport, h⟩
  else .error .validationError

end SharedAi.ServiceKit
