import SharedAi.ServiceKit.WellFormed

/-!
# What the dependency answers

`require_capability_grant` is meant to answer every request with a grant or an `HTTPException`.

* `Refused`, `IsAnswer` — the exceptions its first `except` clauses name, and those it raises itself;
* a `…_raisesIn` lemma for each step: what it raises is refused, or a limit of the interpreter is met;
* `Escapes` — the requests, tokens and answers that make an exception pass the `except` clauses;
* `answers_iff` — every request is answered, unless an exception escapes at one of them.
-/

namespace SharedAi.ServiceKit

open SharedAi.Control SharedAi.Data SharedAi.Json SharedAi.Num SharedAi.Python SharedAi.Text

/-- The exceptions that the `except` clauses around the preparation name. -/
def Refused (e : Exn) : Prop := e.IsFormatError ∨ e.IsDenied ∨ e = .validationError

/-- An `HTTPException` with one of the four statuses. -/
def IsAnswer (e : Exn) : Prop :=
  ∃ status detail, e = .httpException status detail ∧ (status = 400 ∨ status = 401 ∨ status = 403 ∨ status = 503)

theorem refused_format (code : String) : Refused (.capabilityGrantFormatError code) := .inl ⟨code, rfl⟩

theorem refused_denied (code : String) : Refused (.capabilityGrantDenied code) := .inr (.inl ⟨code, rfl⟩)

theorem not_isAnswer_of_isLimit {e : Exn} (h : e.IsLimit) : ¬ IsAnswer e := by
  rintro ⟨status, detail, rfl, -⟩
  rcases h with h | h
  · cases h
  · cases h

/-! ### The body -/

/-- Reading the body stops at a limit. -/
def BodyMeetsLimit (py : Interp) (request : Request) (e : Exn) : Prop :=
  request.body ≠ [] ∧ request.hasJson py = true ∧ ∃ text, decodeUtf8 request.body = some text ∧ MeetsLimit py text e

section Body

variable {py : Interp} {request : Request}

theorem reconstructBody_raisesIn :
    RaisesIn (fun e => e.IsFormatError ∨ BodyMeetsLimit py request e) (reconstructBody py request) := by
  unfold reconstructBody
  split
  · exact raisesIn_ok _
  · next hne =>
    refine (raisesIn_ensure (.inl (Exn.isFormatError _))).bind fun _ hjson => ?_
    refine (strictJsonLoads_raisesIn _).mono fun e he => he.imp_right ?_
    rintro ⟨text, ht, hs⟩
    exact ⟨hne, ensure_eq_ok.1 hjson, text, ht, hs⟩

theorem requestPayload_raisesIn (m : Str) (body : PyVal) (params : List (PyKey × PyVal)) :
    RaisesIn Exn.IsFormatError (requestPayload m body params) := by
  unfold requestPayload
  split
  · split
    · exact raisesIn_ok _
    · exact raisesIn_error.2 (Exn.isFormatError _)
  · split
    · exact raisesIn_ok _
    · exact raisesIn_ok _

theorem reconstructFastapiRequest_raisesIn :
    RaisesIn (fun e => e.IsFormatError ∨ isSafeMethod (py.upper request.method) = false ∧ BodyMeetsLimit py request e)
      (reconstructFastapiRequest py request) := by
  refine (raisesIn_ensure (.inl (Exn.isFormatError _))).bind fun _ hsafe => ?_
  refine RaisesIn.bind (fun e he => ?_) fun body hbody => ?_
  · refine (reconstructBody_raisesIn e he).imp_right fun h => ⟨?_, h⟩
    have hsafe := ensure_eq_ok.1 hsafe
    rw [Bool.eq_false_iff]
    exact fun hs => hsafe ⟨hs, h.1⟩
  · have hrest : RaisesIn Exn.IsFormatError
        (canonicalRequestPayload py (py.upper request.method) body request.params) := by
      refine (raisesIn_ensure (Exn.isFormatError _)).bind fun _ _ => ?_
      rw [canonicalQueryParams_params]
      refine (raisesIn_ok _).bind fun _ _ => ?_
      rw [validate_of_reconstructBody hbody]
      exact (raisesIn_ok ()).bind fun _ _ => requestPayload_raisesIn _ _ _
    exact hrest.mono fun _ => .inl

theorem reconstructFastapiRequest_of_meetsLimit {e : Exn} (hs : isSafeMethod (py.upper request.method) = false)
    (h : BodyMeetsLimit py request e) : reconstructFastapiRequest py request = .error e := by
  obtain ⟨hne, hjson, text, ht, hlimit⟩ := h
  have hbody : reconstructBody py request = .error e := by
    rw [reconstructBody, if_neg hne]
    refine bind_eq_error.2 (.inr ⟨(), ensure_eq_ok.2 hjson, ?_⟩)
    exact strictJsonLoads_of_meetsLimit ht hlimit
  refine bind_eq_error.2 (.inr ⟨(), ensure_eq_ok.2 (by simp [hs]), ?_⟩)
  exact bind_eq_error.2 (.inl hbody)

end Body

/-! ### The token -/

/-- Reading the claims of a signed token stops at a limit. -/
def TokenMeetsLimit (py : Interp) (crypto : Crypto) (key : Ed25519PublicKey) (token : Str) (e : Exn) : Prop :=
  ∃ b s text, token = compactToken b s ∧ s.length = 64 ∧ crypto.ed25519Verify key s b = true ∧
    decodeUtf8 b = some text ∧ MeetsLimit py text e

section Token

variable {py : Interp} {crypto : Crypto} {key : Ed25519PublicKey}

theorem splitToken_raisesIn (token : Str) : RaisesIn Exn.IsFormatError (splitToken token) := by
  unfold splitToken
  split
  · exact raisesIn_ok _
  · exact raisesIn_error.2 (Exn.isFormatError _)

theorem openToken_raisesIn (token : Str) :
    RaisesIn (fun e => Refused e ∨ TokenMeetsLimit py crypto key token e) (openToken py crypto key token) := by
  have hformat : ∀ {α : Type} {x : Except Exn α}, RaisesIn Exn.IsFormatError x →
      RaisesIn (fun e => Refused e ∨ TokenMeetsLimit py crypto key token e) x :=
    fun hx => hx.mono fun _ he => .inl (.inl he)
  refine (hformat (splitToken_raisesIn token)).bind fun p hsplit => ?_
  obtain ⟨payloadPart, signaturePart⟩ := p
  refine (hformat (b64urlDecode_raisesIn _)).bind fun b hb => ?_
  refine (hformat (b64urlDecode_raisesIn _)).bind fun s hs => ?_
  refine (raisesIn_ensure (.inl (refused_format _))).bind fun _ hlen => ?_
  refine (raisesIn_ensure (.inl (refused_denied _))).bind fun _ hver => ?_
  refine RaisesIn.bind (fun e he => ?_) fun payload hload => ?_
  · rcases strictJsonLoads_raisesIn _ e he with h | ⟨text, ht, hlimit⟩
    · exact .inl (.inl h)
    · obtain ⟨htoken, -, -⟩ := splitToken_eq_ok.1 hsplit
      obtain ⟨rfl, -⟩ := b64urlDecode_eq_ok.1 hb
      obtain ⟨rfl, -⟩ := b64urlDecode_eq_ok.1 hs
      exact .inr ⟨b, s, text, htoken, ensure_eq_ok.1 hlen, ensure_eq_ok.1 hver, ht, hlimit⟩
  · cases payload with
    | dict ms =>
      have hbytes := canonicalJsonBytes_raisesIn_of_valid (strictJsonLoads_ok hload).1
      refine (hformat hbytes).bind fun _ _ => ?_
      refine (raisesIn_ensure (.inl (refused_format _))).bind fun _ _ => ?_
      exact (raisesIn_ensure (.inl (refused_format _))).bind fun _ _ => raisesIn_pure _
    | _ => exact raisesIn_error.2 (.inl (refused_format _))

theorem openToken_of_meetsLimit {token : Str} {e : Exn} (h : TokenMeetsLimit py crypto key token e) :
    openToken py crypto key token = .error e := by
  obtain ⟨b, s, text, rfl, hlen, hver, ht, hlimit⟩ := h
  have hs : s ≠ [] := by
    rintro rfl
    cases hlen
  have hload : strictJsonLoads py (.bytes b) = .error e := strictJsonLoads_of_meetsLimit ht hlimit
  have hb : b ≠ [] := by
    rintro rfl
    have hempty : strictJsonLoads py (.bytes []) = .error (.capabilityGrantFormatError "json_missing") := by
      rw [strictJsonLoads, decodeUtf8_of_encode (show encodeUtf8 [] = some [] from rfl)]
      rfl
    rw [hempty] at hload
    cases hload
    rcases hlimit.isLimit with h | h
    · cases h
    · cases h
  unfold openToken
  rw [splitToken_compactToken]
  refine bind_eq_error.2 (.inr ⟨_, rfl, bind_eq_error.2 (.inr ⟨b, b64urlDecode_encode hb, ?_⟩)⟩)
  refine bind_eq_error.2 (.inr ⟨s, b64urlDecode_encode hs, ?_⟩)
  refine bind_eq_error.2 (.inr ⟨(), ensure_eq_ok.2 hlen, bind_eq_error.2 (.inr ⟨(), ensure_eq_ok.2 hver, ?_⟩)⟩)
  exact bind_eq_error.2 (.inl hload)

end Token

/-! ### The claims -/

section Claims

variable {py : Interp} {crypto : Crypto} {ms : List (PyKey × PyVal)}

theorem field_raisesIn {α : Type} {name : String} {check : PyVal → Except Exn α}
    (h : ∀ v, RaisesIn (· = .validationError) (check v)) : RaisesIn (· = .validationError) (field ms name check) := by
  unfold field
  split
  · exact raisesIn_error.2 rfl
  · exact h _

theorem ite_raisesIn {α : Type} {p : Prop} [Decidable p] (a : α) :
    RaisesIn (· = Exn.validationError) (if p then .ok a else .error .validationError) := by
  split
  · exact raisesIn_ok _
  · exact raisesIn_error.2 rfl

theorem anyStr_raisesIn (v : PyVal) : RaisesIn (· = .validationError) (anyStr v) := by
  cases v with
  | str s => exact raisesIn_ok s
  | _ => exact raisesIn_error.2 rfl

theorem strictStr_raisesIn (lo hi : ℕ) (v : PyVal) : RaisesIn (· = .validationError) (strictStr lo hi v) := by
  cases v with
  | str s => exact ite_raisesIn s
  | _ => exact raisesIn_error.2 rfl

theorem hashStr_raisesIn (v : PyVal) : RaisesIn (· = .validationError) (hashStr v) := by
  cases v with
  | str s => exact ite_raisesIn s
  | _ => exact raisesIn_error.2 rfl

theorem literalStr_raisesIn (t : String) (v : PyVal) : RaisesIn (· = .validationError) (literalStr t v) := by
  cases v with
  | str s => exact ite_raisesIn ()
  | _ => exact raisesIn_error.2 rfl

theorem literalOne_raisesIn (v : PyVal) : RaisesIn (· = .validationError) (literalOne v) := ite_raisesIn ()

theorem strictFloat_raisesIn (bound : Float64 → Bool) (v : PyVal) :
    RaisesIn (· = .validationError) (strictFloat bound v) := by
  cases v with
  | float x => exact ite_raisesIn x
  | int n => exact ite_raisesIn (Float64.ofInt n)
  | _ => exact raisesIn_error.2 rfl

theorem optionalField_raisesIn (name : String) : RaisesIn (· = .validationError) (optionalField ms name anyStr) := by
  unfold optionalField
  split
  · exact raisesIn_ok _
  · exact raisesIn_ok _
  · exact (anyStr_raisesIn _).map

theorem transport_make_raisesIn (type service method path : Str) (authProfile tlsAliasProfile : Option Str) :
    RaisesIn (· = .validationError)
      (CapabilityGrantTransport.make type service method path authProfile tlsAliasProfile) := by
  unfold CapabilityGrantTransport.make
  split
  · exact raisesIn_ok _
  · exact raisesIn_error.2 rfl

theorem transport_validate_raisesIn (v : PyVal) :
    RaisesIn (· = .validationError) (CapabilityGrantTransport.validate v) := by
  cases v with
  | dict ms =>
    rw [CapabilityGrantTransport.validate]
    split
    · refine (field_raisesIn anyStr_raisesIn).bind fun _ _ => (field_raisesIn anyStr_raisesIn).bind fun _ _ => ?_
      refine (field_raisesIn anyStr_raisesIn).bind fun _ _ => (field_raisesIn anyStr_raisesIn).bind fun _ _ => ?_
      refine (optionalField_raisesIn _).bind fun _ _ => (optionalField_raisesIn _).bind fun _ _ => ?_
      exact transport_make_raisesIn _ _ _ _ _ _
    · exact raisesIn_error.2 rfl
  | _ => exact raisesIn_error.2 rfl

/-- Validation of the required claims fails with a validation error only. -/
theorem requiredGrantClaims_raisesIn : RaisesIn (· = .validationError) (requiredGrantClaims ms) := by
  have str : ∀ name lo hi, RaisesIn (· = .validationError) (field ms name (strictStr lo hi)) := fun _ lo hi =>
    field_raisesIn (strictStr_raisesIn lo hi)
  have hash : ∀ name, RaisesIn (· = .validationError) (field ms name hashStr) := fun _ =>
    field_raisesIn hashStr_raisesIn
  have literal : ∀ name t, RaisesIn (· = .validationError) (field ms name (literalStr t)) := fun _ t =>
    field_raisesIn (literalStr_raisesIn t)
  have number : ∀ name bound, RaisesIn (· = .validationError) (field ms name (strictFloat bound)) := fun _ bound =>
    field_raisesIn (strictFloat_raisesIn bound)
  unfold requiredGrantClaims
  refine (literal _ _).bind fun _ _ => (str _ _ _).bind fun _ _ => (str _ _ _).bind fun _ _ => ?_
  refine (str _ _ _).bind fun _ _ => (str _ _ _).bind fun _ _ => (str _ _ _).bind fun _ _ => ?_
  refine (str _ _ _).bind fun _ _ => (str _ _ _).bind fun _ _ => (hash _).bind fun _ _ => ?_
  refine (field_raisesIn transport_validate_raisesIn).bind fun _ _ => (number _ _).bind fun _ _ => ?_
  refine (number _ _).bind fun _ _ => (number _ _).bind fun _ _ => ?_
  refine (field_raisesIn (literalOne_raisesIn)).bind fun _ _ => (str _ _ _).bind fun _ _ => ?_
  exact (str _ _ _).bind fun _ _ => (literal _ _).bind fun _ _ => (hash _).bind fun _ _ => raisesIn_pure _

theorem validationFailed_raisesIn {α : Type} {x : Except Exn α} (hx : RaisesIn (· = .validationError) x)
    (code : String) : RaisesIn Refused (catching (validationFailed code) x) := by
  refine hx.catching ?_
  rintro e rfl
  exact refused_format code

theorem canonicalSha256_raisesIn (v : PyVal) :
    RaisesIn (fun e => Refused e ∨ validateJsonValue py v = .error .recursionError ∧ e = .recursionError)
      (canonicalSha256 py crypto v) :=
  RaisesIn.map ((canonicalJsonBytes_raisesIn py v).mono fun _ he => he.imp_left .inl)

theorem checkClaims_raisesIn {verifier : CapabilityGrantVerifier} (now : Option Float64) (time : Float64)
    (hv : validateJsonValue py (.dict ms) = .ok ()) :
    RaisesIn Refused (checkClaims py crypto verifier ms now time) := by
  have hash : RaisesIn Refused (canonicalSha256 py crypto (.dict (withoutGrantHash ms))) :=
    RaisesIn.map ((canonicalJsonBytes_raisesIn_of_valid (validate_withoutGrantHash hv)).mono fun _ => .inl)
  have denied : ∀ {p : Prop} [Decidable p] (code : String), RaisesIn Refused (ensure p (.capabilityGrantDenied code)) :=
    fun code => raisesIn_ensure (refused_denied code)
  have format : ∀ {p : Prop} [Decidable p] (code : String),
      RaisesIn Refused (ensure p (.capabilityGrantFormatError code)) :=
    fun code => raisesIn_ensure (refused_format code)
  unfold checkClaims
  refine (validationFailed_raisesIn requiredGrantClaims_raisesIn _).bind fun _ _ => hash.bind fun _ _ => ?_
  refine (denied _).bind fun _ _ => (denied _).bind fun _ _ => (denied _).bind fun _ _ => ?_
  refine (denied _).bind fun _ _ => (format _).bind fun _ _ => (format _).bind fun _ _ => ?_
  exact (denied _).bind fun _ _ => (denied _).bind fun _ _ => raisesIn_pure _

theorem verifyBoundHeaders_raisesIn (claims : RequiredGrantClaims) (headers : List (PyKey × PyVal)) :
    RaisesIn Refused (verifyBoundHeaders claims headers) := by
  apply raisesIn_forM
  intro bound _
  unfold verifyBoundHeader
  split
  · exact (raisesIn_ensure (refused_denied _)).bind fun _ _ => raisesIn_ensure (refused_denied _)
  · exact raisesIn_error.2 (refused_denied _)

theorem checkRequest_raisesIn (claims : RequiredGrantClaims) (payload : PyVal) (t : CapabilityGrantTransport)
    (headers : List (PyKey × PyVal)) :
    RaisesIn (fun e => Refused e ∨ validateJsonValue py payload = .error .recursionError ∧ e = .recursionError)
      (checkRequest py crypto claims payload (.transport t) headers) := by
  refine (canonicalSha256_raisesIn payload).bind fun _ _ => ?_
  refine (raisesIn_ensure (.inl (refused_denied _))).bind fun _ _ => ?_
  refine (raisesIn_ok t).bind fun _ _ => ?_
  refine (raisesIn_ensure (.inl (refused_denied _))).bind fun _ _ => ?_
  exact (verifyBoundHeaders_raisesIn claims headers).mono fun _ => .inl

theorem checkRequest_of_deep {claims : RequiredGrantClaims} {payload : PyVal} {transport : TransportArg}
    {headers : List (PyKey × PyVal)} (h : validateJsonValue py payload = .error .recursionError) :
    checkRequest py crypto claims payload transport headers = .error .recursionError := by
  have hbytes : canonicalJsonBytes py payload = .error .recursionError := by
    unfold canonicalJsonBytes
    exact bind_eq_error.2 (.inl h)
  exact bind_eq_error.2 (.inl (map_eq_error.2 hbytes))

end Claims

/-! ### The handler -/

/-- An exception passes the `except` clauses: reading the body or the claims of a signed token stops at a limit, the
value hashed for the request or the claims of the token are nested too deeply for what is left of the stack, or the
redeemer raises what is no `Exception`. -/
inductive Escapes {py : Interp} (d : Dependency py) (crypto : Crypto) (callbacks : Callbacks) (request : Request)
    (e : Exn) : Prop where
  | body {token : Str} {bound : List (PyKey × PyVal)} (presents : Presents request token bound)
      (writes : isSafeMethod (py.upper request.method) = false) (limit : BodyMeetsLimit py request e)
  | token {token : Str} {bound : List (PyKey × PyVal)} {payload : PyVal} {transport : CapabilityGrantTransport}
      {now : Float64} (wellFormed : WellFormed d request token bound payload transport)
      (clock : callbacks.now = .ok now) (limit : TokenMeetsLimit py crypto d.verifier.publicKey token e)
  -- the body was walked on its own before, without its parameters around it
  | payload {token : Str} {bound : List (PyKey × PyVal)} {payload : PyVal} {transport : CapabilityGrantTransport}
      {now : Float64} {c : Value} {ms : List (PyKey × PyVal)} {claims : RequiredGrantClaims}
      (wellFormed : WellFormed d request token bound payload transport) (clock : callbacks.now = .ok now)
      (finite : now.isFinite = true) (inForce : InForce py crypto d.verifier token now c ms claims)
      (deep : Sinks py.frames payload) (recursion : e = .recursionError)
  | claims {token : Str} {bound : List (PyKey × PyVal)} {payload : PyVal} {transport : CapabilityGrantTransport}
      {now : Float64} {c : Value} {ms : List (PyKey × PyVal)} {claims : RequiredGrantClaims}
      (allowed : Allowed d crypto callbacks.toSources request token bound payload transport now c ms claims)
      (deep : py.frames < freezeFrames py c) (recursion : e = .recursionError)
  | redeemer {token : Str} {bound : List (PyKey × PyVal)} {payload : PyVal} {now : Float64} {c : Value}
      {ms : List (PyKey × PyVal)} {claims : RequiredGrantClaims} {call : Call}
      (qualifies : Qualifies d crypto callbacks.toSources request token bound payload now c ms claims call)
      (raises : callbacks.answer call = .error e) (base : e.isException = false)

section Handler

variable {py : Interp} {d : Dependency py} {crypto : Crypto} {callbacks : Callbacks} {request : Request}

theorem transportOf_raisesIn : RaisesIn Refused (d.transportOf request) := by
  have hpath : RaisesIn Refused (reconstructFastapiRawPath request) := by
    unfold reconstructFastapiRawPath
    split
    · exact raisesIn_error.2 (refused_format _)
    split
    · exact raisesIn_error.2 (refused_format _)
    split
    · exact raisesIn_error.2 (refused_format _)
    split
    · exact raisesIn_ok _
    · exact raisesIn_error.2 (refused_format _)
  refine hpath.bind fun _ _ => (transport_make_raisesIn _ _ _ _ _ _).mono ?_
  rintro e rfl
  exact .inr (.inr rfl)

theorem resolvedAuthHeaders_raisesIn (source : RedeemAuthHeaders) {answer : Except Exn PyVal}
    (ha : RaisesIn Refused answer) : RaisesIn Refused (resolvedAuthHeaders source answer) := by
  have hturn : ∀ m, RaisesIn Refused (authHeader m) := by
    rintro ⟨k, v⟩
    cases k with
    | object i => exact raisesIn_error.2 (refused_format _)
    | str k =>
      unfold authHeader
      dsimp only
      split
      · cases v with
        | str value =>
          dsimp only
          split
          · exact raisesIn_ok _
          · exact raisesIn_error.2 (refused_format _)
        | _ => exact raisesIn_error.2 (refused_format _)
      · exact raisesIn_error.2 (refused_format _)
  have hvalue : ∀ v, RaisesIn Refused (authHeadersOf v) := by
    intro v
    cases v with
    | dict ms => exact raisesIn_mapM fun m _ => hturn m
    | proxy ms => exact raisesIn_mapM fun m _ => hturn m
    | _ => exact raisesIn_error.2 (refused_format _)
  cases source with
  | none => exact raisesIn_ok []
  | value v => exact hvalue v
  | callable => exact ha.bind fun v _ => hvalue v

/-- What the preparation raises is refused, or escapes. -/
theorem prepare_raisesIn (hnow : RaisesIn Refused callbacks.now) (hauth : RaisesIn Refused callbacks.authHeaders)
    {token : Str} {bound : List (PyKey × PyVal)} (hp : presentedHeaders request = .ok (token, bound)) :
    RaisesIn (fun e => Refused e ∨ Escapes d crypto callbacks request e)
      (d.prepare crypto callbacks.toSources request token bound) := by
  have hrefused : ∀ {α : Type} {x : Except Exn α}, RaisesIn Refused x →
      RaisesIn (fun e => Refused e ∨ Escapes d crypto callbacks request e) x := fun hx => hx.mono fun _ => .inl
  refine (reconstructFastapiRequest_raisesIn.mono ?_).bind fun payload hpayload => ?_
  · rintro e (he | ⟨hs, he⟩)
    · exact .inl (.inl he)
    · exact .inr (.body (presentedHeaders_iff.1 hp) hs he)
  refine (hrefused transportOf_raisesIn).bind fun transport htransport => ?_
  have hwf := wellFormed_iff.2 ⟨hp, hpayload, htransport⟩
  refine (hrefused hnow).bind fun now hclock => ?_
  refine RaisesIn.bind ?_ fun grant hgrant => ?_
  · refine ((openToken_raisesIn token).mono ?_).bind fun ms hopen => ?_
    · exact fun e he => he.imp_right fun h => .token hwf hclock h
    obtain ⟨b, s, -, -, -, hcan, -, -⟩ := openToken_sound hopen
    refine (hrefused (checkClaims_raisesIn _ _ (canonicalJsonBytes_eq_ok.1 hcan).1)).bind fun claims hclaims => ?_
    have hfinite := isFinite_of_checkClaims hclaims
    obtain ⟨hk, hforce⟩ := inForce_of_checked now hfinite hopen hclaims
    refine ((checkRequest_raisesIn claims payload transport bound).mono ?_).bind fun _ hreq => ?_
    · exact fun e he => he.imp_right fun h =>
        .payload hwf hclock hfinite hforce (validateWithin_eq_recursionError.1 h.1) h.2
    obtain ⟨hhash, hexpected, hheaders⟩ := (checkRequest_eq_ok hforce.constraints).1 hreq
    refine RaisesIn.bind (fun e he => ?_) fun _ _ => raisesIn_pure _
    obtain ⟨rfl, hdeep⟩ := freezeJson_eq_error.1 he
    exact .inr (.claims ⟨hwf, hclock, hfinite, hforce, hhash, hexpected, hheaders⟩ hdeep rfl)
  · obtain ⟨ms, hms, hk, hv⟩ := claims_of_verify now hgrant
    refine hrefused (RaisesIn.bind ?_ fun _ _ => ?_)
    · exact (verifyRequiredClaims_raisesIn hms hk hv _).mono fun _ he => .inr (.inl he)
    refine RaisesIn.bind ?_ fun _ _ => RaisesIn.bind ?_ fun _ _ => ?_
    · unfold tokenFingerprint
      split
      · exact raisesIn_error.2 (refused_format _)
      split
      · exact raisesIn_error.2 (refused_format _)
      · exact raisesIn_ok _
    · unfold CapabilityGrantRedemptionRequest.make
      split
      · exact raisesIn_ok _
      · exact raisesIn_error.2 (.inr (.inr rfl))
    · exact (resolvedAuthHeaders_raisesIn _ hauth).bind fun _ _ => raisesIn_pure _

/-- What is refused is answered. -/
theorem requestRefused_of_refused {e : Exn} (h : Refused e) : IsAnswer ((requestRefused e).getD e) := by
  rcases h with ⟨code, rfl⟩ | ⟨code, rfl⟩ | rfl
  · exact ⟨400, code, rfl, .inl rfl⟩
  · exact ⟨403, code, rfl, .inr (.inr (.inl rfl))⟩
  · exact ⟨400, _, rfl, .inl rfl⟩

theorem requestRefused_of_isLimit {e : Exn} (h : e.IsLimit) : (requestRefused e).getD e = e := by
  rcases h with rfl | rfl
  · rfl
  · rfl

theorem presentedHeaders_raisesIn : RaisesIn Exn.IsDenied (presentedHeaders request) := by
  have hsingle : ∀ name, RaisesIn Exn.IsDenied (singleHeader request name true) := fun name =>
    (raisesIn_ensure (Exn.isDenied _)).bind fun _ _ =>
      (raisesIn_ensure (Exn.isDenied _)).bind fun _ _ => raisesIn_pure _
  refine (hsingle _).bind fun _ _ => RaisesIn.bind ?_ fun _ _ => raisesIn_pure _
  exact raisesIn_mapM fun b _ => (hsingle b.1).map

/-- An exception that escapes is a limit of the interpreter, or raised by the redeemer. -/
theorem Escapes.not_isAnswer {e : Exn} (h : Escapes d crypto callbacks request e) : ¬ IsAnswer e := by
  cases h with
  | body _ _ hs =>
    obtain ⟨-, -, text, -, hl⟩ := hs
    exact not_isAnswer_of_isLimit hl.isLimit
  | token _ _ hs =>
    obtain ⟨b, s, text, -, -, -, -, hl⟩ := hs
    exact not_isAnswer_of_isLimit hl.isLimit
  | payload _ _ _ _ _ he => exact not_isAnswer_of_isLimit (.inr he)
  | claims _ _ he => exact not_isAnswer_of_isLimit (.inr he)
  | redeemer _ _ hb =>
    rintro ⟨status, detail, rfl, -⟩
    cases hb

/-- What the redeemer raises is answered, unless it is no `Exception`. -/
theorem redeemFailed_isAnswer {e : Exn} (h : e.isException = true) : IsAnswer ((redeemFailed e).getD e) := by
  have hother : ∀ e : Exn, e.isException = true → redeemFailed e = some (.httpException 503
      "capability_grant_redeem_unavailable") ∨ e.IsDenied := by
    intro e he
    cases e with
    | capabilityGrantDenied code => exact .inr (Exn.isDenied code)
    | baseException name => cases he
    | _ => exact .inl rfl
  rcases hother e h with h | ⟨code, rfl⟩
  · rw [h]
    exact ⟨503, _, rfl, .inr (.inr (.inr rfl))⟩
  · exact ⟨403, code, rfl, .inr (.inr (.inl rfl))⟩

/-- An exception of the preparation passes its `except` clauses if it is a limit of the interpreter. -/
theorem require_of_prepare {token : Str} {bound : List (PyKey × PyVal)} {e : Exn}
    (hp : presentedHeaders request = .ok (token, bound))
    (h : d.prepare crypto callbacks.toSources request token bound = .error e) (he : e.IsLimit) :
    (d.requireCapabilityGrant crypto callbacks request []).1 = .error e := by
  have hauth : d.authorize crypto callbacks.toSources request = .error e := by
    refine bind_eq_error.2 (.inr ⟨(token, bound), catching_eq_ok.2 hp, ?_⟩)
    exact catching_eq_error.2 ⟨e, h, requestRefused_of_isLimit he⟩
  rw [require_of_error hauth]

/-- So does one of the verifier. -/
theorem require_of_verify {token : Str} {bound : List (PyKey × PyVal)} {payload : PyVal}
    {transport : CapabilityGrantTransport} {now : Float64} {e : Exn}
    (hwf : WellFormed d request token bound payload transport) (hc : callbacks.now = .ok now)
    (h : d.verifier.verify py crypto token payload (.transport transport) bound (some now) now = .error e)
    (he : e.IsLimit) : (d.requireCapabilityGrant crypto callbacks request []).1 = .error e := by
  obtain ⟨hp, hr, ht⟩ := wellFormed_iff.1 hwf
  refine require_of_prepare hp ?_ he
  refine bind_eq_error.2 (.inr ⟨_, hr, bind_eq_error.2 (.inr ⟨_, ht, bind_eq_error.2 (.inr ⟨_, hc, ?_⟩)⟩)⟩)
  exact bind_eq_error.2 (.inl h)

/-- What escapes is raised. -/
theorem Escapes.raised {e : Exn} (h : Escapes d crypto callbacks request e) :
    (d.requireCapabilityGrant crypto callbacks request []).1 = .error e := by
  cases h with
  | body hp hs hb =>
    have hl : e.IsLimit := hb.2.2.elim fun _ h => h.2.isLimit
    refine require_of_prepare (presentedHeaders_iff.2 hp) ?_ hl
    exact bind_eq_error.2 (.inl (reconstructFastapiRequest_of_meetsLimit hs hb))
  | token hwf hc hb =>
    have hl : e.IsLimit := by
      obtain ⟨b, s, text, -, -, -, -, hl⟩ := hb
      exact hl.isLimit
    exact require_of_verify hwf hc (bind_eq_error.2 (.inl (openToken_of_meetsLimit hb))) hl
  | payload hwf hc hfinite hforce hdeep he =>
    subst he
    obtain ⟨ns, -, -, -, hopen, hchecked⟩ := hforce.checked _ hfinite
    refine require_of_verify hwf hc ?_ (.inr rfl)
    refine bind_eq_error.2 (.inr ⟨_, hopen, bind_eq_error.2 (.inr ⟨_, hchecked, ?_⟩)⟩)
    exact bind_eq_error.2 (.inl (checkRequest_of_deep (validateWithin_eq_recursionError.2 hdeep)))
  | claims ha hdeep he =>
    subst he
    exact require_of_verify ha.wellFormed ha.clock (verify_of_deep _ ha.finite ha.authorizes hdeep) (.inr rfl)
  | redeemer hq ha hb =>
    obtain ⟨grant, hentitled⟩ := qualifies_iff.2 ⟨_, _, _, hq⟩
    have hauth := authorize_eq_ok.2 ⟨_, _, _, _, hentitled⟩
    have hfailed : (redeemFailed e).getD e = e := by
      cases e with
      | baseException name => rfl
      | _ => cases hb
    rw [require_of_ok hauth]
    exact bind_eq_error.2 (.inl (catching_eq_error.2 ⟨e, ha, hfailed⟩))

/-- What is raised is an answer, or escapes. -/
theorem require_raisesIn (hnow : RaisesIn Refused callbacks.now) (hauth : RaisesIn Refused callbacks.authHeaders) :
    RaisesIn (fun e => IsAnswer e ∨ Escapes d crypto callbacks request e)
      (d.requireCapabilityGrant crypto callbacks request []).1 := by
  cases ha : d.authorize crypto callbacks.toSources request with
  | error e =>
    rw [require_of_error ha]
    refine raisesIn_error.2 ?_
    rcases bind_eq_error.1 ha with h | ⟨⟨token, bound⟩, hp, h⟩
    · obtain ⟨e', he', rfl⟩ := catching_eq_error.1 h
      obtain ⟨code, rfl⟩ := presentedHeaders_raisesIn e' he'
      exact .inl ⟨401, code, rfl, .inr (.inl rfl)⟩
    · have hp := catching_eq_ok.1 hp
      obtain ⟨e', he', rfl⟩ := catching_eq_error.1 h
      rcases prepare_raisesIn hnow hauth hp e' he' with hr | hesc
      · exact .inl (requestRefused_of_refused hr)
      · have hsame : (requestRefused e').getD e' = e' := by
          have hraised := hesc.raised
          rw [require_of_error ha] at hraised
          exact Except.error.inj hraised
        rw [hsame]
        exact .inr hesc
  | ok p =>
    obtain ⟨grant, call⟩ := p
    obtain ⟨token, bound, payload, now, hentitled⟩ := authorize_eq_ok.1 ha
    rw [require_of_ok ha]
    refine RaisesIn.bind ?_ fun v _ => ?_
    · intro e he
      obtain ⟨e', he', rfl⟩ := catching_eq_error.1 he
      cases hb : e'.isException with
      | true => exact .inl (redeemFailed_isAnswer hb)
      | false =>
        obtain ⟨c, ms, claims, hq⟩ := qualifies_iff.1 ⟨grant, hentitled⟩
        have hesc : Escapes d crypto callbacks request e' := .redeemer hq he' hb
        have hsame : (redeemFailed e').getD e' = e' := by
          cases e' with
          | baseException name => rfl
          | _ => cases hb
        rw [hsame]
        exact .inr hesc
    · unfold conclude
      split
      · exact raisesIn_ok _
      · exact raisesIn_error.2 (.inl ⟨403, _, rfl, .inr (.inr (.inl rfl))⟩)

end Handler

/-- **Every request is answered, unless an exception escapes.** -/
theorem answers_iff {py : Interp} (d : Dependency py) (crypto : Crypto) {callbacks : Callbacks} (request : Request)
    (hnow : RaisesIn Refused callbacks.now) (hauth : RaisesIn Refused callbacks.authHeaders) :
    RaisesIn IsAnswer (d.requireCapabilityGrant crypto callbacks request []).1 ↔
      ∀ e, ¬ Escapes d crypto callbacks request e := by
  constructor
  · intro h e hesc
    exact hesc.not_isAnswer (h e hesc.raised)
  · intro h e he
    exact (require_raisesIn hnow hauth e he).resolve_right (h e)

theorem answers_iff_of_plain :
    ¬ ∃ e, Escapes Sample.dependency Sample.crypto Sample.callbacks Sample.plain e := by
  rintro ⟨e, hesc⟩
  refine (answers_iff Sample.dependency Sample.crypto Sample.plain (raisesIn_ok _) (raisesIn_ok _)).1 ?_ e hesc
  obtain ⟨grant, h⟩ := Sample.accepts Sample.hashed_plain
  intro e he
  have h : (Sample.dependency.requireCapabilityGrant Sample.crypto Sample.callbacks Sample.plain []).1 = .ok grant := h
  rw [h] at he
  cases he

namespace Sample

def overlong : Request := { request "" [] with body := List.replicate 4301 0x31 }

def ones : NumLit := ⟨false, ⟨1, List.replicate 4300 1, by decide⟩, [], none⟩

theorem render_ones : render (.num ones) = List.replicate 4301 (.scalar '1') := by
  show digitChar 1 :: ((List.replicate 4300 1).map digitChar ++ ([] ++ [])) = List.replicate (4300 + 1) (.scalar '1')
  rw [List.map_replicate, List.append_nil, List.append_nil, List.replicate_succ]
  rfl

theorem encode_ones (n : ℕ) : encodeUtf8 (List.replicate n (.scalar '1')) = some (List.replicate n 0x31) := by
  have hchars : List.replicate n (PyChar.scalar '1') = (List.replicate n '1').map .scalar := by
    rw [List.map_replicate]
  rw [encodeUtf8, hchars, chars_map_scalar, Option.map_some]
  congr 1
  induction n with
  | zero => rfl
  | succ n ih =>
    rw [List.replicate_succ, List.flatMap_cons, ih (by rw [List.map_replicate]), List.replicate_succ]
    rfl

theorem ones_meetsLimit : MeetsLimit .cpython (List.replicate 4301 (.scalar '1')) .valueError := by
  have hlength : ones.int.length = 4301 := by
    show (List.replicate 4300 (1 : Digit)).length + 1 = 4301
    rw [List.length_replicate]
  rw [← render_ones]
  apply meetsLimit_of_overlong rfl
  rw [Interp.withinDigits, hlength]
  rfl

theorem overlong_escapes : Escapes dependency crypto callbacks overlong .valueError := by
  refine .body ⟨singleHeader_eq_ok.1 (presents "" []), presents_bound "" []⟩ ?_ ⟨?_, ?_, ?_⟩
  · decide +kernel
  · exact List.cons_ne_nil _ _
  · show (request "" []).hasJson .cpython = true
    decide +kernel
  · exact ⟨_, decodeUtf8_of_encode (encode_ones 4301), ones_meetsLimit⟩

end Sample

/-- A plain `ValueError` is raised on a body that is too long a number. -/
theorem not_answered_of_overlong :
    (Sample.dependency.requireCapabilityGrant Sample.crypto Sample.callbacks Sample.overlong []).1 =
      .error .valueError ∧
    ¬ RaisesIn IsAnswer
      (Sample.dependency.requireCapabilityGrant Sample.crypto Sample.callbacks Sample.overlong []).1 := by
  refine ⟨Sample.overlong_escapes.raised, fun h => ?_⟩
  exact Sample.overlong_escapes.not_isAnswer (h _ Sample.overlong_escapes.raised)

end SharedAi.ServiceKit
