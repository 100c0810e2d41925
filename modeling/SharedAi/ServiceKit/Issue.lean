import SharedAi.ServiceKit.Admission

/-!
# From the issuer to the handler

A grant on its whole way: a sender hashes the request it is about to make, an issuer signs claims for it, the
request arrives in a wire form of its own, and the receiver redeems.

* `issue` — a claim object, its hash, and the signature over its bytes, in compact form;
* `Issued` — the token of claims that meet every constraint;
* `Trusts`, `Arrives` — the receiver the claims are meant for, and the request they were issued for as it arrives;
* `issued_redeems` — such a request redeems its grant, and `True` opens the handler.
-/

namespace SharedAi.ServiceKit

open SharedAi.Control SharedAi.Data SharedAi.Json SharedAi.Num SharedAi.Python SharedAi.Text

/-! ### Issuing -/

def signedClaims (unsigned : List (PyKey × PyVal)) (grantHash : Str) : List (PyKey × PyVal) :=
  unsigned ++ [(.str (str "grant_hash"), .str grantHash)]

/-- The token of a claim object, as the tests of the source issue it. -/
def issue (py : Interp) (crypto : Crypto) (sign : Bytes → Bytes) (unsigned : List (PyKey × PyVal)) :
    Except Exn Str := do
  let grantHash ← canonicalSha256 py crypto (.dict unsigned)
  let payload ← canonicalJsonBytes py (.dict (signedClaims unsigned grantHash))
  pure (compactToken payload (sign payload))

/-- The token is issued on an object that has a claim for each field of `claims`. -/
structure Issued (py : Interp) (crypto : Crypto) (sign : Bytes → Bytes) (unsigned : List (PyKey × PyVal))
    (claims : RequiredGrantClaims) (token : Str) : Prop where
  token : issue py crypto sign unsigned = .ok token
  grantHash : canonicalSha256 py crypto (.dict unsigned) = .ok claims.grantHash
  distinct : PyVal.distinctKeys (.dict unsigned) = true
  unhashed : PyVal.get? unsigned "grant_hash" = none
  detached : PyVal.get? unsigned "signature" = none
  constraints : MeetsFieldConstraints (signedClaims unsigned claims.grantHash) claims
  ordered : claims.issuedAt.le claims.notBefore = true

/-- The receiver is the one the claims name, it holds the key that verifies their signature, and it asks for no claim
that they do not hold. -/
structure Trusts {py : Interp} (d : Dependency py) (crypto : Crypto) (sign : Bytes → Bytes)
    (unsigned : List (PyKey × PyVal)) (claims : RequiredGrantClaims) : Prop where
  issuer : d.verifier.issuer = claims.issuer
  keyId : d.verifier.keyId = claims.keyId
  audience : d.verifier.audience = claims.audience
  signature : ∀ b, canonicalJsonBytes py (.dict (signedClaims unsigned claims.grantHash)) = .ok b →
    (sign b).length = 64 ∧ crypto.ed25519Verify d.verifier.publicKey (sign b) b = true
  transportType : d.transportType = claims.transport.type
  service : d.service = claims.transport.service
  authProfile : d.authProfile = claims.transport.authProfile
  tlsAliasProfile : d.tlsAliasProfile = claims.transport.tlsAliasProfile
  receiverId : validStr 1 200 d.receiverId = true
  requiredClaims : ∀ m ∈ items d.configuredClaims, HoldsClaim (signedClaims unsigned claims.grantHash) m

/-- The request arrives in a wire form, at the path of the claims, with the token and the context in one header
each. -/
structure Arrives (py : Interp) (claims : RequiredGrantClaims) (token method : Str) (body : PyVal) (params : Params)
    (request : Request) : Prop where
  wireForm : WireForm py method body params request
  method : claims.transport.method = py.upper method
  rawPath : ∃ b, request.rawPath = some b ∧ decodeAscii b = some claims.transport.path
  rooted : (str "//").isPrefixOf claims.transport.path = false
  presented : request.getlist grantHeader = [token]
  context : ∀ b ∈ boundHeaders, request.getlist b.1 = [b.2 claims]
  trimmed : ∀ b ∈ boundHeaders, (b.2 claims).Trimmed

/-! ### Claims -/

section Claims

variable {py : Interp} {crypto : Crypto} {sign : Bytes → Bytes} {unsigned : List (PyKey × PyVal)}
  {claims : RequiredGrantClaims} {token : Str}

theorem get?_eq_none {ms : List (PyKey × PyVal)} {name : String} :
    PyVal.get? ms name = none ↔ PyKey.str (str name) ∉ keys ms := lookup_eq_none

theorem distinctKeys_signedClaims (hk : PyVal.distinctKeys (.dict unsigned) = true)
    (hu : PyVal.get? unsigned "grant_hash" = none) (grantHash : Str) :
    PyVal.distinctKeys (.dict (signedClaims unsigned grantHash)) = true := by
  obtain ⟨hnd, hms⟩ := PyVal.distinctKeys_dict.1 hk
  refine PyVal.distinctKeys_dict.2 ⟨?_, ?_⟩
  · rw [signedClaims, keys, List.map_append]
    refine hnd.append (List.nodup_singleton _) ?_
    exact List.disjoint_singleton.2 (get?_eq_none.1 hu)
  · intro m hm
    rcases List.mem_append.1 hm with hm | hm
    · exact hms m hm
    · rw [List.mem_singleton.1 hm]
      rfl

/-- The hash of the signed claims is taken without itself. -/
theorem withoutGrantHash_signedClaims (hu : PyVal.get? unsigned "grant_hash" = none) (grantHash : Str) :
    withoutGrantHash (signedClaims unsigned grantHash) = unsigned := by
  have hkeep : ∀ m ∈ unsigned, decide (m.1 ≠ .str (str "grant_hash")) = true := by
    intro m hm
    refine decide_eq_true fun h => get?_eq_none.1 hu ?_
    rw [← h]
    exact mem_keys_of_mem hm
  rw [withoutGrantHash, signedClaims, List.filter_append, List.filter_eq_self.2 hkeep]
  simp

theorem get?_signature (hd : PyVal.get? unsigned "signature" = none) (grantHash : Str) :
    PyVal.get? (signedClaims unsigned grantHash) "signature" = none := by
  have hne : ¬ PyKey.str (str "signature") = .str (str "grant_hash") := by decide
  rw [get?_eq_none] at hd ⊢
  simpa [signedClaims, keys, hne] using hd

/-- An issued token is the compact form of the signed claims. -/
theorem Issued.eq_compactToken (h : Issued py crypto sign unsigned claims token) :
    ∃ b, canonicalJsonBytes py (.dict (signedClaims unsigned claims.grantHash)) = .ok b ∧
      token = compactToken b (sign b) := by
  obtain ⟨hash, hhash, ht⟩ := bind_eq_ok.1 h.token
  obtain rfl : hash = claims.grantHash := Except.ok.inj (hhash.symm.trans h.grantHash)
  obtain ⟨b, hb, ht⟩ := bind_eq_ok.1 ht
  exact ⟨b, hb, (Except.ok.inj ht).symm⟩

/-- A claim is held whatever the order of members. -/
theorem HoldsClaim.congr {ms ns : List (PyKey × PyVal)} {m : PyKey × PyVal} (hm : HoldsClaim ms m)
    (heq : PyVal.jsonEq (.dict ns) (.dict ms) = true) (hk : PyVal.distinctKeys (.dict ms) = true)
    (hn : PyVal.distinctKeys (.dict ns) = true) (hv : validateJsonValue py (.dict ms) = .ok ()) {b : Bytes}
    (hb : canonicalJsonBytes py m.2 = .ok b) (hmk : m.2.distinctKeys = true) : HoldsClaim ns m := by
  obtain ⟨w, hw, hwm⟩ := hm
  have hwk := (PyVal.distinctKeys_dict.1 hk).2 _ hw
  obtain ⟨-, hback⟩ := (PyVal.jsonEq_dict_iff (PyVal.distinctKeys_dict.1 hn).1 (PyVal.distinctKeys_dict.1 hk).1).1 heq
  obtain ⟨u, hu, huw⟩ := hback _ hw
  have huk := (PyVal.distinctKeys_dict.1 hn).2 _ hu
  -- all three values have the same bytes
  have hwv : validateJsonValue py w = .ok () := validate_claim hv hw
  have hwb := canonicalJsonBytes_congr (v := ⟨_, hmk⟩) (w := ⟨w, hwk⟩) (PyVal.jsonEq_symm hwk hmk hwm) hb hwv
  have hub := canonicalJsonBytes_congr (v := ⟨w, hwk⟩) (w := ⟨u, huk⟩) (PyVal.jsonEq_symm huk hwk huw) hwb
    (validate_congr huw hwv)
  exact ⟨u, hu, jsonEq_of_bytes hub hb⟩

end Claims

/-! ### Arrival -/

section Arrival

variable {py : Interp} {method : Str} {body payload : PyVal} {params : Params} {request : Request}

/-- A request in wire form is rebuilt as a value equal to the one the sender hashed. -/
theorem rebuilt_of_wireForm (hk : body.distinctKeys = true)
    (hp : canonicalRequestPayload py method body params = .ok payload) {b : Bytes}
    (hb : canonicalJsonBytes py payload = .ok b) (hw : WireForm py method body params request) :
    ∃ rebuilt, reconstructFastapiRequest py request = .ok rebuilt ∧ canonicalJsonBytes py rebuilt = .ok b := by
  obtain ⟨hm, pairs, hpairs, hv, hreq⟩ := canonicalRequestPayload_eq_ok.1 hp
  obtain ⟨hpv, e, he, -⟩ := canonicalJsonBytes_eq_ok.1 hb
  obtain ⟨d, hd⟩ := toDoc_body hreq he
  have hsafe : isSafeMethod (py.upper method) = true → body = .none := by
    intro hs
    rcases requestPayload_eq_ok.1 hreq with ⟨-, hnone, -⟩ | ⟨hs', -⟩ | ⟨hs', -⟩
    · exact hnone
    all_goals
      rw [hs] at hs'
      cases hs'
  obtain ⟨body', hbody, heq, hk'⟩ := reconstructBody_of_sent hk hd hv hsafe hw
  obtain ⟨pairs', hpairs', hquery⟩ := hw.sameQuery
  obtain rfl : pairs = pairs' := Except.ok.inj (hpairs.symm.trans hpairs')
  obtain ⟨rebuilt, hreq', hpeq⟩ := requestPayload_congr heq (jsonEq_groupedParams pairs) hreq
  have hupper : py.upper (py.upper request.method) = py.upper method := by
    rw [hw.sameMethod]
    exact upper_of_methodMatches py hm
  have hempty : ¬ (isSafeMethod (py.upper request.method) = true ∧ request.body ≠ []) := by
    rintro ⟨hs, hne⟩
    rw [hw.sameMethod] at hs
    rcases hw.sameBody with ⟨hnil, -⟩ | ⟨hs', -⟩
    · exact hne hnil
    · rw [hs] at hs'
      cases hs'
  refine ⟨rebuilt, check_eq_ok.2 ⟨ensure_eq_ok.2 hempty, bind_eq_ok.2 ⟨body', hbody, ?_⟩⟩, ?_⟩
  · refine canonicalRequestPayload_eq_ok.2 ⟨by rwa [hupper], request.query, ?_, validate_congr heq hv, ?_⟩
    · rw [sentPairs_eq, queryValuePairs_params]
    · rwa [hupper, groupedParams_congr hquery]
  · have hkp := distinctKeys_requestPayload hk hreq
    have hkr := distinctKeys_requestPayload hk' hreq'
    exact canonicalJsonBytes_congr (v := ⟨payload, hkp⟩) (w := ⟨rebuilt, hkr⟩) (PyVal.jsonEq_symm hkr hkp hpeq) hb
      (validate_congr hpeq hpv)

end Arrival

/-! ### Redeeming -/

def contextOf (claims : RequiredGrantClaims) (name : String) : Str :=
  ((boundHeaders.lookup name).map fun claim => claim claims).getD []

theorem contextOf_eq (claims : RequiredGrantClaims) : ∀ b ∈ boundHeaders, contextOf claims b.1 = b.2 claims := by
  simp [boundHeaders, contextOf, List.lookup_cons]

section Redeem

variable {py : Interp} {d : Dependency py} {crypto : Crypto} {sign : Bytes → Bytes} {sources : Sources}
  {unsigned : List (PyKey × PyVal)} {claims : RequiredGrantClaims} {token method : Str} {body : Value} {params : Params}
  {payload : PyVal} {request : Request} {now : Float64} {authHeaders : List (Str × Str)}

/-- The members of a verified grant are those of its claim object, in some order. -/
theorem claims_of_grantOf {verifier : CapabilityGrantVerifier} {transport : TransportArg}
    {headers : List (PyKey × PyVal)} {ms : List (PyKey × PyVal)} {hk : PyVal.distinctKeys (.dict ms) = true}
    (hv : validateJsonValue py (.dict ms) = .ok ()) {grant : VerifiedCapabilityGrant}
    (h : verifier.verify py crypto token payload transport headers (some now) now = .ok grant)
    (hg : GrantOf claims ⟨.dict ms, hk⟩ grant) :
    ∃ ns, freezeJson py (.dict ns) = .ok grant.claims ∧ PyVal.distinctKeys (.dict ns) = true ∧
      validateJsonValue py (.dict ns) = .ok () ∧ PyVal.jsonEq (.dict ns) (.dict ms) = true := by
  obtain ⟨ns, hns, hnk, hnv⟩ := claims_of_verify now h
  obtain ⟨⟨c, hck⟩, hc, heq⟩ := hg.claims
  have hcv : validateJsonValue py c = .ok () := validate_congr heq hv
  -- a frozen value is thawed to one value only, given frames enough for both
  have hthaw := thawWithin_of_isFrozen hcv hck hc (Nat.le_max_left (freezeFrames py c) (freezeFrames py (.dict ns)))
  have hthaw' := thawWithin_of_isFrozen hnv hnk (freezeJson_eq_ok.1 hns).1
    (Nat.le_max_right (freezeFrames py c) (freezeFrames py (.dict ns)))
  obtain rfl : c = .dict ns := Except.ok.inj (hthaw.symm.trans hthaw')
  exact ⟨ns, hns, hnk, hnv, heq⟩

/-- The configured claims are looked for among the members of the claim object. -/
theorem requiredClaims_of_grantOf {transport : TransportArg} {headers : List (PyKey × PyVal)}
    {ms : List (PyKey × PyVal)} {hk : PyVal.distinctKeys (.dict ms) = true}
    (hv : validateJsonValue py (.dict ms) = .ok ()) {grant : VerifiedCapabilityGrant}
    (h : d.verifier.verify py crypto token payload transport headers (some now) now = .ok grant)
    (hg : GrantOf claims ⟨.dict ms, hk⟩ grant) :
    verifyRequiredClaims py grant d.requiredClaims = .ok () ↔ ∀ m ∈ items d.configuredClaims, HoldsClaim ms m := by
  obtain ⟨ns, hns, hnk, hnv, heq⟩ := claims_of_grantOf hv h hg
  have hbytes : ∀ m ∈ items d.configuredClaims, ∃ b, canonicalJsonBytes py m.2 = .ok b := by
    intro m hm
    obtain ⟨r, -, hr⟩ := forall₂_mem_left (requiredClaimsSnapshot_eq_ok d.snapshot) hm
    exact ⟨_, (requiredClaim_eq_ok.1 hr).2.2⟩
  rw [verifyRequiredClaims_eq_ok hns hnk hnv d.snapshot]
  refine forall₂_congr fun m hm => ?_
  obtain ⟨b, hb⟩ := hbytes m hm
  have hmk := distinctKeys_items d.configuredClaims.2 hm
  constructor
  · exact fun hheld => hheld.congr (PyVal.jsonEq_symm hnk hk heq) hnk hk hnv hb hmk
  · exact fun hheld => hheld.congr heq hk hnk hv hb hmk

/-- The request that a grant was issued for, in its wire form, is correctly issued in the sense of the receiver. -/
theorem correctlyIssued_of_issued (hissued : Issued py crypto sign unsigned claims token)
    (htrusts : Trusts d crypto sign unsigned claims)
    (hpayload : canonicalRequestPayload py method body params = .ok payload)
    (hhash : canonicalSha256 py crypto payload = .ok claims.requestHash)
    (harrives : Arrives py claims token method body params request) (hclock : sources.now = .ok now)
    (hfinite : now.isFinite = true) (hstarted : claims.notBefore.le now = true)
    (hunexpired : now.lt claims.expiresAt = true)
    (hroom : freezeFrames py (.dict (signedClaims unsigned claims.grantHash)) ≤ py.frames)
    (hauth : resolvedAuthHeaders d.redeemAuthHeaders sources.authHeaders = .ok authHeaders) :
    ∃ (c : Value) (rebuilt : PyVal) (grant : VerifiedCapabilityGrant),
      c.1 = .dict (signedClaims unsigned claims.grantHash) ∧ GrantOf claims c grant ∧
      CorrectlyIssued d crypto sources request token (contextOf claims) rebuilt claims.transport now grant
        authHeaders := by
  obtain ⟨b, hb, hdigest⟩ := canonicalSha256_eq_ok.1 hhash
  obtain ⟨rebuilt, hrebuilt, hbytes⟩ := rebuilt_of_wireForm body.2 hpayload hb harrives.wireForm
  obtain ⟨rawPath, hraw, hpath⟩ := harrives.rawPath
  have hrawPath := reconstructFastapiRawPath_eq_ok.2
    ⟨rawPath, hraw, hpath, validPath_path claims.transport, harrives.rooted⟩
  obtain ⟨signed, hsigned, htoken⟩ := hissued.eq_compactToken
  obtain ⟨hlength, hverify⟩ := htrusts.signature signed hsigned
  have hk := distinctKeys_signedClaims hissued.distinct hissued.unhashed claims.grantHash
  have hcontext := contextOf_eq claims
  have hauthorizes : Authorizes py crypto d.verifier token rebuilt (.transport claims.transport)
      (verbatim (contextOf claims)) now ⟨_, hk⟩ (signedClaims unsigned claims.grantHash) claims := {
    object := rfl
    token := ⟨signed, sign signed, hsigned, hlength, hverify, htoken⟩
    detached := get?_signature hissued.detached _
    constraints := hissued.constraints
    grantHash := by
      rw [withoutGrantHash_signedClaims hissued.unhashed]
      exact hissued.grantHash
    issuer := htrusts.issuer.symm
    keyId := htrusts.keyId.symm
    audience := htrusts.audience.symm
    notBefore := hissued.ordered
    started := hstarted
    unexpired := hunexpired
    requestHash := canonicalSha256_eq_ok.2 ⟨b, hbytes, hdigest⟩
    transport := rfl
    headers := fun bound hbound => by rw [get?_verbatim _ hbound, hcontext bound hbound] }
  obtain ⟨grant, hverified, hgrant⟩ := verify_complete now hfinite hauthorizes hroom
  have hclaims : verifyRequiredClaims py grant d.requiredClaims = .ok () :=
    (requiredClaims_of_grantOf (canonicalJsonBytes_eq_ok.1 hsigned).1 hverified hgrant).2 htrusts.requiredClaims
  refine ⟨⟨_, hk⟩, rebuilt, grant, rfl, hgrant, ?_⟩
  exact {
    presented := harrives.presented
    context := fun bound hbound => by rw [harrives.context bound hbound, hcontext bound hbound]
    rebuilt := hrebuilt
    expected := transportOf_eq_ok.2 ⟨hrawPath,
      harrives.method.trans harrives.wireForm.sameMethod.symm, htrusts.transportType.symm, htrusts.service.symm,
      htrusts.authProfile.symm, htrusts.tlsAliasProfile.symm⟩
    clock := hclock
    verified := hverified
    requiredClaims := hclaims
    authHeaders := hauth }

/-- The redemption repeats the claims, with the fingerprint of the token and the identifier of the receiver. -/
structure RedemptionOf (d : Dependency py) (crypto : Crypto) (token : Str) (claims : RequiredGrantClaims)
    (r : CapabilityGrantRedemptionRequest) : Prop where
  grantId : r.grantId = claims.grantId
  grantHash : r.grantHash = claims.grantHash
  tokenFingerprint : ServiceKit.tokenFingerprint crypto token = .ok r.tokenFingerprint
  receiverId : r.receiverId = d.receiverId
  audience : r.audience = claims.audience
  requestHash : r.requestHash = claims.requestHash
  transport : r.transport = claims.transport

/-- What is redeemed for a grant repeats its claims. -/
theorem redemptionOf_of_entitled {c : Value} {grant : VerifiedCapabilityGrant} (hg : GrantOf claims c grant)
    {bound : List (PyKey × PyVal)} {rebuilt : PyVal} {call : Call}
    (he : Entitled d crypto sources request token bound rebuilt now grant call) :
    RedemptionOf d crypto token claims call.redemption where
  grantId := he.grantId.trans hg.grantId
  grantHash := he.grantHash.trans hg.grantHash
  tokenFingerprint := he.tokenFingerprint
  receiverId := he.receiverId
  audience := he.audience.trans hg.audience
  requestHash := he.requestHash.trans hg.requestHash
  transport := by
    obtain ⟨c', ms, claims', ha, -, hg'⟩ := verify_sound now (isFinite_of_verify now he.verified) he.verified
    have hexpected : claims'.transport = call.redemption.transport := ha.transport
    rw [← hexpected, ← hg'.transport, hg.transport]

end Redeem

/-- **The request a grant was issued for redeems it, and the answer `True` opens the handler**, for claims that the
receiver has frames enough to freeze. -/
theorem issued_redeems {py : Interp} (d : Dependency py) (crypto : Crypto) (sign : Bytes → Bytes)
    (callbacks : Callbacks) {unsigned : List (PyKey × PyVal)} {claims : RequiredGrantClaims} {token method : Str}
    {body : Value} {params : Params} {payload : PyVal} {request : Request} {now : Float64}
    {authHeaders : List (Str × Str)} (hissued : Issued py crypto sign unsigned claims token)
    (htrusts : Trusts d crypto sign unsigned claims)
    (hpayload : canonicalRequestPayload py method body params = .ok payload)
    (hhash : canonicalSha256 py crypto payload = .ok claims.requestHash)
    (harrives : Arrives py claims token method body params request) (hclock : callbacks.now = .ok now)
    (hfinite : now.isFinite = true) (hstarted : claims.notBefore.le now = true)
    (hunexpired : now.lt claims.expiresAt = true)
    (hroom : freezeFrames py (.dict (signedClaims unsigned claims.grantHash)) ≤ py.frames)
    (hauth : resolvedAuthHeaders d.redeemAuthHeaders callbacks.authHeaders = .ok authHeaders) :
    ∃ (c : Value) (grant : VerifiedCapabilityGrant) (call : Call),
      c.1 = .dict (signedClaims unsigned claims.grantHash) ∧ GrantOf claims c grant ∧
      (d.requireCapabilityGrant crypto callbacks request []).2 = [call] ∧
      RedemptionOf d crypto token claims call.redemption ∧ call.authHeaders = authHeaders ∧
      ((d.requireCapabilityGrant crypto callbacks request []).1 = .ok grant ↔
        callbacks.answer call = .ok (.bool true)) := by
  obtain ⟨c, rebuilt, grant, hc, hg, hcorrect⟩ := correctlyIssued_of_issued hissued htrusts hpayload hhash harrives
    hclock hfinite hstarted hunexpired hroom hauth
  have htrimmed : ∀ b ∈ boundHeaders, (contextOf claims b.1).Trimmed := by
    intro b hb
    rw [contextOf_eq claims b hb]
    exact harrives.trimmed b hb
  obtain ⟨call, hcall⟩ := authorize_of_trimmed hcorrect htrimmed htrusts.receiverId
  obtain ⟨token', bound, rebuilt', now', he⟩ := authorize_eq_ok.1 hcall
  -- no token has white space, so that it is read as it was issued
  have htoken : token' = token := by
    obtain ⟨signed, -, rfl⟩ := hissued.eq_compactToken
    obtain ⟨v, hv, rfl, -⟩ := he.grantHeader
    obtain rfl : compactToken signed (sign signed) = v := by simpa using harrives.presented.symm.trans hv
    exact trimmed_compactToken _ _
  subst htoken
  refine ⟨c, grant, call, hc, hg, ?_, redemptionOf_of_entitled hg he, ?_, ?_⟩
  · rw [require_of_ok hcall]
  · exact Except.ok.inj (he.authHeaders.symm.trans hauth)
  · rw [require_eq_ok]
    constructor
    · rintro ⟨call', hcall', hanswer⟩
      obtain ⟨-, rfl⟩ := Prod.mk.inj (Except.ok.inj (hcall.symm.trans hcall'))
      exact hanswer
    · intro hanswer
      exact ⟨call, hcall, hanswer⟩

namespace Sample

theorem unhashed : PyVal.get? unsignedClaims "grant_hash" = none := by decide +kernel

theorem signed : signedClaims unsignedClaims interpreted.grantHash = claims := rfl

theorem written_claims : canonicalJsonBytes .cpython (.dict claims) = .ok (bytesOf claims) :=
  written (by decide +kernel)

theorem hash_unsigned : canonicalSha256 .cpython crypto (.dict unsignedClaims) = .ok interpreted.grantHash := by
  rw [← withoutGrantHash_signedClaims unhashed interpreted.grantHash]
  exact authorizes.grantHash

theorem issued : Issued .cpython crypto (fun _ => signature) unsignedClaims interpreted token where
  token := bind_eq_ok.2 ⟨_, hash_unsigned, bind_eq_ok.2 ⟨_, signed ▸ written_claims, rfl⟩⟩
  grantHash := hash_unsigned
  distinct := by decide +kernel
  unhashed := unhashed
  detached := by decide +kernel
  constraints := authorizes.constraints
  ordered := by decide +kernel

theorem trusts : Trusts dependency crypto (fun _ => signature) unsignedClaims interpreted where
  issuer := rfl
  keyId := rfl
  audience := rfl
  signature b hb := by
    rw [signed, written_claims] at hb
    rw [← Except.ok.inj hb]
    exact ⟨by simp [signature, toBytes], by simp [crypto, dependency, verifier]⟩
  transportType := rfl
  service := rfl
  authProfile := rfl
  tlsAliasProfile := rfl
  receiverId := by decide +kernel
  requiredClaims m hm := by cases hm

theorem arrives : Arrives .cpython interpreted token (str "post") body (.mapping [(.str (str "x"), .int 1)])
    (request "\x7b\"a\":1\x7d" [(str "x", str "1")]) where
  wireForm := wireForm
  method := by decide +kernel
  rawPath := ⟨ascii "/v1/files", rfl, by decide +kernel⟩
  rooted := by decide +kernel
  presented := by decide +kernel
  context := by decide +kernel
  trimmed := by decide +kernel

end Sample

theorem issued_redeems_of_writeFiles : ∃ grant,
    (Sample.dependency.requireCapabilityGrant Sample.crypto Sample.callbacks
      (Sample.request "\x7b\"a\":1\x7d" [(str "x", str "1")]) []).1 = .ok grant ∧
    grant.grantId = str "grant-1" := by
  obtain ⟨c, grant, call, -, hg, -, -, -, h⟩ := issued_redeems Sample.dependency Sample.crypto
    (fun _ => Sample.signature) Sample.callbacks Sample.issued Sample.trusts Sample.sent Sample.authorizes.requestHash
    Sample.arrives (show Sample.callbacks.now = .ok (.ofInt 1500) from rfl) (by decide +kernel)
    Sample.authorizes.started Sample.authorizes.unexpired (by decide +kernel)
    (show resolvedAuthHeaders Sample.dependency.redeemAuthHeaders _ = .ok [] from rfl)
  exact ⟨grant, h.2 rfl, hg.grantId⟩

end SharedAi.ServiceKit
