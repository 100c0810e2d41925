import SharedAi.ServiceKit.Issue

/-!
# Where and when a token is good

* `same_of_entitled` — what two receivers that take one token have in common;
* `checkClaims_at` — the clock decides through the window of the claims alone;
* `confined_of_accepted` — a token opens one service, one profile, one method and one path, whoever receives it;
* `requireCapabilityGrant_at` — a request that is accepted once is accepted, at other times, exactly in the window of
  its grant.
-/

namespace SharedAi.ServiceKit

open SharedAi.Control SharedAi.Data SharedAi.Json SharedAi.Num SharedAi.Python SharedAi.Text

/-! ### Two receivers -/

/-- What two receivers agree on if a token is good for both. -/
structure SameReceiver {py : Interp} (d₁ d₂ : Dependency py) : Prop where
  issuer : d₁.verifier.issuer = d₂.verifier.issuer
  keyId : d₁.verifier.keyId = d₂.verifier.keyId
  audience : d₁.verifier.audience = d₂.verifier.audience
  transportType : d₁.transportType = d₂.transportType
  service : d₁.service = d₂.service
  authProfile : d₁.authProfile = d₂.authProfile
  tlsAliasProfile : d₁.tlsAliasProfile = d₂.tlsAliasProfile

section Confined

variable {py : Interp} {d₁ d₂ : Dependency py} {crypto : Crypto} {s₁ s₂ : Sources} {r₁ r₂ : Request} {token : Str}
  {n₁ n₂ : List (PyKey × PyVal)} {p₁ p₂ : PyVal} {t₁ t₂ : Float64} {g₁ g₂ : VerifiedCapabilityGrant} {k₁ k₂ : Call}

/-- The claims that a receiver has verified for a request. -/
theorem Entitled.authorized (he : Entitled d₁ crypto s₁ r₁ token n₁ p₁ t₁ g₁ k₁) :
    ∃ c ms claims, Authorizes py crypto d₁.verifier token p₁ (.transport k₁.redemption.transport) n₁ t₁ c ms claims ∧
      GrantOf claims c g₁ ∧ claims.transport = k₁.redemption.transport := by
  obtain ⟨c, ms, claims, ha, -, hg⟩ := verify_sound t₁ (isFinite_of_verify t₁ he.verified) he.verified
  exact ⟨c, ms, claims, ha, hg, ha.transport⟩

/-- The values of the bound headers are what the request presents, stripped. -/
theorem bound_of_entitled (he : Entitled d₁ crypto s₁ r₁ token n₁ p₁ t₁ g₁ k₁) :
    n₁ = verbatim fun name => ((r₁.getlist name).headD []).strip := by
  have himp : List.Forall₂ (fun b m => (PyKey.str (str b.1), PyVal.str ((r₁.getlist b.1).headD []).strip) = m)
      boundHeaders n₁ := by
    refine he.boundHeaders.imp ?_
    rintro b m ⟨v, hv, -, rfl⟩
    rw [hv]
    rfl
  rw [← List.forall₂_map_left_iff, List.forall₂_eq_eq_eq] at himp
  exact himp.symm

/-- A request presents the context of its claims. -/
theorem context_of_entitled (he : Entitled d₁ crypto s₁ r₁ token n₁ p₁ t₁ g₁ k₁) {c : Value}
    {ms : List (PyKey × PyVal)} {claims : RequiredGrantClaims} {transport : TransportArg}
    (ha : Authorizes py crypto d₁.verifier token p₁ transport n₁ t₁ c ms claims) :
    ∀ b ∈ boundHeaders, singleHeader r₁ b.1 true = .ok (b.2 claims) := by
  intro b hb
  obtain ⟨m, -, v, hv, hne, -⟩ := forall₂_mem_left he.boundHeaders hb
  have hget := ha.headers b hb
  rw [bound_of_entitled he, get?_verbatim _ hb, hv] at hget
  have hstrip : v.strip = b.2 claims := PyVal.str.inj (Option.some.inj hget)
  exact singleHeader_eq_ok.2 ⟨v, hv, hstrip, hstrip ▸ hne⟩

/-- Two receivers that are entitled by one token redeem one transport, and share what they compare with the claims. -/
theorem same_of_entitled (h₁ : Entitled d₁ crypto s₁ r₁ token n₁ p₁ t₁ g₁ k₁)
    (h₂ : Entitled d₂ crypto s₂ r₂ token n₂ p₂ t₂ g₂ k₂) :
    SameReceiver d₁ d₂ ∧ k₁.redemption.transport = k₂.redemption.transport ∧
      canonicalSha256 py crypto p₁ = canonicalSha256 py crypto p₂ ∧
      ∀ b ∈ boundHeaders, singleHeader r₁ b.1 true = singleHeader r₂ b.1 true := by
  obtain ⟨c₁, ms₁, claims, ha₁, -, ht₁⟩ := h₁.authorized
  obtain ⟨c₂, ms₂, claims', ha₂, -, ht₂⟩ := h₂.authorized
  obtain ⟨-, rfl⟩ := ha₁.claims_unique ha₂
  have htransport := ht₁.symm.trans ht₂
  refine ⟨?_, htransport, ha₁.requestHash.trans ha₂.requestHash.symm, fun b hb =>
    (context_of_entitled h₁ ha₁ b hb).trans (context_of_entitled h₂ ha₂ b hb).symm⟩
  exact {
    issuer := ha₁.issuer.symm.trans ha₂.issuer
    keyId := ha₁.keyId.symm.trans ha₂.keyId
    audience := ha₁.audience.symm.trans ha₂.audience
    transportType := by rw [← h₁.transportType, ← h₂.transportType, htransport]
    service := by rw [← h₁.service, ← h₂.service, htransport]
    authProfile := by rw [← h₁.authProfile, ← h₂.authProfile, htransport]
    tlsAliasProfile := by rw [← h₁.tlsAliasProfile, ← h₂.tlsAliasProfile, htransport] }

/-- Equal hashes are hashes of equal values, if there is no collision. -/
theorem jsonEq_of_hashes (h₁ : Entitled d₁ crypto s₁ r₁ token n₁ p₁ t₁ g₁ k₁)
    (hp₂ : reconstructFastapiRequest py r₂ = .ok p₂) (hn : NoCollision py crypto r₁ r₂)
    (h : canonicalSha256 py crypto p₁ = canonicalSha256 py crypto p₂) : p₁.jsonEq p₂ = true := by
  obtain ⟨c, ms, claims, ha, -, -⟩ := h₁.authorized
  obtain ⟨b₁, hb₁, hd₁⟩ := canonicalSha256_eq_ok.1 ha.requestHash
  obtain ⟨b₂, hb₂, hd₂⟩ := canonicalSha256_eq_ok.1 (h.symm.trans ha.requestHash)
  obtain rfl := hn b₁ b₂ ⟨p₁, h₁.rebuilt, hb₁⟩ ⟨p₂, hp₂, hb₂⟩ (hexdigest_injective (hd₁.trans hd₂.symm))
  exact jsonEq_of_bytes hb₁ hb₂

end Confined

/-- **A token opens one place.**  Whoever accepts it, and whenever: the receivers trust one issuer, key and audience
and stand for one service, and the requests have one method, path, context and hashed value. -/
theorem confined_of_accepted {py : Interp} (d₁ d₂ : Dependency py) (crypto : Crypto) {c₁ c₂ : Callbacks}
    {r₁ r₂ : Request} {token : Str} (ht₁ : singleHeader r₁ grantHeader true = .ok token)
    (ht₂ : singleHeader r₂ grantHeader true = .ok token) (hn : NoCollision py crypto r₁ r₂)
    (ha₁ : Accepts d₁ crypto c₁ r₁) (ha₂ : Accepts d₂ crypto c₂ r₂) :
    SameReceiver d₁ d₂ ∧ r₁.rawPath = r₂.rawPath ∧ py.upper r₁.method = py.upper r₂.method ∧
      (∀ b ∈ boundHeaders, singleHeader r₁ b.1 true = singleHeader r₂ b.1 true) ∧
      ∃ p₁ p₂, reconstructFastapiRequest py r₁ = .ok p₁ ∧ reconstructFastapiRequest py r₂ = .ok p₂ ∧
        p₁.jsonEq p₂ = true := by
  obtain ⟨n₁, p₁, t₁, g₁, k₁, h₁⟩ := ha₁.entitled ht₁
  obtain ⟨n₂, p₂, t₂, g₂, k₂, h₂⟩ := ha₂.entitled ht₂
  obtain ⟨hsame, htransport, hhash, hcontext⟩ := same_of_entitled h₁ h₂
  have hpath := h₁.path
  have hmethod := h₁.method
  rw [htransport] at hpath hmethod
  exact ⟨hsame, rawPath_eq hpath h₂.path, hmethod.symm.trans h₂.method, hcontext, p₁, p₂, h₁.rebuilt, h₂.rebuilt,
    jsonEq_of_hashes h₁ h₂.rebuilt hn hhash⟩

namespace Sample

theorem accepts_receiver {id : Str} (h : isConfigText id = true) (hid : validStr 1 200 id = true) :
    Accepts (receiver id h) crypto callbacks plain := by
  obtain ⟨payload, grant, hc⟩ := correctlyIssued id h
  obtain ⟨call, hcall⟩ := authorize_of_trimmed hc (by decide +kernel) hid
  exact ⟨grant, require_eq_ok.2 ⟨call, hcall, rfl⟩⟩

theorem presents_plain : singleHeader plain grantHeader true = .ok token := presents _ _

end Sample

theorem confined_of_accepted_twice : SameReceiver (Sample.receiver (str "files-1") (by decide +kernel))
    (Sample.receiver (str "files-2") (by decide +kernel)) :=
  (confined_of_accepted _ _ Sample.crypto Sample.presents_plain Sample.presents_plain
    (Sample.noCollision Sample.hashed_plain Sample.hashed_plain)
    (Sample.accepts_receiver (by decide +kernel) (by decide +kernel))
    (Sample.accepts_receiver (by decide +kernel) (by decide +kernel))).1

/-! ### The window -/

/-- The checks of `verify` that read the clock. -/
def inWindow (notBefore expiresAt current : Float64) : Except Exn Unit := do
  ensure (current.isFinite = true) (.capabilityGrantFormatError "capability_grant_now_invalid")
  ensure (¬ current.lt notBefore) (.capabilityGrantDenied "capability_grant_not_yet_valid")
  ensure (¬ expiresAt.le current) (.capabilityGrantDenied "capability_grant_expired")

def Sources.atTime (sources : Sources) (current : Float64) : Sources := { sources with now := .ok current }

def Callbacks.atTime (callbacks : Callbacks) (current : Float64) : Callbacks := { callbacks with now := .ok current }

section Window

variable {py : Interp} {crypto : Crypto} {verifier : CapabilityGrantVerifier} {d : Dependency py} {sources : Sources}
  {request : Request} {grant : VerifiedCapabilityGrant} {call : Call}

theorem checkClaims_at {ms : List (PyKey × PyVal)} {claims : RequiredGrantClaims} {now time : Float64}
    (h : checkClaims py crypto verifier ms (some now) time = .ok claims) (current : Float64) :
    checkClaims py crypto verifier ms (some current) current =
      inWindow claims.notBefore claims.expiresAt current >>= fun _ => .ok claims := by
  obtain ⟨claims', hreq, h⟩ := bind_eq_ok.1 h
  obtain ⟨hash, hhash, h⟩ := bind_eq_ok.1 h
  obtain ⟨h1, h⟩ := check_eq_ok.1 h
  obtain ⟨h2, h⟩ := check_eq_ok.1 h
  obtain ⟨h3, h⟩ := check_eq_ok.1 h
  obtain ⟨h4, h⟩ := check_eq_ok.1 h
  obtain ⟨h5, h⟩ := check_eq_ok.1 h
  obtain ⟨-, h⟩ := check_eq_ok.1 h
  obtain ⟨-, h⟩ := check_eq_ok.1 h
  obtain ⟨-, h⟩ := check_eq_ok.1 h
  cases h
  unfold checkClaims inWindow
  simp only [hreq, hhash, h1, h2, h3, h4, h5, ok_bind, Option.getD_some, bind_assoc]
  rfl

theorem verify_at {token : Str} {payload : PyVal} {transport : TransportArg} {headers : List (PyKey × PyVal)}
    {now : Float64} (h : verifier.verify py crypto token payload transport headers (some now) now = .ok grant)
    (current : Float64) :
    verifier.verify py crypto token payload transport headers (some current) current =
      inWindow grant.notBefore grant.expiresAt current >>= fun _ => .ok grant := by
  obtain ⟨ms, hopen, h⟩ := bind_eq_ok.1 h
  obtain ⟨claims, hclaims, h⟩ := bind_eq_ok.1 h
  obtain ⟨hreq, h⟩ := check_eq_ok.1 h
  obtain ⟨frozen, hfreeze, h⟩ := bind_eq_ok.1 h
  cases h
  unfold CapabilityGrantVerifier.verify
  simp only [hopen, checkClaims_at hclaims, hreq, hfreeze, ok_bind, bind_assoc]
  rfl

/-- What was prepared once is prepared at another time, in the window. -/
theorem prepare_at {token : Str} {bound : List (PyKey × PyVal)}
    (h : d.prepare crypto sources request token bound = .ok (grant, call)) (current : Float64) :
    d.prepare crypto (sources.atTime current) request token bound =
      inWindow grant.notBefore grant.expiresAt current >>= fun _ => .ok (grant, call) := by
  obtain ⟨payload, hpayload, h⟩ := bind_eq_ok.1 h
  obtain ⟨transport, htransport, h⟩ := bind_eq_ok.1 h
  obtain ⟨now, -, h⟩ := bind_eq_ok.1 h
  obtain ⟨grant', hverified, h⟩ := bind_eq_ok.1 h
  obtain ⟨hrequired, h⟩ := check_eq_ok.1 h
  obtain ⟨fingerprint, hfingerprint, h⟩ := bind_eq_ok.1 h
  obtain ⟨redemption, hredemption, h⟩ := bind_eq_ok.1 h
  obtain ⟨authHeaders, hauth, h⟩ := bind_eq_ok.1 h
  cases h
  unfold Dependency.prepare Sources.atTime
  simp only [hpayload, htransport, verify_at hverified, hrequired, hfingerprint, hredemption, hauth, ok_bind,
    bind_assoc]
  rfl

theorem authorize_at (h : d.authorize crypto sources request = .ok (grant, call)) (current : Float64) :
    d.authorize crypto (sources.atTime current) request =
      catching requestRefused (inWindow grant.notBefore grant.expiresAt current) >>= fun _ => .ok (grant, call) := by
  obtain ⟨⟨token, bound⟩, hpresented, h⟩ := bind_eq_ok.1 h
  unfold Dependency.authorize
  simp only [hpresented, ok_bind, prepare_at (catching_eq_ok.1 h)]
  cases inWindow grant.notBefore grant.expiresAt current <;> rfl

end Window

/-- **A request that is entitled once is answered, at any time, as the window of its grant says**: turned away before
it and after it, and in it answered as it was. -/
theorem requireCapabilityGrant_at {py : Interp} (d : Dependency py) (crypto : Crypto) (callbacks : Callbacks)
    (request : Request) {grant : VerifiedCapabilityGrant} {call : Call}
    (h : d.authorize crypto callbacks.toSources request = .ok (grant, call)) (current : Float64) :
    d.requireCapabilityGrant crypto (callbacks.atTime current) request [] =
      if current.isFinite = false then (.error (.httpException 400 "capability_grant_now_invalid"), [])
      else if current.lt grant.notBefore then (.error (.httpException 403 "capability_grant_not_yet_valid"), [])
      else if grant.expiresAt.le current then (.error (.httpException 403 "capability_grant_expired"), [])
      else d.requireCapabilityGrant crypto callbacks request [] := by
  have hat : d.authorize crypto (callbacks.atTime current).toSources request = _ := authorize_at h current
  have herror : ∀ {e e' : Exn}, inWindow grant.notBefore grant.expiresAt current = .error e →
      requestRefused e = some e' →
        d.requireCapabilityGrant crypto (callbacks.atTime current) request [] = (.error e', []) := by
    intro e e' hwindow hrefused
    refine require_of_error (hat.trans ?_)
    rw [hwindow, catching, hrefused]
    rfl
  split
  · next hfinite => exact herror (by simp [inWindow, ensure, hfinite]; rfl) rfl
  split
  · next hfinite hstarted => exact herror (by simp [inWindow, ensure, hfinite, hstarted]; rfl) rfl
  split
  · next hfinite hstarted hexpired => exact herror (by simp [inWindow, ensure, hfinite, hstarted, hexpired]; rfl) rfl
  · next hfinite hstarted hunexpired =>
    have hwindow : inWindow grant.notBefore grant.expiresAt current = .ok () := by
      simp [inWindow, ensure, hfinite, hstarted, hunexpired]
      rfl
    rw [hwindow] at hat
    rw [require_of_ok hat, require_of_ok h]
    rfl

theorem requireCapabilityGrant_at_expiry :
    Sample.dependency.requireCapabilityGrant Sample.crypto (Sample.callbacks.atTime (.ofInt 2000)) Sample.plain [] =
      (.error (.httpException 403 "capability_grant_expired"), []) := by
  obtain ⟨p, grant, he⟩ := Sample.entitled Sample.hashed_plain
  obtain ⟨c, ms, claims, ha, hg, -⟩ := he.authorized
  obtain ⟨-, rfl⟩ := ha.claims_unique Sample.authorizes
  have h := requireCapabilityGrant_at Sample.dependency Sample.crypto Sample.callbacks Sample.plain
    (authorize_eq_ok.2 ⟨_, _, _, _, he⟩) (.ofInt 2000)
  rw [hg.notBefore, hg.expiresAt] at h
  rw [h, if_neg (by decide +kernel), if_neg (by decide +kernel), if_pos (by decide +kernel)]

end SharedAi.ServiceKit
