import SharedAi.ServiceKit.Confinement
import SharedAi.ServiceKit.Protocol

/-!
# What the authority receives

The posts of the requests, in any run.

* `modelDump_injective` — the body of a post is the whole redemption;
* `Outgoing` — every post was started by its request, and none is received more often than it was sent
  (`Outgoing.step`);
* `posts_identify` — the authority receives one post of a request at most, for what the request is entitled to, and
  two posts with one body stand for one token and one request.
-/

namespace SharedAi.ServiceKit

open SharedAi.Control SharedAi.Json SharedAi.Net SharedAi.Num SharedAi.Python SharedAi.Text

/-! ### Bodies -/

theorem optionalText_injective : Function.Injective optionalText := by
  rintro (- | s) (- | t) h
  · rfl
  · cases h
  · cases h
  · cases h
    rfl

theorem isScalar_optionalText (o : Option Str) : (optionalText o).isScalar = true := by
  cases o <;> rfl

theorem distinctKeys_transport (t : CapabilityGrantTransport) : t.modelDump.distinctKeys = true := by
  have hfields : transportFields.Nodup := by decide +kernel
  have hprofile : ∀ o, (optionalText o).distinctKeys = true := by
    intro o
    cases o <;> rfl
  refine PyVal.distinctKeys_dict.2 ⟨hfields, ?_⟩
  simp [hprofile, PyVal.distinctKeys]

def redemptionFields : List PyKey :=
  ["grant_id", "grant_hash", "token_fingerprint", "receiver_id", "audience", "request_hash", "transport"].map fun s =>
    .str (str s)

theorem distinctKeys_redemption (r : CapabilityGrantRedemptionRequest) : r.modelDump.distinctKeys = true := by
  have hfields : redemptionFields.Nodup := by decide +kernel
  refine PyVal.distinctKeys_dict.2 ⟨hfields, ?_⟩
  simp [distinctKeys_transport, PyVal.distinctKeys]

/-- A scalar member of two equal objects. -/
theorem member_eq {ms ns : List (PyKey × PyVal)} (h : PyVal.jsonEq (.dict ms) (.dict ns) = true)
    (hm : PyVal.distinctKeys (.dict ms) = true) (hn : PyVal.distinctKeys (.dict ns) = true) (name : String)
    {v w : PyVal} (hv : PyVal.get? ms name = some v) (hw : PyVal.get? ns name = some w) (hs : v.isScalar = true) :
    v = w :=
  Option.some.inj ((PyVal.get?_scalar h hm hn hv hs).symm.trans hw)

theorem transport_modelDump_injective {t₁ t₂ : CapabilityGrantTransport}
    (h : t₁.modelDump.jsonEq t₂.modelDump = true) : t₁ = t₂ := by
  have hk₁ := distinctKeys_transport t₁
  have hk₂ := distinctKeys_transport t₂
  have htype := member_eq h hk₁ hk₂ "type" rfl rfl rfl
  have hservice := member_eq h hk₁ hk₂ "service" rfl rfl rfl
  have hmethod := member_eq h hk₁ hk₂ "method" rfl rfl rfl
  have hpath := member_eq h hk₁ hk₂ "path" rfl rfl rfl
  have hauth := member_eq h hk₁ hk₂ "auth_profile" rfl rfl (isScalar_optionalText _)
  have htls := member_eq h hk₁ hk₂ "tls_alias_profile" rfl rfl (isScalar_optionalText _)
  obtain ⟨type, service, method, path, authProfile, tlsAliasProfile, hvalid⟩ := t₁
  cases htype
  cases hservice
  cases hmethod
  cases hpath
  cases optionalText_injective hauth
  cases optionalText_injective htls
  rfl

/-- **The body of a post is the whole redemption.** -/
theorem modelDump_injective {r₁ r₂ : CapabilityGrantRedemptionRequest}
    (h : r₁.modelDump.jsonEq r₂.modelDump = true) : r₁ = r₂ := by
  have hk₁ := distinctKeys_redemption r₁
  have hk₂ := distinctKeys_redemption r₂
  have hgrantId := member_eq h hk₁ hk₂ "grant_id" rfl rfl rfl
  have hgrantHash := member_eq h hk₁ hk₂ "grant_hash" rfl rfl rfl
  have hfingerprint := member_eq h hk₁ hk₂ "token_fingerprint" rfl rfl rfl
  have hreceiver := member_eq h hk₁ hk₂ "receiver_id" rfl rfl rfl
  have haudience := member_eq h hk₁ hk₂ "audience" rfl rfl rfl
  have hrequest := member_eq h hk₁ hk₂ "request_hash" rfl rfl rfl
  obtain ⟨ts, hts, htransport⟩ := PyVal.get?_dict h hk₁ hk₂ (show PyVal.get? _ "transport" = some _ from rfl)
  have hmodel : r₂.transport.modelDump = .dict ts := Option.some.inj hts
  rw [← hmodel] at htransport
  obtain ⟨grantId, grantHash, fingerprint, receiverId, audience, requestHash, transport, hvalid⟩ := r₁
  cases hgrantId
  cases hgrantHash
  cases hfingerprint
  cases hreceiver
  cases haudience
  cases hrequest
  cases transport_modelDump_injective htransport
  rfl

/-! ### Posts of a run -/

/-- Every post was started by its request, and is received no more often than it was sent. -/
structure Outgoing {ι : Type} (crypto : Crypto) (attempts : ι → Attempt) (s : State ι) : Prop where
  conserved : s.posts.Conserved
  started : ∀ q ∈ s.posts.sent, ∃ grant redemption, (attempts q.1).start crypto = .ok (grant, redemption, q.2)

section Outgoing

variable {ι : Type} [DecidableEq ι] {crypto : Crypto} {attempts : ι → Attempt} {s t : State ι}

theorem Outgoing.step (hs : Outgoing crypto attempts s) (h : Step crypto attempts s t) :
    Outgoing crypto attempts t := by
  cases h with
  | @post i grant redemption post idle h =>
    refine ⟨hs.conserved.send, fun q hq => ?_⟩
    rcases List.mem_cons.1 hq with rfl | hq
    · exact ⟨grant, redemption, h⟩
    · exact hs.started q hq
  | takePost h => exact ⟨hs.conserved.receive h, hs.started⟩
  | losePost h => exact ⟨hs.conserved.lose h, hs.started⟩
  | _ => exact ⟨hs.conserved, hs.started⟩

theorem Reachable.outgoing (h : Reachable crypto attempts s) : Outgoing crypto attempts s := by
  induction h with
  | refl => exact ⟨Channel.conserved_empty, fun q hq => by cases hq⟩
  | tail _ hstep ih => exact ih.step hstep

/-- No request is received twice. -/
theorem countP_received_le (h : Reachable crypto attempts s) (i : ι) :
    s.posts.received.countP (fun r => r.2.1 == i) ≤ 1 := by
  have honce : s.posts.sent.countP (fun q => q.1 == i) ≤ 1 := by
    have hnodup := List.nodup_iff_count_le_one.1 h.invariant.postedOnce i
    rwa [List.count, List.countP_map] at hnodup
  exact (Nat.le_add_left _ _).trans ((h.outgoing.conserved fun q => q.1 == i).trans honce)

end Outgoing

/-! ### What a post stands for -/

/-- What is posted is the redemption that the request is entitled to, with the headers for the authority. -/
def EntitledPost (crypto : Crypto) (a : Attempt) (post : Post) : Prop :=
  ∃ token bound payload now grant call, Entitled a.dependency crypto a.sources a.request token bound payload now grant
    call ∧ post.json = call.redemption.modelDump ∧ post.headers = call.authHeaders

def PresentedBytes (request : Request) (b : Bytes) : Prop :=
  ∃ token, singleHeader request grantHeader true = .ok token ∧ encodeAscii token = some b

/-- SHA-256 tells the tokens and the hashed values of the two requests apart. -/
structure DistinctHashes (crypto : Crypto) (a₁ a₂ : Attempt) : Prop where
  tokens : ∀ b₁ b₂, PresentedBytes a₁.request b₁ → PresentedBytes a₂.request b₂ → crypto.sha256 b₁ = crypto.sha256 b₂ →
    b₁ = b₂
  payloads : ∀ b₁ b₂, Hashed a₁.py a₁.request b₁ → Hashed a₂.py a₂.request b₂ → crypto.sha256 b₁ = crypto.sha256 b₂ →
    b₁ = b₂

/-- The two requests present one token, to one receiver, with one path, upper-cased method and hashed value. -/
structure SameRedemption (a₁ a₂ : Attempt) : Prop where
  token : ∃ token, singleHeader a₁.request grantHeader true = .ok token ∧
    singleHeader a₂.request grantHeader true = .ok token
  receiverId : a₁.dependency.receiverId = a₂.dependency.receiverId
  rawPath : a₁.request.rawPath = a₂.request.rawPath
  method : a₁.py.upper a₁.request.method = a₂.py.upper a₂.request.method
  payload : ∃ b, Hashed a₁.py a₁.request b ∧ Hashed a₂.py a₂.request b

section Posts

variable {crypto : Crypto} {a a₁ a₂ : Attempt} {grant : VerifiedCapabilityGrant}
  {redemption : CapabilityGrantRedemptionRequest} {post post₁ post₂ : Post}

theorem repeats_of_post {redeemer : AsyncHTTPCapabilityGrantRedeemer} {format : Str → Str → Except Exn Str}
    {authHeaders : List (Str × Str)} (h : redeemer.post format redemption authHeaders = .ok post) :
    post.json = redemption.modelDump ∧ post.headers = authHeaders := by
  obtain ⟨grantId, -, h⟩ := bind_eq_ok.1 h
  obtain ⟨endpoint, -, h⟩ := bind_eq_ok.1 h
  obtain ⟨-, h⟩ := check_eq_ok.1 h
  cases h
  exact ⟨rfl, rfl⟩

theorem entitledPost_of_start (h : a.start crypto = .ok (grant, redemption, post)) : EntitledPost crypto a post := by
  obtain ⟨call, hcall, rfl, hpost⟩ := start_eq_ok.1 h
  obtain ⟨token, bound, payload, now, he⟩ := authorize_eq_ok.1 hcall
  exact ⟨token, bound, payload, now, grant, call, he, repeats_of_post hpost⟩

theorem tokenFingerprint_eq_ok {token f : Str} (h : tokenFingerprint crypto token = .ok f) :
    ∃ b, encodeAscii token = some b ∧ (crypto.sha256 b).hexdigest = f := by
  unfold tokenFingerprint at h
  split at h
  · cases h
  split at h
  · cases h
  · next b hb => exact ⟨b, hb, Except.ok.inj h⟩

/-- Posts with one body stand for one redemption. -/
theorem sameRedemption_of_json (h₁ : EntitledPost crypto a₁ post₁) (h₂ : EntitledPost crypto a₂ post₂)
    (h : post₁.json.jsonEq post₂.json = true) (hd : DistinctHashes crypto a₁ a₂) : SameRedemption a₁ a₂ := by
  obtain ⟨token₁, n₁, p₁, t₁, g₁, k₁, he₁, hj₁, -⟩ := h₁
  obtain ⟨token₂, n₂, p₂, t₂, g₂, k₂, he₂, hj₂, -⟩ := h₂
  rw [hj₁, hj₂] at h
  have hr := modelDump_injective h
  have hpresented₁ := singleHeader_eq_ok.2 he₁.grantHeader
  have hpresented₂ := singleHeader_eq_ok.2 he₂.grantHeader
  obtain ⟨f₁, hf₁, hfingerprint₁⟩ := tokenFingerprint_eq_ok he₁.tokenFingerprint
  obtain ⟨f₂, hf₂, hfingerprint₂⟩ := tokenFingerprint_eq_ok he₂.tokenFingerprint
  rw [hr] at hfingerprint₁
  obtain rfl := hd.tokens f₁ f₂ ⟨token₁, hpresented₁, hf₁⟩ ⟨token₂, hpresented₂, hf₂⟩
    (hexdigest_injective (hfingerprint₁.trans hfingerprint₂.symm))
  obtain rfl : token₁ = token₂ :=
    Option.some.inj ((decodeAscii_of_encode hf₁).symm.trans (decodeAscii_of_encode hf₂))
  -- the request hash of either redemption is that of its own payload
  have hashed : ∀ {a : Attempt} {n p t g k}, Entitled a.dependency crypto a.sources a.request token₁ n p t g k →
      ∃ b, Hashed a.py a.request b ∧ (crypto.sha256 b).hexdigest = k.redemption.requestHash := by
    intro a n p t g k he
    obtain ⟨c, ms, claims, ha, hg, -⟩ := he.authorized
    obtain ⟨b, hb, hdigest⟩ := canonicalSha256_eq_ok.1 ha.requestHash
    exact ⟨b, ⟨p, he.rebuilt, hb⟩, by rw [hdigest, he.requestHash, hg.requestHash]⟩
  obtain ⟨b₁, hb₁, hdigest₁⟩ := hashed he₁
  obtain ⟨b₂, hb₂, hdigest₂⟩ := hashed he₂
  rw [hr] at hdigest₁
  obtain rfl := hd.payloads b₁ b₂ hb₁ hb₂ (hexdigest_injective (hdigest₁.trans hdigest₂.symm))
  have hpath := he₁.path
  rw [hr] at hpath
  exact {
    token := ⟨token₁, hpresented₁, hpresented₂⟩
    receiverId := by rw [← he₁.receiverId, ← he₂.receiverId, hr]
    rawPath := rawPath_eq hpath he₂.path
    method := by rw [← he₁.method, ← he₂.method, hr]
    payload := ⟨b₁, hb₁, hb₂⟩ }

end Posts

/-- **In any run the authority receives one post of a request at most, each is a redemption the request is entitled to,
and two posts with one body are of one token, one receiver and one request.** -/
theorem posts_identify {ι : Type} [DecidableEq ι] (crypto : Crypto) (attempts : ι → Attempt) {s : State ι}
    (hs : Reachable crypto attempts s) :
    (∀ i, s.posts.received.countP (fun r => r.2.1 == i) ≤ 1) ∧
    (∀ r ∈ s.posts.received, EntitledPost crypto (attempts r.2.1) r.2.2) ∧
    ∀ q ∈ s.posts.received, ∀ r ∈ s.posts.received, q.2.2.json.jsonEq r.2.2.json = true →
      DistinctHashes crypto (attempts q.2.1) (attempts r.2.1) → SameRedemption (attempts q.2.1) (attempts r.2.1) := by
  have hentitled : ∀ r ∈ s.posts.received, EntitledPost crypto (attempts r.2.1) r.2.2 := by
    intro r hr
    obtain ⟨grant, redemption, hstart⟩ := hs.outgoing.started r.2 (hs.outgoing.conserved.mem_sent hr)
    exact entitledPost_of_start hstart
  refine ⟨countP_received_le hs, hentitled, fun q hq r hr hjson hdistinct => ?_⟩
  exact sameRedemption_of_json (hentitled q hq) (hentitled r hr) hjson hdistinct

/-- Two requests that are one: nothing collides. -/
theorem distinctHashes_self (crypto : Crypto) (a : Attempt) : DistinctHashes crypto a a where
  tokens := by
    rintro b₁ b₂ ⟨t₁, ht₁, hb₁⟩ ⟨t₂, ht₂, hb₂⟩ -
    obtain rfl := Except.ok.inj (ht₁.symm.trans ht₂)
    exact Option.some.inj (hb₁.symm.trans hb₂)
  payloads := by
    rintro b₁ b₂ ⟨p₁, hp₁, hb₁⟩ ⟨p₂, hp₂, hb₂⟩ -
    obtain rfl := Except.ok.inj (hp₁.symm.trans hp₂)
    exact Except.ok.inj (hb₁.symm.trans hb₂)

/-- Two requests that are one post one body each. -/
theorem posts_identify_of_two : ∃ s : State Bool, Reachable Sample.crypto (fun _ => Sample.attempt) s ∧
    s.posts.received = [((), false, Sample.post), ((), true, Sample.post)] ∧
    SameRedemption Sample.attempt Sample.attempt := by
  obtain ⟨grant, hstart, -⟩ := Sample.start_attempt
  have hfirst : Step Sample.crypto (fun _ : Bool => Sample.attempt) .init _ := .post (i := true) rfl hstart
  have hsecond := (Relation.ReflTransGen.single hfirst).tail (.takePost (show _ = _ ::ₘ 0 from rfl))
  have hthird := hsecond.tail (.post (i := false) rfl hstart)
  have hs := hthird.tail (.takePost (show _ = _ ::ₘ 0 from rfl))
  refine ⟨_, hs, rfl, ?_⟩
  obtain ⟨-, -, hsame⟩ := posts_identify Sample.crypto _ hs
  have hself : Sample.post.json.jsonEq Sample.post.json = true := by decide +kernel
  exact hsame _ (List.mem_cons_self ..) _ (List.mem_cons_of_mem _ (List.mem_cons_self ..)) hself
    (distinctHashes_self _ _)

end SharedAi.ServiceKit
