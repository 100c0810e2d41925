import Mathlib.Logic.Relation
import SharedAi.Net.Channel
import SharedAi.ServiceKit.Binding
import SharedAi.ServiceKit.Redeemer

/-!
# Redeeming over a network

Any number of requests, each handled by its own receiver, redeem over channels that delay, lose and reorder, and
that may bring a response to any request that waits for one.

* `Attempt.start`, `resume` — `require_capability_grant` up to its post, and from its response on
  (`requireCapabilityGrant_eq`);
* `Step`, `Reachable` — the steps of receivers, network and authority, and the states they lead to;
* `Invariant` — what every step preserves (`Invariant.step`);
* `released_unique` — a grant that is acknowledged at most once lets at most one handler run.
-/

namespace SharedAi.ServiceKit

open SharedAi.Control SharedAi.Json SharedAi.Net SharedAi.Num SharedAi.Python SharedAi.Text

/-! ### One request -/

structure Attempt where
  py : Interp
  dependency : Dependency py
  redeemer : AsyncHTTPCapabilityGrantRedeemer
  format : Str → Str → Except Exn Str
  sources : Sources
  request : Request

def Attempt.callbacks (a : Attempt) (client : Post → Except Exn Response) : Callbacks where
  toSources := a.sources
  redeem redemption authHeaders :=
    .ok (.awaitable ((a.redeemer.call a.format client redemption authHeaders []).1.map .bool))

/-- The part of `require_capability_grant` before the response of the authority. -/
def Attempt.start (a : Attempt) (crypto : Crypto) :
    Except Exn (VerifiedCapabilityGrant × CapabilityGrantRedemptionRequest × Post) := do
  let (grant, call) ← a.dependency.authorize crypto a.sources a.request
  let post ← catching redeemFailed (a.redeemer.post a.format call.redemption call.authHeaders)
  pure (grant, call.redemption, post)

/-- The part of `require_capability_grant` from the response, or the exception of the client, on. -/
def resume (grant : VerifiedCapabilityGrant) (redemption : CapabilityGrantRedemptionRequest)
    (answer : Except Exn Response) : Except Exn VerifiedCapabilityGrant := do
  let redeemed ← catching redeemFailed (catching transportFailed answer >>= verdict redemption)
  conclude grant (.bool redeemed)

section Attempt

variable {a : Attempt} {crypto : Crypto} {grant : VerifiedCapabilityGrant}
  {redemption : CapabilityGrantRedemptionRequest} {post : Post}

theorem start_eq_ok : a.start crypto = .ok (grant, redemption, post) ↔
    ∃ call, a.dependency.authorize crypto a.sources a.request = .ok (grant, call) ∧ call.redemption = redemption ∧
      a.redeemer.post a.format call.redemption call.authHeaders = .ok post := by
  unfold Attempt.start
  constructor
  · intro h
    obtain ⟨⟨grant', call⟩, hcall, h⟩ := bind_eq_ok.1 h
    obtain ⟨post', hpost, h⟩ := bind_eq_ok.1 h
    cases h
    exact ⟨call, hcall, rfl, catching_eq_ok.1 hpost⟩
  · rintro ⟨call, hcall, rfl, hpost⟩
    exact bind_eq_ok.2 ⟨_, hcall, bind_eq_ok.2 ⟨post, catching_eq_ok.2 hpost, rfl⟩⟩

/-- A handler may run only after a response that the redeemer takes for `True`. -/
theorem resume_eq_ok {answer : Except Exn Response} {g : VerifiedCapabilityGrant} :
    resume grant redemption answer = .ok g ↔
      grant = g ∧ ∃ response, answer = .ok response ∧ verdict redemption response = .ok true := by
  unfold resume
  simp only [bind_eq_ok, catching_eq_ok, conclude_eq_ok]
  constructor
  · rintro ⟨v, ⟨response, hr, hv⟩, h, rfl⟩
    cases h
    exact ⟨rfl, response, hr, hv⟩
  · rintro ⟨rfl, response, hr, hv⟩
    exact ⟨true, ⟨response, hr, hv⟩, rfl, rfl⟩

/-- The dependency is its two parts, with the client's answer between them. -/
theorem requireCapabilityGrant_eq (client : Post → Except Exn Response) :
    (a.dependency.requireCapabilityGrant crypto (a.callbacks client) a.request []).1 =
      a.start crypto >>= fun p => resume p.1 p.2.1 (client p.2.2) := by
  unfold Attempt.start
  cases hauth : a.dependency.authorize crypto a.sources a.request with
  | error e =>
    rw [require_of_error hauth]
    rfl
  | ok p =>
    obtain ⟨g, call⟩ := p
    rw [require_of_ok hauth]
    show catching redeemFailed
          ((a.redeemer.call a.format client call.redemption call.authHeaders []).1.map .bool) >>= conclude g =
        (catching redeemFailed (a.redeemer.post a.format call.redemption call.authHeaders) >>= fun post =>
          pure (g, call.redemption, post)) >>= fun p => resume p.1 p.2.1 (client p.2.2)
    cases hpost : a.redeemer.post a.format call.redemption call.authHeaders with
    | error e =>
      rw [call_of_error hpost]
      rfl
    | ok post =>
      rw [call_of_ok hpost]
      show _ = resume g call.redemption (client post)
      unfold resume
      cases catching transportFailed (client post) >>= verdict call.redemption <;> rfl

end Attempt

/-! ### The network -/

/-- Where a request is: not yet handled, waiting for the authority, or done. -/
inductive Phase where
  | idle
  | waiting (grant : VerifiedCapabilityGrant) (redemption : CapabilityGrantRedemptionRequest)
  | finished (result : Except Exn VerifiedCapabilityGrant)

structure State (ι : Type) where
  phase : ι → Phase
  posts : Channel Unit (ι × Post)
  replies : Channel ι Response

def State.init {ι : Type} : State ι := ⟨fun _ => .idle, .empty, .empty⟩

/-- The state with the request `i` in another phase. -/
def State.setPhase {ι : Type} [DecidableEq ι] (s : State ι) (i : ι) (p : Phase) : State ι :=
  { s with phase := Function.update s.phase i p }

section Update

variable {ι : Type} [DecidableEq ι] {s : State ι} {i j : ι} {p : Phase}

@[simp] theorem phase_setPhase_self : (s.setPhase i p).phase i = p := Function.update_self ..

theorem phase_setPhase_of_ne (h : j ≠ i) : (s.setPhase i p).phase j = s.phase j := Function.update_of_ne h ..

end Update

variable {ι : Type}

/-- One step of a receiver, of the network or of the authority, which replies what and when it likes. -/
inductive Step [DecidableEq ι] (crypto : Crypto) (attempts : ι → Attempt) : State ι → State ι → Prop where
  | refuse {s : State ι} {i : ι} {e : Exn} (idle : s.phase i = .idle) (h : (attempts i).start crypto = .error e) :
      Step crypto attempts s (s.setPhase i (.finished (.error e)))
  | post {s : State ι} {i : ι} {grant : VerifiedCapabilityGrant} {redemption : CapabilityGrantRedemptionRequest}
      {post : Post} (idle : s.phase i = .idle) (h : (attempts i).start crypto = .ok (grant, redemption, post)) :
      Step crypto attempts s { s.setPhase i (.waiting grant redemption) with posts := s.posts.send (i, post) }
  | takePost {s : State ι} {p : ι × Post} {rest : Multiset (ι × Post)} (h : s.posts.inFlight = p ::ₘ rest) :
      Step crypto attempts s { s with posts := s.posts.receive () p rest }
  | losePost {s : State ι} {p : ι × Post} {rest : Multiset (ι × Post)} (h : s.posts.inFlight = p ::ₘ rest) :
      Step crypto attempts s { s with posts := s.posts.lose rest }
  | reply {s : State ι} (response : Response) :
      Step crypto attempts s { s with replies := s.replies.send response }
  | loseReply {s : State ι} {response : Response} {rest : Multiset Response}
      (h : s.replies.inFlight = response ::ₘ rest) :
      Step crypto attempts s { s with replies := s.replies.lose rest }
  | deliver {s : State ι} {i : ι} {grant : VerifiedCapabilityGrant} {redemption : CapabilityGrantRedemptionRequest}
      {response : Response} {rest : Multiset Response} (waiting : s.phase i = .waiting grant redemption)
      (h : s.replies.inFlight = response ::ₘ rest) :
      Step crypto attempts s
        { s.setPhase i (.finished (resume grant redemption (.ok response))) with
          replies := s.replies.receive i response rest }
  | fail {s : State ι} {i : ι} {grant : VerifiedCapabilityGrant} {redemption : CapabilityGrantRedemptionRequest}
      (e : Exn) (waiting : s.phase i = .waiting grant redemption) :
      Step crypto attempts s (s.setPhase i (.finished (resume grant redemption (.error e))))

def Reachable [DecidableEq ι] (crypto : Crypto) (attempts : ι → Attempt) : State ι → Prop :=
  Relation.ReflTransGen (Step crypto attempts) .init

/-! ### The invariant -/

/-- How a request came to its phase, given the responses received so far. -/
def Accounted (crypto : Crypto) (a : Attempt) (i : ι) (received : List (ι × Response)) : Phase → Prop
  | .idle => True
  | .waiting grant redemption => ∃ post, a.start crypto = .ok (grant, redemption, post)
  | .finished result =>
    (∃ e, a.start crypto = .error e ∧ result = .error e) ∨
    ∃ grant redemption post answer, a.start crypto = .ok (grant, redemption, post) ∧
      result = resume grant redemption answer ∧ ∀ response, answer = .ok response → (i, response) ∈ received

/-- What holds in every state of every run: replies are conserved, every phase is accounted for, and a request
that has posted is no longer idle and has posted once. -/
structure Invariant (crypto : Crypto) (attempts : ι → Attempt) (s : State ι) : Prop where
  conserved : s.replies.Conserved
  phases : ∀ i, Accounted crypto (attempts i) i s.replies.received (s.phase i)
  posted : ∀ p ∈ s.posts.sent, s.phase p.1 ≠ .idle
  postedOnce : (s.posts.sent.map Prod.fst).Nodup

section Invariant

variable {crypto : Crypto} {attempts : ι → Attempt} {s t : State ι}

theorem Accounted.mono {a : Attempt} {i : ι} {l l' : List (ι × Response)} {p : Phase}
    (h : Accounted crypto a i l p) (hl : l ⊆ l') : Accounted crypto a i l' p := by
  cases p with
  | idle => trivial
  | waiting grant redemption => exact h
  | finished result =>
    rcases h with h | ⟨grant, redemption, post, answer, hstart, hresult, hanswer⟩
    · exact .inl h
    · exact .inr ⟨grant, redemption, post, answer, hstart, hresult, fun r hr => hl (hanswer r hr)⟩

theorem Invariant.init : Invariant crypto attempts .init where
  conserved := Channel.conserved_empty
  phases _ := trivial
  posted p hp := by cases hp
  postedOnce := List.nodup_nil

theorem Invariant.started (hs : Invariant crypto attempts s) {i : ι} {grant : VerifiedCapabilityGrant}
    {redemption : CapabilityGrantRedemptionRequest} (h : s.phase i = .waiting grant redemption) :
    ∃ post, (attempts i).start crypto = .ok (grant, redemption, post) := by
  have hi := hs.phases i
  rw [h] at hi
  exact hi

/-- What a request comes to is an answer of its dependency, for some client. -/
theorem Invariant.answer (hs : Invariant crypto attempts s) {i : ι} {result : Except Exn VerifiedCapabilityGrant}
    (h : s.phase i = .finished result) : ∃ client : Post → Except Exn Response,
      ((attempts i).dependency.requireCapabilityGrant crypto ((attempts i).callbacks client)
        (attempts i).request []).1 = result := by
  have hi := hs.phases i
  rw [h] at hi
  rcases hi with ⟨e, hstart, rfl⟩ | ⟨grant, redemption, post, answer, hstart, rfl, -⟩
  · refine ⟨fun _ => .error e, ?_⟩
    rw [requireCapabilityGrant_eq, hstart]
    rfl
  · refine ⟨fun _ => answer, ?_⟩
    rw [requireCapabilityGrant_eq, hstart]
    rfl

/-- The token of the request passed verification, its signed claims name the grant, and the request was entitled to
redeem it. -/
def Verified (crypto : Crypto) (a : Attempt) (grant : VerifiedCapabilityGrant) : Prop :=
  ∃ token bound payload now call c ms claims,
    Entitled a.dependency crypto a.sources a.request token bound payload now grant call ∧
    Authorizes a.py crypto a.dependency.verifier token payload (.transport call.redemption.transport) bound now c ms
      claims ∧
    PyVal.get? ms "grant_id" = some (.str grant.grantId)

theorem verified_of_entitled {a : Attempt} {token : Str} {bound : List (PyKey × PyVal)} {payload : PyVal}
    {now : Float64} {grant : VerifiedCapabilityGrant} {call : Call}
    (he : Entitled a.dependency crypto a.sources a.request token bound payload now grant call) :
    Verified crypto a grant := by
  obtain ⟨c, ms, claims, ha, -, hg⟩ := verify_sound now (isFinite_of_verify now he.verified) he.verified
  refine ⟨token, bound, payload, now, call, c, ms, claims, he, ha, ?_⟩
  rw [hg.grantId]
  exact ha.constraints.grantId.1

/-- A handler that may run had its token verified and received an acknowledgement of its own. -/
theorem Invariant.released (hs : Invariant crypto attempts s) {i : ι} {grant : VerifiedCapabilityGrant}
    (h : s.phase i = .finished (.ok grant)) : Verified crypto (attempts i) grant ∧
      ∃ response, (i, response) ∈ s.replies.received ∧ response.acknowledges grant.grantId = true := by
  have hi := hs.phases i
  rw [h] at hi
  rcases hi with ⟨e, -, he⟩ | ⟨grant', redemption, post, answer, hstart, hresult, hanswer⟩
  · cases he
  obtain ⟨rfl, response, rfl, hv⟩ := resume_eq_ok.1 hresult.symm
  obtain ⟨call, hcall, rfl, -⟩ := start_eq_ok.1 hstart
  obtain ⟨token, bound, payload, now, he⟩ := authorize_eq_ok.1 hcall
  refine ⟨verified_of_entitled he, response, hanswer response rfl, ?_⟩
  rw [← he.grantId]
  exact acknowledges_of_verdict hv

variable [DecidableEq ι]

/-- A phase that is accounted for may be entered. -/
theorem Invariant.phases_setPhase (hs : Invariant crypto attempts s) {i : ι} {p : Phase} {l : List (ι × Response)}
    (hp : Accounted crypto (attempts i) i l p) (hl : s.replies.received ⊆ l) (j : ι) :
    Accounted crypto (attempts j) j l ((s.setPhase i p).phase j) := by
  by_cases hj : j = i
  · subst hj
    rw [phase_setPhase_self]
    exact hp
  · rw [phase_setPhase_of_ne hj]
    exact (hs.phases j).mono hl

theorem Invariant.posted_setPhase (hs : Invariant crypto attempts s) {i : ι} {p : Phase} (hp : p ≠ .idle) :
    ∀ q ∈ s.posts.sent, (s.setPhase i p).phase q.1 ≠ .idle := by
  intro q hq
  by_cases hi : q.1 = i
  · rw [hi, phase_setPhase_self]
    exact hp
  · rw [phase_setPhase_of_ne hi]
    exact hs.posted q hq

theorem Invariant.step (hs : Invariant crypto attempts s) (h : Step crypto attempts s t) :
    Invariant crypto attempts t := by
  cases h with
  | refuse idle h =>
    exact {
      conserved := hs.conserved
      phases := hs.phases_setPhase (.inl ⟨_, h, rfl⟩) (List.Subset.refl _)
      posted := hs.posted_setPhase Phase.noConfusion
      postedOnce := hs.postedOnce }
  | @post i grant redemption post idle h =>
    refine ⟨hs.conserved, hs.phases_setPhase ⟨post, h⟩ (List.Subset.refl _), ?_, ?_⟩
    · intro q hq
      rcases List.mem_cons.1 hq with rfl | hq
      · show (s.setPhase i _).phase i ≠ _
        rw [phase_setPhase_self]
        exact Phase.noConfusion
      · exact hs.posted_setPhase Phase.noConfusion q hq
    · refine List.nodup_cons.2 ⟨?_, hs.postedOnce⟩
      -- a request that has posted before is not idle
      intro hi
      obtain ⟨q, hq, hqi⟩ := List.mem_map.1 hi
      exact hs.posted q hq (by rw [hqi]; exact idle)
  | takePost h => exact ⟨hs.conserved, hs.phases, hs.posted, hs.postedOnce⟩
  | losePost h => exact ⟨hs.conserved, hs.phases, hs.posted, hs.postedOnce⟩
  | reply response => exact ⟨hs.conserved.send, hs.phases, hs.posted, hs.postedOnce⟩
  | loseReply h => exact ⟨hs.conserved.lose h, hs.phases, hs.posted, hs.postedOnce⟩
  | @deliver i grant redemption response rest waiting h =>
    obtain ⟨post, hstart⟩ := hs.started waiting
    refine ⟨hs.conserved.receive h, hs.phases_setPhase (.inr ?_) (List.subset_cons_self _ _),
      hs.posted_setPhase Phase.noConfusion, hs.postedOnce⟩
    refine ⟨grant, redemption, post, .ok response, hstart, rfl, ?_⟩
    intro r hr
    cases hr
    exact List.mem_cons_self ..
  | @fail i grant redemption e waiting =>
    obtain ⟨post, hstart⟩ := hs.started waiting
    refine ⟨hs.conserved, hs.phases_setPhase (.inr ?_) (List.Subset.refl _),
      hs.posted_setPhase Phase.noConfusion, hs.postedOnce⟩
    exact ⟨grant, redemption, post, .error e, hstart, rfl, fun r hr => by cases hr⟩

theorem Reachable.invariant (h : Reachable crypto attempts s) : Invariant crypto attempts s := by
  induction h with
  | refl => exact Invariant.init
  | tail _ hstep ih => exact ih.step hstep

/-- What is done stays done. -/
theorem Step.finished {i : ι} {result : Except Exn VerifiedCapabilityGrant} (h : Step crypto attempts s t)
    (hi : s.phase i = .finished result) : t.phase i = .finished result := by
  have key : ∀ (j : ι) (p : Phase), s.phase j ≠ .finished result → (s.setPhase j p).phase i = .finished result := by
    intro j p hj
    have hij : i ≠ j := by
      rintro rfl
      exact hj hi
    rw [phase_setPhase_of_ne hij, hi]
  cases h with
  | refuse idle _ => exact key _ _ (by rw [idle]; exact Phase.noConfusion)
  | post idle _ => exact key _ _ (by rw [idle]; exact Phase.noConfusion)
  | deliver waiting _ => exact key _ _ (by rw [waiting]; exact Phase.noConfusion)
  | fail e waiting => exact key _ _ (by rw [waiting]; exact Phase.noConfusion)
  | _ => exact hi

end Invariant

/-! ### Handlers that run -/

/-- The handler of the request `i` may run, on a grant for `grantId`. -/
def Released {ι : Type} (s : State ι) (i : ι) (grantId : Str) : Prop :=
  ∃ grant, s.phase i = .finished (.ok grant) ∧ grant.grantId = grantId

/-- **A grant that is acknowledged at most once lets at most one handler run.** -/
theorem released_unique {ι : Type} [DecidableEq ι] (crypto : Crypto) (attempts : ι → Attempt) {s : State ι}
    (hs : Reachable crypto attempts s) {g : Str} (hg : s.replies.sent.countP (Response.acknowledges g) ≤ 1) :
    (∀ i j, Released s i g → Released s j g → i = j) ∧
    ∀ i grant, s.phase i = .finished (.ok grant) → grant.grantId = g →
      (∃ client, ((attempts i).dependency.requireCapabilityGrant crypto ((attempts i).callbacks client)
        (attempts i).request []).1 = .ok grant) ∧
      Verified crypto (attempts i) grant ∧
      ∃ response, (i, response) ∈ s.replies.received ∧ response.acknowledges g = true := by
  have hinv := hs.invariant
  constructor
  · rintro i j ⟨gi, hi, rfl⟩ ⟨gj, hj, hgj⟩
    obtain ⟨-, ri, hri, hai⟩ := hinv.released hi
    obtain ⟨-, rj, hrj, haj⟩ := hinv.released hj
    rw [hgj] at haj
    have heq := hinv.conserved.receiver_unique hg hri hrj hai haj
    exact congrArg Prod.fst heq
  · rintro i grant hi rfl
    exact ⟨hinv.answer hi, hinv.released hi⟩

namespace Sample

def redeemer : AsyncHTTPCapabilityGrantRedeemer :=
  ⟨str "https://authority", str "/v1/grants/\x7bgrant_id\x7d/redeem", by decide +kernel⟩

def attempt : Attempt where
  py := .cpython
  dependency := dependency
  redeemer := redeemer
  format _ grantId := .ok (str "/v1/grants/" ++ grantId ++ str "/redeem")
  sources := callbacks.toSources
  request := plain

def acknowledgement : Response where
  statusCode := 200
  json := .ok (.dict [(.str (str "redeemed"), .bool true), text "grant_id" "grant-1", text "event_id" "event-1"])

def post : Post := ⟨str "https://authority/v1/grants/grant-1/redeem", call.redemption.modelDump, []⟩

theorem start_attempt : ∃ grant, attempt.start crypto = .ok (grant, call.redemption, post) ∧
    grant.grantId = str "grant-1" := by
  obtain ⟨p, grant, he⟩ := entitled hashed_plain
  have hauth : attempt.dependency.authorize crypto attempt.sources attempt.request = .ok (grant, call) :=
    authorize_eq_ok.2 ⟨_, _, _, _, he⟩
  have hquote : quote call.redemption.grantId = .ok (str "grant-1") := by decide +kernel
  have hpost : attempt.redeemer.post attempt.format call.redemption call.authHeaders = .ok post := by
    refine bind_eq_ok.2 ⟨_, hquote, bind_eq_ok.2 ⟨str "/v1/grants/grant-1/redeem", by decide +kernel, ?_⟩⟩
    exact check_eq_ok.2 ⟨ensure_eq_ok.2 (by decide +kernel), rfl⟩
  exact ⟨grant, start_eq_ok.2 ⟨call, hauth, rfl, hpost⟩, he.grantId.symm⟩

theorem resume_acknowledgement (grant : VerifiedCapabilityGrant) :
    resume grant call.redemption (.ok acknowledgement) = .ok grant :=
  resume_eq_ok.2 ⟨rfl, acknowledgement, rfl, by decide +kernel⟩

end Sample

/-- Two requests redeem one grant; the first of them gets its only acknowledgement, and the second is never
released. -/
theorem released_unique_of_two : ∃ s : State Bool, Reachable Sample.crypto (fun _ => Sample.attempt) s ∧
    Released s true (str "grant-1") ∧ ¬ Released s false (str "grant-1") := by
  obtain ⟨grant, hstart, hgrant⟩ := Sample.start_attempt
  have hfirst : Step Sample.crypto (fun _ : Bool => Sample.attempt) .init _ := .post (i := true) rfl hstart
  have hsecond := (Relation.ReflTransGen.single hfirst).tail (.post (i := false) rfl hstart)
  have hreply := hsecond.tail (.reply Sample.acknowledgement)
  have hs := hreply.tail (.deliver (i := true) rfl (show _ = _ ::ₘ 0 from rfl))
  have hreleased : resume grant Sample.call.redemption (.ok Sample.acknowledgement) = .ok grant :=
    Sample.resume_acknowledgement grant
  refine ⟨_, hs, ⟨grant, ?_, hgrant⟩, ?_⟩
  · exact congrArg Phase.finished hreleased
  · intro h
    have hunique := (released_unique Sample.crypto _ hs (g := str "grant-1") List.countP_le_length).1 true false
      ⟨grant, congrArg Phase.finished hreleased, hgrant⟩ h
    cases hunique

end SharedAi.ServiceKit
