import SharedAi.ServiceKit.NormalForm
import SharedAi.ServiceKit.Protocol

/-!
# Requests that say the same

A proxy may reorder the members of a body and the keys of a query string, respell a body, and change the headers that
are not read.

* `SameOnWire` — two requests that differ in no more than that;
* `reconstruct_eq` — the receiver hashes the same bytes for both, or raises the same exception;
* `start_eq` — up to its post, it handles both alike;
* `reachable_iff_of_sameOnWire` — the network reaches the same states with either.
-/

namespace SharedAi.ServiceKit

open SharedAi.Control SharedAi.Data SharedAi.Json SharedAi.Net SharedAi.Num SharedAi.Python SharedAi.Text

def grantHeaderNames : List String := grantHeader :: boundHeaders.map Prod.fst

/-- Two bodies that are one text of one kind, or JSON texts of equal values. -/
inductive SameBody (py : Interp) (r r' : Request) : Prop
  | same (body : r.body = r'.body) (json : r.hasJson py = r'.hasJson py)
  | respelled {v w : PyVal} (json : r.hasJson py = true) (json' : r'.hasJson py = true)
      (load : strictJsonLoads py (.bytes r.body) = .ok v) (load' : strictJsonLoads py (.bytes r'.body) = .ok w)
      (equal : v.jsonEq w = true)

/-- Two requests that say the same: for each key of the query string the same values in the same order, the same
value in the body, and the same headers of a grant. -/
structure SameOnWire (py : Interp) (r r' : Request) : Prop where
  method : py.upper r.method = py.upper r'.method
  rawPath : r.rawPath = r'.rawPath
  query : ∀ k, valuesOf r.query k = valuesOf r'.query k
  body : SameBody py r r'
  headers : ∀ name ∈ grantHeaderNames, r.getlist name = r'.getlist name

/-! ### Equal values -/

section Values

variable {py : Interp} {v w : PyVal}

/-- A value that is read strictly: valid, and with a canonical form. -/
structure Readable (py : Interp) (v : PyVal) : Prop where
  valid : validateJsonValue py v = .ok ()
  distinct : v.distinctKeys = true
  written : ∃ d, toDoc py v = .ok d

theorem Readable.none : Readable py .none := ⟨by rw [validateJsonValue, validateWithin], rfl, _, rfl⟩

theorem Readable.of_strictJsonLoads {s : PyVal} (h : strictJsonLoads py s = .ok v) : Readable py v := by
  obtain ⟨b, hb⟩ := exists_canonicalJsonBytes h
  obtain ⟨hv, hk⟩ := strictJsonLoads_ok h
  obtain ⟨-, d, hd, -⟩ := canonicalJsonBytes_eq_ok.1 hb
  exact ⟨hv, hk, d, hd⟩

theorem Readable.jsonEq_self (hv : Readable py v) : v.jsonEq v = true := by
  obtain ⟨d, hd⟩ := hv.written
  exact jsonEq_of_toDoc hd hd

/-- Equal values can be nested equally deep. -/
theorem Readable.validateWithin_eq (hv : Readable py v) (hw : Readable py w) (h : v.jsonEq w = true) (n : ℕ) :
    validateWithin n v = validateWithin n w := by
  have hvn := validateWithin_raisesIn_of_valid hv.valid n
  have hwn := validateWithin_raisesIn_of_valid hw.valid n
  cases hv' : validateWithin n v with
  | ok => rw [validate_congr (PyVal.jsonEq_symm hv.distinct hw.distinct h) hv']
  | error e =>
    cases hw' : validateWithin n w with
    | ok =>
      rw [validate_congr h hw'] at hv'
      cases hv'
    | error e' => rw [hvn e hv', hwn e' hw']

/-- Equal values that are valid alike have one canonical form, or raise one exception. -/
theorem canonicalJsonBytes_eq_of_jsonEq (hv : v.distinctKeys = true) (hw : w.distinctKeys = true)
    (h : v.jsonEq w = true) (hvalid : validateJsonValue py v = validateJsonValue py w)
    (hd : ∃ d, toDoc py v = .ok d) : canonicalJsonBytes py v = canonicalJsonBytes py w := by
  cases hv' : validateJsonValue py v with
  | ok =>
    obtain ⟨d, hd⟩ := hd
    obtain ⟨b, hb'⟩ := exists_canonicalJsonBytes_of_toDoc hv' hd
    have hw' : validateJsonValue py w = .ok () := by rw [← hvalid, hv']
    rw [hb', canonicalJsonBytes_congr (v := ⟨v, hv⟩) (w := ⟨w, hw⟩) h hb' hw']
  | error e =>
    unfold canonicalJsonBytes
    rw [← hvalid, hv']
    rfl

end Values

/-! ### Payloads -/

section Payload

variable {py : Interp} {v w : PyVal}

theorem exists_toDoc_groupedParams (py : Interp) (pairs : List (Str × Str)) :
    ∃ d, toDoc py (.dict (groupedParams pairs)) = .ok d := by
  have hmember : ∀ m ∈ groupedParams pairs, ∃ e, WritesMember py m e := by
    intro m hm
    obtain ⟨k, -, rfl⟩ := mem_groupedParams.1 hm
    suffices hd : ∃ d, toDoc py (queryValue (valuesOf pairs k)) = .ok d by
      obtain ⟨d, hd⟩ := hd
      exact ⟨(k, d), rfl, hd⟩
    unfold queryValue
    split
    · exact ⟨_, rfl⟩
    · have hvalue : ∀ v ∈ (valuesOf pairs k).map PyVal.str, ∃ d, toDoc py v = .ok d := by
        intro v hv
        obtain ⟨s, -, rfl⟩ := List.mem_map.1 hv
        exact ⟨.str s, rfl⟩
      obtain ⟨ds, hds⟩ := exists_forall₂ hvalue
      exact ⟨_, toDoc_list.2 ⟨ds, hds, rfl⟩⟩
  obtain ⟨ds, hds⟩ := exists_forall₂ hmember
  exact ⟨_, toDoc_dict.2 ⟨ds, hds, rfl⟩⟩

/-- Equal bodies are put into envelopes with one canonical form, or one exception. -/
theorem canonicalJsonBytes_envelope_eq (hv : Readable py v) (hw : Readable py w) (h : v.jsonEq w = true)
    (pairs : List (Str × Str)) : canonicalJsonBytes py (envelope v (groupedParams pairs)) =
      canonicalJsonBytes py (envelope w (groupedParams pairs)) := by
  have hp := distinctKeys_groupedParams pairs
  refine canonicalJsonBytes_eq_of_jsonEq (distinctKeys_envelope hv.distinct hp) (distinctKeys_envelope hw.distinct hp)
    ?_ ?_ ?_
  · simp [envelope, PyVal.jsonEq_dict, h, jsonEq_groupedParams pairs]
  · unfold validateJsonValue envelope
    cases py.frames with
    | zero => rfl
    | succ n =>
      have hjson : ∀ u ms, validateMembers n ((.str (str "json"), u) :: ms) =
          validateStr (str "json") >>= fun _ => validateWithin n u >>= fun _ => validateMembers n ms := by
        intro u ms
        rw [validateMembers]
      rw [validateWithin, validateWithin, hjson v, hjson w, hv.validateWithin_eq hw h n]
  · obtain ⟨d, hd⟩ := hv.written
    obtain ⟨e, he⟩ := exists_toDoc_groupedParams py pairs
    exact ⟨_, toDoc_dict.2 ⟨[(str "json", d), (str "params", e)], .cons ⟨rfl, hd⟩ (.cons ⟨rfl, he⟩ .nil), rfl⟩⟩

theorem requestPayload_eq (hv : Readable py v) (hw : Readable py w) (h : v.jsonEq w = true) (method : Str)
    (pairs : List (Str × Str)) :
    (requestPayload method v (groupedParams pairs)).map (canonicalJsonBytes py) =
      (requestPayload method w (groupedParams pairs)).map (canonicalJsonBytes py) := by
  unfold requestPayload
  split
  · cases v <;> cases w <;> first | rfl | cases h
  · split
    · exact congrArg Except.ok (canonicalJsonBytes_eq_of_jsonEq hv.distinct hw.distinct h
        (hv.valid.trans hw.valid.symm) hv.written)
    · exact congrArg Except.ok (canonicalJsonBytes_envelope_eq hv hw h pairs)

end Payload

/-! ### Receivers -/

section Receiver

variable {py : Interp} {r r' : Request}

/-- What is not a JSON text of equal values is refused alike. -/
theorem reconstructBody_cases (h : SameBody py r r') :
    (∃ e, reconstructBody py r = .error e ∧ reconstructBody py r' = .error e) ∨
    ∃ v w, reconstructBody py r = .ok v ∧ reconstructBody py r' = .ok w ∧ Readable py v ∧ Readable py w ∧
      v.jsonEq w = true := by
  cases h with
  | same body json =>
    have hsame : reconstructBody py r = reconstructBody py r' := by
      unfold reconstructBody
      rw [body, json]
    rw [← hsame]
    cases hr : reconstructBody py r with
    | error e => exact .inl ⟨e, rfl, rfl⟩
    | ok v =>
      have hv : Readable py v := by
        unfold reconstructBody at hr
        split at hr
        · cases hr
          exact .none
        · exact .of_strictJsonLoads (check_eq_ok.1 hr).2
      exact .inr ⟨v, v, rfl, rfl, hv, hv, hv.jsonEq_self⟩
  | respelled json json' load load' equal =>
    have hread : ∀ (r : Request) (u : PyVal), r.hasJson py = true → strictJsonLoads py (.bytes r.body) = .ok u →
        reconstructBody py r = .ok u := by
      intro r u hjson hload
      have hne : r.body ≠ [] := by
        intro h0
        rw [h0] at hload
        cases hload
      rw [reconstructBody, if_neg hne]
      exact check_eq_ok.2 ⟨ensure_eq_ok.2 hjson, hload⟩
    exact .inr ⟨_, _, hread r _ json load, hread r' _ json' load', .of_strictJsonLoads load,
      .of_strictJsonLoads load', equal⟩

theorem SameBody.nil_iff (h : SameBody py r r') : r.body = [] ↔ r'.body = [] := by
  cases h with
  | same body _ => rw [body]
  | respelled _ _ load load' _ =>
    constructor <;>
    · intro h0
      first
        | rw [h0] at load
          cases load
        | rw [h0] at load'
          cases load'

/-- **The receiver hashes the same bytes for both, or raises the same exception.** -/
theorem reconstruct_eq (h : SameOnWire py r r') :
    (reconstructFastapiRequest py r).map (canonicalJsonBytes py) =
      (reconstructFastapiRequest py r').map (canonicalJsonBytes py) := by
  have hpayload : ∀ (r : Request) (m : Str) {v : PyVal}, Readable py v → canonicalRequestPayload py m v r.params =
      ensure (methodMatches (py.upper m) = true) (.capabilityGrantFormatError "request_method_invalid") >>=
        fun _ => requestPayload (py.upper m) v (groupedParams r.query) := by
    intro r m v hv
    unfold canonicalRequestPayload
    rw [canonicalQueryParams_params, hv.valid]
    rfl
  unfold reconstructFastapiRequest
  rw [h.method]
  simp only [ne_eq, h.body.nil_iff]
  generalize py.upper r'.method = m
  generalize ensure (¬(isSafeMethod m = true ∧ ¬r'.body = [])) _ = guarded
  rcases guarded with e | ⟨⟩
  · rfl
  rcases reconstructBody_cases h.body with ⟨e, he, he'⟩ | ⟨v, w, hv, hw, hrv, hrw, heq⟩
  · rw [he, he']
    rfl
  · rw [hv, hw]
    show (canonicalRequestPayload py m v r.params).map _ = (canonicalRequestPayload py m w r'.params).map _
    rw [hpayload r m hrv, hpayload r' m hrw, groupedParams_congr h.query]
    generalize ensure (methodMatches (py.upper m) = true) _ = matched
    rcases matched with e | ⟨⟩
    · rfl
    · exact requestPayload_eq hrv hrw heq _ _

variable {d : Dependency py} {crypto : Crypto} {sources : Sources}

theorem verify_eq {verifier : CapabilityGrantVerifier} {token : Str} {v w : PyVal} {transport : TransportArg}
    {headers : List (PyKey × PyVal)} {now : Option Float64} {time : Float64}
    (h : canonicalJsonBytes py v = canonicalJsonBytes py w) :
    verifier.verify py crypto token v transport headers now time =
      verifier.verify py crypto token w transport headers now time := by
  unfold CapabilityGrantVerifier.verify checkRequest canonicalSha256
  rw [h]

theorem presentedHeaders_eq (h : SameOnWire py r r') : presentedHeaders r = presentedHeaders r' := by
  have hsingle : ∀ name ∈ grantHeaderNames, singleHeader r name true = singleHeader r' name true := by
    intro name hname
    unfold singleHeader
    rw [h.headers name hname]
  have hbound : ∀ bs : List (String × (RequiredGrantClaims → Str)), bs ⊆ boundHeaders →
      bs.mapM (fun b => (singleHeader r b.1 true).map fun value => (PyKey.str (str b.1), PyVal.str value)) =
        bs.mapM fun b => (singleHeader r' b.1 true).map fun value => (PyKey.str (str b.1), PyVal.str value) := by
    intro bs hbs
    induction bs with
    | nil => rfl
    | cons b bs ih =>
      rw [List.mapM_cons, List.mapM_cons, ih fun c hc => hbs (List.mem_cons_of_mem _ hc),
        hsingle b.1 (List.mem_cons_of_mem _ (List.mem_map_of_mem (hbs List.mem_cons_self)))]
  unfold presentedHeaders
  rw [hsingle _ List.mem_cons_self, hbound _ (List.Subset.refl _)]

/-- A receiver prepares the same redemption for both, or raises the same exception. -/
theorem prepare_eq (h : SameOnWire py r r') (token : Str) (bound : List (PyKey × PyVal)) :
    d.prepare crypto sources r token bound = d.prepare crypto sources r' token bound := by
  have hpath : d.transportOf r = d.transportOf r' := by
    unfold Dependency.transportOf reconstructFastapiRawPath
    rw [h.rawPath, h.method]
  have hbytes := reconstruct_eq h
  unfold Dependency.prepare
  rw [hpath]
  cases hv : reconstructFastapiRequest py r with
  | error e =>
    cases hw : reconstructFastapiRequest py r' with
    | error e' =>
      rw [hv, hw] at hbytes
      cases hbytes
      rfl
    | ok w =>
      rw [hv, hw] at hbytes
      cases hbytes
  | ok v =>
    cases hw : reconstructFastapiRequest py r' with
    | error e' =>
      rw [hv, hw] at hbytes
      cases hbytes
    | ok w =>
      rw [hv, hw] at hbytes
      show (d.transportOf r' >>= _) = (d.transportOf r' >>= _)
      simp only [verify_eq (Except.ok.inj hbytes)]

theorem authorize_eq (h : SameOnWire py r r') : d.authorize crypto sources r = d.authorize crypto sources r' := by
  unfold Dependency.authorize
  rw [presentedHeaders_eq h]
  simp only [prepare_eq h]

/-- **Up to its post, a receiver handles both alike.** -/
theorem start_eq {a : Attempt} {r : Request} (h : SameOnWire a.py a.request r) :
    Attempt.start { a with request := r } crypto = a.start crypto := by
  unfold Attempt.start
  rw [authorize_eq h]

end Receiver

/-! ### The network -/

/-- A step depends on a request only through what its receiver does up to the post. -/
theorem Step.congr {ι : Type} [DecidableEq ι] {crypto : Crypto} {attempts attempts' : ι → Attempt}
    (h : ∀ i, (attempts i).start crypto = (attempts' i).start crypto) {s t : State ι}
    (hst : Step crypto attempts s t) : Step crypto attempts' s t := by
  cases hst with
  | refuse idle hstart => exact .refuse idle (h _ ▸ hstart)
  | post idle hstart => exact .post idle (h _ ▸ hstart)
  | takePost hflight => exact .takePost hflight
  | losePost hflight => exact .losePost hflight
  | reply response => exact .reply response
  | loseReply hflight => exact .loseReply hflight
  | deliver waiting hflight => exact .deliver waiting hflight
  | fail e waiting => exact .fail e waiting

/-- **A proxy that leaves what the requests say changes no run**: the network reaches the same states. -/
theorem reachable_iff_of_sameOnWire {ι : Type} [DecidableEq ι] (crypto : Crypto) (attempts : ι → Attempt)
    (requests : ι → Request) (h : ∀ i, SameOnWire (attempts i).py (attempts i).request (requests i)) (s : State ι) :
    Reachable crypto (fun i => { attempts i with request := requests i }) s ↔ Reachable crypto attempts s := by
  constructor
  · exact fun hs => Relation.ReflTransGen.mono (fun _ _ => Step.congr fun i => start_eq (h i)) _ _ hs
  · exact fun hs => Relation.ReflTransGen.mono (fun _ _ => Step.congr fun i => (start_eq (h i)).symm) _ _ hs

namespace Sample

def proxied : Request :=
  { spaced with method := str "post", headers := (headerKey "Via", ascii "1.1 proxy") :: spaced.headers }

theorem sameOnWire : SameOnWire .cpython plain proxied where
  method := by decide +kernel
  rawPath := rfl
  query _ := rfl
  body := by
    have hload : ∀ {r : Request} {text : Str}, decodeUtf8 r.body = some text →
        Spells .cpython text (.obj [(str "a", .num (.ofInt 1))]) →
        strictJsonLoads .cpython (.bytes r.body) = .ok (valueOf (.obj [(str "a", .num (.ofInt 1))])) := by
      intro r text htext hspells
      have hdecoded : decoded (.bytes r.body) = some text := htext
      rw [strictJsonLoads_of_decoded hdecoded]
      exact strictJsonLoads_of_spells hspells (by decide) (by decide)
    exact .respelled (by decide +kernel) (by decide +kernel)
      (hload (show decodeUtf8 plain.body = some (str "\x7b\"a\": 1\x7d") by decide +kernel) ⟨by rfl, by decide⟩)
      (hload (show decodeUtf8 proxied.body = some (str "\x7b \"a\" : 1 \x7d") by decide +kernel) ⟨by rfl, by decide⟩)
      (by decide +kernel)
  headers := by decide +kernel

end Sample

/-- Behind the proxy the handler runs on the grant as it does without. -/
theorem reachable_iff_of_sameOnWire_of_proxied : ∃ s : State Unit,
    Reachable Sample.crypto (fun _ => { Sample.attempt with request := Sample.proxied }) s ∧
      Released s () (str "grant-1") := by
  obtain ⟨grant, hstart, hgrant⟩ := Sample.start_attempt
  have hpost : Step Sample.crypto (fun _ : Unit => Sample.attempt) .init _ := .post (i := ()) rfl hstart
  have hreply := (Relation.ReflTransGen.single hpost).tail (.reply Sample.acknowledgement)
  have hs := hreply.tail (.deliver (i := ()) rfl (show _ = _ ::ₘ 0 from rfl))
  have hresume : resume grant Sample.call.redemption (.ok Sample.acknowledgement) = .ok grant :=
    Sample.resume_acknowledgement grant
  exact ⟨_, (reachable_iff_of_sameOnWire Sample.crypto (fun _ => Sample.attempt) (fun _ => Sample.proxied)
    (fun _ => Sample.sameOnWire) _).2 hs, grant, congrArg Phase.finished hresume, hgrant⟩

end SharedAi.ServiceKit
