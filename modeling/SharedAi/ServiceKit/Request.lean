import SharedAi.ServiceKit.Verifier

/-!
# Requests

The value that sender and receiver hash, from both sides:

* `canonicalRequestPayload` — from a method, a body and query parameters;
* `reconstructFastapiRequest` — from a received HTTP request, through the former;
* `reconstruct_of_sent` — the two agree on every wire form of a request.
-/

namespace SharedAi.ServiceKit

open SharedAi.Control SharedAi.Data SharedAi.Json SharedAi.Num SharedAi.Python SharedAi.Text

/-! ### Query parameters -/

/-- `None`, a mapping, or a sequence of pairs. -/
inductive Params where
  | none
  | mapping (ms : List (PyKey × PyVal))
  | pairs (ps : List (PyVal × PyVal))

/-- `not params`. -/
def Params.isFalsy : Params → Bool
  | .none => true
  | .mapping ms => ms.isEmpty
  | .pairs ps => ps.isEmpty

def queryText (py : Interp) : PyVal → Except Exn Str
  | .none => .ok []
  | .bool b => .ok (if b then str "true" else str "false")
  | .bytes b =>
    match decodeUtf8 b with
    | Option.none => .error (.capabilityGrantFormatError "query_parameter_not_utf8")
    | some text => .ok text
  | v => py.toStr v

/-- `raw_value if isinstance(raw_value, (list, tuple)) else [raw_value]`. -/
def queryValues : PyVal → List PyVal
  | .list vs => vs
  | .tuple vs => vs
  | v => [v]

/-- The items of `params`, with their keys as text. -/
def queryItems (py : Interp) : Params → Except Exn (List (Str × PyVal))
  | .none => .ok []
  | .mapping ms => .ok (ms.map fun m => (py.keyToStr m.1, m.2))
  | .pairs ps => ps.mapM fun p => (py.toStr p.1).map (·, p.2)

/-- `_query_value_pairs`. -/
def queryValuePairs (py : Interp) (params : Params) : Except Exn (List (Str × Str)) := do
  let items ← queryItems py params
  let groups ← items.mapM fun m => (queryValues m.2).mapM fun v => (queryText py v).map (m.1, ·)
  pure groups.flatten

/-- `values[0] if len(values) == 1 else list(values)`. -/
def queryValue : List Str → PyVal
  | [value] => .str value
  | values => .list (values.map .str)

def groupedParams (pairs : List (Str × Str)) : List (PyKey × PyVal) :=
  (sortByKey (groupByKey pairs)).map fun g => (.str g.1, queryValue g.2)

/-- `canonical_query_params`. -/
def canonicalQueryParams (py : Interp) (params : Params) : Except Exn (List (PyKey × PyVal)) :=
  if params.isFalsy then .ok []
  else (queryValuePairs py params).map groupedParams

/-! ### The hashed value -/

def isSafeMethod (method : Str) : Bool := method == str "GET" || method == str "HEAD"

/-- `{"json": body, "params": normalized_params}`. -/
def envelope (body : PyVal) (params : List (PyKey × PyVal)) : PyVal :=
  .dict [(.str (str "json"), body), (.str (str "params"), .dict params)]

/-- The value hashed for a valid method, a valid body and grouped parameters. -/
def requestPayload (method : Str) (body : PyVal) (params : List (PyKey × PyVal)) : Except Exn PyVal :=
  if isSafeMethod method then
    match body with
    | .none => .ok (.dict params)
    | _ => .error (.capabilityGrantFormatError "safe_method_body_not_supported")
  else if params = [] then .ok body
  else .ok (envelope body params)

/-- `canonical_request_payload`. -/
def canonicalRequestPayload (py : Interp) (method : Str) (body : PyVal) (params : Params) : Except Exn PyVal := do
  ensure (methodMatches (py.upper method) = true) (.capabilityGrantFormatError "request_method_invalid")
  let normalizedParams ← canonicalQueryParams py params
  validateJsonValue py body
  requestPayload (py.upper method) body normalizedParams

/-! ### Received requests -/

/-- What the receiver reads of an HTTP request: the raw headers and path of the ASGI scope, the whole body,
and the decoded pairs of the query string. -/
structure Request where
  method : Str
  headers : List (Bytes × Bytes)
  body : Bytes
  query : List (Str × Str)
  rawPath : Option Bytes

/-- A header name as the scope holds it, in lower case. -/
def headerKey (name : String) : Bytes :=
  name.toList.map fun c => UInt8.ofNat (if 'A' ≤ c ∧ c ≤ 'Z' then c.toNat + 32 else c.toNat)

/-- `request.headers.getlist(name)`. -/
def Request.getlist (request : Request) (name : String) : List Str :=
  (request.headers.filter fun h => h.1 = headerKey name).map fun h => decodeLatin1 h.2

/-- `request.headers.get("content-type", "").split(";", 1)[0].strip().lower()`. -/
def Request.mediaType (py : Interp) (request : Request) : Str :=
  py.lower (Str.strip (((request.getlist "content-type").headD []).takeWhile (· != .scalar ';')))

def Request.hasJson (py : Interp) (request : Request) : Bool :=
  request.mediaType py == str "application/json" || (str "+json").isSuffixOf (request.mediaType py)

/-- `request.query_params.multi_items()`, as parameters. -/
def Request.params (request : Request) : Params := .pairs (request.query.map fun p => (.str p.1, .str p.2))

/-- The body that `reconstruct_fastapi_request` reads. -/
def reconstructBody (py : Interp) (request : Request) : Except Exn PyVal :=
  if request.body = [] then .ok .none
  else do
    ensure (request.hasJson py = true) (.capabilityGrantFormatError "capability_request_content_type_not_json")
    strictJsonLoads py (.bytes request.body)

/-- `reconstruct_fastapi_request`. -/
def reconstructFastapiRequest (py : Interp) (request : Request) : Except Exn PyVal := do
  let method := py.upper request.method
  ensure (¬ (isSafeMethod method = true ∧ request.body ≠ []))
    (.capabilityGrantFormatError "safe_method_body_not_supported")
  let body ← reconstructBody py request
  canonicalRequestPayload py method body request.params

/-- `reconstruct_fastapi_raw_path`. -/
def reconstructFastapiRawPath (request : Request) : Except Exn Str :=
  match request.rawPath with
  | none => .error (.capabilityGrantFormatError "capability_request_raw_path_missing")
  | some rawPath =>
    if rawPath = [] then .error (.capabilityGrantFormatError "capability_request_raw_path_missing")
    else
      match decodeAscii rawPath with
      | none => .error (.capabilityGrantFormatError "capability_request_raw_path_not_ascii")
      | some path =>
        if validPath path && !(str "//").isPrefixOf path then .ok path
        else .error (.capabilityGrantFormatError "capability_request_raw_path_invalid")

/-- The path that is accepted is the raw path in ASCII, which begins with one slash. -/
theorem reconstructFastapiRawPath_eq_ok {request : Request} {path : Str} :
    reconstructFastapiRawPath request = .ok path ↔ ∃ b, request.rawPath = some b ∧ decodeAscii b = some path ∧
      validPath path = true ∧ (str "//").isPrefixOf path = false := by
  constructor
  · intro h
    unfold reconstructFastapiRawPath at h
    split at h
    · cases h
    next b hb =>
    split at h
    · cases h
    split at h
    · cases h
    next p hp =>
    obtain ⟨hvalid, rfl⟩ := ite_eq_ok.1 h
    rw [Bool.and_eq_true, Bool.not_eq_true'] at hvalid
    exact ⟨b, hb, hp, hvalid.1, hvalid.2⟩
  · rintro ⟨b, hraw, hb, hvalid, hroot⟩
    have hne : b ≠ [] := by
      rintro rfl
      obtain rfl : path = [] := (Option.some.inj hb).symm
      cases hvalid
    simp [reconstructFastapiRawPath, hraw, hne, hb, hvalid, hroot]

/-! ### Bodies -/

section Body

variable {py : Interp}

/-- What is equal to a valid value is valid. -/
theorem validate_congr {v w : PyVal} (h : w.jsonEq v = true) {n : ℕ} (hv : validateWithin n v = .ok ()) :
    validateWithin n w = .ok () := by
  induction w using PyVal.ind generalizing v n with
  | none | bool | int | float | str => rw [PyVal.eq_of_jsonEq rfl h] at hv; exact hv
  | bytes | tuple | proxy | object => cases v <;> cases h
  | list ws ih =>
    cases v with
    | list vs =>
      obtain ⟨n, rfl, hvs⟩ := validate_list.1 hv
      refine validate_list.2 ⟨n, rfl, fun w hw => ?_⟩
      obtain ⟨v, hv, hwv⟩ := forall₂_mem_left (PyVal.jsonEqList_iff.1 h) hw
      exact ih w hw hwv (hvs v hv)
    | _ => cases h
  | dict ns ih =>
    obtain ⟨ms, rfl⟩ := PyVal.dict_of_jsonEq h
    obtain ⟨n, rfl, hms⟩ := validate_dict.1 hv
    refine validate_dict.2 ⟨n, rfl, fun m hm => ?_⟩
    obtain ⟨w, hw, hmw⟩ := (PyVal.jsonEq_dict.1 h).2 m hm
    exact ⟨(hms _ hw).1, ih m hm hmw (hms _ hw).2⟩

theorem validate_of_reconstructBody {request : Request} {body : PyVal} (h : reconstructBody py request = .ok body) :
    validateJsonValue py body = .ok () := by
  unfold reconstructBody at h
  split at h
  · cases h
    rw [validateJsonValue, validateWithin]
  · exact (strictJsonLoads_ok (check_eq_ok.1 h).2).1

end Body

/-! ### Grouped parameters -/

theorem keys_groupedParams (pairs : List (Str × Str)) :
    keys (groupedParams pairs) = (keys (sortByKey (groupByKey pairs))).map .str := by
  simp [groupedParams, keys]

theorem distinctKeys_groupedParams (pairs : List (Str × Str)) :
    PyVal.distinctKeys (.dict (groupedParams pairs)) = true := by
  refine PyVal.distinctKeys_dict.2 ⟨?_, fun m hm => ?_⟩
  · rw [keys_groupedParams, List.nodup_map_iff]
    · exact nodup_keys_sortByKey (nodup_keys_groupByKey pairs)
    · intro a b h
      exact PyKey.str.inj h
  · obtain ⟨g, -, rfl⟩ := List.mem_map.1 hm
    change (queryValue g.2).distinctKeys = true
    unfold queryValue
    split
    · rfl
    · apply PyVal.distinctKeys_list.2
      intro v hv
      obtain ⟨s, -, rfl⟩ := List.mem_map.1 hv
      rfl

/-- The order of pairs with different keys does not matter. -/
theorem groupedParams_congr {ps qs : List (Str × Str)} (h : ∀ k, valuesOf ps k = valuesOf qs k) :
    groupedParams ps = groupedParams qs := by
  rw [groupedParams, groupedParams, sortByKey_eq (nodup_keys_groupByKey ps) (groupByKey_perm h)]

theorem mem_groupedParams {pairs : List (Str × Str)} {m : PyKey × PyVal} : m ∈ groupedParams pairs ↔
    ∃ k ∈ keys pairs, m = (PyKey.str k, queryValue (valuesOf pairs k)) := by
  simp only [groupedParams, List.mem_map, mem_sortByKey]
  constructor
  · rintro ⟨⟨k, vs⟩, hg, rfl⟩
    obtain ⟨hk, rfl⟩ := mem_groupByKey.1 hg
    exact ⟨k, hk, rfl⟩
  · rintro ⟨k, hk, rfl⟩
    exact ⟨_, mem_groupByKey.2 ⟨hk, rfl⟩, rfl⟩

/-- A value tells one text from a list of texts. -/
theorem eq_of_jsonEq_queryValue {vs ws : List Str} (h : (queryValue vs).jsonEq (queryValue ws) = true) : vs = ws := by
  unfold queryValue at h
  split at h
  · split at h
    · simpa [PyVal.jsonEq] using h
    · cases h
  · split at h
    · cases h
    · have h := PyVal.jsonEqList_iff.1 h
      rw [List.forall₂_map_left_iff, List.forall₂_map_right_iff] at h
      exact List.forall₂_eq_eq_eq ▸ h.imp fun a b hab => by simpa [PyVal.jsonEq] using hab

/-- Grouped parameters are equal as JSON only if they group the same values. -/
theorem valuesOf_eq_of_jsonEq {ps qs : List (Str × Str)}
    (h : PyVal.jsonEq (.dict (groupedParams ps)) (.dict (groupedParams qs)) = true) (k : Str) :
    valuesOf ps k = valuesOf qs k := by
  have hkeys := fun pairs => (PyVal.distinctKeys_dict.1 (distinctKeys_groupedParams pairs)).1
  obtain ⟨hto, hback⟩ := (PyVal.jsonEq_dict_iff (hkeys ps) (hkeys qs)).1 h
  by_cases hp : k ∈ keys ps
  · obtain ⟨w, hw, hj⟩ := hto _ (mem_groupedParams.2 ⟨k, hp, rfl⟩)
    obtain ⟨k', -, he⟩ := mem_groupedParams.1 hw
    cases he
    exact eq_of_jsonEq_queryValue hj
  · by_cases hq : k ∈ keys qs
    · obtain ⟨w, hw, hj⟩ := hback _ (mem_groupedParams.2 ⟨k, hq, rfl⟩)
      obtain ⟨k', -, he⟩ := mem_groupedParams.1 hw
      cases he
      exact eq_of_jsonEq_queryValue hj
    · rw [valuesOf_eq_nil hp, valuesOf_eq_nil hq]

theorem groupedParams_eq_of_jsonEq {ps qs : List (Str × Str)}
    (h : PyVal.jsonEq (.dict (groupedParams ps)) (.dict (groupedParams qs)) = true) :
    groupedParams ps = groupedParams qs :=
  groupedParams_congr (valuesOf_eq_of_jsonEq h)

/-- Grouped parameters hold strings, so each equals itself. -/
theorem jsonEq_groupedParams (pairs : List (Str × Str)) :
    PyVal.jsonEq (.dict (groupedParams pairs)) (.dict (groupedParams pairs)) = true := by
  refine PyVal.jsonEq_dict.2 ⟨rfl, fun m hm => ⟨m.2, hm, ?_⟩⟩
  obtain ⟨g, -, rfl⟩ := List.mem_map.1 hm
  change (queryValue g.2).jsonEq (queryValue g.2) = true
  unfold queryValue
  split
  · simp [PyVal.jsonEq]
  · refine PyVal.jsonEqList_iff.2 (List.forall₂_same.2 fun v hv => ?_)
    obtain ⟨s, -, rfl⟩ := List.mem_map.1 hv
    simp [PyVal.jsonEq]

theorem groupedParams_eq_nil {pairs : List (Str × Str)} : groupedParams pairs = [] ↔ pairs = [] := by
  constructor
  · intro h
    cases pairs with
    | nil => rfl
    | cons p ps =>
      have hk : p.1 ∈ keys (p :: ps) := mem_keys_of_mem (List.mem_cons_self ..)
      have hmem := mem_groupedParams.2 ⟨p.1, hk, rfl⟩
      rw [h] at hmem
      cases hmem
  · rintro rfl
    rfl

/-- The pairs of the query string that parameters stand for. -/
def sentPairs (py : Interp) (params : Params) : Except Exn (List (Str × Str)) :=
  if params.isFalsy then .ok [] else queryValuePairs py params

theorem canonicalQueryParams_eq (py : Interp) (params : Params) :
    canonicalQueryParams py params = (sentPairs py params).map groupedParams := by
  unfold canonicalQueryParams sentPairs
  split <;> rfl

theorem queryValuePairs_params (py : Interp) (request : Request) :
    queryValuePairs py request.params = .ok request.query := by
  have hitems : (request.query.map fun p => (PyVal.str p.1, PyVal.str p.2)).mapM
      (fun p => (py.toStr p.1).map (·, p.2)) =
      (.ok (request.query.map fun p => (p.1, PyVal.str p.2)) : Except Exn _) := by
    apply mapM_eq_ok.2
    rw [List.forall₂_map_left_iff, List.forall₂_map_right_iff, List.forall₂_same]
    exact fun _ _ => rfl
  have hgroups : (request.query.map fun p => (p.1, PyVal.str p.2)).mapM
      (fun m => (queryValues m.2).mapM fun v => (queryText py v).map (m.1, ·)) =
      (.ok (request.query.map fun p => [p]) : Except Exn _) := by
    apply mapM_eq_ok.2
    rw [List.forall₂_map_left_iff, List.forall₂_map_right_iff, List.forall₂_same]
    exact fun _ _ => rfl
  have hflat : (request.query.map fun p => [p]).flatten = request.query := List.flatMap_singleton' request.query
  unfold queryValuePairs Request.params queryItems
  refine bind_eq_ok.2 ⟨_, hitems, bind_eq_ok.2 ⟨_, hgroups, ?_⟩⟩
  rw [hflat]
  rfl

/-- What the receiver groups is the decoded query string. -/
theorem canonicalQueryParams_params (py : Interp) (request : Request) :
    canonicalQueryParams py request.params = .ok (groupedParams request.query) := by
  rw [canonicalQueryParams_eq, sentPairs]
  split
  · next h =>
    have hq : request.query = [] := by simpa [Request.params, Params.isFalsy] using h
    rw [hq]
    rfl
  · rw [queryValuePairs_params]
    rfl

theorem sentPairs_eq (py : Interp) (params : Params) : sentPairs py params = queryValuePairs py params := by
  unfold sentPairs
  split
  · next h =>
    cases params with
    | none => rfl
    | mapping ms =>
      obtain rfl : ms = [] := List.isEmpty_iff.1 h
      rfl
    | pairs ps =>
      obtain rfl : ps = [] := List.isEmpty_iff.1 h
      rfl
  · rfl

/-- **Canonical parameters keep the values of each key, in their order, and nothing else.**  Equality of the
two dictionaries is Python's `==`, and it is equality of their items in order as well. -/
theorem canonicalQueryParams_eq_iff {py : Interp} {p q : Params} {a b : List (PyKey × PyVal)}
    (hp : canonicalQueryParams py p = .ok a) (hq : canonicalQueryParams py q = .ok b) :
    ∃ ps qs, queryValuePairs py p = .ok ps ∧ queryValuePairs py q = .ok qs ∧
      (PyVal.jsonEq (.dict a) (.dict b) = true ↔ ∀ k, valuesOf ps k = valuesOf qs k) ∧
      (a = b ↔ ∀ k, valuesOf ps k = valuesOf qs k) := by
  rw [canonicalQueryParams_eq, sentPairs_eq, map_eq_ok] at hp hq
  obtain ⟨ps, hps, rfl⟩ := hp
  obtain ⟨qs, hqs, rfl⟩ := hq
  have hself := jsonEq_groupedParams ps
  refine ⟨ps, qs, hps, hqs, ⟨valuesOf_eq_of_jsonEq, fun h => ?_⟩, fun h => ?_, groupedParams_congr⟩
  · rw [← groupedParams_congr h]
    exact hself
  · apply valuesOf_eq_of_jsonEq
    rw [← h]
    exact hself

namespace Sample

def mixed : Params := .mapping [(.str (str "x"), .tuple [.int 1, .bool true]), (.str (str "y"), .none)]

def repeated : Params := .pairs [(.str (str "x"), .str (str "1")), (.str (str "y"), .str []),
  (.str (str "x"), .bytes [0x74, 0x72, 0x75, 0x65])]

def canonical : List (PyKey × PyVal) :=
  [(.str (str "x"), .list [.str (str "1"), .str (str "true")]), (.str (str "y"), .str [])]

end Sample

theorem canonicalQueryParams_eq_iff_of_mixed : ∃ ps qs, queryValuePairs .cpython Sample.mixed = .ok ps ∧
    queryValuePairs .cpython Sample.repeated = .ok qs ∧ ∀ k, valuesOf ps k = valuesOf qs k := by
  have hp : canonicalQueryParams .cpython Sample.mixed = .ok Sample.canonical := rfl
  have hq : canonicalQueryParams .cpython Sample.repeated = .ok Sample.canonical := rfl
  obtain ⟨ps, qs, hps, hqs, -, h⟩ := canonicalQueryParams_eq_iff hp hq
  exact ⟨ps, qs, hps, hqs, h.1 rfl⟩

/-! ### Methods -/

theorem isAscii_of_isMethodChar {c : PyChar} (h : isMethodChar c = true) : c.isAscii = true ∧ c.isLower = false := by
  have hspecial : ∀ c ∈ str "!#$%&'*+.^_|~-", c.isAscii = true ∧ c.isLower = false := by decide
  unfold isMethodChar at h
  simp only [Bool.or_eq_true, beq_iff_eq, List.contains_iff_mem] at h
  rcases h with ((h | h) | h) | h
  · simp only [PyChar.isUpper, PyChar.isAscii, PyChar.isLower, Bool.and_eq_true, decide_eq_true_eq,
      Bool.and_eq_false_iff, decide_eq_false_iff_not] at h ⊢
    omega
  · simp only [PyChar.isDigit, PyChar.isAscii, PyChar.isLower, Bool.and_eq_true, decide_eq_true_eq,
      Bool.and_eq_false_iff, decide_eq_false_iff_not] at h ⊢
    omega
  · exact hspecial c h
  · subst h
    decide

/-- An upper-case method is its own upper case. -/
theorem upper_of_methodMatches (py : Interp) {m : Str} (h : methodMatches m = true) : py.upper m = m := by
  have hall : ∀ c ∈ m, c.isAscii = true ∧ c.isLower = false := by
    cases m with
    | nil => cases h
    | cons c cs =>
      rw [methodMatches, Bool.and_eq_true, List.all_eq_true] at h
      intro d hd
      rcases List.mem_cons.1 hd with rfl | hd
      · exact isAscii_of_isMethodChar (by rw [isMethodChar, h.1]; rfl)
      · exact isAscii_of_isMethodChar (h.2 d hd)
  clear h
  induction m with
  | nil => rfl
  | cons c cs ih =>
    obtain ⟨ha, hl⟩ := hall c (List.mem_cons_self ..)
    have ih := ih fun d hd => hall d (List.mem_cons_of_mem _ hd)
    unfold Interp.upper at ih ⊢
    rw [List.flatMap_cons, ih, Interp.upperChar, if_pos ha, if_neg (by simp [hl])]
    rfl

/-! ### Sender and receiver -/

/-- A received request that carries a method, a body and parameters: the query string keeps the order of
the values of each key, and the body is empty or a JSON text of the same value. -/
structure WireForm (py : Interp) (method : Str) (body : PyVal) (params : Params) (request : Request) : Prop where
  sameMethod : py.upper request.method = py.upper method
  sameQuery : ∃ pairs, sentPairs py params = .ok pairs ∧ ∀ k, valuesOf request.query k = valuesOf pairs k
  sameBody : (request.body = [] ∧ (isSafeMethod (py.upper method) = true ∨ body = .none)) ∨
    (isSafeMethod (py.upper method) = false ∧ request.hasJson py = true ∧ request.body ≠ [] ∧
      ∃ text d, decodeUtf8 request.body = some text ∧ Spells py text d ∧ (valueOf d).distinctKeys = true ∧
        (valueOf d).jsonEq body = true)

section Sent

variable {py : Interp} {crypto : Crypto} {method : Str} {body : PyVal} {params : Params} {payload : PyVal}

/-- The steps of a value that is hashed. -/
theorem canonicalRequestPayload_eq_ok : canonicalRequestPayload py method body params = .ok payload ↔
    methodMatches (py.upper method) = true ∧ ∃ pairs, sentPairs py params = .ok pairs ∧
      validateJsonValue py body = .ok () ∧
      requestPayload (py.upper method) body (groupedParams pairs) = .ok payload := by
  unfold canonicalRequestPayload
  rw [check_eq_ok, ensure_eq_ok, canonicalQueryParams_eq]
  simp only [bind_eq_ok, map_eq_ok]
  constructor
  · rintro ⟨hm, np, ⟨pairs, hp, rfl⟩, ⟨⟩, hv, h⟩
    exact ⟨hm, pairs, hp, hv, h⟩
  · rintro ⟨hm, pairs, hp, hv, h⟩
    exact ⟨hm, _, ⟨pairs, hp, rfl⟩, (), hv, h⟩

/-- The body is read as a value equal to the one that was sent. -/
theorem reconstructBody_of_sent (hk : body.distinctKeys = true) {d : Doc} (hd : toDoc py body = .ok d)
    (hv : validateJsonValue py body = .ok ()) (hsafe : isSafeMethod (py.upper method) = true → body = .none)
    {request : Request} (hw : WireForm py method body params request) :
    ∃ body', reconstructBody py request = .ok body' ∧ body'.jsonEq body = true ∧ body'.distinctKeys = true := by
  rcases hw.sameBody with ⟨he, h⟩ | ⟨-, hjson, hne, text, t, htext, hspell, hdist, heq⟩
  · have hnone : body = .none := by
      rcases h with h | h
      · exact hsafe h
      · exact h
    subst hnone
    exact ⟨.none, by rw [reconstructBody, if_pos he], rfl, rfl⟩
  · refine ⟨valueOf t, ?_, heq, hdist⟩
    rw [reconstructBody, if_neg hne]
    refine check_eq_ok.2 ⟨ensure_eq_ok.2 hjson, ?_⟩
    exact strictJsonLoads_of_spelled htext hspell hdist heq hv hd

/-- The three shapes of a value that is hashed. -/
theorem requestPayload_eq_ok {m : Str} {np : List (PyKey × PyVal)} : requestPayload m body np = .ok payload ↔
    (isSafeMethod m = true ∧ body = .none ∧ payload = .dict np) ∨
    (isSafeMethod m = false ∧ np = [] ∧ payload = body) ∨
    (isSafeMethod m = false ∧ np ≠ [] ∧ payload = envelope body np) := by
  unfold requestPayload
  split
  · next hm => cases body <;> simp [hm, eq_comm]
  · next hm =>
    split
    · next hp => simp [hm, hp, eq_comm]
    · next hp => simp [hm, hp, eq_comm]

/-- Equal bodies give equal values. -/
theorem requestPayload_congr {body' : PyVal} (heq : body'.jsonEq body = true) {m : Str}
    {np : List (PyKey × PyVal)} (hnp : PyVal.jsonEq (.dict np) (.dict np) = true)
    (h : requestPayload m body np = .ok payload) :
    ∃ payload', requestPayload m body' np = .ok payload' ∧ payload'.jsonEq payload = true := by
  rcases requestPayload_eq_ok.1 h with ⟨hm, rfl, rfl⟩ | ⟨hm, hp, rfl⟩ | ⟨hm, hp, rfl⟩
  · have hnone : body' = .none := by cases body' <;> first | rfl | cases heq
    exact ⟨_, requestPayload_eq_ok.2 (.inl ⟨hm, hnone, rfl⟩), hnp⟩
  · exact ⟨body', requestPayload_eq_ok.2 (.inr (.inl ⟨hm, hp, rfl⟩)), heq⟩
  · refine ⟨_, requestPayload_eq_ok.2 (.inr (.inr ⟨hm, hp, rfl⟩)), ?_⟩
    simp [envelope, PyVal.jsonEq_dict, heq, hnp]

theorem distinctKeys_envelope {np : List (PyKey × PyVal)} (hk : body.distinctKeys = true)
    (hnp : PyVal.distinctKeys (.dict np) = true) : (envelope body np).distinctKeys = true := by
  have hne : ¬ PyKey.str (str "json") = .str (str "params") := by decide
  refine PyVal.distinctKeys_dict.2 ⟨?_, ?_⟩
  · simp [hne]
  · simp [hk, hnp]

theorem distinctKeys_requestPayload (hk : body.distinctKeys = true) {m : Str} {pairs : List (Str × Str)}
    (h : requestPayload m body (groupedParams pairs) = .ok payload) : payload.distinctKeys = true := by
  have hnp := distinctKeys_groupedParams pairs
  rcases requestPayload_eq_ok.1 h with ⟨-, -, rfl⟩ | ⟨-, -, rfl⟩ | ⟨-, -, rfl⟩
  · exact hnp
  · exact hk
  · exact distinctKeys_envelope hk hnp

/-- The tree of the body is part of the tree of the hashed value. -/
theorem toDoc_body {m : Str} {np : List (PyKey × PyVal)} (h : requestPayload m body np = .ok payload) {e : Doc}
    (he : toDoc py payload = .ok e) : ∃ d, toDoc py body = .ok d := by
  rcases requestPayload_eq_ok.1 h with ⟨-, rfl, -⟩ | ⟨-, -, rfl⟩ | ⟨-, -, rfl⟩
  · exact ⟨.null, rfl⟩
  · exact ⟨e, he⟩
  · obtain ⟨es, hes, -⟩ := toDoc_dict.1 he
    obtain ⟨p, -, hp⟩ := forall₂_mem_left hes (List.mem_cons_self ..)
    exact ⟨p.2, hp.2⟩

/-- **The receiver hashes the value that the sender hashed.** -/
theorem reconstruct_of_sent (py : Interp) (crypto : Crypto) {method : Str} {body : Value} {params : Params}
    {payload : PyVal} {hash : Str} (hp : canonicalRequestPayload py method body params = .ok payload)
    (hs : canonicalSha256 py crypto payload = .ok hash) {request : Request}
    (hw : WireForm py method body params request) :
    ∃ payload', reconstructFastapiRequest py request = .ok payload' ∧
      canonicalSha256 py crypto payload' = .ok hash := by
  obtain ⟨hm, pairs, hpairs, hv, hreq⟩ := canonicalRequestPayload_eq_ok.1 hp
  obtain ⟨b, hb, rfl⟩ := canonicalSha256_eq_ok.1 hs
  obtain ⟨hpv, e, he, -⟩ := canonicalJsonBytes_eq_ok.1 hb
  obtain ⟨d, hd⟩ := toDoc_body hreq he
  have hsafe : isSafeMethod (py.upper method) = true → body.1 = .none := by
    intro hs
    rcases requestPayload_eq_ok.1 hreq with ⟨-, h, -⟩ | ⟨h, -⟩ | ⟨h, -⟩
    · exact h
    · rw [hs] at h
      cases h
    · rw [hs] at h
      cases h
  obtain ⟨body', hbody, heq, hk'⟩ := reconstructBody_of_sent body.2 hd hv hsafe hw
  -- the received pairs are grouped like the sent ones
  obtain ⟨pairs', hpairs', hq⟩ := hw.sameQuery
  obtain rfl : pairs = pairs' := Except.ok.inj (hpairs.symm.trans hpairs')
  obtain ⟨payload', hreq', hpeq⟩ := requestPayload_congr heq (jsonEq_groupedParams pairs) hreq
  refine ⟨payload', ?_, ?_⟩
  · have hmm : py.upper (py.upper request.method) = py.upper request.method := by
      rw [hw.sameMethod]
      exact upper_of_methodMatches py hm
    refine check_eq_ok.2 ⟨ensure_eq_ok.2 ?_, bind_eq_ok.2 ⟨body', hbody, ?_⟩⟩
    · rintro ⟨hsm, hne⟩
      rw [hw.sameMethod] at hsm
      rcases hw.sameBody with ⟨h, -⟩ | ⟨h, -⟩
      · exact hne h
      · rw [hsm] at h
        cases h
    · refine check_eq_ok.2 ⟨ensure_eq_ok.2 ?_, bind_eq_ok.2 ⟨_, canonicalQueryParams_params py request, ?_⟩⟩
      · rw [hmm, hw.sameMethod]
        exact hm
      · refine check_eq_ok.2 ⟨validate_congr heq hv, ?_⟩
        rw [hmm, hw.sameMethod, groupedParams_congr hq]
        exact hreq'
  · have hkp := distinctKeys_requestPayload body.2 hreq
    have hkp' := distinctKeys_requestPayload hk' hreq'
    have hsymm : PyVal.jsonEq payload payload' = true := PyVal.jsonEq_symm hkp' hkp hpeq
    have := canonicalJsonBytes_congr (v := ⟨payload, hkp⟩) (w := ⟨payload', hkp'⟩) hsymm hb (validate_congr hpeq hpv)
    exact canonicalSha256_eq_ok.2 ⟨b, this, rfl⟩

end Sent

namespace Sample

def ascii (s : String) : Bytes := s.toUTF8.toList

/-- `POST /v1/files` with the token and its headers. -/
def request (body : String) (query : List (Str × Str)) : Request where
  method := str "POST"
  headers :=
    [(headerKey "content-type", ascii "application/json"),
      (headerKey "X-AI-Local-Capability-Grant", (encodeAscii token).getD []),
      (headerKey "X-AI-Local-Capability-Grant-ID", ascii "grant-1"), (headerKey "X-Task-ID", ascii "task-1"),
      (headerKey "X-Trace-ID", ascii "trace-1"), (headerKey "X-Agentic-Action-ID", ascii "act-1"),
      (headerKey "X-Agentic-Node-Attempt", ascii "try-1"), (headerKey "Idempotency-Key", ascii "idem-1")]
  body := ascii body
  query := query
  rawPath := some (ascii "/v1/files")

def body : Value := ⟨.dict [(.str (str "a"), .int 1)], by decide +kernel⟩

theorem sent : canonicalRequestPayload .cpython (str "post") body (.mapping [(.str (str "x"), .int 1)]) =
    .ok (.dict payload) := by
  rfl

theorem wireForm : WireForm .cpython (str "post") body (.mapping [(.str (str "x"), .int 1)])
    (request "\x7b\"a\":1\x7d" [(str "x", str "1")]) where
  sameMethod := by decide +kernel
  sameQuery := ⟨[(str "x", str "1")], by decide +kernel, fun _ => rfl⟩
  sameBody := .inr ⟨by decide +kernel, by decide +kernel, by decide +kernel, str "\x7b\"a\":1\x7d",
    .obj [(str "a", .num (.ofInt 1))], by decide +kernel, ⟨by rfl, by decide⟩, by decide +kernel, by decide +kernel⟩

end Sample

theorem reconstruct_of_sent_of_writeFiles : ∃ payload,
    reconstructFastapiRequest .cpython (Sample.request "\x7b\"a\":1\x7d" [(str "x", str "1")]) = .ok payload ∧
      canonicalSha256 .cpython Sample.crypto payload =
        .ok (str "a27b94f71f9f332cf599ac6c9e646a5c8c0042e7e89b84892e57651cdf20165f") :=
  reconstruct_of_sent .cpython Sample.crypto Sample.sent (by decide +kernel) Sample.wireForm

end SharedAi.ServiceKit
