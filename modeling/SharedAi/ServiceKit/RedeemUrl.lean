import SharedAi.Net.Uri
import SharedAi.ServiceKit.Outcomes

/-!
# The redeem URL

Which path is requested to redeem a grant.

* `Httpx.requested` — the path that the HTTP client requests for a URL;
* `AsyncHTTPCapabilityGrantRedeemer.make` — `__init__`;
* `SegmentTemplate` — a template whose only placeholder is a whole segment;
* `NamesOneGrant` — the path has the segments of the base path and the template, and the placeholder names the grant;
* `namesOneGrant_iff` — where this holds: the base URL has no `?` and no `#`, the identifier is no dot segment, and
  `httpx` takes the URL.
-/

namespace SharedAi.ServiceKit

open SharedAi.Control SharedAi.Net SharedAi.Num SharedAi.Python SharedAi.Text

/-! ### The client -/

/-- There is no host without an authority, and existing escapes are left alone. -/
structure Httpx.Documented (httpx : Httpx) : Prop where
  host_nil : httpx.host [] = []
  escape_escaped : ∀ s, escaped s = true → httpx.escape s = s

/-- The segments of the path of a URL, as they are sent. -/
def Httpx.sent (httpx : Httpx) (url : Str) : List Str :=
  (segments (removeDotSegments (Reference.split url).path)).map httpx.escape

/-- The segments of the path that is requested for a URL; for a text that is refused there is no request. -/
def Httpx.requested (httpx : Httpx) (url : Str) : Option (List Str) :=
  if (httpx.refuses url).isSome then none else some (httpx.sent url)

/-! ### Construction -/

def schemeOf (url : Reference) : Str := (url.scheme.getD []).map PyChar.asciiLower

def validBase (httpx : Httpx) (allowInsecureHttp : Bool) (url : Reference) : Bool :=
  (schemeOf url == str "http" || schemeOf url == str "https") &&
    httpx.host (url.authority.getD []) != [] &&
    httpx.userinfo (url.authority.getD []) == [] &&
    url.query.getD [] == [] &&
    url.fragment.getD [] == [] &&
    (schemeOf url == str "https" || allowInsecureHttp)

/-- `AsyncHTTPCapabilityGrantRedeemer(broker_base_url=…, endpoint_template=…, …)`. -/
def AsyncHTTPCapabilityGrantRedeemer.make (httpx : Httpx) (brokerBaseUrl endpointTemplate : Str) (timeout : Float64)
    (allowInsecureHttp : Bool) : Except Exn AsyncHTTPCapabilityGrantRedeemer :=
  let baseUrl := (Str.strip brokerBaseUrl).rdropWhile (· == slash)
  let endpoint := Str.strip endpointTemplate
  if baseUrl = [] then .error (.capabilityGrantFormatError "broker_base_url_missing")
  else if (httpx.refuses baseUrl).isSome = true ∨
      validBase httpx allowInsecureHttp (Reference.split baseUrl) = false then
    .error (.capabilityGrantFormatError "broker_base_url_invalid")
  else if h : isEndpoint endpoint = true then
    if timeout.isFinite && zero.lt timeout then .ok ⟨baseUrl, endpoint, h⟩
    else .error (.capabilityGrantFormatError "broker_redeem_timeout_invalid")
  else .error (.capabilityGrantFormatError "broker_redeem_endpoint_invalid")

/-- A template whose only placeholder is a whole segment, between other segments. -/
structure SegmentTemplate where
  before : List Str
  after : List Str
  plain : ∀ s ∈ before ++ after, slash ∉ s ∧ isDots s = false

/-- The template as it is written, with braces doubled. -/
def SegmentTemplate.text (t : SegmentTemplate) : Str :=
  escapeBraces (pathOf t.before ++ [slash]) ++ str "\x7bgrant_id\x7d" ++ escapeBraces (pathOf t.after)

section Names

variable (httpx : Httpx) (objs : Objects) (redeemer : AsyncHTTPCapabilityGrantRedeemer) (template : SegmentTemplate)
  (redemption : CapabilityGrantRedemptionRequest) (authHeaders : List (Str × Str))

def baseSegments : List Str := walk (segments (Reference.split redeemer.baseUrl).path)

/-- The path requested for a redemption names its grant, and no other redemption requests it. -/
structure NamesOneGrant : Prop where
  names : ∃ post segment, redeemer.post (formatTemplate objs) redemption authHeaders = .ok post ∧
    httpx.requested post.url = some ((baseSegments redeemer ++ template.before).map httpx.escape ++
      segment :: template.after.map httpx.escape) ∧
    percentDecode segment = encodeUtf8 redemption.grantId
  unique : ∀ post other post', redeemer.post (formatTemplate objs) redemption authHeaders = .ok post →
    redeemer.post (formatTemplate objs) other authHeaders = .ok post' →
    httpx.requested post'.url = httpx.requested post.url → other.grantId = redemption.grantId

/-- `httpx` takes the base URL with the template filled in. -/
def UrlTaken : Prop :=
  ∃ q, quote redemption.grantId = .ok q ∧
    httpx.refuses (redeemer.baseUrl ++ pathOf (template.before ++ q :: template.after)) = none

end Names

/-! ### Quoted identifiers -/

def quotes (b : UInt8) : Str → Bool
  | [c] => unreserved c && c.isAscii && UInt8.ofNat c.ord == b
  | [p, x, y] => p == percent && unreserved x && unreserved y &&
    ((hexValue x).bind fun u => (hexValue y).map fun v => UInt8.ofNat (u * 16 + v)) == some b
  | _ => false

theorem quotes_quoteByte (b : UInt8) : quotes b (quoteByte b) = true := by
  have key : ∀ n < 256, quotes (UInt8.ofNat n) (quoteByte (UInt8.ofNat n)) = true := by decide +kernel
  have h := key b.toNat b.toNat_lt
  rwa [UInt8.ofNat_toNat] at h

/-- A byte is quoted as an unreserved character or as an escape. -/
theorem quoteByte_cases (b : UInt8) :
    (∃ c, quoteByte b = [c] ∧ unreserved c = true ∧ c.isAscii = true ∧ UInt8.ofNat c.ord = b) ∨
      ∃ x y u v, quoteByte b = [percent, x, y] ∧ (unreserved x = true ∧ unreserved y = true) ∧ hexValue x = some u ∧
        hexValue y = some v ∧ UInt8.ofNat (u * 16 + v) = b := by
  have h := quotes_quoteByte b
  unfold quotes at h
  split at h
  · next c hc =>
    simp only [Bool.and_eq_true, beq_iff_eq] at h
    exact .inl ⟨c, hc, h.1.1, h.1.2, h.2⟩
  · next p x y hp =>
    simp only [Bool.and_eq_true, beq_iff_eq, Option.bind_eq_some_iff, Option.map_eq_some_iff] at h
    obtain ⟨⟨⟨rfl, hx⟩, hy⟩, u, hu, v, hv, hb⟩ := h
    exact .inr ⟨x, y, u, v, hp, ⟨hx, hy⟩, hu, hv, hb⟩
  · cases h

theorem ne_percent_of_unreserved {c : PyChar} (h : unreserved c = true) : c ≠ percent := by
  rintro rfl
  cases h

/-- What is quoted decodes to its bytes. -/
theorem percentDecode_flatMap (b : Bytes) : percentDecode (b.flatMap quoteByte) = some b := by
  induction b with
  | nil => rfl
  | cons x b ih =>
    rw [List.flatMap_cons]
    rcases quoteByte_cases x with ⟨c, hc, hu, ha, hx⟩ | ⟨y, z, u, v, hc, -, hu, hv, hx⟩
    · rw [hc, List.singleton_append, percentDecode_cons (ne_percent_of_unreserved hu), if_pos ha, ih, hx]
      rfl
    · rw [hc]
      simp only [List.cons_append, List.nil_append, percentDecode, ↓reduceIte, hu, hv, ih, hx, Option.bind_eq_bind,
        Option.bind_some, Option.map_some]

theorem escaped_flatMap (b : Bytes) : escaped (b.flatMap quoteByte) = true := by
  induction b with
  | nil => rfl
  | cons x b ih =>
    rw [List.flatMap_cons]
    rcases quoteByte_cases x with ⟨c, hc, hu, -, -⟩ | ⟨y, z, u, v, hc, -, hu, hv, -⟩
    · rw [hc, List.singleton_append, escaped_cons (ne_percent_of_unreserved hu), hu, ih]
      rfl
    · rw [hc]
      simp [escaped, hu, hv, ih]

theorem mem_flatMap_quoteByte {b : Bytes} {c : PyChar} (h : c ∈ b.flatMap quoteByte) :
    unreserved c = true ∨ c = percent := by
  obtain ⟨x, -, hx⟩ := List.mem_flatMap.1 h
  rcases quoteByte_cases x with ⟨d, hd, hu, -, -⟩ | ⟨y, z, u, v, hd, hu, -, -, -⟩
  · rw [hd, List.mem_singleton] at hx
    exact .inl (hx ▸ hu)
  · rw [hd] at hx
    simp only [List.mem_cons, List.not_mem_nil, or_false] at hx
    rcases hx with rfl | rfl | rfl
    · exact .inr rfl
    · exact .inl hu.1
    · exact .inl hu.2

theorem quote_eq_ok {g q : Str} : quote g = .ok q ↔ ∃ b, encodeUtf8 g = some b ∧ q = b.flatMap quoteByte := by
  unfold quote
  cases encodeUtf8 g <;> simp [eq_comm]

section Quote

variable {g q : Str} (hq : quote g = .ok q)
include hq

theorem percentDecode_quote : percentDecode q = encodeUtf8 g := by
  obtain ⟨b, hb, rfl⟩ := quote_eq_ok.1 hq
  rw [percentDecode_flatMap, hb]

theorem escaped_quote : escaped q = true := by
  obtain ⟨b, -, rfl⟩ := quote_eq_ok.1 hq
  exact escaped_flatMap b

/-- A quoted text has no delimiter. -/
theorem not_mem_quote {c : PyChar} (h : unreserved c = false ∧ c ≠ percent) : c ∉ q := by
  obtain ⟨b, -, rfl⟩ := quote_eq_ok.1 hq
  intro hc
  rcases mem_flatMap_quoteByte hc with hu | hp
  · exact absurd (hu.symm.trans h.1) (by decide)
  · exact h.2 hp

/-- Quoting makes no dot segment of another text, and leaves the dot segments. -/
theorem isDots_quote : isDots q = isDots g := by
  have hdecode := percentDecode_quote hq
  have hdot : quote (str ".") = .ok (str ".") ∧ quote (str "..") = .ok (str "..") := by decide +kernel
  have key : ∀ d, quote d = .ok d → (q = d ↔ g = d) := by
    intro d hd
    constructor
    · rintro rfl
      obtain ⟨b, hb, -⟩ := quote_eq_ok.1 hq
      have hdb : encodeUtf8 q = some b := (percentDecode_quote hd).symm.trans (hdecode.trans hb)
      exact encodeUtf8_injective hb hdb
    · rintro rfl
      rw [hq] at hd
      exact Except.ok.inj hd
  rw [Bool.eq_iff_iff]
  simp only [isDots, Bool.or_eq_true, beq_iff_eq, key _ hdot.1, key _ hdot.2]

end Quote

/-! ### What is posted -/

theorem isEndpoint_iff {s : Str} : isEndpoint s = true ↔ (∃ r, s = slash :: r) ∧ question ∉ s ∧ numberSign ∉ s := by
  have hstart : (str "/").isPrefixOf s = true ↔ ∃ r, s = slash :: r := by
    rcases s with - | ⟨c, s⟩
    · simp [str]
    · show (slash == c && true) = true ↔ _
      rw [Bool.and_true, beq_iff_eq]
      constructor
      · rintro rfl
        exact ⟨s, rfl⟩
      · rintro ⟨r, hr⟩
        exact (List.cons.inj hr).1.symm
  have hmem : ∀ c, (!s.contains c) = true ↔ c ∉ s := by simp
  unfold isEndpoint
  rw [Bool.and_eq_true, Bool.and_eq_true, hstart, hmem, hmem, and_assoc]
  rfl

theorem mem_escapeBraces {c : PyChar} {s : Str} (h : c ∈ s) : c ∈ escapeBraces s := by
  refine List.mem_flatMap.2 ⟨c, h, ?_⟩
  split <;> simp

section Post

variable {httpx : Httpx} {objs : Objects} {redeemer : AsyncHTTPCapabilityGrantRedeemer} {template : SegmentTemplate}
  {redemption : CapabilityGrantRedemptionRequest} {authHeaders : List (Str × Str)}

theorem formatTemplate_text (q : Str) :
    formatTemplate objs template.text q = .ok (pathOf (template.before ++ q :: template.after)) := by
  have hname : nameInteger (str "grant_id") = .ok none := by rfl
  have hplain : strFormat objs [(str "grant_id", q)] (escapeBraces (pathOf template.before ++ [slash]) ++ .scalar '{' ::
      (str "grant_id" ++ .scalar '}' :: escapeBraces (pathOf template.after))) =
      .ok (pathOf template.before ++ [slash] ++ q ++ pathOf template.after) :=
    strFormat_plain objs (by decide) (by decide) hname _ _
  have htext : template.text = escapeBraces (pathOf template.before ++ [slash]) ++ .scalar '{' ::
      (str "grant_id" ++ .scalar '}' :: escapeBraces (pathOf template.after)) := by
    rw [SegmentTemplate.text, List.append_assoc]
    rfl
  rw [formatTemplate, htext, hplain]
  simp

/-- The template with a quoted identifier is an endpoint, as the template is. -/
theorem isEndpoint_template (ht : redeemer.endpointTemplate = template.text) {g q : Str} (hq : quote g = .ok q) :
    isEndpoint (pathOf (template.before ++ q :: template.after)) = true := by
  have hvalid := redeemer.valid
  rw [ht, isEndpoint_iff] at hvalid
  obtain ⟨-, hquestion, hsign⟩ := hvalid
  have hnot : ∀ c, unreserved c = false ∧ c ≠ percent → c ∉ template.text → c ≠ slash →
      c ∉ pathOf (template.before ++ q :: template.after) := by
    intro c hc htext hslash hmem
    simp only [pathOf_append, pathOf_cons, List.mem_append, List.mem_cons] at hmem
    simp only [SegmentTemplate.text, List.mem_append, not_or] at htext
    rcases hmem with h | h | h | h
    · exact htext.1.1 (mem_escapeBraces (List.mem_append_left _ h))
    · exact hslash h
    · exact not_mem_quote hq hc h
    · exact htext.2 (mem_escapeBraces h)
  refine isEndpoint_iff.2 ⟨?_, hnot _ (by decide) hquestion (by decide), hnot _ (by decide) hsign (by decide)⟩
  rcases template.before with - | ⟨s, before⟩
  · exact ⟨_, rfl⟩
  · exact ⟨_, rfl⟩

/-- Every redemption is posted, to the template with the quoted identifier. -/
theorem post_template (objs : Objects) (authHeaders : List (Str × Str))
    (ht : redeemer.endpointTemplate = template.text) {q : Str} (hq : quote redemption.grantId = .ok q) :
    redeemer.post (formatTemplate objs) redemption authHeaders =
      .ok ⟨redeemer.baseUrl ++ pathOf (template.before ++ q :: template.after), redemption.modelDump, authHeaders⟩ := by
  refine bind_eq_ok.2 ⟨q, hq, bind_eq_ok.2 ⟨pathOf (template.before ++ q :: template.after), ?_, ?_⟩⟩
  · rw [catching_eq_ok, ht]
    exact formatTemplate_text q
  · exact bind_eq_ok.2 ⟨(), ensure_eq_ok.2 (isEndpoint_template ht hq), rfl⟩

/-- An accepted base URL has an authority. -/
theorem authority_of_make (hd : httpx.Documented) {brokerBaseUrl endpointTemplate : Str} {timeout : Float64}
    {allowInsecureHttp : Bool} (h : AsyncHTTPCapabilityGrantRedeemer.make httpx brokerBaseUrl endpointTemplate timeout
      allowInsecureHttp = .ok redeemer) : (Reference.split redeemer.baseUrl).authority.isSome = true := by
  unfold AsyncHTTPCapabilityGrantRedeemer.make at h
  dsimp only at h
  split at h
  · cases h
  split at h
  · cases h
  next hbase =>
  rw [not_or, Bool.not_eq_false, validBase] at hbase
  simp only [Bool.and_eq_true, bne_iff_ne] at hbase
  split at h
  · split at h
    · obtain rfl := Except.ok.inj h
      have hhost := hbase.2.1.1.1.1.2
      dsimp only
      cases ha : (Reference.split ((Str.strip brokerBaseUrl).rdropWhile (· == slash))).authority with
      | some a => rfl
      | none =>
        rw [ha] at hhost
        exact absurd hd.host_nil hhost
    · cases h
  · cases h

theorem requested_eq_some {url : Str} {path : List Str} :
    httpx.requested url = some path ↔ httpx.refuses url = none ∧ httpx.sent url = path := by
  unfold Httpx.requested
  cases httpx.refuses url <;> simp

/-- The path that is sent, if the path of the URL is made of some segments. -/
theorem sent_of_path {url : Str} {segs : List Str} (hpath : (Reference.split url).path = pathOf segs)
    (h : ∀ s ∈ segs, slash ∉ s) : httpx.sent url = (resolve segs).map httpx.escape := by
  rw [Httpx.sent, hpath, segments_removeDotSegments h]

/-- The segments of the base path, as the URL has them. -/
theorem exists_baseSegments (ha : (Reference.split redeemer.baseUrl).authority.isSome = true) :
    ∃ segs, (∀ s ∈ segs, slash ∉ s) ∧ (Reference.split redeemer.baseUrl).path = pathOf segs ∧
      baseSegments redeemer = walk segs := by
  obtain ⟨segs, hsegs, hpath⟩ := exists_segments (split_rooted ha)
  exact ⟨segs, hsegs, hpath, by rw [baseSegments, hpath, segments_pathOf hsegs]⟩

/-- Without `?` and `#` in the base URL, the path goes on with the endpoint. -/
theorem path_of_plain {endpoint : Str} (he : isEndpoint endpoint = true)
    (ha : (Reference.split redeemer.baseUrl).authority.isSome = true)
    (hb : question ∉ redeemer.baseUrl ∧ numberSign ∉ redeemer.baseUrl) :
    (Reference.split (redeemer.baseUrl ++ endpoint)).path = (Reference.split redeemer.baseUrl).path ++ endpoint := by
  obtain ⟨⟨e, rfl⟩, hquestion, hsign⟩ := isEndpoint_iff.1 he
  have he : question ∉ e ∧ numberSign ∉ e :=
    ⟨fun h => hquestion (List.mem_cons_of_mem _ h), fun h => hsign (List.mem_cons_of_mem _ h)⟩
  rw [split_append hb he ha]

/-- A segment that has no counterpart is empty. -/
theorem segment_eq_nil {f : Str → Str} (hf : f [] = []) {segment : Str} {xs ys zs ws ts : List Str}
    (hz : zs.length ≤ xs.length) (hw : ws.length ≤ ys.length) (ht : ts = [] ∨ (ts = [[]] ∧ ws = []))
    (h : (zs ++ ws ++ ts).map f = xs.map f ++ segment :: ys.map f) : segment = [] := by
  have hlength := congrArg List.length h
  simp only [List.length_map, List.length_append, List.length_cons] at hlength
  rcases ht with rfl | ⟨rfl, rfl⟩
  · simp only [List.length_nil] at hlength
    omega
  · simp only [List.length_nil, List.length_cons] at hlength
    obtain rfl : ys = [] := List.eq_nil_of_length_eq_zero (by omega)
    rw [List.append_nil, List.map_append] at h
    have hlast := (List.append_inj h (by simp; omega)).2
    simpa [hf] using hlast.symm

/-- A dot segment in the place of the identifier leaves no segment there. -/
theorem segment_of_dots {segs : List Str} {q segment : Str} (hd : httpx.Documented) (hdots : isDots q = true)
    (h : (resolve (segs ++ (template.before ++ q :: template.after))).map httpx.escape =
      (walk segs ++ template.before).map httpx.escape ++ segment :: template.after.map httpx.escape) :
    segment = [] := by
  have hbefore : ∀ s ∈ template.before, isDots s = false := fun s hs =>
    (template.plain s (List.mem_append_left _ hs)).2
  have hafter : ∀ s ∈ template.after, isDots s = false := fun s hs =>
    (template.plain s (List.mem_append_right _ hs)).2
  have hwalk : walk (segs ++ (template.before ++ q :: template.after)) =
      push (walk segs ++ template.before) q ++ template.after := by
    rw [walk_append, List.foldl_append, foldl_push_of_plain hbefore, List.foldl_cons, foldl_push_of_plain hafter]
  rw [resolve, hwalk] at h
  refine segment_eq_nil (hd.escape_escaped [] rfl) (length_push_of_dots hdots) le_rfl ?_ h
  by_cases hnil : template.after = []
  · exact (trailing_eq _).imp_right fun h => ⟨h, hnil⟩
  · left
    have happend : segs ++ (template.before ++ q :: template.after) =
        (segs ++ (template.before ++ [q])) ++ template.after := by simp
    rw [happend, trailing_append_of_plain hafter hnil]

/-- What is sent for a redemption. -/
theorem sent_template (httpx : Httpx) (ht : redeemer.endpointTemplate = template.text)
    (ha : (Reference.split redeemer.baseUrl).authority.isSome = true)
    (hb : question ∉ redeemer.baseUrl ∧ numberSign ∉ redeemer.baseUrl) {segs : List Str} (hsegs : ∀ s ∈ segs, slash ∉ s)
    (hpath : (Reference.split redeemer.baseUrl).path = pathOf segs) {g q : Str} (hq : quote g = .ok q) :
    httpx.sent (redeemer.baseUrl ++ pathOf (template.before ++ q :: template.after)) =
      (resolve (segs ++ (template.before ++ q :: template.after))).map httpx.escape := by
  apply sent_of_path
  · rw [path_of_plain (isEndpoint_template ht hq) ha hb, hpath, pathOf_append segs]
  · intro s hs
    have hslash : slash ∉ q := not_mem_quote hq (by decide)
    have hplain := template.plain s
    simp only [List.mem_append, List.mem_cons] at hs hplain
    rcases hs with h | h | rfl | h
    · exact hsegs s h
    · exact (hplain (.inl h)).1
    · exact hslash
    · exact (hplain (.inr h)).1

/-- An identifier that is no dot segment has the place of the placeholder. -/
theorem resolve_of_plain (hd : httpx.Documented) {segs : List Str} {g q : Str} (hq : quote g = .ok q)
    (hg : isDots g = false) :
    (resolve (segs ++ (template.before ++ q :: template.after))).map httpx.escape =
      (walk segs ++ template.before).map httpx.escape ++ q :: template.after.map httpx.escape := by
  have hplain : ∀ s ∈ template.before ++ q :: template.after, isDots s = false := by
    intro s hs
    have hs' := template.plain s
    simp only [List.mem_append, List.mem_cons] at hs hs'
    rcases hs with h | rfl | h
    · exact (hs' (.inl h)).2
    · rw [isDots_quote hq, hg]
    · exact (hs' (.inr h)).2
  rw [resolve_append_of_plain hplain (by simp)]
  simp [hd.escape_escaped q (escaped_quote hq)]

/-- A grant identifier has bytes. -/
theorem segment_ne_nil {segment : Str} (h : percentDecode segment = encodeUtf8 redemption.grantId) : segment ≠ [] := by
  rintro rfl
  have hvalid := redemption.valid
  simp only [redemptionValid, validStr, Bool.and_eq_true, decide_eq_true_eq] at hvalid
  have hpos := hvalid.1.1.1.1.1.2.1
  have hnil : redemption.grantId = [] := encodeUtf8_injective h.symm rfl
  rw [hnil] at hpos
  exact absurd hpos (by decide)

end Post

/-- **The path names the grant, unless the base URL ends before the path, the identifier is a dot segment, or `httpx`
refuses the URL.** -/
theorem namesOneGrant_iff {httpx : Httpx} (hd : httpx.Documented) {brokerBaseUrl endpointTemplate : Str}
    {timeout : Float64} {allowInsecureHttp : Bool} {redeemer : AsyncHTTPCapabilityGrantRedeemer}
    (hmake : AsyncHTTPCapabilityGrantRedeemer.make httpx brokerBaseUrl endpointTemplate timeout allowInsecureHttp =
      .ok redeemer)
    {template : SegmentTemplate} (ht : redeemer.endpointTemplate = template.text) (objs : Objects)
    (redemption : CapabilityGrantRedemptionRequest) (authHeaders : List (Str × Str)) :
    NamesOneGrant httpx objs redeemer template redemption authHeaders ↔
      (question ∉ redeemer.baseUrl ∧ numberSign ∉ redeemer.baseUrl) ∧ isDots redemption.grantId = false ∧
        UrlTaken httpx redeemer template redemption := by
  have ha := authority_of_make hd hmake
  obtain ⟨segs, hsegs, hpath, hbase⟩ := exists_baseSegments ha
  obtain ⟨q, hq⟩ := quote_grantId redemption
  have hpost := post_template objs authHeaders ht hq
  have hnil : httpx.escape [] = [] := hd.escape_escaped [] rfl
  constructor
  · rintro ⟨⟨post, segment, hp, hrequested, hdecode⟩, -⟩
    obtain rfl := Except.ok.inj (hpost.symm.trans hp)
    rw [hbase] at hrequested
    obtain ⟨htaken, hsent⟩ := requested_eq_some.1 hrequested
    have hplain : question ∉ redeemer.baseUrl ∧ numberSign ∉ redeemer.baseUrl := by
      by_contra hb
      -- the path of the base URL is requested, and the rest goes to the query or the fragment
      have hmem : question ∈ redeemer.baseUrl ∨ numberSign ∈ redeemer.baseUrl := by
        rw [not_and_or, not_not, not_not] at hb
        exact hb
      rw [sent_of_path ((split_append_of_mem hmem _).trans hpath) hsegs, resolve,
        ← List.append_nil (walk segs)] at hsent
      refine segment_ne_nil hdecode (segment_eq_nil hnil ?_ (Nat.zero_le _) ?_ hsent)
      · simp
      · exact (trailing_eq segs).imp_right fun h => ⟨h, rfl⟩
    refine ⟨hplain, ?_, q, hq, htaken⟩
    by_contra hdots
    rw [Bool.not_eq_false] at hdots
    rw [sent_template httpx ht ha hplain hsegs hpath hq] at hsent
    exact segment_ne_nil hdecode (segment_of_dots hd ((isDots_quote hq).trans hdots) hsent)
  · rintro ⟨hplain, hdots, q₁, hq₁, htaken⟩
    obtain rfl : q₁ = q := Except.ok.inj (hq₁.symm.trans hq)
    have hsent := sent_template httpx ht ha hplain hsegs hpath hq
    rw [resolve_of_plain hd hq hdots] at hsent
    have hrequested := requested_eq_some.2 ⟨htaken, hsent⟩
    refine ⟨⟨_, q₁, hpost, hbase ▸ hrequested, percentDecode_quote hq⟩, ?_⟩
    intro post other post' hp hp' hsame
    obtain rfl := Except.ok.inj (hpost.symm.trans hp)
    obtain ⟨q', hq'⟩ := quote_grantId other
    obtain rfl := Except.ok.inj ((post_template objs authHeaders ht hq').symm.trans hp')
    obtain ⟨-, hother⟩ := requested_eq_some.1 (hsame.trans hrequested)
    rw [sent_template httpx ht ha hplain hsegs hpath hq'] at hother
    by_cases hdots' : isDots other.grantId = true
    · have hq0 := segment_of_dots hd ((isDots_quote hq').trans hdots') hother
      exact absurd hq0 (segment_ne_nil (percentDecode_quote hq))
    · rw [Bool.not_eq_true] at hdots'
      rw [resolve_of_plain hd hq' hdots', List.append_cancel_left_eq, List.cons.injEq] at hother
      have hbytes : encodeUtf8 other.grantId = encodeUtf8 redemption.grantId := by
        rw [← percentDecode_quote hq, ← percentDecode_quote hq', hother.1]
      obtain ⟨b, hb, -⟩ := quote_eq_ok.1 hq
      exact encodeUtf8_injective (hbytes.trans hb) hb

namespace Sample

/-- The client, for URLs with an ASCII host and without characters to escape. -/
def httpx : Httpx where
  refuses := refusal
  host authority := ((cut (.scalar '@') authority).2.getD authority).takeWhile (· != colon)
  userinfo authority := match cut (.scalar '@') authority with
    | (u, some _) => u
    | (_, none) => []
  escape s := s

theorem httpx_documented : httpx.Documented := ⟨rfl, fun _ _ => rfl⟩

/-- `/v1/grants/…/redeem`. -/
def template : SegmentTemplate := ⟨[str "v1", str "grants"], [str "redeem"], by decide +kernel⟩

theorem make_named : AsyncHTTPCapabilityGrantRedeemer.make httpx (str " https://authority/")
    (str "/v1/grants/\x7bgrant_id\x7d/redeem") (Float64.ofInt 5) false = .ok named := by
  unfold AsyncHTTPCapabilityGrantRedeemer.make
  dsimp only
  rw [if_neg (by decide +kernel), if_neg (by decide +kernel), dif_pos (by decide +kernel), if_pos (by decide +kernel)]
  congr

def redemptionOf (grantId : Str) (h : validStr 1 200 grantId = true) : CapabilityGrantRedemptionRequest :=
  { redemption with
    grantId := grantId
    valid := by
      have hvalid := redemption.valid
      simp only [redemptionValid, Bool.and_eq_true] at hvalid ⊢
      exact ⟨⟨⟨⟨⟨h, hvalid.1.1.1.1.2⟩, hvalid.1.1.1.2⟩, hvalid.1.1.2⟩, hvalid.1.2⟩, hvalid.2⟩ }

end Sample

/-- An identifier with slashes and dots stays in its segment. -/
theorem namesOneGrant_of_slashes : ∃ redeemer, AsyncHTTPCapabilityGrantRedeemer.make Sample.httpx
      (str " https://authority/") (str "/v1/grants/\x7bgrant_id\x7d/redeem") (Float64.ofInt 5) false = .ok redeemer ∧
    NamesOneGrant Sample.httpx Sample.objects redeemer Sample.template
      (Sample.redemptionOf (str "../a/..") (by decide +kernel)) [] := by
  refine ⟨_, Sample.make_named, ?_⟩
  exact (namesOneGrant_iff Sample.httpx_documented Sample.make_named (by decide +kernel) _ _ _).2
    ⟨by decide +kernel, by decide +kernel, str "..%2Fa%2F..", by decide +kernel, by decide +kernel⟩

/-- The identifier `..` requests another endpoint. -/
theorem not_namesOneGrant_of_dots : (∃ post, Sample.named.post (formatTemplate Sample.objects)
      (Sample.redemptionOf (str "..") (by decide +kernel)) [] = .ok post ∧
      Sample.httpx.requested post.url = some [str "v1", str "redeem"]) ∧
    ¬ NamesOneGrant Sample.httpx Sample.objects Sample.named Sample.template
      (Sample.redemptionOf (str "..") (by decide +kernel)) [] := by
  constructor
  · have ht : Sample.named.endpointTemplate = Sample.template.text := by decide +kernel
    have hquote : quote (str "..") = .ok (str "..") := by decide +kernel
    refine ⟨_, post_template _ _ ht hquote, ?_⟩
    decide +kernel
  · intro h
    have hiff := (namesOneGrant_iff Sample.httpx_documented Sample.make_named (by decide +kernel) _ _ _).1 h
    exact absurd hiff.2.1 (by decide +kernel)

end SharedAi.ServiceKit
