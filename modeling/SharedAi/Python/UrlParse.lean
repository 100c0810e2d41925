import SharedAi.Json.RoundTrip
import SharedAi.Python.Exn
import SharedAi.Python.IpAddress

/-!
# `urllib.parse`

* `urlsplit`, `urlparse` — the parts of a URL, after the characters that are stripped and removed;
* `hostname`, `port`, `username`, `password` — the parts of an authority;
* `urlunsplit`, `urlunparse` — a URL from its parts;
* `Shape`, `Clean` — parts that `urlsplit` gives back (`urlsplit_urlunsplit`), as it does with those of a URL with an
  authority (`clean_of_urlsplit`).

What the library takes from the Unicode database, and what some versions refuse of an authority, is a parameter.
-/

namespace SharedAi.Python

open SharedAi.Control SharedAi.Net SharedAi.Num SharedAi.Text

/-- What `urllib.parse` rests on. -/
structure UrlLibrary where
  /-- `str.lower`. -/
  lower : Str → Str
  /-- `unicodedata.normalize("NFKC", …)`. -/
  nfkc : Str → Str
  /-- Authorities with brackets that some versions refuse besides. -/
  refuses : Str → Bool
  /-- `sys.get_int_max_str_digits()`; `0` is no limit. -/
  intMaxStrDigits : ℕ

/-- The delimiters of a URL that no host may hide. -/
def delimiters : Str := str "/?#@:"

/-- What Python and Unicode say of it. -/
structure UrlLibrary.Documented (lib : UrlLibrary) : Prop where
  lower_ascii : ∀ s : Str, s.all PyChar.isAscii = true → lib.lower s = s.map PyChar.asciiLower
  lower_lower : ∀ s, lib.lower (lib.lower s) = lib.lower s
  lower_eq_nil : ∀ s, lib.lower s = [] → s = []
  /-- A character without case stays. -/
  mem_lower : ∀ s, ∀ c ∈ s, (c.isAscii = true ∧ c.isUpper = false) ∨ c.isSpace = true → c ∈ lib.lower s
  /-- Nothing but small letters comes up. -/
  of_mem_lower : ∀ s, ∀ c ∈ lib.lower s, c.isAscii = true → c.isLower = false → c ∈ s
  nfkc_ascii : ∀ c : PyChar, c.isAscii = true → lib.nfkc [c] = [c]
  /-- A delimiter comes from a single character under normalisation. -/
  nfkc_delimiter : ∀ d ∈ delimiters, ∀ s, d ∈ lib.nfkc s ↔ ∃ c ∈ s, d ∈ lib.nfkc [c]
  nfkc_lower : ∀ d ∈ delimiters, ∀ s, ∀ c ∈ lib.lower s, d ∈ lib.nfkc [c] → ∃ x ∈ s, d ∈ lib.nfkc [x]
  refuses_brackets : ∀ netloc, lib.refuses netloc = true → .scalar '[' ∈ netloc ∨ .scalar ']' ∈ netloc
  intMaxStrDigits : lib.intMaxStrDigits = 0 ∨ 640 ≤ lib.intMaxStrDigits

/-- A library that knows the ASCII characters only. -/
def asciiLibrary : UrlLibrary := ⟨List.map PyChar.asciiLower, id, fun _ => false, 4300⟩

theorem asciiLibrary_documented : asciiLibrary.Documented := by
  have hmem : ∀ s : Str, ∀ c ∈ s.map PyChar.asciiLower, c.isLower = false → c ∈ s := by
    intro s c hc hl
    obtain ⟨x, hx, rfl⟩ := List.mem_map.1 hc
    by_cases hu : x.isUpper = true
    · rw [PyChar.isLower_asciiLower hu] at hl
      cases hl
    · rw [Bool.not_eq_true] at hu
      rwa [PyChar.asciiLower_of_not_upper hu]
  refine ⟨fun _ _ => rfl, ?_, fun _ h => List.map_eq_nil_iff.1 h, ?_, fun s c hc _ => hmem s c hc, fun _ _ => rfl, ?_,
    ?_, nofun, .inr (by decide)⟩
  · intro s
    simp [asciiLibrary]
  · intro s c hc h
    refine List.mem_map.2 ⟨c, hc, PyChar.asciiLower_of_not_upper ?_⟩
    rcases h with h | h
    · exact h.2
    · exact PyChar.isUpper_of_isSpace h
  · intro d _ s
    simp [asciiLibrary]
  · intro d hd s c hc hdc
    have hdlower : ∀ d ∈ delimiters, d.isLower = false := by decide
    have heq : d = c := by simpa [asciiLibrary] using hdc
    exact ⟨d, hmem s d (heq ▸ hc) (hdlower d hd), by simp [asciiLibrary]⟩

/-! ### Splitting -/

def isUnsafeChar (c : PyChar) : Bool := c == .scalar '\t' || c == .scalar '\r' || c == .scalar '\n'

/-- A URL without leading control characters and spaces, and without tabs and line ends. -/
def sanitize (url : Str) : Str := (url.dropWhile fun c => c.ord ≤ 0x20).filter fun c => !isUnsafeChar c

def isAlpha (c : PyChar) : Bool := c.isUpper || c.isLower

/-- `scheme_chars`. -/
def isSchemeChar (c : PyChar) : Bool := isAlpha c || c.isDigit || (str "+-.").contains c

def splitScheme (url : Str) : Str × Str :=
  match cut colon url with
  | (p, some r) => if p.head?.any isAlpha && p.all isSchemeChar then (p.map PyChar.asciiLower, r) else ([], url)
  | (_, none) => ([], url)

def isDelim (c : PyChar) : Bool := c == slash || c == question || c == numberSign

/-- `_splitnetloc` behind `//`. -/
def splitNetloc (url : Str) : Str × Str :=
  match url with
  | .scalar '/' :: .scalar '/' :: r => (r.takeWhile (!isDelim ·), r.dropWhile (!isDelim ·))
  | _ => ([], url)

/-- `s.partition(c)`, without the separator. -/
def partition (c : PyChar) (s : Str) : Str × Str := ((cut c s).1, (cut c s).2.getD [])

def openBracket : PyChar := .scalar '['
def closeBracket : PyChar := .scalar ']'
def atSign : PyChar := .scalar '@'

def bracketsValid (netloc : Str) : Bool :=
  (netloc.contains openBracket == netloc.contains closeBracket) &&
    (!netloc.contains openBracket ||
      checkBracketedHost (partition closeBracket (partition openBracket netloc).2).1)

/-- `_checknetloc` succeeds: no delimiter comes up under normalisation. -/
def nfkcValid (lib : UrlLibrary) (netloc : Str) : Bool :=
  let n := netloc.filter fun c => c != atSign && c != colon && c != numberSign && c != question
  netloc.all PyChar.isAscii || n == lib.nfkc n || delimiters.all fun c => !(lib.nfkc n).contains c

def netlocValid (lib : UrlLibrary) (netloc : Str) : Bool :=
  bracketsValid netloc && nfkcValid lib netloc && !lib.refuses netloc

structure SplitResult where
  scheme : Str
  netloc : Str
  path : Str
  query : Str
  fragment : Str
  deriving DecidableEq

/-- `urlsplit(url)`. -/
def urlsplit (lib : UrlLibrary) (url : Str) : Except Exn SplitResult :=
  let s := splitScheme (sanitize url)
  let n := splitNetloc s.2
  let f := cut numberSign n.2
  let q := cut question f.1
  if netlocValid lib n.1 then .ok ⟨s.1, n.1, q.1, q.2.getD [], f.2.getD []⟩ else .error .valueError

/-! ### The authority -/

/-- The text behind the last `@`. -/
def hostinfoText (netloc : Str) : Str := netloc.rtakeWhile (· != atSign)

/-- The text before the last `@`. -/
def userinfoText (netloc : Str) : Option Str :=
  if netloc.contains atSign then some (netloc.rdropWhile (· != atSign)).dropLast else none

/-- `_hostinfo`: the host as it is written, and the text of the port. -/
def hostinfo (netloc : Str) : Str × Str :=
  let info := hostinfoText netloc
  if info.contains openBracket then
    let host := partition closeBracket (partition openBracket info).2
    (host.1, (partition colon host.2).2)
  else partition colon info

namespace SplitResult

variable (lib : UrlLibrary) (r : SplitResult)

def username : Option Str := (userinfoText r.netloc).map fun u => (partition colon u).1

def password : Option Str := (userinfoText r.netloc).bind fun u => (cut colon u).2

/-- Without an address zone, the host is in lower case. -/
def hostname : Option Str :=
  let host := (hostinfo r.netloc).1
  if host = [] then none
  else some (lib.lower (cut percent host).1 ++ match (cut percent host).2 with
    | none => []
    | some zone => percent :: zone)

def port : Except Exn (Option ℕ) :=
  let text := (hostinfo r.netloc).2
  if text = [] then .ok none
  else
    match decimal? text with
    | none => .error .valueError
    | some n =>
      if (lib.intMaxStrDigits = 0 ∨ text.length ≤ lib.intMaxStrDigits) ∧ n ≤ 65535 then .ok (some n)
      else .error .valueError

end SplitResult

/-! ### Hosts and ports -/

/-- The text before the first colon, and the port behind it. -/
theorem partition_colon (s : Str) : colon ∉ (partition colon s).1 ∧
    (s = (partition colon s).1 ∧ (partition colon s).2 = [] ∨
      s = (partition colon s).1 ++ colon :: (partition colon s).2) := by
  by_cases hs : colon ∈ s
  · obtain ⟨p, r, rfl, hp⟩ := exists_cut hs
    rw [partition, cut_append_cons hp]
    exact ⟨hp, .inr rfl⟩
  · rw [partition, cut_of_not_mem hs]
    exact ⟨hs, .inl ⟨rfl, rfl⟩⟩

theorem hostinfo_of_not_mem {netloc : Str} (h : atSign ∉ netloc) (hb : openBracket ∉ netloc) :
    hostinfo netloc = partition colon netloc := by
  have hinfo : hostinfoText netloc = netloc := by
    rw [hostinfoText, List.rtakeWhile_eq_self_iff]
    intro c hc
    exact bne_iff_ne.2 fun hcat => h (hcat ▸ hc)
  rw [hostinfo, hinfo]
  simp [hb]

/-- What stands in brackets, and what follows them. -/
theorem partition_brackets {h : Str} (hh : closeBracket ∉ h) (r : Str) :
    partition closeBracket (partition openBracket (openBracket :: (h ++ closeBracket :: r))).2 = (h, r) := by
  have hcut := cut_append_cons (List.not_mem_nil (a := openBracket)) (r := h ++ closeBracket :: r)
  rw [List.nil_append] at hcut
  have hopen : (partition openBracket (openBracket :: (h ++ closeBracket :: r))).2 = h ++ closeBracket :: r := by
    rw [partition, hcut]
    rfl
  rw [hopen, partition, cut_append_cons hh]
  rfl

theorem hostinfo_brackets {h r : Str} (hat : atSign ∉ openBracket :: (h ++ closeBracket :: r)) (hh : closeBracket ∉ h) :
    hostinfo (openBracket :: (h ++ closeBracket :: r)) = (h, (partition colon r).2) := by
  have hinfo : hostinfoText (openBracket :: (h ++ closeBracket :: r)) = openBracket :: (h ++ closeBracket :: r) := by
    rw [hostinfoText, List.rtakeWhile_eq_self_iff]
    intro c hc
    exact bne_iff_ne.2 fun hcat => hat (hcat ▸ hc)
  rw [hostinfo, hinfo, partition_brackets hh, if_pos (by simp)]

/-- The text of a port is empty or made of digits. -/
theorem isDigit_of_port {lib : UrlLibrary} {r : SplitResult} {port : Option ℕ} (h : r.port lib = .ok port) :
    ∀ c ∈ (hostinfo r.netloc).2, c.isDigit = true := by
  intro c hc
  unfold SplitResult.port at h
  dsimp only at h
  split at h
  · next h0 =>
    rw [h0] at hc
    cases hc
  · split at h
    · cases h
    · next n hn => exact isDigit_of_decimal? hn c hc

def lowerHost (lib : UrlLibrary) (host : Str) : Str :=
  lib.lower (cut percent host).1 ++ match (cut percent host).2 with
    | none => []
    | some zone => percent :: zone

theorem hostname_eq (lib : UrlLibrary) (r : SplitResult) : r.hostname lib =
    if (hostinfo r.netloc).1 = [] then none else some (lowerHost lib (hostinfo r.netloc).1) := rfl

theorem hostname_with (lib : UrlLibrary) (r : SplitResult) (n : Str) : SplitResult.hostname lib { r with netloc := n } =
    if (hostinfo n).1 = [] then none else some (lowerHost lib (hostinfo n).1) := rfl

/-- What is written of a host: a name, and a zone behind a percent sign. -/
theorem lowerHost_cases (lib : UrlLibrary) (host : Str) : (percent ∉ host ∧ lowerHost lib host = lib.lower host) ∨
    ∃ p zone, percent ∉ p ∧ host = p ++ percent :: zone ∧ lowerHost lib host = lib.lower p ++ percent :: zone := by
  by_cases h : percent ∈ host
  · obtain ⟨p, zone, rfl, hp⟩ := exists_cut h
    exact .inr ⟨p, zone, hp, rfl, by rw [lowerHost, cut_append_cons hp]⟩
  · exact .inl ⟨h, by rw [lowerHost, cut_of_not_mem h, List.append_nil]⟩

theorem mem_of_mem_partition {c x : PyChar} {s : Str} (h : x ∈ (partition c s).1 ∨ x ∈ (partition c s).2) : x ∈ s :=
  mem_of_mem_cut h

/-- A host stands in the authority, behind the user information. -/
theorem mem_of_mem_host {netloc : Str} {c : PyChar} (hc : c ∈ (hostinfo netloc).1) : c ∈ netloc ∧ c ≠ atSign := by
  have hinfo : c ∈ hostinfoText netloc := by
    unfold hostinfo at hc
    dsimp only at hc
    split at hc
    · exact mem_of_mem_partition (.inr (mem_of_mem_partition (.inl hc)))
    · exact mem_of_mem_partition (.inl hc)
  refine ⟨(List.rtakeWhile_suffix _ _).subset hinfo, ?_⟩
  simpa using List.mem_rtakeWhile_imp hinfo

/-- A host does not have both brackets. -/
theorem brackets_host (netloc : Str) :
    openBracket ∉ (hostinfo netloc).1 ∨ closeBracket ∉ (hostinfo netloc).1 := by
  unfold hostinfo
  dsimp only
  split
  · exact .inr (not_mem_cut _ _)
  · next h =>
    left
    intro hc
    exact h (List.contains_iff_mem.2 (mem_of_mem_partition (.inl hc)))

theorem port_eq_error {lib : UrlLibrary} {r : SplitResult} {e : Exn} (h : r.port lib = .error e) : e = .valueError := by
  unfold SplitResult.port at h
  dsimp only at h
  split at h
  · cases h
  · split at h
    · cases h
      rfl
    · split at h
      · cases h
      · cases h
        rfl

theorem port_of_nil {lib : UrlLibrary} {r : SplitResult} (h : (hostinfo r.netloc).2 = []) : r.port lib = .ok none := by
  rw [SplitResult.port]
  simp [h]

theorem port_le {lib : UrlLibrary} {r : SplitResult} {n : ℕ} (h : r.port lib = .ok (some n)) : n ≤ 65535 := by
  unfold SplitResult.port at h
  dsimp only at h
  split at h
  · cases h
  · split at h
    · cases h
    · split at h
      · next hn =>
        cases h
        exact hn.2
      · cases h

theorem port_of_decimal {lib : UrlLibrary} (hlib : lib.Documented) {r : SplitResult} {n : ℕ}
    (h : (hostinfo r.netloc).2 = decimal n) (hn : n ≤ 65535) : r.port lib = .ok (some n) := by
  have hne : decimal n ≠ [] := nofun
  have hlen : lib.intMaxStrDigits = 0 ∨ (decimal n).length ≤ lib.intMaxStrDigits := by
    have hfive : (decimal n).length ≤ 5 := length_decimal (by omega) (by omega)
    rcases hlib.intMaxStrDigits with h0 | h640
    · exact .inl h0
    · right
      omega
  rw [SplitResult.port]
  simp only [h, if_neg hne, decimal?_decimal, if_pos (And.intro hlen hn)]

section Host

variable {lib : UrlLibrary} {host : Str} {c : PyChar}

theorem mem_lowerHost (hlib : lib.Documented) (hc : c ∈ host) (h : c.isAscii = true ∧ c.isUpper = false) :
    c ∈ lowerHost lib host := by
  rcases lowerHost_cases lib host with ⟨-, heq⟩ | ⟨p, zone, -, rfl, heq⟩
  · rw [heq]
    exact hlib.mem_lower _ _ hc (.inl h)
  · rw [heq, List.mem_append]
    rcases List.mem_append.1 hc with hc | hc
    · exact .inl (hlib.mem_lower _ _ hc (.inl h))
    · exact .inr hc

theorem of_mem_lowerHost (hlib : lib.Documented) (hc : c ∈ lowerHost lib host) (hascii : c.isAscii = true)
    (hlower : c.isLower = false) : c ∈ host := by
  rcases lowerHost_cases lib host with ⟨-, heq⟩ | ⟨p, zone, -, rfl, heq⟩
  · rw [heq] at hc
    exact hlib.of_mem_lower _ _ hc hascii hlower
  · rw [heq, List.mem_append] at hc
    rw [List.mem_append]
    rcases hc with hc | hc
    · exact .inl (hlib.of_mem_lower _ _ hc hascii hlower)
    · exact .inr hc

@[simp] theorem lowerHost_lowerHost (hlib : lib.Documented) :
    lowerHost lib (lowerHost lib host) = lowerHost lib host := by
  have hpercent : ∀ s, percent ∉ s → percent ∉ lib.lower s := fun s hs hm =>
    hs (hlib.of_mem_lower _ _ hm (by decide) (by decide))
  rcases lowerHost_cases lib host with ⟨hp, heq⟩ | ⟨p, zone, hp, -, heq⟩
  · rw [heq, lowerHost, cut_of_not_mem (hpercent _ hp), List.append_nil, hlib.lower_lower]
  · rw [heq, lowerHost, cut_append_cons (hpercent _ hp), hlib.lower_lower]

theorem lowerHost_ne_nil (hlib : lib.Documented) (h : host ≠ []) : lowerHost lib host ≠ [] := by
  rcases lowerHost_cases lib host with ⟨-, heq⟩ | ⟨p, zone, -, -, heq⟩
  · rw [heq]
    exact fun h0 => h (hlib.lower_eq_nil _ h0)
  · rw [heq]
    simp

/-- A delimiter that comes up from a host in lower case comes up from the host. -/
theorem nfkc_lowerHost (hlib : lib.Documented) {d : PyChar} (hd : d ∈ delimiters) (hc : c ∈ lowerHost lib host)
    (hdc : d ∈ lib.nfkc [c]) : ∃ x ∈ host, d ∈ lib.nfkc [x] := by
  rcases lowerHost_cases lib host with ⟨-, heq⟩ | ⟨p, zone, -, rfl, heq⟩
  · rw [heq] at hc
    exact hlib.nfkc_lower d hd _ _ hc hdc
  · rw [heq, List.mem_append] at hc
    rcases hc with hc | hc
    · obtain ⟨x, hx, hdx⟩ := hlib.nfkc_lower d hd _ _ hc hdc
      exact ⟨x, List.mem_append_left _ hx, hdx⟩
    · exact ⟨c, List.mem_append_right _ hc, hdc⟩

/-- The delimiters end an authority or stand in it. -/
theorem delimiter_cases : ∀ d ∈ delimiters, isDelim d = true ∨ d = atSign ∨ d = colon := by decide

theorem not_delimiter {c : PyChar} (hdelim : isDelim c = false) (hat : c ≠ atSign) (hcolon : c ≠ colon) :
    c ∉ delimiters := by
  intro hc
  rcases delimiter_cases c hc with h | h | h
  · rw [hdelim] at h
    cases h
  · exact hat h
  · exact hcolon h

/-- An ASCII character stays what it is, so that it hides no delimiter. -/
theorem delimiter_not_mem_nfkc (hlib : lib.Documented) {c : PyChar} (hascii : c.isAscii = true) (hc : c ∉ delimiters) :
    ∀ d ∈ delimiters, d ∉ lib.nfkc [c] := by
  intro d hd hdc
  rw [hlib.nfkc_ascii c hascii, List.mem_singleton] at hdc
  exact hc (hdc ▸ hd)

/-- **An authority is valid under normalisation if no character of it hides a delimiter.** -/
theorem nfkcValid_iff {netloc : Str} (hlib : lib.Documented) (hdelim : ∀ c ∈ netloc, isDelim c = false) :
    nfkcValid lib netloc = true ↔
      ∀ c ∈ netloc, c ≠ atSign → c ≠ colon → ∀ d ∈ delimiters, d ∉ lib.nfkc [c] := by
  set n := netloc.filter fun c => c != atSign && c != colon && c != numberSign && c != question with hn
  have hmem : ∀ c, c ∈ n ↔ c ∈ netloc ∧ c ≠ atSign ∧ c ≠ colon := by
    intro c
    rw [hn, List.mem_filter]
    simp only [Bool.and_eq_true, bne_iff_ne]
    constructor
    · rintro ⟨hc, ⟨⟨hat, hcolon⟩, -⟩, -⟩
      exact ⟨hc, hat, hcolon⟩
    · rintro ⟨hc, hat, hcolon⟩
      refine ⟨hc, ⟨⟨hat, hcolon⟩, ?_⟩, ?_⟩
      · rintro rfl
        cases hdelim _ hc
      · rintro rfl
        cases hdelim _ hc
  have hnone : ∀ d ∈ delimiters, d ∉ n := by
    intro d hd hdn
    obtain ⟨hd', hat, hcolon⟩ := (hmem d).1 hdn
    exact not_delimiter (hdelim d hd') hat hcolon hd
  have hclean : (delimiters.all fun d => !(lib.nfkc n).contains d) = true ↔
      ∀ c ∈ netloc, c ≠ atSign → c ≠ colon → ∀ d ∈ delimiters, d ∉ lib.nfkc [c] := by
    simp only [List.all_eq_true, Bool.not_eq_true', List.contains_eq_mem, decide_eq_false_iff_not]
    constructor
    · intro h c hc hat hcolon d hd hdc
      exact h d hd ((hlib.nfkc_delimiter d hd n).2 ⟨c, (hmem c).2 ⟨hc, hat, hcolon⟩, hdc⟩)
    · intro h d hd hdn
      obtain ⟨c, hc, hdc⟩ := (hlib.nfkc_delimiter d hd n).1 hdn
      obtain ⟨hc, hat, hcolon⟩ := (hmem c).1 hc
      exact h c hc hat hcolon d hd hdc
  unfold nfkcValid
  dsimp only
  rw [← hn, Bool.or_eq_true, Bool.or_eq_true, beq_iff_eq, hclean]
  constructor
  · rintro ((hascii | hsame) | h)
    · intro c hc hat hcolon
      exact delimiter_not_mem_nfkc hlib (List.all_eq_true.1 hascii c hc) (not_delimiter (hdelim c hc) hat hcolon)
    · intro c hc hat hcolon d hd hdc
      apply hnone d hd
      rw [hsame]
      exact (hlib.nfkc_delimiter d hd n).2 ⟨c, (hmem c).2 ⟨hc, hat, hcolon⟩, hdc⟩
    · exact h
  · exact .inr

end Host

/-! ### Joining -/

def usesNetloc : List Str :=
  ["", "ftp", "http", "gopher", "nntp", "telnet", "imap", "wais", "file", "mms", "https", "shttp", "snews", "prospero",
    "rtsp", "rtsps", "rtspu", "rsync", "svn", "svn+ssh", "sftp", "nfs", "git", "git+ssh", "ws", "wss"].map str

def joinNetloc (r : SplitResult) : Str :=
  if r.netloc ≠ [] ∨ (r.scheme ≠ [] ∧ r.scheme ∈ usesNetloc) ∨ r.path.take 2 = str "//" then
    str "//" ++ r.netloc ++ (if r.path ≠ [] ∧ r.path.head? ≠ some slash then slash :: r.path else r.path)
  else r.path

def tail (r : SplitResult) : Str :=
  (if r.query ≠ [] then question :: r.query else []) ++ if r.fragment ≠ [] then numberSign :: r.fragment else []

/-- `urlunsplit(r)`. -/
def urlunsplit (r : SplitResult) : Str :=
  (if r.scheme ≠ [] then r.scheme ++ [colon] else []) ++ joinNetloc r ++ tail r

/-- A path with an authority before it gets a slash, unless it has one. -/
theorem slash_of_rooted {path : Str} (h : Rooted path) :
    (if path ≠ [] ∧ path.head? ≠ some slash then slash :: path else path) = path := by
  rcases h with hp | ⟨p, hp⟩ <;> simp [hp]

theorem urlunsplit_of_netloc {r : SplitResult} (hscheme : r.scheme ≠ []) (hnetloc : r.netloc ≠ [])
    (hpath : Rooted r.path) :
    urlunsplit r = r.scheme ++ colon :: (str "//" ++ r.netloc ++ r.path ++ tail r) := by
  rw [urlunsplit, joinNetloc, if_pos hscheme, if_pos (.inl hnetloc), slash_of_rooted hpath]
  simp

/-! ### Parameters of the path -/

structure ParseResult extends SplitResult where
  params : Str
  deriving DecidableEq

def usesParams : List Str :=
  ["", "ftp", "hdl", "prospero", "http", "imap", "https", "shttp", "rtsp", "rtsps", "rtspu", "sip", "sips", "mms",
    "sftp", "tel"].map str

def semicolon : PyChar := .scalar ';'

/-- `_splitparams`: the parameters of the last segment. -/
def splitParams (path : Str) : Str × Str :=
  let last := path.rtakeWhile (· != slash)
  match cut semicolon last with
  | (p, some params) => (path.rdropWhile (· != slash) ++ p, params)
  | (_, none) => (path, [])

/-- `urlparse(url)`. -/
def urlparse (lib : UrlLibrary) (url : Str) : Except Exn ParseResult := do
  let r ← urlsplit lib url
  if r.scheme ∈ usesParams ∧ semicolon ∈ r.path then
    pure ⟨{ r with path := (splitParams r.path).1 }, (splitParams r.path).2⟩
  else pure ⟨r, []⟩

/-- `urlunparse(r)`. -/
def urlunparse (r : ParseResult) : Str :=
  urlunsplit { r.toSplitResult with path := if r.params ≠ [] then r.path ++ semicolon :: r.params else r.path }

def SplitResult.withParams (r : SplitResult) : ParseResult :=
  if r.scheme ∈ usesParams ∧ semicolon ∈ r.path then
    ⟨{ r with path := (splitParams r.path).1 }, (splitParams r.path).2⟩
  else ⟨r, []⟩

def ParseResult.joined (r : ParseResult) : SplitResult :=
  { r.toSplitResult with path := if r.params ≠ [] then r.path ++ semicolon :: r.params else r.path }

theorem urlparse_eq (lib : UrlLibrary) (url : Str) :
    urlparse lib url = (urlsplit lib url).map SplitResult.withParams := by
  unfold urlparse
  rcases urlsplit lib url with e | r
  · rfl
  · show (if _ then _ else _) = Except.ok r.withParams
    unfold SplitResult.withParams
    split <;> rfl

theorem splitParams_append {head last : Str} (hhead : head = [] ∨ head.getLast? = some slash) (hlast : slash ∉ last) :
    splitParams (head ++ last) = match cut semicolon last with
      | (p, some params) => (head ++ p, params)
      | (_, none) => (head ++ last, []) := by
  have hall : ∀ c ∈ last.reverse, (c != slash) = true := by
    intro c hc
    exact bne_iff_ne.2 fun heq => hlast (heq ▸ List.mem_reverse.1 hc)
  have hstop : head.reverse.takeWhile (· != slash) = [] ∧ head.reverse.dropWhile (· != slash) = head.reverse := by
    rcases List.eq_nil_or_concat head with rfl | ⟨t, c, rfl⟩
    · exact ⟨rfl, rfl⟩
    · rcases hhead with hnil | hc
      · simp at hnil
      · obtain rfl : c = slash := by simpa using hc
        simp
  have htake : (head ++ last).rtakeWhile (· != slash) = last := by
    rw [List.rtakeWhile, List.reverse_append, List.takeWhile_append_of_pos hall, hstop.1]
    simp
  have hdrop : (head ++ last).rdropWhile (· != slash) = head := by
    rw [List.rdropWhile, List.reverse_append, List.dropWhile_append_of_pos hall, hstop.2, List.reverse_reverse]
  rw [splitParams, htake, hdrop]

/-- The last segment of a path, and what precedes it. -/
theorem exists_lastSegment (path : Str) :
    ∃ head last, path = head ++ last ∧ (head = [] ∨ head.getLast? = some slash) ∧ slash ∉ last := by
  refine ⟨path.rdropWhile (· != slash), path.rtakeWhile (· != slash), ?_, ?_, ?_⟩
  · exact List.rdropWhile_append_rtakeWhile.symm
  · by_cases hne : path.rdropWhile (· != slash) = []
    · exact .inl hne
    · right
      have hlast := List.rdropWhile_last_not _ _ hne
      rw [List.getLast?_eq_getLast_of_ne_nil hne]
      simpa using hlast
  · intro hmem
    have := List.mem_rtakeWhile_imp hmem
    simp at this

theorem splitParams_of_not_mem {head last : Str} (hhead : head = [] ∨ head.getLast? = some slash) (hlast : slash ∉ last)
    (hs : semicolon ∉ last) : splitParams (head ++ last) = (head ++ last, []) := by
  rw [splitParams_append hhead hlast, cut_of_not_mem hs]

theorem withParams_of_splitParams {r : SplitResult} (h : splitParams r.path = (r.path, [])) :
    r.withParams = ⟨r, []⟩ := by
  unfold SplitResult.withParams
  rw [h]
  split <;> rfl

/-- **The parameters are found again.**  What is lost is the semicolon of an empty parameter. -/
theorem SplitResult.withParams_joined (r : SplitResult) :
    r.withParams.joined.withParams = r.withParams ∧ r.withParams.joined.path <+: r.path := by
  have hself : r.withParams.joined = r →
      r.withParams.joined.withParams = r.withParams ∧ r.withParams.joined.path <+: r.path := by
    intro h
    rw [h]
    exact ⟨rfl, List.prefix_rfl⟩
  by_cases h : r.scheme ∈ usesParams ∧ semicolon ∈ r.path
  · obtain ⟨head, last, hpath, hhead, hlast⟩ := exists_lastSegment r.path
    by_cases hs : semicolon ∈ last
    · obtain ⟨p, params, rfl, hp⟩ := exists_cut hs
      have hwith : r.withParams = ⟨{ r with path := head ++ p }, params⟩ := by
        rw [withParams, if_pos h, hpath, splitParams_append hhead hlast, cut_append_cons hp]
      by_cases hparams : params = []
      · subst hparams
        have hjoined : r.withParams.joined = { r with path := head ++ p } := by rw [hwith]; rfl
        have hslash : slash ∉ p := fun hm => hlast (by simp [hm])
        refine ⟨?_, ?_⟩
        · rw [hjoined, hwith]
          exact withParams_of_splitParams (splitParams_of_not_mem hhead hslash hp)
        · rw [hjoined, hpath, ← List.append_assoc]
          exact List.prefix_append _ _
      · apply hself
        rw [hwith, ParseResult.joined]
        simp [hparams, ← hpath]
    · apply hself
      rw [withParams_of_splitParams (by rw [hpath, splitParams_of_not_mem hhead hlast hs])]
      rfl
  · apply hself
    rw [withParams, if_neg h]
    rfl

/-! ### Splitting what was joined -/

/-- Parts that `urlsplit` can find. -/
structure Shape (r : SplitResult) : Prop where
  scheme : r.scheme = [] ∨ (r.scheme.head?.any isAlpha = true ∧ r.scheme.all isSchemeChar = true ∧
    r.scheme.map PyChar.asciiLower = r.scheme)
  netloc : ∀ c ∈ r.netloc, isDelim c = false
  rooted : Rooted r.path
  path : question ∉ r.path ∧ numberSign ∉ r.path
  query : numberSign ∉ r.query
  safe : ∀ c ∈ r.netloc ++ r.path ++ r.query ++ r.fragment, isUnsafeChar c = false

/-- Parts that `urlsplit` can give. -/
structure Clean (lib : UrlLibrary) (r : SplitResult) : Prop extends Shape r where
  valid : netlocValid lib r.netloc = true

/-- What is cut off comes back, whether it is there or not. -/
theorem cut_optional {c : PyChar} {s : Str} (h : c ∉ s) (t : Str) :
    (cut c (s ++ if t ≠ [] then c :: t else [])).1 = s ∧
      (cut c (s ++ if t ≠ [] then c :: t else [])).2.getD [] = t := by
  by_cases ht : t = []
  · simp [ht, cut_of_not_mem h]
  · simp [ht, cut_append_cons h]

theorem sanitize_eq {s : Str} (hhead : ∀ c ∈ s.head?, 0x20 < c.ord) (h : ∀ c ∈ s, isUnsafeChar c = false) :
    sanitize s = s := by
  have hdrop : s.dropWhile (fun c => decide (c.ord ≤ 0x20)) = s := by
    rcases s with - | ⟨c, s⟩
    · rfl
    · have hc : 0x20 < c.ord := hhead c rfl
      rw [List.dropWhile_cons_of_neg]
      simpa using hc
  rw [sanitize, hdrop, List.filter_eq_self]
  intro c hc
  simp [h c hc]

theorem splitScheme_of_head {s : Str} (h : s.head?.any isAlpha = false) : splitScheme s = ([], s) := by
  unfold splitScheme
  split
  · next p r hcut =>
    have hp : p = s.takeWhile (· != colon) := (congrArg Prod.fst hcut).symm
    have hhead : p.head?.any isAlpha = false := by
      subst hp
      rcases s with - | ⟨c, s⟩
      · rfl
      · by_cases hc : c = colon
        · simp [hc]
        · simpa [hc] using h
    simp [hhead]
  · rfl

theorem colon_not_mem_scheme {s : Str} (h : s.all isSchemeChar = true) : colon ∉ s := by
  intro hc
  have hcolon := List.all_eq_true.1 h colon hc
  exact absurd hcolon (by decide)

theorem splitScheme_append {scheme : Str} (hhead : scheme.head?.any isAlpha = true)
    (hall : scheme.all isSchemeChar = true) (hlower : scheme.map PyChar.asciiLower = scheme) (rest : Str) :
    splitScheme (scheme ++ colon :: rest) = (scheme, rest) := by
  rw [splitScheme, cut_append_cons (colon_not_mem_scheme hall)]
  simp [hhead, hall, hlower]

/-- The query and the fragment begin with a delimiter. -/
theorem tail_cases (r : SplitResult) : tail r = [] ∨ (∃ t, tail r = question :: t) ∨ ∃ t, tail r = numberSign :: t := by
  unfold tail
  by_cases hq : r.query = []
  · by_cases hf : r.fragment = []
    · simp [hq, hf]
    · exact .inr (.inr ⟨r.fragment, by simp [hq, hf]⟩)
  · exact .inr (.inl ⟨_, by simp only [if_pos hq, ne_eq, List.cons_append]; rfl⟩)

/-- Behind an authority comes the end or a delimiter. -/
theorem takeWhile_netloc {netloc rest : Str} (h : ∀ c ∈ netloc, isDelim c = false)
    (hrest : rest = [] ∨ ∃ c t, rest = c :: t ∧ isDelim c = true) :
    (netloc ++ rest).takeWhile (!isDelim ·) = netloc ∧ (netloc ++ rest).dropWhile (!isDelim ·) = rest := by
  have hpos : ∀ c ∈ netloc, (!isDelim c) = true := fun c hc => by simp [h c hc]
  rw [List.takeWhile_append_of_pos hpos, List.dropWhile_append_of_pos hpos]
  rcases hrest with rfl | ⟨c, t, rfl, hc⟩
  · simp
  · simp [hc]

section Shape

variable {r : SplitResult}

theorem Shape.rest_delim (h : Shape r) :
    r.path ++ tail r = [] ∨ ∃ c t, r.path ++ tail r = c :: t ∧ isDelim c = true := by
  rcases h.rooted with hp | ⟨p, hp⟩
  · rw [hp, List.nil_append]
    rcases tail_cases r with ht | ⟨t, ht⟩ | ⟨t, ht⟩
    · exact .inl ht
    · exact .inr ⟨_, _, ht, by decide⟩
    · exact .inr ⟨_, _, ht, by decide⟩
  · exact .inr ⟨slash, p ++ tail r, by rw [hp]; rfl, by decide⟩

theorem Shape.joinNetloc_eq (h : Shape r) : joinNetloc r = str "//" ++ r.netloc ++ r.path ∨
    (joinNetloc r = r.path ∧ r.netloc = [] ∧ r.path.take 2 ≠ str "//") := by
  unfold joinNetloc
  rw [slash_of_rooted h.rooted]
  split
  · exact .inl rfl
  · next hn =>
    simp only [not_or, not_not] at hn
    exact .inr ⟨rfl, hn.1, hn.2.2⟩

theorem Shape.splitNetloc_join (h : Shape r) :
    splitNetloc (joinNetloc r ++ tail r) = (r.netloc, r.path ++ tail r) := by
  rcases h.joinNetloc_eq with hj | ⟨hj, hn, hp⟩
  · obtain ⟨htake, hdrop⟩ := takeWhile_netloc h.netloc h.rest_delim
    have happend : joinNetloc r ++ tail r = slash :: slash :: (r.netloc ++ (r.path ++ tail r)) := by
      rw [hj, List.append_assoc, List.append_assoc]
      rfl
    rw [happend]
    show ((r.netloc ++ (r.path ++ tail r)).takeWhile (!isDelim ·), (r.netloc ++ (r.path ++ tail r)).dropWhile _) = _
    rw [htake, hdrop]
  · rw [hj, hn]
    unfold splitNetloc
    split
    · next t ht =>
      -- the path has no second slash, and what follows it begins with another delimiter
      exfalso
      rcases h.rooted with hp' | ⟨p, hp'⟩
      · rw [hp', List.nil_append] at ht
        rcases tail_cases r with htail | ⟨u, htail⟩ | ⟨u, htail⟩ <;> rw [htail] at ht <;> cases ht
      · rw [hp'] at ht hp
        rcases p with - | ⟨c, p⟩
        · rcases tail_cases r with htail | ⟨u, htail⟩ | ⟨u, htail⟩ <;> rw [htail] at ht <;> cases ht
        · obtain ⟨-, ht⟩ := List.cons.inj ht
          obtain ⟨rfl, -⟩ := List.cons.inj ht
          exact hp rfl
    · rfl

theorem Shape.rest_head (h : Shape r) : ∀ c ∈ (joinNetloc r ++ tail r).head?, isDelim c = true := by
  intro c hc
  rcases h.joinNetloc_eq with hj | ⟨hj, -, -⟩
  · rw [hj] at hc
    cases hc
    rfl
  · rw [hj] at hc
    rcases h.rest_delim with hnil | ⟨d, t, ht, hd⟩
    · rw [hnil] at hc
      cases hc
    · rw [ht] at hc
      cases hc
      exact hd

theorem not_unsafe_of_schemeChar {c : PyChar} (h : isSchemeChar c = true) : isUnsafeChar c = false := by
  by_contra hc
  rw [Bool.not_eq_false] at hc
  simp only [isUnsafeChar, Bool.or_eq_true, beq_iff_eq] at hc
  rcases hc with (rfl | rfl) | rfl <;> cases h

theorem Shape.join_safe (h : Shape r) : ∀ c ∈ joinNetloc r ++ tail r, isUnsafeChar c = false := by
  have hparts := h.safe
  simp only [List.mem_append] at hparts
  have hslashes : ∀ c ∈ str "//", isUnsafeChar c = false := by decide
  have hjoin : ∀ c ∈ joinNetloc r, isUnsafeChar c = false := by
    intro c hc
    rcases h.joinNetloc_eq with hj | ⟨hj, -, -⟩
    · rw [hj, List.append_assoc, List.mem_append, List.mem_append] at hc
      rcases hc with hc | hc | hc
      · exact hslashes c hc
      · exact hparts c (.inl (.inl (.inl hc)))
      · exact hparts c (.inl (.inl (.inr hc)))
    · rw [hj] at hc
      exact hparts c (.inl (.inl (.inr hc)))
  have htail : ∀ c ∈ tail r, isUnsafeChar c = false := by
    intro c hc
    rw [tail, List.mem_append] at hc
    rcases hc with hc | hc
    · split at hc
      · rcases List.mem_cons.1 hc with rfl | hc
        · rfl
        · exact hparts c (.inl (.inr hc))
      · cases hc
    · split at hc
      · rcases List.mem_cons.1 hc with rfl | hc
        · rfl
        · exact hparts c (.inr hc)
      · cases hc
  intro c hc
  rcases List.mem_append.1 hc with hc | hc
  · exact hjoin c hc
  · exact htail c hc

/-- The scheme of a joined URL, and the rest; nothing is stripped or removed. -/
theorem Shape.splitScheme_join (h : Shape r) :
    splitScheme (sanitize (urlunsplit r)) = (r.scheme, joinNetloc r ++ tail r) := by
  have hsafe := h.join_safe
  have hrest := h.rest_head
  unfold urlunsplit
  rw [List.append_assoc]
  rcases h.scheme with hs | ⟨hhead, hall, hlower⟩
  · have hnone : (joinNetloc r ++ tail r).head?.any isAlpha = false := by
      rw [Option.any_eq_false]
      intro c hc
      have hd := hrest c hc
      simp only [isDelim, Bool.or_eq_true, beq_iff_eq] at hd
      rcases hd with (rfl | rfl) | rfl <;> simp +decide
    rw [hs, if_neg (by simp), List.nil_append, sanitize_eq ?_ hsafe, splitScheme_of_head hnone]
    intro c hc
    have hd := hrest c hc
    simp only [isDelim, Bool.or_eq_true, beq_iff_eq] at hd
    rcases hd with (rfl | rfl) | rfl <;> decide
  · have hne : r.scheme ≠ [] := by
      intro h0
      rw [h0] at hhead
      cases hhead
    rw [if_pos hne, List.append_assoc, List.singleton_append, sanitize_eq, splitScheme_append hhead hall hlower]
    · intro c hc
      obtain ⟨d, t, hd⟩ := List.exists_cons_of_ne_nil hne
      rw [hd] at hc hhead
      cases hc
      have halpha : isAlpha c = true := hhead
      simp only [isAlpha, PyChar.isUpper, PyChar.isLower, Bool.or_eq_true, Bool.and_eq_true,
        decide_eq_true_eq] at halpha
      omega
    · intro c hc
      rcases List.mem_append.1 hc with hc | hc
      · exact not_unsafe_of_schemeChar (List.all_eq_true.1 hall c hc)
      · rcases List.mem_cons.1 hc with rfl | hc
        · rfl
        · exact hsafe c hc

/-- **Joined parts are split as they were, if the authority is valid.** -/
theorem Shape.urlsplit_urlunsplit (lib : UrlLibrary) (h : Shape r) :
    urlsplit lib (urlunsplit r) = if netlocValid lib r.netloc then .ok r else .error .valueError := by
  have hquery : numberSign ∉ r.path ++ (if r.query ≠ [] then question :: r.query else []) := by
    intro hc
    rcases List.mem_append.1 hc with hc | hc
    · exact h.path.2 hc
    · split at hc
      · rcases List.mem_cons.1 hc with hc | hc
        · exact absurd hc (by decide)
        · exact h.query hc
      · cases hc
  obtain ⟨hf1, hf2⟩ := cut_optional hquery r.fragment
  obtain ⟨hq1, hq2⟩ := cut_optional h.path.1 r.query
  have htail : r.path ++ tail r = r.path ++ (if r.query ≠ [] then question :: r.query else []) ++
      (if r.fragment ≠ [] then numberSign :: r.fragment else []) := by
    rw [tail, List.append_assoc]
  unfold urlsplit
  simp only [h.splitScheme_join, h.splitNetloc_join, htail, hf1, hf2, hq1, hq2]

theorem Clean.urlsplit_urlunsplit {lib : UrlLibrary} (h : Clean lib r) : urlsplit lib (urlunsplit r) = .ok r := by
  rw [h.toShape.urlsplit_urlunsplit, if_pos h.valid]

end Shape

/-- **A URL that was joined with another authority.** -/
theorem urlparse_urlunparse (lib : UrlLibrary) {s : SplitResult} {n : Str} (hs : Shape s)
    (hn : ∀ c ∈ n, isDelim c = false ∧ isUnsafeChar c = false) :
    urlparse lib (urlunparse { s.withParams with netloc := n }) =
      if netlocValid lib n then .ok { s.withParams with netloc := n } else .error .valueError := by
  obtain ⟨hagain, hpath⟩ := s.withParams_joined
  have hparts : s.withParams.joined.scheme = s.scheme ∧ s.withParams.joined.query = s.query ∧
      s.withParams.joined.fragment = s.fragment := by
    rw [ParseResult.joined, SplitResult.withParams]
    split <;> exact ⟨rfl, rfl, rfl⟩
  set j := s.withParams.joined with hj
  have hshape : Shape { j with netloc := n } := by
    have hsafe := hs.safe
    simp only [List.mem_append] at hsafe
    refine ⟨hparts.1.symm ▸ hs.scheme, fun c hc => (hn c hc).1, hs.rooted.of_prefix hpath, ⟨?_, ?_⟩, ?_, ?_⟩
    · exact fun hc => hs.path.1 (hpath.subset hc)
    · exact fun hc => hs.path.2 (hpath.subset hc)
    · exact hparts.2.1.symm ▸ hs.query
    · intro c hc
      simp only [List.mem_append, hparts.2.1, hparts.2.2] at hc
      rcases hc with ((hc | hc) | hc) | hc
      · exact (hn c hc).2
      · exact hsafe c (.inl (.inl (.inr (hpath.subset hc))))
      · exact hsafe c (.inl (.inr hc))
      · exact hsafe c (.inr hc)
  have hjoin : urlunparse { s.withParams with netloc := n } = urlunsplit { j with netloc := n } := rfl
  have hwith : SplitResult.withParams { j with netloc := n } = { s.withParams with netloc := n } := by
    rw [← hagain]
    unfold SplitResult.withParams
    dsimp only
    split <;> rfl
  rw [urlparse_eq, hjoin, hshape.urlsplit_urlunsplit]
  split
  · show Except.ok (SplitResult.withParams { j with netloc := n }) = _
    rw [hwith]
  · rfl

/-! ### Joining what was split -/

theorem asciiLower_scheme {p : Str} (hhead : p.head?.any isAlpha = true) (hall : p.all isSchemeChar = true) :
    (p.map PyChar.asciiLower).head?.any isAlpha = true ∧ (p.map PyChar.asciiLower).all isSchemeChar = true ∧
      (p.map PyChar.asciiLower).map PyChar.asciiLower = p.map PyChar.asciiLower := by
  have hlower : ∀ c : PyChar, (isAlpha c = true → isAlpha c.asciiLower = true) ∧
      (isSchemeChar c = true → isSchemeChar c.asciiLower = true) := by
    intro c
    by_cases hc : c.isUpper = true
    · have hlow := PyChar.isLower_asciiLower hc
      exact ⟨fun _ => by simp [isAlpha, hlow], fun _ => by simp [isSchemeChar, isAlpha, hlow]⟩
    · rw [Bool.not_eq_true] at hc
      rw [PyChar.asciiLower_of_not_upper hc]
      exact ⟨id, id⟩
  refine ⟨?_, ?_, ?_⟩
  · rcases p with - | ⟨c, p⟩
    · cases hhead
    · exact (hlower c).1 hhead
  · rw [List.all_map, List.all_eq_true]
    intro c hc
    exact (hlower c).2 (List.all_eq_true.1 hall c hc)
  · simp

theorem splitScheme_spec (s : Str) : ((splitScheme s).1 = [] ∨ ((splitScheme s).1.head?.any isAlpha = true ∧
      (splitScheme s).1.all isSchemeChar = true ∧ (splitScheme s).1.map PyChar.asciiLower = (splitScheme s).1)) ∧
    ∀ c ∈ (splitScheme s).2, c ∈ s := by
  unfold splitScheme
  split
  · next p r hcut =>
    have hr : ∀ c ∈ r, c ∈ s := by
      intro c hc
      apply mem_of_mem_cut (c := colon)
      right
      rw [hcut]
      exact hc
    split
    · next h =>
      rw [Bool.and_eq_true] at h
      exact ⟨.inr (asciiLower_scheme h.1 h.2), hr⟩
    · exact ⟨.inl rfl, fun _ => id⟩
  · exact ⟨.inl rfl, fun _ => id⟩

theorem splitNetloc_spec {s : Str} (h : (splitNetloc s).1 ≠ []) : (∀ c ∈ (splitNetloc s).1, isDelim c = false) ∧
    ((splitNetloc s).2 = [] ∨ ∃ c t, (splitNetloc s).2 = c :: t ∧ isDelim c = true) ∧
    ∀ c, c ∈ (splitNetloc s).1 ∨ c ∈ (splitNetloc s).2 → c ∈ s := by
  unfold splitNetloc at h ⊢
  split at h
  · next r =>
    refine ⟨?_, ?_, ?_⟩
    · intro c hc
      have := List.mem_takeWhile_imp hc
      simpa using this
    · dsimp only
      cases hd : r.dropWhile (!isDelim ·) with
      | nil => exact .inl rfl
      | cons c t =>
        have hhead := List.head?_dropWhile_not (!isDelim ·) r
        rw [hd] at hhead
        exact .inr ⟨c, t, rfl, by simpa using hhead⟩
    · intro c hc
      apply List.mem_cons_of_mem
      apply List.mem_cons_of_mem
      rcases hc with hc | hc
      · exact (List.takeWhile_prefix _).subset hc
      · exact (List.dropWhile_suffix _).subset hc
  · exact absurd rfl h

/-- **The parts of a URL with an authority are clean.** -/
theorem clean_of_urlsplit {lib : UrlLibrary} {url : Str} {r : SplitResult} (h : urlsplit lib url = .ok r)
    (hne : r.netloc ≠ []) : Clean lib r := by
  obtain ⟨hvalid, rfl⟩ := ite_eq_ok.1 h
  obtain ⟨hscheme, hrest⟩ := splitScheme_spec (sanitize url)
  obtain ⟨hnetloc, hdelim, hmem⟩ := splitNetloc_spec hne
  have hsafe : ∀ c ∈ sanitize url, isUnsafeChar c = false := by
    intro c hc
    have := (List.mem_filter.1 hc).2
    simpa using this
  have hnetloc' := fun c hc => hsafe c (hrest c (hmem c hc))
  set n := splitNetloc (splitScheme (sanitize url)).2 with hn
  have hpath : ∀ c ∈ (cut question (cut numberSign n.2).1).1, c ∈ (cut numberSign n.2).1 := fun c hc =>
    mem_of_mem_cut (.inl hc)
  have hquery : ∀ c ∈ (cut question (cut numberSign n.2).1).2.getD [], c ∈ (cut numberSign n.2).1 := fun c hc =>
    mem_of_mem_cut (.inr hc)
  have hcut : ∀ c ∈ (cut numberSign n.2).1, c ∈ n.2 := fun c hc => mem_of_mem_cut (.inl hc)
  refine ⟨⟨hscheme, hnetloc, ?_, ⟨not_mem_cut _ _, ?_⟩, ?_, ?_⟩, hvalid⟩
  · -- the path begins where the authority ends
    rcases hdelim with hnil | ⟨c, t, ht, hc⟩
    · left
      rw [hnil]
      rfl
    · rw [ht]
      simp only [isDelim, Bool.or_eq_true, beq_iff_eq] at hc
      rcases hc with (rfl | rfl) | rfl
      · exact .inr ⟨_, by simp +decide [cut]; rfl⟩
      · left
        simp +decide [cut]
      · left
        simp +decide [cut]
  · exact fun hc => not_mem_cut _ _ (hpath _ hc)
  · exact fun hc => not_mem_cut _ _ (hquery _ hc)
  · intro c hc
    simp only [List.mem_append] at hc
    rcases hc with ((hc | hc) | hc) | hc
    · exact hnetloc' c (.inl hc)
    · exact hnetloc' c (.inr (hcut c (hpath c hc)))
    · exact hnetloc' c (.inr (hcut c (hquery c hc)))
    · exact hnetloc' c (.inr (mem_of_mem_cut (.inr hc)))

end SharedAi.Python
