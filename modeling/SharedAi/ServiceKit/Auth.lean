import SharedAi.Control.Raises
import SharedAi.Python.Exn

/-!
# Service tokens

The helpers by which a service checks the token of its caller, and the credential they check it against.

* `resolveKey` — a credential from its configured value, files, variables or default file;
* `serviceApiKey`, `internalServiceApiKey` — the generic and the internal chain;
* `verifyServiceToken`, `serviceTokenDependency` — the check of a request;
* `genericKey`, `serviceApiKey_of_unconfigured` — what the generic chain adds to the internal one;
* `internal_outcome_iff` — when the generic key cannot tell on a route that is for the internal credential;
* `decides_iff` — when the check of a request ends with a verdict.
-/

namespace SharedAi.ServiceKit

open SharedAi.Control SharedAi.Python SharedAi.Text

/-! ### Resolving a credential -/

/-- What a path leads to. -/
inductive SecretFile where
  | missing
  | text (s : Str)
  | undecodable
  | unreadable

structure Environment where
  environ : String → Option Str
  file : Str → SecretFile

/-- `DEFAULT_SECRET_FILE`. -/
def defaultSecretFile : String := "/run/secrets/internal_api_key"

/-- `FILE_ENV_NAMES`. -/
def fileEnvNames : List String := ["API_KEY_FILE", "INTERNAL_API_KEY_FILE"]

/-- `ENV_NAMES`. -/
def envNames : List String := ["API_KEY", "INTERNAL_API_KEY"]

/-- `INTERNAL_FILE_ENV_NAMES`. -/
def internalFileEnvNames : List String := ["INTERNAL_API_KEY_FILE", "ORC_INTERNAL_API_KEY_FILE"]

/-- `INTERNAL_ENV_NAMES`. -/
def internalEnvNames : List String := ["INTERNAL_API_KEY", "ORC_INTERNAL_API_KEY"]

/-- `read_secret_file`. -/
def readSecretFile (env : Environment) (path : Str) : Except Exn Str :=
  if path = [] then .ok []
  else
    match env.file path with
    | .missing => .ok []
    | .text s => .ok s.strip
    | .undecodable => .error .unicodeError
    | .unreadable => .error (.exception "OSError")

/-- `read_secret_file(os.environ.get(name, ""))`. -/
def fileKey (env : Environment) (name : String) : Except Exn Str := readSecretFile env ((env.environ name).getD [])

/-- `os.environ.get(name, "").strip()`. -/
def envKey (env : Environment) (name : String) : Except Exn Str := .ok ((env.environ name).getD []).strip

def firstKey : List (Except Exn Str) → Except Exn Str
  | [] => .ok []
  | x :: xs => do
    let key ← x
    if key ≠ [] then pure key else firstKey xs

/-- The body that `service_api_key` and `internal_service_api_key` share. -/
def resolveKey (files names : List String) (env : Environment) (configuredKey : Str) : Except Exn Str :=
  if configuredKey.strip ≠ [] then .ok configuredKey.strip
  else firstKey (files.map (fileKey env) ++ names.map (envKey env) ++ [readSecretFile env (str defaultSecretFile)])

/-- `service_api_key`. -/
def serviceApiKey : Environment → Str → Except Exn Str := resolveKey fileEnvNames envNames

/-- `internal_service_api_key`. -/
def internalServiceApiKey : Environment → Str → Except Exn Str := resolveKey internalFileEnvNames internalEnvNames

/-! ### Checking a request -/

structure TokenHeaders where
  authorization : Option Str
  xApiKey : Option Str
  xInternalToken : Option Str

/-- `a or b`. -/
def orElse : Option Str → Str → Str
  | some (c :: cs), _ => c :: cs
  | _, b => b

/-- The token of an `Authorization` header. -/
def bearer : Option Str → Str
  | some s => if (str "Bearer ").isPrefixOf s then Str.strip (s.drop 7) else []
  | none => []

/-- `(x_api_key or bearer or internal_token or "").strip()`. -/
def TokenHeaders.provided (headers : TokenHeaders) (acceptInternalToken : Bool) : Str :=
  let internalToken := if acceptInternalToken then headers.xInternalToken else none
  Str.strip (orElse headers.xApiKey (orElse (some (bearer headers.authorization)) (orElse internalToken [])))

/-- `secrets.compare_digest` of two strings. -/
def compareDigest (a b : Str) : Except Exn Bool :=
  if a.all PyChar.isAscii && b.all PyChar.isAscii then .ok (a == b) else .error .typeError

/-- The part of `verify_service_token` after the credential is resolved. -/
def checkToken (serviceName : String) (headers : TokenHeaders) (acceptInternalToken : Bool) (expected : Str) :
    Except Exn Unit := do
  ensure (expected ≠ []) (.httpException 503 (serviceName ++ " API key is not configured"))
  let provided := headers.provided acceptInternalToken
  ensure (provided ≠ []) (.httpException 401 "Missing API key")
  let same ← compareDigest provided expected
  ensure (same = true) (.httpException 403 "Invalid API key")

/-- `verify_service_token`. -/
def verifyServiceToken (serviceName : String) (env : Environment) (configuredKey : Str) (headers : TokenHeaders)
    (acceptInternalToken : Bool) : Except Exn Unit := do
  let expected ← serviceApiKey env configuredKey
  checkToken serviceName headers acceptInternalToken expected

/-- `service_token_dependency`, as the route calls it. -/
def serviceTokenDependency (serviceName : String) (configuredKey : Environment → Except Exn Str)
    (acceptInternalToken : Bool) (env : Environment) (headers : TokenHeaders) : Except Exn Unit := do
  let key ← configuredKey env
  verifyServiceToken serviceName env key headers acceptInternalToken

/-! ### Outcomes -/

/-- What the caller sees: any other exception is answered in one way. -/
inductive Outcome where
  | accepted
  | status (code : ℕ)
  | unhandled
  deriving DecidableEq

def outcome : Except Exn Unit → Outcome
  | .ok _ => .accepted
  | .error (.httpException code _) => .status code
  | .error _ => .unhandled

/-- A credential, or the failure to resolve it: it has no white space at its ends, and its exceptions are not for the
caller. -/
structure IsCredential (x : Except Exn Str) : Prop where
  trimmed : ∀ key, x = .ok key → key.Trimmed
  unhandled : RaisesIn (fun e => outcome (.error e) = .unhandled) x

/-! ### Chains of sources -/

section Chain

variable {x : Except Exn Str} {xs ys : List (Except Exn Str)} {key : Str}

theorem firstKey_eq_ok : firstKey (x :: xs) = .ok key ↔
    x = .ok key ∧ key ≠ [] ∨ x = .ok [] ∧ firstKey xs = .ok key := by
  rw [firstKey, bind_eq_ok]
  constructor
  · rintro ⟨k, rfl, h⟩
    by_cases hk : k = []
    · subst hk
      exact .inr ⟨rfl, h⟩
    · rw [if_pos hk] at h
      cases h
      exact .inl ⟨rfl, hk⟩
  · rintro (⟨rfl, hk⟩ | ⟨rfl, h⟩)
    · exact ⟨key, rfl, by rw [if_pos hk]; rfl⟩
    · exact ⟨[], rfl, h⟩

/-- A chain may be shortened behind its first source. -/
theorem firstKey_congr (h : firstKey xs = firstKey ys) : firstKey (x :: xs) = firstKey (x :: ys) := by
  rw [firstKey, firstKey, h]

/-- A chain gives no key exactly when none of its sources does. -/
theorem firstKey_eq_nil : firstKey xs = .ok [] ↔ ∀ x ∈ xs, x = .ok [] := by
  induction xs with
  | nil => simp [firstKey]
  | cons x xs ih => simp [firstKey_eq_ok, ih]

theorem isCredential_ok (h : key.Trimmed) : IsCredential (.ok key) :=
  ⟨fun k hk => by cases hk; exact h, raisesIn_ok _⟩

theorem isCredential_firstKey (h : ∀ x ∈ xs, IsCredential x) : IsCredential (firstKey xs) := by
  induction xs with
  | nil => exact isCredential_ok rfl
  | cons x xs ih =>
    have hx := h x (List.mem_cons_self ..)
    have hxs := ih fun y hy => h y (List.mem_cons_of_mem _ hy)
    refine ⟨fun k hk => ?_, hx.unhandled.bind fun k _ => ?_⟩
    · rcases firstKey_eq_ok.1 hk with ⟨hk, -⟩ | ⟨-, hk⟩
      · exact hx.trimmed k hk
      · exact hxs.trimmed k hk
    · split
      · exact raisesIn_pure k
      · exact hxs.unhandled

end Chain

section Sources

variable (env : Environment)

theorem isCredential_readSecretFile (path : Str) : IsCredential (readSecretFile env path) := by
  unfold readSecretFile
  split
  · exact isCredential_ok rfl
  split
  · exact isCredential_ok rfl
  · exact isCredential_ok (Str.trimmed_strip _)
  · exact ⟨nofun, raisesIn_error.2 rfl⟩
  · exact ⟨nofun, raisesIn_error.2 rfl⟩

theorem isCredential_fileKey (name : String) : IsCredential (fileKey env name) := isCredential_readSecretFile env _

theorem isCredential_envKey (name : String) : IsCredential (envKey env name) := isCredential_ok (Str.trimmed_strip _)

theorem isCredential_resolveKey (files names : List String) (configuredKey : Str) :
    IsCredential (resolveKey files names env configuredKey) := by
  unfold resolveKey
  split
  · exact isCredential_ok (Str.trimmed_strip _)
  · apply isCredential_firstKey
    intro x hx
    simp only [List.mem_append, List.mem_map, List.mem_singleton] at hx
    rcases hx with (⟨name, -, rfl⟩ | ⟨name, -, rfl⟩) | rfl
    · exact isCredential_fileKey env name
    · exact isCredential_envKey env name
    · exact isCredential_readSecretFile env _

end Sources

/-- A configured credential is used as it is. -/
theorem resolveKey_of_configured {files names : List String} {env : Environment} {key : Str} (h : key.Trimmed)
    (hne : key ≠ []) : resolveKey files names env key = .ok key := by
  unfold resolveKey
  rw [show key.strip = key from h, if_pos hne]

/-- What `API_KEY_FILE` and `API_KEY` alone resolve to. -/
def genericKey (env : Environment) : Except Exn Str := firstKey [fileKey env "API_KEY_FILE", envKey env "API_KEY"]

theorem isCredential_genericKey (env : Environment) : IsCredential (genericKey env) := by
  apply isCredential_firstKey
  intro x hx
  rcases List.mem_pair.1 hx with rfl | rfl
  · exact isCredential_fileKey env _
  · exact isCredential_envKey env _

/-- Without an internal credential the generic chain resolves to the generic key. -/
theorem serviceApiKey_of_unconfigured {env : Environment} (h : internalServiceApiKey env [] = .ok []) :
    serviceApiKey env [] = genericKey env := by
  have hsources := firstKey_eq_nil.1 h
  have hfile : fileKey env "INTERNAL_API_KEY_FILE" = .ok [] := hsources _ (by simp [internalFileEnvNames])
  have hname : envKey env "INTERNAL_API_KEY" = .ok [] := hsources _ (by simp [internalEnvNames])
  have hdefault : readSecretFile env (str defaultSecretFile) = .ok [] := hsources _ (by simp)
  show firstKey [fileKey env "API_KEY_FILE", fileKey env "INTERNAL_API_KEY_FILE", envKey env "API_KEY",
    envKey env "INTERNAL_API_KEY", readSecretFile env (str defaultSecretFile)] = genericKey env
  rw [hfile, hname, hdefault]
  exact firstKey_congr (firstKey_congr rfl)

/-! ### What a request shows -/

/-- No request tells the two credentials apart: they are one, or every comparison with either raises, or both fail to
resolve. -/
def Alike : Except Exn Str → Except Exn Str → Prop
  | .ok a, .ok b => a = b ∨ a.all PyChar.isAscii = false ∧ b.all PyChar.isAscii = false
  | .error _, .error _ => True
  | _, _ => False

section Outcome

variable {serviceName : String} {headers : TokenHeaders} {accept : Bool} {expected : Str}

theorem outcome_unconfigured : outcome (checkToken serviceName headers accept []) = .status 503 := rfl

theorem outcome_missing (he : expected ≠ []) (hp : headers.provided accept = []) :
    outcome (checkToken serviceName headers accept expected) = .status 401 := by
  unfold checkToken ensure
  rw [if_pos he, hp]
  rfl

theorem outcome_provided (he : expected ≠ []) (hp : headers.provided accept ≠ []) :
    outcome (checkToken serviceName headers accept expected) =
      if (headers.provided accept).all PyChar.isAscii && expected.all PyChar.isAscii then
        if headers.provided accept = expected then .accepted else .status 403
      else .unhandled := by
  unfold checkToken ensure compareDigest
  rw [if_pos he]
  show outcome ((if headers.provided accept ≠ [] then _ else _) >>= _) = _
  rw [if_pos hp]
  split
  · by_cases h : headers.provided accept = expected
    · rw [if_pos h, beq_iff_eq.2 h]
      rfl
    · rw [if_neg h, beq_eq_false_iff_ne.2 h]
      rfl
  · rfl

end Outcome

section Alike

variable {serviceName : String} {x y : Except Exn Str}

/-- A request that carries the token `a` in its own header. -/
def TokenHeaders.ofKey (a : Str) : TokenHeaders := ⟨none, some a, none⟩

def TokenHeaders.empty : TokenHeaders := ⟨none, none, none⟩

theorem provided_ofKey {a : Str} (ha : a.Trimmed) (hne : a ≠ []) (accept : Bool) :
    (TokenHeaders.ofKey a).provided accept = a := by
  cases a with
  | nil => exact absurd rfl hne
  | cons c cs => exact ha

theorem provided_empty (accept : Bool) : TokenHeaders.empty.provided accept = [] := by
  cases accept <;> rfl

theorem outcome_empty (a : Str) :
    outcome (checkToken serviceName .empty true a) = .status (if a = [] then 503 else 401) := by
  by_cases ha : a = []
  · rw [if_pos ha, ha]
    exact outcome_unconfigured
  · rw [outcome_missing ha (provided_empty true), if_neg ha]

/-- The credential itself is accepted where it is expected, and nowhere else. -/
theorem outcome_ofKey {a b : Str} (ha : a.Trimmed) (hne : a ≠ []) (hascii : a.all PyChar.isAscii = true) (hb : b ≠ []) :
    outcome (checkToken serviceName (.ofKey a) true b) = .accepted ↔ a = b := by
  have hp := provided_ofKey ha hne true
  rw [outcome_provided hb (by rwa [hp]), hp, hascii, Bool.true_and]
  by_cases hab : a = b
  · rw [← hab, hascii]
    simp
  · rw [if_neg hab]
    cases b.all PyChar.isAscii <;> simp [hab]

/-- An ASCII credential is told from every other. -/
theorem eq_of_outcome {a b : Str} (ha : a.Trimmed) (hne : a ≠ []) (hascii : a.all PyChar.isAscii = true) (hb : b ≠ [])
    (h : ∀ headers, outcome (checkToken serviceName headers true a) = outcome (checkToken serviceName headers true b)) :
    a = b := by
  have haccepted : outcome (checkToken serviceName (.ofKey a) true a) = .accepted :=
    (outcome_ofKey ha hne hascii hne).2 rfl
  rw [h] at haccepted
  exact (outcome_ofKey ha hne hascii hb).1 haccepted

/-- Two credentials that no request tells apart are one, or neither is ASCII. -/
theorem alike_of_outcome {a b : Str} (ha : a.Trimmed) (hb : b.Trimmed)
    (h : ∀ headers, outcome (checkToken serviceName headers true a) = outcome (checkToken serviceName headers true b)) :
    Alike (.ok a) (.ok b) := by
  have hempty : (if a = [] then 503 else 401) = if b = [] then 503 else 401 :=
    Outcome.status.inj ((outcome_empty a).symm.trans ((h .empty).trans (outcome_empty b)))
  by_cases hab : a = b
  · exact .inl hab
  have hna : a ≠ [] := by
    rintro rfl
    rw [if_pos rfl, if_neg (Ne.symm hab)] at hempty
    omega
  have hnb : b ≠ [] := by
    rintro rfl
    rw [if_neg hab, if_pos rfl] at hempty
    omega
  -- a credential in ASCII would be accepted in one environment only
  refine .inr ⟨Bool.eq_false_iff.2 fun hascii => ?_, Bool.eq_false_iff.2 fun hascii => ?_⟩
  · apply hab
    exact eq_of_outcome ha hna hascii hnb h
  · apply hab
    exact (eq_of_outcome hb hnb hascii hna fun headers => (h headers).symm).symm

/-- Credentials outside ASCII are never compared. -/
theorem outcome_of_not_ascii {a b : Str} (ha : a.all PyChar.isAscii = false) (hb : b.all PyChar.isAscii = false)
    (headers : TokenHeaders) (accept : Bool) :
    outcome (checkToken serviceName headers accept a) = outcome (checkToken serviceName headers accept b) := by
  have hne : ∀ {k : Str}, k.all PyChar.isAscii = false → k ≠ [] := by
    rintro k hk rfl
    cases hk
  by_cases hp : headers.provided accept = []
  · rw [outcome_missing (hne ha) hp, outcome_missing (hne hb) hp]
  · rw [outcome_provided (hne ha) hp, outcome_provided (hne hb) hp, ha, hb, Bool.and_false]
    rfl

/-- The route answers alike for two credentials exactly when they are alike. -/
theorem outcome_eq_iff (hx : IsCredential x) (hy : IsCredential y) :
    (∀ headers, outcome (x >>= checkToken serviceName headers true) =
      outcome (y >>= checkToken serviceName headers true)) ↔ Alike x y := by
  cases x with
  | error e =>
    have he : outcome (.error e) = .unhandled := hx.unhandled e rfl
    cases y with
    | error e' =>
      have he' : outcome (.error e') = .unhandled := hy.unhandled e' rfl
      exact ⟨fun _ => trivial, fun _ _ => he.trans he'.symm⟩
    | ok b =>
      refine ⟨fun h => ?_, False.elim⟩
      have hb := he.symm.trans ((h .empty).trans (outcome_empty b))
      cases hb
  | ok a =>
    cases y with
    | error e' =>
      have he' : outcome (.error e') = .unhandled := hy.unhandled e' rfl
      refine ⟨fun h => ?_, False.elim⟩
      have hb := (outcome_empty a).symm.trans ((h .empty).trans he')
      cases hb
    | ok b =>
      constructor
      · intro h
        exact alike_of_outcome (hx.trimmed a rfl) (hy.trimmed b rfl) h
      · rintro (rfl | ⟨hna, hnb⟩) headers
        · rfl
        · exact outcome_of_not_ascii hna hnb headers true

end Alike

/-! ### The internal route -/

/-- A path that a service reads for its internal credential. -/
def ReadForInternal (env : Environment) (path : Str) : Prop :=
  path = str defaultSecretFile ∨ ∃ name ∈ internalFileEnvNames, env.environ name = some path

/-- The environments differ only in `API_KEY`, in `API_KEY_FILE`, and in files reached through it alone. -/
structure DifferInGeneric (e₁ e₂ : Environment) : Prop where
  environ : ∀ name, name ≠ "API_KEY" → name ≠ "API_KEY_FILE" → e₁.environ name = e₂.environ name
  file : ∀ path, ReadForInternal e₁ path → e₁.file path = e₂.file path

section Internal

variable {e₁ e₂ : Environment}

theorem fileKey_eq (h : DifferInGeneric e₁ e₂) {name : String} (hname : name ∈ internalFileEnvNames)
    (hne : name ≠ "API_KEY_FILE") (hne' : name ≠ "API_KEY") : fileKey e₁ name = fileKey e₂ name := by
  unfold fileKey readSecretFile
  rw [← h.environ name hne' hne]
  cases hp : e₁.environ name with
  | none => rfl
  | some path => rw [Option.getD_some, h.file path (.inr ⟨name, hname, hp⟩)]

/-- The internal credential does not depend on the generic key. -/
theorem internalServiceApiKey_eq (h : DifferInGeneric e₁ e₂) (configuredKey : Str) :
    internalServiceApiKey e₁ configuredKey = internalServiceApiKey e₂ configuredKey := by
  have hfiles : internalFileEnvNames.map (fileKey e₁) = internalFileEnvNames.map (fileKey e₂) := by
    refine List.map_congr_left fun name hname => fileKey_eq h hname ?_ ?_
    · rintro rfl
      exact absurd hname (by decide)
    · rintro rfl
      exact absurd hname (by decide)
  have hnames : internalEnvNames.map (envKey e₁) = internalEnvNames.map (envKey e₂) := by
    apply List.map_congr_left
    intro name hname
    unfold envKey
    rw [h.environ name]
    · rintro rfl
      exact absurd hname (by decide)
    · rintro rfl
      exact absurd hname (by decide)
  have hdefault : readSecretFile e₁ (str defaultSecretFile) = readSecretFile e₂ (str defaultSecretFile) := by
    unfold readSecretFile
    rw [h.file _ (.inl rfl)]
  unfold internalServiceApiKey resolveKey
  rw [hfiles, hnames, hdefault]

end Internal

/-- **The generic key tells on the internal route exactly where there is no internal credential.** -/
theorem internal_outcome_iff {e₁ e₂ : Environment} (h : DifferInGeneric e₁ e₂) (serviceName : String) :
    (∀ headers, outcome (serviceTokenDependency serviceName (internalServiceApiKey · []) true e₁ headers) =
      outcome (serviceTokenDependency serviceName (internalServiceApiKey · []) true e₂ headers)) ↔
    internalServiceApiKey e₁ [] ≠ .ok [] ∨ Alike (genericKey e₁) (genericKey e₂) := by
  have hsame := internalServiceApiKey_eq h []
  unfold serviceTokenDependency
  beta_reduce
  rw [← hsame]
  cases hkey : internalServiceApiKey e₁ [] with
  | error e => simp [bind, Except.bind]
  | ok key =>
    show (∀ headers, outcome (serviceApiKey e₁ key >>= checkToken serviceName headers true) =
      outcome (serviceApiKey e₂ key >>= checkToken serviceName headers true)) ↔ _
    by_cases hne : key = []
    · subst hne
      rw [serviceApiKey_of_unconfigured hkey, serviceApiKey_of_unconfigured (hsame.symm.trans hkey),
        outcome_eq_iff (isCredential_genericKey e₁) (isCredential_genericKey e₂)]
      simp
    · have htrimmed := (isCredential_resolveKey e₁ _ _ []).trimmed key hkey
      have hkeys : ∀ env, serviceApiKey env key = .ok key := fun env => resolveKey_of_configured htrimmed hne
      simp [hkeys, hne]

namespace Sample

def environment (names : List (String × String)) : Environment where
  environ name := (names.lookup name).map str
  file _ := .missing

theorem environ_of_ne {name value : String} {names : List (String × String)} (h : name ≠ "API_KEY") :
    (environment (("API_KEY", value) :: names)).environ name = (environment names).environ name := by
  show (List.lookup name (("API_KEY", value) :: names)).map str = _
  rw [List.lookup_cons, beq_eq_false_iff_ne.2 h]
  rfl

def brokerOutcome (env : Environment) (headers : TokenHeaders) : Outcome :=
  outcome (serviceTokenDependency "broker" (internalServiceApiKey · []) true env headers)

end Sample

theorem internal_outcome_iff_of_configured :
    (∀ headers, Sample.brokerOutcome (Sample.environment [("API_KEY", "k"), ("INTERNAL_API_KEY", "secret")]) headers =
      Sample.brokerOutcome (Sample.environment [("API_KEY", "other"), ("INTERNAL_API_KEY", "secret")]) headers) ∧
    internalServiceApiKey (Sample.environment [("API_KEY", "k"), ("INTERNAL_API_KEY", "secret")]) [] =
      .ok (str "secret") := by
  have hkey : internalServiceApiKey (Sample.environment [("API_KEY", "k"), ("INTERNAL_API_KEY", "secret")]) [] =
      .ok (str "secret") := by decide +kernel
  refine ⟨(internal_outcome_iff ⟨fun name hname _ => ?_, fun _ _ => rfl⟩ "broker").2 (.inl ?_), hkey⟩
  · exact (Sample.environ_of_ne hname).trans (Sample.environ_of_ne hname).symm
  · rw [hkey]
    decide

/-- Without an internal credential, a caller with the generic key is accepted. -/
theorem generic_accepted_of_unconfigured :
    DifferInGeneric (Sample.environment [("API_KEY", "k")]) (Sample.environment []) ∧
    Sample.brokerOutcome (Sample.environment [("API_KEY", "k")]) ⟨none, none, some (str "k")⟩ = .accepted ∧
    Sample.brokerOutcome (Sample.environment []) ⟨none, none, some (str "k")⟩ = .status 503 := by
  refine ⟨⟨fun name hname _ => ?_, fun _ _ => rfl⟩, by decide +kernel, by decide +kernel⟩
  exact Sample.environ_of_ne hname

/-! ### Every request is decided -/

/-- A path leads to no file, or to one that is readable UTF-8. -/
def Environment.Readable (env : Environment) : Prop := ∀ path, env.file path = .missing ∨ ∃ s, env.file path = .text s

def firstNonEmpty (texts : List Str) : Str := (texts.find? (· ≠ [])).getD []

/-- The trimmed first non-empty one of `X-API-Key`, the bearer token and `X-Internal-Token`. -/
def TokenHeaders.presented (headers : TokenHeaders) (acceptInternalToken : Bool) : Str :=
  Str.strip (firstNonEmpty [headers.xApiKey.getD [], bearer headers.authorization,
    if acceptInternalToken then headers.xInternalToken.getD [] else []])

/-- Acceptance exactly where the presented credential is the resolved one, and else one of three answers. -/
def Decides (serviceName : String) (env : Environment) (configuredKey : Str) (headers : TokenHeaders)
    (acceptInternalToken : Bool) : Prop :=
  (verifyServiceToken serviceName env configuredKey headers acceptInternalToken = .ok () ↔
    ∃ key, serviceApiKey env configuredKey = .ok key ∧ key ≠ [] ∧ key = headers.presented acceptInternalToken) ∧
  ∀ e, verifyServiceToken serviceName env configuredKey headers acceptInternalToken = .error e →
    ∃ code detail, e = .httpException code detail ∧ (code = 503 ∨ code = 401 ∨ code = 403)

/-- The strings can be compared, where there are two of them. -/
def Comparable (key presented : Str) : Prop :=
  key = [] ∨ presented = [] ∨ key.all PyChar.isAscii = true ∧ presented.all PyChar.isAscii = true

section Decides

variable {env : Environment} {serviceName : String} {configuredKey : Str} {headers : TokenHeaders} {accept : Bool}

theorem orElse_eq (a : Option Str) (b : Str) : orElse a b = if a.getD [] ≠ [] then a.getD [] else b := by
  rcases a with - | - | ⟨c, cs⟩ <;> rfl

theorem provided_eq_presented : headers.provided accept = headers.presented accept := by
  unfold TokenHeaders.provided TokenHeaders.presented firstNonEmpty
  simp only [orElse_eq, Option.getD_some, List.find?_cons, List.find?_nil]
  by_cases hx : headers.xApiKey.getD [] = []
  · by_cases hb : bearer headers.authorization = []
    · cases accept
      · simp [hx, hb]
      · by_cases hi : headers.xInternalToken.getD [] = []
        · simp [hx, hb, hi]
        · simp [hx, hb, hi]
    · simp [hx, hb]
  · simp [hx]

theorem firstKey_of_readable {xs : List (Except Exn Str)} (h : ∀ x ∈ xs, ∃ key, x = .ok key) :
    ∃ key, firstKey xs = .ok key := by
  induction xs with
  | nil => exact ⟨[], rfl⟩
  | cons x xs ih =>
    obtain ⟨key, rfl⟩ := h x (List.mem_cons_self ..)
    obtain ⟨key', hk⟩ := ih fun y hy => h y (List.mem_cons_of_mem _ hy)
    by_cases hne : key = []
    · exact ⟨key', firstKey_eq_ok.2 (.inr ⟨by rw [hne], hk⟩)⟩
    · exact ⟨key, firstKey_eq_ok.2 (.inl ⟨rfl, hne⟩)⟩

/-- Readable files resolve to a credential, maybe an empty one. -/
theorem serviceApiKey_of_readable (h : env.Readable) (configuredKey : Str) :
    ∃ key, serviceApiKey env configuredKey = .ok key := by
  have hread : ∀ path, ∃ key, readSecretFile env path = .ok key := by
    intro path
    unfold readSecretFile
    split
    · exact ⟨_, rfl⟩
    · rcases h path with hp | ⟨s, hp⟩
      · exact ⟨[], by rw [hp]⟩
      · exact ⟨s.strip, by rw [hp]⟩
  unfold serviceApiKey resolveKey
  split
  · exact ⟨_, rfl⟩
  · apply firstKey_of_readable
    intro x hx
    simp only [List.mem_append, List.mem_map, List.mem_singleton] at hx
    rcases hx with (⟨name, -, rfl⟩ | ⟨name, -, rfl⟩) | rfl
    · exact hread _
    · exact ⟨_, rfl⟩
    · exact hread _

theorem outcome_accepted {x : Except Exn Unit} : outcome x = .accepted ↔ x = .ok () := by
  rcases x with e | ⟨⟩
  · cases e <;> simp [outcome]
  · simp [outcome]

theorem outcome_status {x : Except Exn Unit} {code : ℕ} :
    outcome x = .status code ↔ ∃ detail, x = .error (.httpException code detail) := by
  rcases x with e | ⟨⟩
  · cases e <;> simp [outcome]
  · simp [outcome]

/-- What the caller sees, from the resolved and the presented credential. -/
theorem outcome_checkToken (key : Str) : outcome (checkToken serviceName headers accept key) =
    if key = [] then .status 503
    else if headers.presented accept = [] then .status 401
    else if (headers.presented accept).all PyChar.isAscii && key.all PyChar.isAscii then
      if headers.presented accept = key then .accepted else .status 403
    else .unhandled := by
  rw [← provided_eq_presented]
  split
  · next hk =>
    rw [hk]
    exact outcome_unconfigured
  next hk =>
  split
  · next hp => exact outcome_missing hk hp
  · next hp => exact outcome_provided hk hp

/-- A verdict, read off what the caller sees. -/
theorem decides_iff_outcome {key : Str} (hkey : serviceApiKey env configuredKey = .ok key) :
    Decides serviceName env configuredKey headers accept ↔
      (outcome (checkToken serviceName headers accept key) = .accepted ↔
        key ≠ [] ∧ key = headers.presented accept) ∧
      outcome (checkToken serviceName headers accept key) ≠ .unhandled ∧
      ∀ code, outcome (checkToken serviceName headers accept key) = .status code →
        code = 503 ∨ code = 401 ∨ code = 403 := by
  have hverify : verifyServiceToken serviceName env configuredKey headers accept =
      checkToken serviceName headers accept key := by
    unfold verifyServiceToken
    rw [hkey]
    rfl
  unfold Decides
  rw [hverify, outcome_accepted, hkey]
  simp only [Except.ok.injEq, exists_eq_left']
  apply and_congr_right
  intro _
  generalize checkToken serviceName headers accept key = x
  constructor
  · intro h
    refine ⟨fun hu => ?_, fun code hc => ?_⟩
    · rcases x with e | ⟨⟩
      · obtain ⟨code, detail, rfl, -⟩ := h e rfl
        cases hu
      · cases hu
    · obtain ⟨detail, rfl⟩ := outcome_status.1 hc
      obtain ⟨code', detail', he, hcode⟩ := h _ rfl
      cases he
      exact hcode
  · rintro ⟨hu, hc⟩ e rfl
    cases ho : outcome (.error e) with
    | accepted => cases outcome_accepted.1 ho
    | unhandled => exact absurd ho hu
    | status code =>
      obtain ⟨detail, he⟩ := outcome_status.1 ho
      exact ⟨code, detail, Except.error.inj he, hc code ho⟩

end Decides

/-- **The check of a request ends with a verdict exactly where the two credentials can be compared.** -/
theorem decides_iff {env : Environment} (h : env.Readable) (serviceName : String) (configuredKey : Str)
    (headers : TokenHeaders) (accept : Bool) :
    Decides serviceName env configuredKey headers accept ↔
      ∃ key, serviceApiKey env configuredKey = .ok key ∧ Comparable key (headers.presented accept) := by
  obtain ⟨key, hkey⟩ := serviceApiKey_of_readable h configuredKey
  rw [decides_iff_outcome hkey, outcome_checkToken, hkey]
  simp only [Except.ok.injEq, exists_eq_left']
  unfold Comparable
  by_cases hk : key = []
  · simp [hk]
  by_cases hp : headers.presented accept = []
  · simp [hk, hp]
  by_cases hascii : key.all PyChar.isAscii = true ∧ (headers.presented accept).all PyChar.isAscii = true
  · by_cases hsame : headers.presented accept = key
    · simp [hk, hsame, hascii.1]
    · simp [hk, hp, hsame, Ne.symm hsame, hascii.1, hascii.2]
  · -- the comparison raises, and nothing catches what it raises
    rw [if_neg hk, if_neg hp, if_neg (by rwa [Bool.and_eq_true, and_comm])]
    refine ⟨fun h => absurd rfl h.2.1, ?_⟩
    rintro (h | h | h)
    · exact absurd h hk
    · exact absurd h hp
    · exact absurd h hascii

theorem decides_iff_of_ascii :
    Decides "broker" (Sample.environment [("API_KEY", " k ")]) [] ⟨some (str "Bearer k"), none, none⟩ false :=
  (decides_iff (fun _ => .inl rfl) _ _ _ _).2 ⟨str "k", by decide +kernel, .inr (.inr (by decide +kernel))⟩

/-- A header outside ASCII reaches the comparison, which raises. -/
theorem not_decides_of_latin1 : ¬ ∀ (env : Environment) (serviceName : String) (configuredKey : Str)
    (headers : TokenHeaders) (accept : Bool), env.Readable →
      Decides serviceName env configuredKey headers accept := by
  intro h
  have hd := h (Sample.environment []) "broker" (str "k") ⟨none, some (str "é"), none⟩ false fun _ => .inl rfl
  obtain ⟨code, detail, he, -⟩ := hd.2 .typeError (by decide +kernel)
  cases he

end SharedAi.ServiceKit
