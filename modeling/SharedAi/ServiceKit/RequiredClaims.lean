import SharedAi.ServiceKit.Verifier

/-!
# Required claims

The opaque claims a route asks for, beyond those the verifier interprets.

* `requiredClaimsSnapshot` — the configured values as canonical bytes, taken when the route is built;
* `verifyRequiredClaims` — the claims of a grant, thawed and compared with the snapshot;
* `verifyRequiredClaims_iff` — the comparison is equality as JSON.
-/

namespace SharedAi.ServiceKit

open SharedAi.Control SharedAi.Data SharedAi.Num SharedAi.Python SharedAi.Text

/-! ### The snapshot -/

def validClaimName (key : Str) : Bool :=
  decide (key ≠ []) && decide key.Trimmed && decide (key.length ≤ 200) && key.all fun c => !c.isControl

/-- `except CapabilityGrantFormatError` of `_required_claims_snapshot`. -/
def requiredClaimsInvalid : Exn → Option Exn
  | .capabilityGrantFormatError _ => some (.capabilityGrantFormatError "capability_grant_required_claims_invalid")
  | _ => none

/-- One turn of the loop of `_required_claims_snapshot`. -/
def requiredClaim (py : Interp) : PyKey × PyVal → Except Exn (Str × Bytes)
  | (.object _, _) => .error (.capabilityGrantFormatError "capability_grant_required_claims_invalid")
  | (.str key, value) =>
    if validClaimName key then (catching requiredClaimsInvalid (canonicalJsonBytes py value)).map (key, ·)
    else .error (.capabilityGrantFormatError "capability_grant_required_claims_invalid")

/-- `_required_claims_snapshot`; the keys of a mapping are distinct, so each is set once. -/
def requiredClaimsSnapshot (py : Interp) : PyVal → Except Exn (List (Str × Bytes))
  | .none => .ok []
  | .dict ms => ms.mapM (requiredClaim py)
  | .proxy ms => ms.mapM (requiredClaim py)
  | _ => .error (.capabilityGrantFormatError "capability_grant_required_claims_invalid")

def items : PyVal → List (PyKey × PyVal)
  | .dict ms => ms
  | .proxy ms => ms
  | _ => []

theorem distinctKeys_items {source : PyVal} (hk : source.distinctKeys = true) {m : PyKey × PyVal}
    (hm : m ∈ items source) : m.2.distinctKeys = true := by
  cases source with
  | dict ms => exact (PyVal.distinctKeys_dict.1 hk).2 m hm
  | proxy ms => exact (PyVal.distinctKeys_dict.1 hk).2 m hm
  | _ => cases hm

theorem requiredClaim_eq_ok {py : Interp} {m : PyKey × PyVal} {r : Str × Bytes} : requiredClaim py m = .ok r ↔
    m.1 = .str r.1 ∧ validClaimName r.1 = true ∧ canonicalJsonBytes py m.2 = .ok r.2 := by
  obtain ⟨key, value⟩ := m
  obtain ⟨name, expected⟩ := r
  cases key with
  | object i => simp [requiredClaim]
  | str key =>
    rw [requiredClaim]
    constructor
    · intro h
      split at h
      · next hk =>
        obtain ⟨b, hb, he⟩ := map_eq_ok.1 h
        cases he
        exact ⟨rfl, hk, catching_eq_ok.1 hb⟩
      · cases h
    · rintro ⟨hkey, hk, hb⟩
      cases hkey
      rw [if_pos hk]
      exact map_eq_ok.2 ⟨_, catching_eq_ok.2 hb, rfl⟩

/-- The snapshot holds the bytes of each configured value. -/
theorem requiredClaimsSnapshot_eq_ok {py : Interp} {source : PyVal} {snapshot : List (Str × Bytes)}
    (h : requiredClaimsSnapshot py source = .ok snapshot) :
    List.Forall₂ (fun m r => requiredClaim py m = .ok r) (items source) snapshot := by
  cases source with
  | none =>
    cases h
    exact .nil
  | dict ms => exact mapM_eq_ok.1 h
  | proxy ms => exact mapM_eq_ok.1 h
  | _ => cases h

/-! ### The comparison -/

/-- `except CapabilityGrantFormatError` of `_verify_required_claims`. -/
def requiredClaimMismatch : Exn → Option Exn
  | .capabilityGrantFormatError _ => some (.capabilityGrantDenied "capability_grant_required_claim_mismatch")
  | _ => none

/-- One turn of the loop of `_verify_required_claims`. -/
def verifyRequiredClaim (py : Interp) (grant : VerifiedCapabilityGrant) (required : Str × Bytes) :
    Except Exn Unit :=
  match (items grant.claims).lookup (.str required.1) with
  | none => .error (.capabilityGrantDenied "capability_grant_required_claim_mismatch")
  | some value => do
    let actual ← catching requiredClaimMismatch (thawJson py value >>= canonicalJsonBytes py)
    ensure (actual = required.2) (.capabilityGrantDenied "capability_grant_required_claim_mismatch")

/-- `_verify_required_claims`. -/
def verifyRequiredClaims (py : Interp) (grant : VerifiedCapabilityGrant) (requiredClaims : List (Str × Bytes)) :
    Except Exn Unit :=
  forM requiredClaims (verifyRequiredClaim py grant)

/-- The claim object has a member that equals the configured one as JSON. -/
def HoldsClaim (ms : List (PyKey × PyVal)) (required : PyKey × PyVal) : Prop :=
  ∃ w, (required.1, w) ∈ ms ∧ w.jsonEq required.2 = true

section Compare

variable {py : Interp} {grant : VerifiedCapabilityGrant} {ms : List (PyKey × PyVal)}

/-- A claim of the grant is the frozen member of the claim object. -/
theorem lookup_claims (hgrant : freezeJson py (.dict ms) = .ok grant.claims) (key : PyKey) :
    Option.Rel (fun v w => IsFrozen v w ∧ freezeFrames py v ≤ py.frames) (ms.lookup key)
      ((items grant.claims).lookup key) := by
  obtain ⟨hf, hroom⟩ := freezeJson_eq_ok.1 hgrant
  obtain ⟨ns, hns, hmembers⟩ := isFrozen_dict.1 hf
  obtain ⟨-, hms⟩ := PyVal.stack_dict_le.1 hroom
  rw [hns]
  refine lookup_forall₂ (forall₂_imp_mem hmembers fun m hm n _ hmn => ?_) key
  exact ⟨hmn.1, hmn.2, (hms m hm).trans (Nat.sub_le _ _)⟩

theorem validate_claim (hv : validateJsonValue py (.dict ms) = .ok ()) {key : PyKey} {w : PyVal}
    (hw : (key, w) ∈ ms) : validateJsonValue py w = .ok () := by
  obtain ⟨n, hn, hms⟩ := validate_dict.1 hv
  exact validate_mono (by omega) (hms _ hw).2

variable (hgrant : freezeJson py (.dict ms) = .ok grant.claims) (hk : PyVal.distinctKeys (.dict ms) = true)
  (hv : validateJsonValue py (.dict ms) = .ok ())
include hgrant hk hv

omit hk hv in
theorem verifyRequiredClaim_of_not_mem {r : Str × Bytes} (h : ms.lookup (.str r.1) = none) :
    verifyRequiredClaim py grant r =
      .error (.capabilityGrantDenied "capability_grant_required_claim_mismatch") := by
  have hrel := lookup_claims hgrant (.str r.1)
  rw [h] at hrel
  rw [verifyRequiredClaim]
  cases hi : (items grant.claims).lookup (.str r.1) with
  | none => rfl
  | some w =>
    rw [hi] at hrel
    cases hrel

/-- What is read of the grant under a name is the member of that name, thawed. -/
theorem verifyRequiredClaim_of_mem {r : Str × Bytes} {v : PyVal} (hm : (.str r.1, v) ∈ ms) :
    verifyRequiredClaim py grant r = (do
      let actual ← catching requiredClaimMismatch (canonicalJsonBytes py v)
      ensure (actual = r.2) (.capabilityGrantDenied "capability_grant_required_claim_mismatch")) := by
  obtain ⟨hnd, hks⟩ := PyVal.distinctKeys_dict.1 hk
  have hrel := lookup_claims hgrant (.str r.1)
  rw [(lookup_eq_some hnd).2 hm] at hrel
  rw [verifyRequiredClaim]
  cases hi : (items grant.claims).lookup (.str r.1) with
  | none =>
    rw [hi] at hrel
    cases hrel
  | some w =>
    rw [hi] at hrel
    cases hrel with
    | some h =>
      have hthaw : thawJson py w = .ok v := thawWithin_of_isFrozen (validate_claim hv hm) (hks _ hm) h.1 h.2
      simp only [hthaw, ok_bind]

theorem verifyRequiredClaim_eq_ok {m : PyKey × PyVal} {r : Str × Bytes} (hmk : m.2.distinctKeys = true)
    (hr : requiredClaim py m = .ok r) : verifyRequiredClaim py grant r = .ok () ↔ HoldsClaim ms m := by
  obtain ⟨hkey, -, hb⟩ := requiredClaim_eq_ok.1 hr
  have hnd := (PyVal.distinctKeys_dict.1 hk).1
  rw [HoldsClaim, hkey]
  cases hl : ms.lookup (.str r.1) with
  | none =>
    rw [verifyRequiredClaim_of_not_mem hgrant hl]
    constructor
    · intro h
      cases h
    · rintro ⟨w, hw, -⟩
      rw [(lookup_eq_some hnd).2 hw] at hl
      cases hl
  | some w =>
    have hw := (lookup_eq_some hnd).1 hl
    have hwk := (PyVal.distinctKeys_dict.1 hk).2 _ hw
    rw [verifyRequiredClaim_of_mem hgrant hk hv hw]
    simp only [bind_eq_ok, catching_eq_ok, ensure_eq_ok]
    constructor
    · rintro ⟨b, hb', rfl⟩
      exact ⟨w, hw, jsonEq_of_bytes hb' hb⟩
    · rintro ⟨w', hw', heq⟩
      obtain rfl := mem_unique hnd hw hw'
      have hsymm := PyVal.jsonEq_symm hwk hmk heq
      exact ⟨r.2, canonicalJsonBytes_congr (v := ⟨_, hmk⟩) (w := ⟨w, hwk⟩) hsymm hb (validate_claim hv hw), rfl⟩

theorem verifyRequiredClaim_raisesIn (r : Str × Bytes) :
    RaisesIn Exn.IsDenied (verifyRequiredClaim py grant r) := by
  have hnd := (PyVal.distinctKeys_dict.1 hk).1
  cases hl : ms.lookup (.str r.1) with
  | none =>
    rw [verifyRequiredClaim_of_not_mem hgrant hl]
    exact raisesIn_error.2 (Exn.isDenied _)
  | some w =>
    have hw := (lookup_eq_some hnd).1 hl
    have hbytes := canonicalJsonBytes_raisesIn_of_valid (validate_claim hv hw)
    rw [verifyRequiredClaim_of_mem hgrant hk hv hw]
    refine (hbytes.catching ?_).bind fun b _ => raisesIn_ensure (Exn.isDenied _)
    rintro e ⟨code, rfl⟩
    exact Exn.isDenied _

theorem verifyRequiredClaims_raisesIn (snapshot : List (Str × Bytes)) :
    RaisesIn Exn.IsDenied (verifyRequiredClaims py grant snapshot) :=
  raisesIn_forM fun r _ => verifyRequiredClaim_raisesIn hgrant hk hv r

/-- The claims of a grant pass if and only if each configured one is held. -/
theorem verifyRequiredClaims_eq_ok {source : Value} {snapshot : List (Str × Bytes)}
    (hs : requiredClaimsSnapshot py source = .ok snapshot) :
    verifyRequiredClaims py grant snapshot = .ok () ↔ ∀ m ∈ items source, HoldsClaim ms m := by
  have hrel := requiredClaimsSnapshot_eq_ok hs
  have hstep : ∀ m ∈ items source, ∀ r, requiredClaim py m = .ok r →
      (verifyRequiredClaim py grant r = .ok () ↔ HoldsClaim ms m) := fun m hm r hr =>
    verifyRequiredClaim_eq_ok hgrant hk hv (distinctKeys_items source.2 hm) hr
  rw [verifyRequiredClaims, forM_eq_ok]
  constructor
  · intro h m hm
    obtain ⟨r, hr, hmr⟩ := forall₂_mem_left hrel hm
    exact (hstep m hm r hmr).1 (h r hr)
  · intro h r hr
    obtain ⟨m, hm, hmr⟩ := forall₂_mem_right hrel hr
    exact (hstep m hm r hmr).2 (h m hm)

end Compare

/-- **A required claim is compared as JSON.** -/
theorem verifyRequiredClaims_iff (py : Interp) {source c : Value} {snapshot : List (Str × Bytes)}
    {ms : List (PyKey × PyVal)} {grant : VerifiedCapabilityGrant}
    (hs : requiredClaimsSnapshot py source = .ok snapshot) (hc : c.1 = .dict ms)
    (hv : validateJsonValue py c = .ok ()) (hgrant : freezeJson py c = .ok grant.claims) :
    (verifyRequiredClaims py grant snapshot = .ok () ↔
      ∀ m ∈ items source, ∃ w, (m.1, w) ∈ ms ∧ w.jsonEq m.2 = true) ∧
    ∀ e, verifyRequiredClaims py grant snapshot = .error e → ∃ code, e = .capabilityGrantDenied code := by
  obtain ⟨c, hk⟩ := c
  subst hc
  exact ⟨verifyRequiredClaims_eq_ok hgrant hk hv hs, verifyRequiredClaims_raisesIn hgrant hk hv snapshot⟩

namespace Sample

def required : Value :=
  ⟨.dict [(.str (str "scope"),
    .dict [(.str (str "paths"), .list [.str (str "/tmp"), .none]), (.str (str "limit"), .int 3)])], by decide +kernel⟩

def snapshot : List (Str × Bytes) := [(str "scope", "\x7b\"limit\":3,\"paths\":[\"/tmp\",null]\x7d".toUTF8.toList)]

theorem holdsScope : ∀ m ∈ items required, HoldsClaim claims m := by
  intro m hm
  obtain rfl := List.mem_singleton.1 hm
  refine ⟨.dict [(.str (str "limit"), .int 3), (.str (str "paths"), .list [.str (str "/tmp"), .none])], ?_, ?_⟩
  · simp [claims, unsignedClaims]
  · decide +kernel

end Sample

theorem verifyRequiredClaims_iff_of_scope :
    verifyRequiredClaims .cpython (verifiedGrant Sample.interpreted Sample.frozen) Sample.snapshot = .ok () :=
  (verifyRequiredClaims_iff .cpython (show requiredClaimsSnapshot .cpython Sample.required = .ok Sample.snapshot by
    decide +kernel) (show (⟨.dict Sample.claims, by decide +kernel⟩ : Value).1 = .dict Sample.claims from rfl)
    (by decide +kernel) Sample.freeze_claims).1.2 Sample.holdsScope

end SharedAi.ServiceKit
