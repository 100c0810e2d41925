import SharedAi.Control.Trace
import SharedAi.ServiceKit.RedeemUrl

/-!
# Who closes the HTTP clients

Redeemers and the application, in any order: the application constructs redeemers, with a client or without, calls and
closes them, and closes the clients that it gave.

* `Client`, `Holder`, `World` — the clients, the redeemers that hold them, and what was posted through which client;
* `World.step` — what `__init__`, `__call__` and `aclose` do to them;
* `Owned` — what every run keeps (`owned_run`);
* `clientClosed_iff` — which clients are closed, and when one that a redeemer created is left open.
-/

namespace SharedAi.ServiceKit

open SharedAi.Control SharedAi.Num SharedAi.Python SharedAi.Text

/-! ### Redeemers with clients -/

/-- A client that the application gave, or the `n`-th that was created. -/
inductive Client (κ : Type) where
  | given (c : κ)
  | created (n : ℕ)
  deriving DecidableEq

/-- A redeemer, with `_client` and `_owns_client`. -/
structure Holder (κ : Type) where
  redeemer : AsyncHTTPCapabilityGrantRedeemer
  client : Client κ
  ownsClient : Bool

structure World (κ : Type) where
  holders : List (Holder κ)
  created : ℕ
  closed : List (Client κ)
  posts : List (Client κ × Post)

def World.init {κ : Type} : World κ := ⟨[], 0, [], []⟩

inductive Action (κ : Type) where
  | construct (brokerBaseUrl endpointTemplate : Str) (timeout : Float64) (allowInsecureHttp : Bool) (client : Option κ)
  | call (i : ℕ) (redemption : CapabilityGrantRedemptionRequest) (authHeaders : List (Str × Str))
  | aclose (i : ℕ)
  | close (c : κ)

section Model

variable {κ : Type} [DecidableEq κ] (httpx : Httpx) (format : Str → Str → Except Exn Str) (truthy : κ → Bool)

/-- `client or httpx.AsyncClient(…)`. -/
def clientOr (created : ℕ) : Option κ → Client κ
  | none => .created created
  | some c => if truthy c then .given c else .created created

/-- The clients that were created, with `client or httpx.AsyncClient(…)`. -/
def createdOr (created : ℕ) : Option κ → ℕ
  | none => created + 1
  | some c => if truthy c then created else created + 1

/-- A redeemer is added, with its `_client` and `_owns_client = client is None`. -/
def World.construct (w : World κ) (redeemer : AsyncHTTPCapabilityGrantRedeemer) (client : Option κ) : World κ :=
  { w with
    holders := w.holders ++ [⟨redeemer, clientOr truthy w.created client, client.isNone⟩]
    created := createdOr truthy w.created client }

def World.step (w : World κ) : Action κ → World κ
  | .construct brokerBaseUrl endpointTemplate timeout allowInsecureHttp client =>
    match AsyncHTTPCapabilityGrantRedeemer.make httpx brokerBaseUrl endpointTemplate timeout allowInsecureHttp with
    | .ok redeemer => w.construct truthy redeemer client
    | .error _ => w
  | .call i redemption authHeaders =>
    match w.holders[i]? with
    | some h =>
      match h.redeemer.post format redemption authHeaders with
      -- a closed client raises instead of posting
      | .ok post => if h.client ∈ w.closed then w else { w with posts := w.posts ++ [(h.client, post)] }
      | .error _ => w
    | none => w
  | .aclose i =>
    match w.holders[i]? with
    | some h => if h.ownsClient then { w with closed := h.client :: w.closed } else w
    | none => w
  | .close c => { w with closed := .given c :: w.closed }

def worldAfter (actions : List (Action κ)) : World κ := run (World.step httpx format truthy) .init actions

/-- The `i`-th redeemer was closed, after it was constructed. -/
def Acloses (i : ℕ) : List (Action κ) → Prop :=
  Happens (World.step httpx format truthy) .init fun w a => a = .aclose i ∧ i < w.holders.length

/-- A redeemer was constructed with a client that counts as false. -/
def GivenFalsy : List (Action κ) → Prop :=
  Happens (World.step httpx format truthy) .init fun _ a =>
    ∃ url template timeout insecure c redeemer, a = .construct url template timeout insecure (some c) ∧
      AsyncHTTPCapabilityGrantRedeemer.make httpx url template timeout insecure = .ok redeemer ∧ truthy c = false

end Model

/-! ### What every run keeps -/

def Client.number {κ : Type} : Client κ → Option ℕ
  | .given _ => none
  | .created n => some n

section Owned

variable {κ : Type} [DecidableEq κ] {httpx : Httpx} {format : Str → Str → Except Exn Str} {truthy : κ → Bool}
  {actions : List (Action κ)} {w : World κ} {a : Action κ}

/-- What an action can do to the holders and the closed clients. -/
theorem step_cases (httpx : Httpx) (format : Str → Str → Except Exn Str) (truthy : κ → Bool) (w : World κ)
    (a : Action κ) :
    (∃ url template timeout insecure client redeemer, a = .construct url template timeout insecure client ∧
      AsyncHTTPCapabilityGrantRedeemer.make httpx url template timeout insecure = .ok redeemer ∧
      w.step httpx format truthy a = w.construct truthy redeemer client) ∨
    (∃ i h, a = .aclose i ∧ w.holders[i]? = some h ∧ h.ownsClient = true ∧
      w.step httpx format truthy a = { w with closed := h.client :: w.closed }) ∨
    (∃ c, a = .close c ∧ w.step httpx format truthy a = { w with closed := .given c :: w.closed }) ∨
    ∃ posts, w.step httpx format truthy a = { w with posts := w.posts ++ posts } ∧
      (∀ p ∈ posts, ∃ h ∈ w.holders, h.client = p.1 ∧
        ∃ redemption authHeaders, h.redeemer.post format redemption authHeaders = .ok p.2) ∧
      (∀ c, a ≠ .close c) ∧
      (∀ i h, a = .aclose i → w.holders[i]? = some h → h.ownsClient = false) ∧
      ∀ url template timeout insecure client redeemer, a = .construct url template timeout insecure client →
        AsyncHTTPCapabilityGrantRedeemer.make httpx url template timeout insecure ≠ .ok redeemer := by
  cases a with
  | construct url template timeout insecure client =>
    cases hmake : AsyncHTTPCapabilityGrantRedeemer.make httpx url template timeout insecure with
    | ok redeemer =>
      exact .inl ⟨url, template, timeout, insecure, client, redeemer, rfl, hmake, by rw [World.step, hmake]⟩
    | error e =>
      refine .inr (.inr (.inr ⟨[], by simp [World.step, hmake], nofun, nofun, nofun, ?_⟩))
      rintro _ _ _ _ _ redeemer ⟨⟩ hok
      rw [hmake] at hok
      cases hok
  | call i redemption authHeaders =>
    refine .inr (.inr (.inr ?_))
    have hsame : w = { w with posts := w.posts ++ [] } := by rw [List.append_nil]
    unfold World.step
    dsimp only
    split
    · next h hi =>
      split
      · next post hpost =>
        split
        · exact ⟨[], hsame, nofun, nofun, nofun, nofun⟩
        · refine ⟨_, rfl, fun p hp => ?_, nofun, nofun, nofun⟩
          obtain rfl := List.mem_singleton.1 hp
          exact ⟨h, List.mem_of_getElem? hi, rfl, redemption, authHeaders, hpost⟩
      · exact ⟨[], hsame, nofun, nofun, nofun, nofun⟩
    · exact ⟨[], hsame, nofun, nofun, nofun, nofun⟩
  | aclose i =>
    cases hi : w.holders[i]? with
    | none =>
      refine .inr (.inr (.inr ⟨[], by simp [World.step, hi], nofun, nofun, ?_, nofun⟩))
      rintro _ h ⟨⟩ hh
      rw [hi] at hh
      cases hh
    | some h =>
      cases howns : h.ownsClient with
      | true => exact .inr (.inl ⟨i, h, rfl, hi, howns, by simp [World.step, hi, howns]⟩)
      | false =>
        refine .inr (.inr (.inr ⟨[], by simp [World.step, hi, howns], nofun, nofun, ?_, nofun⟩))
        rintro _ h' ⟨⟩ hh
        rw [hi] at hh
        cases hh
        exact howns
  | close c => exact .inr (.inr (.inl ⟨c, rfl, rfl⟩))

/-- Given clients are not owned, each created client has one holder, and a client is closed by its owner, or by the
application that gave it. -/
structure Owned (httpx : Httpx) (format : Str → Str → Except Exn Str) (truthy : κ → Bool) (actions : List (Action κ))
    (w : World κ) : Prop where
  given : ∀ h ∈ w.holders, ∀ c, h.client = .given c → h.ownsClient = false
  created : w.holders.filterMap (fun h => h.client.number) = List.range w.created
  leaked : (∃ h ∈ w.holders, h.ownsClient = false ∧ h.client.number.isSome = true) ↔
    GivenFalsy httpx format truthy actions
  acloses : ∀ i, Acloses httpx format truthy i actions → i < w.holders.length
  closed : ∀ c, c ∈ w.closed ↔
    (∃ i h, Acloses httpx format truthy i actions ∧ w.holders[i]? = some h ∧ h.ownsClient = true ∧ h.client = c) ∨
      ∃ k, c = .given k ∧ Action.close k ∈ actions
  posted : ∀ p ∈ w.posts, ∃ h ∈ w.holders, h.client = p.1 ∧
    ∃ redemption authHeaders, h.redeemer.post format redemption authHeaders = .ok p.2

theorem acloses_concat {i : ℕ} : Acloses httpx format truthy i (actions ++ [a]) ↔
    Acloses httpx format truthy i actions ∨
      a = .aclose i ∧ i < (worldAfter httpx format truthy actions).holders.length := happens_concat

theorem givenFalsy_concat : GivenFalsy httpx format truthy (actions ++ [a]) ↔ GivenFalsy httpx format truthy actions ∨
    ∃ url template timeout insecure c redeemer, a = .construct url template timeout insecure (some c) ∧
      AsyncHTTPCapabilityGrantRedeemer.make httpx url template timeout insecure = .ok redeemer ∧ truthy c = false :=
  happens_concat

theorem acloses_concat_of_ne {i : ℕ} (h : ∀ i, a ≠ .aclose i) :
    Acloses httpx format truthy i (actions ++ [a]) ↔ Acloses httpx format truthy i actions := by
  rw [acloses_concat]
  exact or_iff_left fun ha => h i ha.1

omit [DecidableEq κ] in
theorem close_mem_concat_of_ne {k : κ} (h : ∀ c, a ≠ .close c) :
    Action.close k ∈ actions ++ [a] ↔ Action.close k ∈ actions := by
  simp [(h k).symm]

theorem Owned.init : Owned httpx format truthy [] .init where
  given h hh := by cases hh
  created := rfl
  leaked := by
    constructor
    · rintro ⟨h, hh, -⟩
      cases hh
    · exact fun h => absurd h not_happens_nil
  acloses i h := absurd h not_happens_nil
  closed c := by
    constructor
    · intro h
      cases h
    · rintro (⟨i, h, hi, -⟩ | ⟨k, -, hk⟩)
      · exact absurd hi not_happens_nil
      · cases hk
  posted p hp := by cases hp

/-- A redeemer that is constructed has a client of its own, or one that was given. -/
theorem Owned.construct (hw : Owned httpx format truthy actions (worldAfter httpx format truthy actions))
    {url template : Str} {timeout : Float64} {insecure : Bool} {client : Option κ}
    {redeemer : AsyncHTTPCapabilityGrantRedeemer}
    (hmake : AsyncHTTPCapabilityGrantRedeemer.make httpx url template timeout insecure = .ok redeemer) :
    Owned httpx format truthy (actions ++ [.construct url template timeout insecure client])
      ((worldAfter httpx format truthy actions).construct truthy redeemer client) where
  given := by
    intro h hh c hc
    rcases List.mem_append.1 hh with hh | hh
    · exact hw.given h hh c hc
    · obtain rfl := List.mem_singleton.1 hh
      cases client with
      | none => cases hc
      | some _ => rfl
  created := by
    have hlast : ∀ n : ℕ, ∀ o : Option κ, List.range n ++ [clientOr truthy n o].filterMap Client.number =
        List.range (createdOr truthy n o) := by
      intro n o
      cases o with
      | none => exact List.range_succ.symm
      | some c =>
        cases hc : truthy c with
        | true => simp [clientOr, createdOr, hc, Client.number]
        | false => simp [clientOr, createdOr, hc, Client.number, List.range_succ]
    show _ = List.range (createdOr truthy (worldAfter httpx format truthy actions).created client)
    rw [← hlast, ← hw.created, World.construct, List.filterMap_append]
    rfl
  leaked := by
    have hnew : ∀ o : Option κ, ∀ n : ℕ, (o.isNone = false ∧ (clientOr truthy n o).number.isSome = true) ↔
        ∃ c, o = some c ∧ truthy c = false := by
      intro o n
      cases o with
      | none => simp
      | some c => cases hc : truthy c <;> simp [clientOr, hc, Client.number]
    rw [givenFalsy_concat, ← hw.leaked]
    constructor
    · rintro ⟨h, hh, hleak⟩
      rcases List.mem_append.1 hh with hh | hh
      · exact .inl ⟨h, hh, hleak⟩
      · obtain rfl := List.mem_singleton.1 hh
        obtain ⟨c, rfl, hc⟩ := (hnew _ _).1 hleak
        exact .inr ⟨url, template, timeout, insecure, c, redeemer, rfl, hmake, hc⟩
    · rintro (⟨h, hh, hleak⟩ | ⟨_, _, _, _, c, _, heq, -, hc⟩)
      · exact ⟨h, List.mem_append_left _ hh, hleak⟩
      · cases heq
        exact ⟨_, List.mem_append_right _ (List.mem_singleton.2 rfl), (hnew _ _).2 ⟨c, rfl, hc⟩⟩
  acloses i hi := by
    have hi := (acloses_concat_of_ne (fun _ h => by cases h)).1 hi
    have hlt := hw.acloses i hi
    simp only [World.construct, List.length_append]
    omega
  closed c := by
    have hclose : ∀ k, Action.close k ∈ actions ++ [.construct url template timeout insecure client] ↔
        Action.close k ∈ actions := fun k => close_mem_concat_of_ne fun _ => nofun
    show c ∈ (worldAfter httpx format truthy actions).closed ↔ _
    have hacloses : ∀ i, Acloses httpx format truthy i (actions ++ [.construct url template timeout insecure client]) ↔
        Acloses httpx format truthy i actions := fun i => acloses_concat_of_ne fun _ => nofun
    simp only [hw.closed c, hclose, hacloses]
    refine or_congr (exists_congr fun i => exists_congr fun h => and_congr_right fun hi => ?_) Iff.rfl
    rw [World.construct, List.getElem?_append_left (hw.acloses i hi)]
  posted p hp := by
    obtain ⟨h, hh, hclient, hpost⟩ := hw.posted p hp
    exact ⟨h, List.mem_append_left _ hh, hclient, hpost⟩

/-- What does not construct a redeemer leaves who holds what. -/
theorem Owned.keep (hw : Owned httpx format truthy actions (worldAfter httpx format truthy actions))
    (hconstruct : ∀ url template timeout insecure client redeemer, a = .construct url template timeout insecure client →
      AsyncHTTPCapabilityGrantRedeemer.make httpx url template timeout insecure ≠ .ok redeemer)
    {closed : List (Client κ)} {posts : List (Client κ × Post)}
    (hclosed : ∀ c, c ∈ closed ↔ c ∈ (worldAfter httpx format truthy actions).closed ∨
      (∃ i h, a = .aclose i ∧ (worldAfter httpx format truthy actions).holders[i]? = some h ∧ h.ownsClient = true ∧
        h.client = c) ∨ ∃ k, c = .given k ∧ a = .close k)
    (hposts : ∀ p ∈ posts, ∃ h ∈ (worldAfter httpx format truthy actions).holders, h.client = p.1 ∧
      ∃ redemption authHeaders, h.redeemer.post format redemption authHeaders = .ok p.2) :
    Owned httpx format truthy (actions ++ [a])
      { worldAfter httpx format truthy actions with closed := closed, posts := posts } where
  given := hw.given
  created := hw.created
  leaked := by
    rw [givenFalsy_concat, ← hw.leaked]
    refine (or_iff_left ?_).symm
    rintro ⟨url, template, timeout, insecure, c, redeemer, ha, hmake, -⟩
    exact hconstruct _ _ _ _ _ _ ha hmake
  acloses i hi := by
    rcases acloses_concat.1 hi with hi | ⟨-, hi⟩
    · exact hw.acloses i hi
    · exact hi
  closed c := by
    show c ∈ closed ↔ _
    rw [hclosed, hw.closed]
    simp only [acloses_concat, List.mem_append, List.mem_singleton]
    constructor
    · rintro ((⟨i, h, hi, hh⟩ | ⟨k, hk, hc⟩) | ⟨i, h, ha, hh⟩ | ⟨k, hk, ha⟩)
      · exact .inl ⟨i, h, .inl hi, hh⟩
      · exact .inr ⟨k, hk, .inl hc⟩
      · exact .inl ⟨i, h, .inr ⟨ha, (List.getElem?_eq_some_iff.1 hh.1).1⟩, hh⟩
      · exact .inr ⟨k, hk, .inr ha.symm⟩
    · rintro (⟨i, h, hi | hi, hh⟩ | ⟨k, hk, hc | hc⟩)
      · exact .inl (.inl ⟨i, h, hi, hh⟩)
      · exact .inr (.inl ⟨i, h, hi.1, hh⟩)
      · exact .inl (.inr ⟨k, hk, hc⟩)
      · exact .inr (.inr ⟨k, hk, hc.symm⟩)
  posted := hposts

theorem owned_run (actions : List (Action κ)) :
    Owned httpx format truthy actions (worldAfter httpx format truthy actions) := by
  refine run_induction (I := Owned httpx format truthy) Owned.init ?_ actions
  intro actions a hw
  show Owned httpx format truthy (actions ++ [a]) ((worldAfter httpx format truthy actions).step httpx format truthy a)
  rcases step_cases httpx format truthy (worldAfter httpx format truthy actions) a with
    ⟨url, template, timeout, insecure, client, redeemer, rfl, hmake, hstep⟩ | ⟨i, h, rfl, hi, howns, hstep⟩ |
      ⟨c, rfl, hstep⟩ | ⟨posts, hstep, hposts, hclose, haclose, hconstruct⟩
  · rw [hstep]
    exact Owned.construct hw hmake
  · rw [hstep]
    refine Owned.keep hw (fun _ _ _ _ _ _ h => by cases h) (fun c => ?_) hw.posted
    rw [List.mem_cons]
    constructor
    · rintro (rfl | hc)
      · exact .inr (.inl ⟨i, h, rfl, hi, howns, rfl⟩)
      · exact .inl hc
    · rintro (hc | ⟨_, h', ⟨⟩, hi', -, rfl⟩ | ⟨k, -, hk⟩)
      · exact .inr hc
      · rw [hi] at hi'
        cases hi'
        exact .inl rfl
      · cases hk
  · rw [hstep]
    refine Owned.keep hw (fun _ _ _ _ _ _ h => by cases h) (fun c' => ?_) hw.posted
    rw [List.mem_cons]
    constructor
    · rintro (rfl | hc)
      · exact .inr (.inr ⟨c, rfl, rfl⟩)
      · exact .inl hc
    · rintro (hc | ⟨_, h', ⟨⟩, -⟩ | ⟨k, rfl, ⟨⟩⟩)
      · exact .inr hc
      · exact .inl rfl
  · rw [hstep]
    refine Owned.keep hw hconstruct (fun c => ?_) fun p hp => ?_
    · refine (or_iff_left ?_).symm
      rintro (⟨i, h, ha, hi, howns, -⟩ | ⟨k, -, ha⟩)
      · rw [haclose i h ha hi] at howns
        cases howns
      · exact hclose k ha
    · rcases List.mem_append.1 hp with hp | hp
      · exact hw.posted p hp
      · exact hposts p hp

/-! ### Closed clients -/

/-- A created client has one holder. -/
theorem Owned.holder_unique (hw : Owned httpx format truthy actions w) {i j n : ℕ} {h k : Holder κ}
    (hi : w.holders[i]? = some h) (hj : w.holders[j]? = some k) (hh : h.client = .created n)
    (hk : k.client = .created n) : i = j := by
  have hnodup : (w.holders.filterMap fun h => h.client.number).Nodup := hw.created ▸ List.nodup_range
  have hpairs := List.pairwise_iff_getElem.1 (List.pairwise_filterMap.1 hnodup)
  obtain ⟨hilt, rfl⟩ := List.getElem?_eq_some_iff.1 hi
  obtain ⟨hjlt, rfl⟩ := List.getElem?_eq_some_iff.1 hj
  have hnumber : ∀ {c : Client κ}, c = .created n → c.number = some n := by
    rintro _ rfl
    rfl
  rcases lt_trichotomy i j with hlt | heq | hlt
  · exact absurd rfl (hpairs i j hilt hjlt hlt n (hnumber hh) n (hnumber hk))
  · exact heq
  · exact absurd rfl (hpairs j i hjlt hilt hlt n (hnumber hk) n (hnumber hh))

theorem Owned.lt_created_iff (hw : Owned httpx format truthy actions w) {n : ℕ} :
    n < w.created ↔ ∃ h ∈ w.holders, h.client = .created n := by
  rw [← List.mem_range, ← hw.created, List.mem_filterMap]
  refine exists_congr fun h => and_congr_right fun _ => ?_
  cases h.client <;> simp [Client.number]

/-- The client of a redeemer is closed through that redeemer, or by the application that gave it. -/
theorem Owned.mem_closed_iff (hw : Owned httpx format truthy actions w) {i : ℕ} {h : Holder κ}
    (hi : w.holders[i]? = some h) : h.client ∈ w.closed ↔
      (h.ownsClient = true ∧ Acloses httpx format truthy i actions) ∨
        ∃ c, h.client = .given c ∧ Action.close c ∈ actions := by
  rw [hw.closed]
  constructor
  · rintro (⟨j, k, hj, hk, howns, hclient⟩ | hgiven)
    · -- an owner holds a client that was created, so that it is this one
      cases hc : k.client with
      | given c =>
        rw [hw.given k (List.mem_of_getElem? hk) c hc] at howns
        cases howns
      | created n =>
        obtain rfl := hw.holder_unique hk hi hc (hclient ▸ hc)
        rw [hk] at hi
        cases hi
        exact .inl ⟨howns, hj⟩
    · exact .inr hgiven
  · rintro (⟨howns, hj⟩ | hgiven)
    · exact .inl ⟨i, h, hj, hi, howns, rfl⟩
    · exact .inr hgiven

theorem Owned.lt_created_iff_existsUnique (hw : Owned httpx format truthy actions w) {n : ℕ} :
    n < w.created ↔ ∃! i : ℕ, ∃ h : Holder κ, w.holders[i]? = some h ∧ h.client = .created n := by
  rw [hw.lt_created_iff]
  constructor
  · rintro ⟨h, hh, hc⟩
    obtain ⟨i, hi⟩ := List.mem_iff_getElem?.1 hh
    refine ⟨i, ⟨h, hi, hc⟩, ?_⟩
    rintro j ⟨k, hj, hk⟩
    exact hw.holder_unique hj hi hk hc
  · rintro ⟨i, ⟨h, hi, hc⟩, -⟩
    exact ⟨h, List.mem_of_getElem? hi, hc⟩

/-- A created client that its holder does not own is never closed. -/
theorem Owned.not_mem_closed (hw : Owned httpx format truthy actions w) {h : Holder κ} {n : ℕ} (hh : h ∈ w.holders)
    (howns : h.ownsClient = false) (hc : h.client = .created n) : h.client ∉ w.closed := by
  obtain ⟨i, hi⟩ := List.mem_iff_getElem?.1 hh
  rw [hw.mem_closed_iff hi]
  rintro (⟨htrue, -⟩ | ⟨c, hgiven, -⟩)
  · rw [howns] at htrue
    cases htrue
  · rw [hc] at hgiven
    cases hgiven

/-- Once all redeemers were closed, the open clients among the created ones are those that nobody owns. -/
theorem Owned.all_closed_iff (hw : Owned httpx format truthy actions w)
    (hall : ∀ i < w.holders.length, Acloses httpx format truthy i actions) :
    (∀ n < w.created, .created n ∈ w.closed) ↔ ¬ GivenFalsy httpx format truthy actions := by
  rw [← hw.leaked]
  constructor
  · rintro hcreated ⟨h, hh, howns, hnumber⟩
    cases hc : h.client with
    | given c =>
      rw [hc] at hnumber
      cases hnumber
    | created n =>
      refine hw.not_mem_closed hh howns hc ?_
      rw [hc]
      exact hcreated n (hw.lt_created_iff.2 ⟨h, hh, hc⟩)
  · intro hfalsy n hn
    obtain ⟨h, hh, hc⟩ := hw.lt_created_iff.1 hn
    obtain ⟨i, hi⟩ := List.mem_iff_getElem?.1 hh
    have howns : h.ownsClient = true := by
      by_contra howns
      exact hfalsy ⟨h, hh, by simpa using howns, by rw [hc]; rfl⟩
    rw [← hc, hw.mem_closed_iff hi]
    exact .inl ⟨howns, hall i (List.getElem?_eq_some_iff.1 hi).1⟩

end Owned

/-- **A client is closed by the redeemer that owns it, or by the application that gave it, and by nobody else.**  Each
created client has one redeemer; and closing every redeemer closes all of them, unless a client was given that counts
as false. -/
theorem clientClosed_iff {κ : Type} [DecidableEq κ] (httpx : Httpx) (format : Str → Str → Except Exn Str)
    (truthy : κ → Bool) (actions : List (Action κ)) :
    let w := worldAfter httpx format truthy actions
    (∀ i h, w.holders[i]? = some h → (h.client ∈ w.closed ↔
      (h.ownsClient = true ∧ Acloses httpx format truthy i actions) ∨
        ∃ c, h.client = .given c ∧ Action.close c ∈ actions)) ∧
    (∀ n, n < w.created ↔ ∃! i : ℕ, ∃ h : Holder κ, w.holders[i]? = some h ∧ h.client = .created n) ∧
    (∀ p ∈ w.posts, ∃ h ∈ w.holders, h.client = p.1 ∧
      ∃ redemption authHeaders, h.redeemer.post format redemption authHeaders = .ok p.2) ∧
    ((∀ i < w.holders.length, Acloses httpx format truthy i actions) →
      ((∀ n < w.created, .created n ∈ w.closed) ↔ ¬ GivenFalsy httpx format truthy actions)) := by
  intro w
  have hw : Owned httpx format truthy actions w := owned_run actions
  exact ⟨fun i h hi => hw.mem_closed_iff hi, fun n => hw.lt_created_iff_existsUnique, hw.posted, hw.all_closed_iff⟩

end SharedAi.ServiceKit
