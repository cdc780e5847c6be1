import Mathlib.Data.Finset.Basic
import Tmis.Api.AuthGuard
import Tmis.Core.Security
import Tmis.Lib.Run

/-!
# Magic links are used once

`identity_platform.magic_links`: a login link is an access token with a purpose, and a store remembers the links that
were used.  A link is presented to the engine and to the guard of the API, in any order.  The engine accepts it
once; the guard, which looks neither at the purpose of a token nor at the store, accepts it as often as
it is presented, if the firm and the user have UUIDs.

* `MagicLinkEngine` — links are issued and consumed;
* `Deployment`, `State`, `step` — the two consumers, and the authentications they accept;
* `SingleUse` — one authentication at most, by the engine, before the link expires;
* `consume_link`, `call_link` — what each consumer makes of a link;
* `singleUse_iff` — over every sequence of presentations.
-/

namespace Tmis.IdentityPlatform

open Tmis.Lib Tmis.Core.Security Tmis.Api

/-! ### Magic links -/

/-- The engine with its `InMemoryUsedMagicLinkStore`. -/
structure MagicLinkEngine where
  used : Finset String := ∅

namespace MagicLinkEngine

variable (settings : Settings) (jwt : Jwt) (now : ℕ)

/-- The claims that make a token a magic link of a firm. -/
def linkClaims (firmId : String) : Claims :=
  ((∅ : Claims).set "firm_id" (.text firmId)).set "purpose" (.text "magic_link")

def issue (jti firmId userId : String) : String :=
  createAccessToken settings jwt now jti userId (linkClaims firmId)

/-- `consume`: the user that is logged in, if one is, and the engine after the call. -/
def consume (engine : MagicLinkEngine) (token : String) :
    Except PyException (Option String) × MagicLinkEngine :=
  if token ∈ engine.used then (.ok none, engine)
  else match decodeAccessToken settings jwt now token with
    | .error _ => (.ok none, engine)
    | .ok claims =>
        if claims.get "purpose" ≠ some (.text "magic_link") then (.ok none, engine)
        else
          (match claims.get "sub" with
            | some sub => .ok (some sub.str)
            | none => .error (keyError "sub"),
          { engine with used := insert token engine.used })

end MagicLinkEngine

/-! ### Two consumers -/

/-- The parts that the engine and the guard share. -/
structure Deployment where
  settings : Settings
  jwt : Jwt
  tables : CharTables
  guard : AuthenticationGuardMiddleware

inductive Channel where
  | magicLink | guard
  deriving DecidableEq

/-- A token was accepted. -/
structure Authentication where
  token : String
  channel : Channel
  time : ℕ
  deriving DecidableEq

/-- The clock, in seconds, the engine, and the authentications so far. -/
structure State where
  clock : ℕ
  engine : MagicLinkEngine
  accepted : List Authentication := []

inductive Action where
  | tick (duration : ℕ)
  | consume (token : String)
  | request (request : Request)

namespace Deployment

variable (d : Deployment)

def accept (s : State) (token : String) (channel : Channel) : List Authentication :=
  s.accepted ++ [{ token, channel, time := s.clock }]

def step (s : State) : Action → State
  | .tick duration => { s with clock := s.clock + duration }
  | .consume token =>
      let (result, engine) := s.engine.consume d.settings d.jwt s.clock token
      match result with
      | .ok (some _) => { s with engine, accepted := accept s token .magicLink }
      | _ => { s with engine }
  | .request request =>
      match d.guard.call d.settings d.jwt d.tables s.clock request with
      | .forwarded (some _) => { s with accepted := accept s (request.bearer.getD "") .guard }
      | _ => s

/-- The claims of a link. -/
def linkPayload (issuedAt : ℕ) (jti firmId userId : String) : Claims :=
  tokenPayload d.settings issuedAt jti userId .access (60 * d.settings.accessTokenExpireMinutes)
    (MagicLinkEngine.linkClaims firmId)

/-- The time that a link expires at. -/
def linkExpiry (issuedAt : ℕ) : ℕ := issuedAt + 60 * d.settings.accessTokenExpireMinutes

end Deployment

/-- The token is accepted once at most, by the engine, and not after its expiry. -/
def SingleUse (token : String) (expiry : ℕ) (s : State) : Prop :=
  (s.accepted.filter (·.token = token)).length ≤ 1 ∧
    ∀ a ∈ s.accepted, a.token = token → a.channel = .magicLink ∧ a.time ≤ expiry

instance (token : String) (expiry : ℕ) (s : State) : Decidable (SingleUse token expiry s) := by
  unfold SingleUse
  infer_instance

/-- The condition on a step: a request that needs a token does not carry the link before its expiry,
unless the guard cannot read its user or its firm. -/
def KeptFromGuard (d : Deployment) (link firmId userId : String) (expiry : ℕ) (s : State) :
    Action → Prop
  | .request request => ¬ d.guard.isPublic request → request.bearer = some link → s.clock ≤ expiry →
      ¬ (IsUuid d.tables userId ∧ IsUuid d.tables firmId)
  | _ => True

/-! ### One presentation -/

section Link

variable {d : Deployment} {issuedAt now : ℕ} {jti firmId userId : String} {s : State} {a : Action}
  {request : Request}

variable (d issuedAt jti firmId userId) in
/-- The link. -/
def Deployment.link : String :=
  MagicLinkEngine.issue d.settings d.jwt issuedAt jti firmId userId

variable (d issuedAt jti firmId userId) in
/-- What the codec does with the link. -/
def Deployment.DecodesLink : Prop :=
  d.jwt.Decodes d.settings (d.linkPayload issuedAt jti firmId userId) (d.linkExpiry issuedAt)

/-- The claims that the two consumers look at. -/
lemma linkPayload_get :
    (d.linkPayload issuedAt jti firmId userId).get "token_type" = some (.text "access") ∧
    (d.linkPayload issuedAt jti firmId userId).get "purpose" = some (.text "magic_link") ∧
    (d.linkPayload issuedAt jti firmId userId).get "sub" = some (.text userId) ∧
    (d.linkPayload issuedAt jti firmId userId).get "firm_id" = some (.text firmId) ∧
    (d.linkPayload issuedAt jti firmId userId).get "scopes" = none ∧
    (d.linkPayload issuedAt jti firmId userId).get "role" = none := by
  simp [Deployment.linkPayload, tokenPayload, MagicLinkEngine.linkClaims, Dict.get_update, Dict.get_set,
    TokenType.value]

lemma decode_link (h : d.DecodesLink issuedAt jti firmId userId) :
    decodeAccessToken d.settings d.jwt now (d.link issuedAt jti firmId userId) =
      if now ≤ d.linkExpiry issuedAt then .ok (d.linkPayload issuedAt jti firmId userId)
      else .error (tokenError "invalid token") := by
  unfold decodeAccessToken decodeToken
  split_ifs with hnow
  · rw [show d.jwt.decode (d.link issuedAt jti firmId userId) _ _ _ _ now = _ from h.decode_ok now hnow]
    simp [linkPayload_get.1, TokenType.value]
  · obtain ⟨e, he⟩ := h.decode_expired now (not_le.mp hnow)
    rw [show d.jwt.decode (d.link issuedAt jti firmId userId) _ _ _ _ now = _ from he]

/-- **The engine** accepts a link that is not used and has not expired. -/
theorem consume_link (h : d.DecodesLink issuedAt jti firmId userId) (engine : MagicLinkEngine) :
    engine.consume d.settings d.jwt now (d.link issuedAt jti firmId userId) =
      if d.link issuedAt jti firmId userId ∉ engine.used ∧ now ≤ d.linkExpiry issuedAt then
        (.ok (some userId),
          { engine with used := insert (d.link issuedAt jti firmId userId) engine.used })
      else (.ok none, engine) := by
  unfold MagicLinkEngine.consume
  rw [decode_link h]
  obtain ⟨-, hpurpose, hsub, -⟩ := @linkPayload_get d issuedAt jti firmId userId
  by_cases hused : d.link issuedAt jti firmId userId ∈ engine.used
  · simp [hused]
  · by_cases hnow : now ≤ d.linkExpiry issuedAt <;> simp [hused, hnow, hpurpose, hsub, ClaimValue.str]

lemma principalFromClaims_link : (∃ principal,
    principalFromClaims d.tables (d.linkPayload issuedAt jti firmId userId) = .ok principal) ↔
      IsUuid d.tables userId ∧ IsUuid d.tables firmId := by
  obtain ⟨-, -, hsub, hfirm, hscopes, hrole⟩ := @linkPayload_get d issuedAt jti firmId userId
  simp only [principalFromClaims, claim, hsub, hfirm, hscopes, hrole, ClaimValue.str, bind, Except.bind,
    pure, Except.pure, Option.getD_none, ClaimValue.frozenset, IsUuid]
  cases pyUuid d.tables userId with
  | error e => simp
  | ok userId => cases pyUuid d.tables firmId <;> simp

/-- A request that goes on with a principal carries a token. -/
lemma call_forwarded {principal : Principal}
    (h : d.guard.call d.settings d.jwt d.tables now request = .forwarded (some principal)) :
    ¬ d.guard.isPublic request ∧ ∃ token, request.bearer = some token ∧
      (decodeAccessToken d.settings d.jwt now token >>= principalFromClaims d.tables) =
        .ok principal := by
  unfold AuthenticationGuardMiddleware.call at h
  split at h
  · cases h
  · refine ⟨‹_›, ?_⟩
    split at h
    · cases h
    · rename_i token hbearer
      split at h
      · rename_i principal' hok
        cases h
        exact ⟨token, hbearer, hok⟩
      · split at h <;> cases h

/-- **The guard** accepts a link that has not expired, if the user and the firm have UUIDs. -/
theorem call_link (h : d.DecodesLink issuedAt jti firmId userId) (hpublic : ¬ d.guard.isPublic request)
    (hbearer : request.bearer = some (d.link issuedAt jti firmId userId)) :
    (∃ principal, d.guard.call d.settings d.jwt d.tables now request = .forwarded (some principal)) ↔
      now ≤ d.linkExpiry issuedAt ∧ IsUuid d.tables userId ∧ IsUuid d.tables firmId := by
  rw [← @principalFromClaims_link d issuedAt jti firmId userId]
  unfold AuthenticationGuardMiddleware.call
  rw [if_neg hpublic, hbearer]
  dsimp only
  rw [decode_link h]
  by_cases hnow : now ≤ d.linkExpiry issuedAt
  · rw [if_pos hnow, and_iff_right hnow]
    simp only [bind, Except.bind]
    cases principalFromClaims d.tables (d.linkPayload issuedAt jti firmId userId) with
    | ok principal => simp
    | error e => by_cases hanswered : AuthenticationGuardMiddleware.answered e = true <;> simp [hanswered]
  · simp only [hnow, if_false, false_and, iff_false, not_exists]
    simp [bind, Except.bind, tokenError, AuthenticationGuardMiddleware.answered]

/-! ### Sequences of presentations -/

/-- What keeps a link from a second authentication: the store, once there was a first. -/
structure UsedOnce (link : String) (expiry : ℕ) (s : State) : Prop where
  accepted : ∀ a ∈ s.accepted, a.token = link → a.channel = .magicLink ∧ a.time ≤ expiry
  count : (s.accepted.filter (·.token = link)).length ≤ if link ∈ s.engine.used then 1 else 0

lemma UsedOnce.singleUse {link : String} {expiry : ℕ} (h : UsedOnce link expiry s) :
    SingleUse link expiry s :=
  ⟨h.count.trans (by split <;> omega), h.accepted⟩

/-- The authentication of another token. -/
lemma UsedOnce.accept {link token : String} {expiry : ℕ} {channel : Channel}
    {engine : MagicLinkEngine} (h : UsedOnce link expiry s) (htoken : token ≠ link)
    (hused : link ∈ engine.used ↔ link ∈ s.engine.used) :
    UsedOnce link expiry { s with engine, accepted := Deployment.accept s token channel } where
  accepted a ha hlink := by
    rcases List.mem_append.mp ha with ha | ha
    · exact h.accepted a ha hlink
    · rw [List.mem_singleton.mp ha] at hlink
      exact absurd hlink htoken
  count := by simpa [Deployment.accept, List.filter_append, htoken, hused] using h.count

/-- Another token does not mark the link. -/
lemma consume_other {link token : String} (settings : Settings) (jwt : Jwt) (now : ℕ)
    (engine : MagicLinkEngine) (h : token ≠ link) :
    link ∈ (engine.consume settings jwt now token).2.used ↔ link ∈ engine.used := by
  unfold MagicLinkEngine.consume
  split
  · rfl
  · split
    · rfl
    · split
      · rfl
      · simp [Ne.symm h]

/-- **One step** that keeps the link from the guard. -/
theorem UsedOnce.step (hjwt : d.DecodesLink issuedAt jti firmId userId)
    (h : UsedOnce (d.link issuedAt jti firmId userId) (d.linkExpiry issuedAt) s)
    (hkept : KeptFromGuard d (d.link issuedAt jti firmId userId) firmId userId (d.linkExpiry issuedAt)
      s a) :
    UsedOnce (d.link issuedAt jti firmId userId) (d.linkExpiry issuedAt) (d.step s a) := by
  cases a with
  | tick duration => exact ⟨h.accepted, h.count⟩
  | consume token =>
    simp only [Deployment.step]
    by_cases htoken : token = d.link issuedAt jti firmId userId
    · subst htoken
      rw [consume_link hjwt]
      split_ifs with hfresh
      · -- the first time
        have hnone : s.accepted.filter (·.token = d.link issuedAt jti firmId userId) = [] := by
          have hcount := h.count
          rw [if_neg hfresh.1] at hcount
          exact List.length_eq_zero_iff.mp (Nat.le_zero.mp hcount)
        refine ⟨fun a ha hlink => ?_, ?_⟩
        · rcases List.mem_append.mp ha with ha | ha
          · exact h.accepted a ha hlink
          · rw [List.mem_singleton.mp ha]
            exact ⟨rfl, hfresh.2⟩
        · simp [Deployment.accept, List.filter_append, hnone]
      · exact h
    · have hused := consume_other d.settings d.jwt s.clock s.engine htoken
      split
      · exact h.accept htoken hused
      · exact ⟨h.accepted, by simpa only [hused] using h.count⟩
  | request request =>
    simp only [Deployment.step]
    split
    · rename_i principal hcall
      obtain ⟨hpublic, token, hbearer, -⟩ := call_forwarded hcall
      rw [hbearer, Option.getD_some]
      by_cases htoken : token = d.link issuedAt jti firmId userId
      · subst htoken
        obtain ⟨hnow, hids⟩ := (call_link hjwt hpublic hbearer).mp ⟨principal, hcall⟩
        exact absurd hids (hkept hpublic hbearer hnow)
      · exact h.accept htoken Iff.rfl
    · exact h

/-- A step takes no authentication back. -/
lemma accepted_step : s.accepted ⊆ (d.step s a).accepted := by
  cases a with
  | tick duration => exact List.Subset.refl _
  | consume token =>
    simp only [Deployment.step]
    split
    · exact List.subset_append_left ..
    · exact List.Subset.refl _
  | request request =>
    simp only [Deployment.step]
    split
    · exact List.subset_append_left ..
    · exact List.Subset.refl _

lemma accepted_run (d : Deployment) (as : List Action) (s : State) :
    s.accepted ⊆ (run d.step s as).accepted := by
  induction as generalizing s with
  | nil => exact List.Subset.refl _
  | cons a as ih => exact List.Subset.trans accepted_step (ih (d.step s a))

/-- A step that lets the link reach the guard is an authentication by the guard. -/
lemma guard_accepts (hjwt : d.DecodesLink issuedAt jti firmId userId)
    (h : ¬ KeptFromGuard d (d.link issuedAt jti firmId userId) firmId userId (d.linkExpiry issuedAt)
      s a) :
    { token := d.link issuedAt jti firmId userId, channel := .guard, time := s.clock } ∈
      (d.step s a).accepted := by
  cases a with
  | tick duration => exact absurd trivial h
  | consume token => exact absurd trivial h
  | request request =>
    simp only [KeptFromGuard, Classical.not_imp, not_not] at h
    obtain ⟨hpublic, hbearer, hnow, hids⟩ := h
    obtain ⟨principal, hcall⟩ := (call_link hjwt hpublic hbearer).mpr ⟨hnow, hids⟩
    simp only [Deployment.step, hcall, hbearer, Deployment.accept, Option.getD_some]
    exact List.mem_append_right _ List.mem_cons_self

end Link

/-- The state a link is issued in: whatever was used before, nothing was accepted yet. -/
def newLink (issuedAt : ℕ) (used : Finset String) : State := { clock := issuedAt, engine := ⟨used⟩ }

/-- **When a link is used once.**  Let the codec decode the link until it expires.  In a sequence of
presentations the link is accepted once at most, by the engine, before it expires, iff no request that
needs a token carries it before then, or the user or the firm has no UUID. -/
theorem singleUse_iff (d : Deployment) (issuedAt : ℕ) (jti firmId userId : String)
    (used : Finset String) (as : List Action) (hjwt : d.DecodesLink issuedAt jti firmId userId) :
    SingleUse (d.link issuedAt jti firmId userId) (d.linkExpiry issuedAt)
        (run d.step (newLink issuedAt used) as) ↔
      Along d.step
        (KeptFromGuard d (d.link issuedAt jti firmId userId) firmId userId (d.linkExpiry issuedAt))
        (newLink issuedAt used) as := by
  constructor
  · intro h
    refine (along_iff ..).mpr fun pre a post has => ?_
    by_contra hreached
    rw [has, run_append, run_cons] at h
    have hguard := accepted_run d post _ (guard_accepts hjwt hreached)
    have hchannel : Channel.guard = .magicLink := (h.2 _ hguard rfl).1
    cases hchannel
  · intro h
    have hnew : UsedOnce (d.link issuedAt jti firmId userId) (d.linkExpiry issuedAt)
        (newLink issuedAt used) := ⟨fun a ha => absurd ha List.not_mem_nil, Nat.zero_le _⟩
    exact (h.inv hnew fun s a hs hkept => hs.step hjwt hkept).singleUse

/-! ### A lawyer's link -/

/-- A codec that has signed one token. -/
def signedOnce (token : String) (claims : Claims) (expiry : ℕ) : Jwt where
  encode _ _ _ := token
  decode presented _ _ _ _ now :=
    if presented = token ∧ now ≤ expiry then .ok claims
    else .error ⟨"JWTError", "Signature verification failed."⟩

/-- The deployment that issued a link to the user of a firm. -/
def issuedTo (firmId userId : String) : Deployment where
  settings := {}
  jwt := signedOnce "eyJhbGci.eyJzdWIi.c2lnbmF0"
    (tokenPayload {} 0 "5d0c" userId .access 900 (MagicLinkEngine.linkClaims firmId)) 900
  tables := .ascii
  guard := ⟨buildPublicPaths "/api/v1"⟩

def firm : String := "3fa85f64-5717-4562-b3fc-2c963f66afa6"

def lawyer : String := "7c9e6679-7425-40de-944b-e07fc1f90ae7"

lemma decodesLink_issuedTo (firmId userId : String) :
    (issuedTo firmId userId).DecodesLink 0 "5d0c" firmId userId where
  encode_ne := by simp [issuedTo, signedOnce]
  decode_ok _ hnow := if_pos ⟨rfl, hnow⟩
  decode_expired _ hnow := ⟨_, if_neg fun h => absurd h.2 (not_le.mpr hnow)⟩

/-- The link is consumed twice, and sent to a public path. -/
theorem singleUse_lawyer :
    SingleUse "eyJhbGci.eyJzdWIi.c2lnbmF0" 900 (run (issuedTo firm lawyer).step (newLink 0 ∅)
      [.consume "eyJhbGci.eyJzdWIi.c2lnbmF0", .tick 60, .consume "eyJhbGci.eyJzdWIi.c2lnbmF0",
        .request { method := "GET", path := "/api/v1/health",
                   authorization := some "Bearer eyJhbGci.eyJzdWIi.c2lnbmF0" }]) :=
  (singleUse_iff (issuedTo firm lawyer) 0 "5d0c" firm lawyer ∅ _ (decodesLink_issuedTo firm lawyer)).mpr
    ⟨trivial, trivial, trivial, fun hpublic => absurd (by decide +kernel) hpublic, trivial⟩

/-- The link is consumed, and then accepted as an access token. -/
theorem link_is_access_token :
    (issuedTo firm lawyer).DecodesLink 0 "5d0c" firm lawyer ∧
      ¬ SingleUse ((issuedTo firm lawyer).link 0 "5d0c" firm lawyer) ((issuedTo firm lawyer).linkExpiry 0)
        (run (issuedTo firm lawyer).step (newLink 0 ∅)
          [.consume ((issuedTo firm lawyer).link 0 "5d0c" firm lawyer),
            .request { method := "GET", path := "/api/v1/cases",
                       authorization := some "Bearer eyJhbGci.eyJzdWIi.c2lnbmF0" }]) :=
  ⟨decodesLink_issuedTo firm lawyer, by decide +kernel⟩

end Tmis.IdentityPlatform
