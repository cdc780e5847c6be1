import Tmis.Lib.Python
import Tmis.Lib.Run
import Tmis.Lib.Store

/-!
# Sessions

The sessions of users, of `identity_platform.session_manager`: they expire, are revoked one by one or for a user at
once, and their refresh tokens are rotated.

* `SessionManager` — the engine over its in-memory store, with its operations;
* `get_step` — what one call does to one session;
* `isActive_run` — after any calls, a session is active iff it was created, has not expired, and was not revoked
  since;
* `rotated_token_gone` — a refresh token that was rotated away is no session's token again.
-/

namespace Tmis.IdentityPlatform.Sessions

open Tmis.Lib

/-- `_DEFAULT_SESSION_TTL`: eight hours, in microseconds. -/
def defaultSessionTtl : ℕ := 8 * 3600 * 1000000

/-- Refresh tokens are numbered in the order in which `secrets.token_urlsafe` draws them. -/
structure Session where
  id : Uuid
  firmId : String
  userId : String
  deviceId : Option String
  refreshToken : ℕ
  createdAt : ℕ
  expiresAt : ℕ
  revoked : Bool := false
  deriving DecidableEq

/-- The engine with its in-memory store, the identifiers and the tokens drawn so far. -/
structure SessionManager where
  store : Store (String × Uuid) Session (fun session => (session.firmId, session.id)) := ∅
  uuids : ℕ := 0
  tokens : ℕ := 0

namespace SessionManager

/-- The clock is read for the creation, and again for the expiry. -/
def create (manager : SessionManager) (firmId userId : String) (deviceId : Option String) (now later : ℕ) :
    Session × SessionManager :=
  let session : Session :=
    { id := manager.uuids, firmId, userId, deviceId, refreshToken := manager.tokens, createdAt := now,
      expiresAt := later + defaultSessionTtl }
  (session, { store := manager.store.save session, uuids := manager.uuids + 1, tokens := manager.tokens + 1 })

def isActive (manager : SessionManager) (firmId : String) (sessionId : Uuid) (now : ℕ) : Bool :=
  match manager.store.get (firmId, sessionId) with
  | none => false
  | some session => if session.revoked then false else now < session.expiresAt

/-- `_get`. -/
def require (manager : SessionManager) (firmId : String) (sessionId : Uuid) : Except PyException Session :=
  match manager.store.get (firmId, sessionId) with
  | none => .error (keyError (toString sessionId))
  | some session => .ok session

def revoke (manager : SessionManager) (firmId : String) (sessionId : Uuid) :
    Except PyException (Session × SessionManager) := do
  let session ← manager.require firmId sessionId
  let session := { session with revoked := true }
  return (session, { manager with store := manager.store.save session })

def revokeAllForUser (manager : SessionManager) (firmId userId : String) : SessionManager :=
  { manager with
    store := manager.store.saveEach (fun session => session.firmId = firmId ∧ session.userId = userId)
      fun session => { session with revoked := true } }

def rotateRefreshToken (manager : SessionManager) (firmId : String) (sessionId : Uuid) :
    Except PyException (ℕ × SessionManager) := do
  let session ← manager.require firmId sessionId
  let session := { session with refreshToken := manager.tokens }
  return (session.refreshToken, { manager with store := manager.store.save session, tokens := manager.tokens + 1 })

end SessionManager

/-! ### Runs -/

inductive Action where
  | create (firmId userId : String) (deviceId : Option String) (now later : ℕ)
  | revoke (firmId : String) (sessionId : Uuid)
  | revokeAllForUser (firmId userId : String)
  | rotateRefreshToken (firmId : String) (sessionId : Uuid)

/-- A call that raises leaves the sessions as they are. -/
def step (manager : SessionManager) : Action → SessionManager
  | .create firmId userId deviceId now later => (manager.create firmId userId deviceId now later).2
  | .revoke firmId sessionId => afterCall manager ((manager.revoke firmId sessionId).map Prod.snd)
  | .revokeAllForUser firmId userId => manager.revokeAllForUser firmId userId
  | .rotateRefreshToken firmId sessionId => afterCall manager ((manager.rotateRefreshToken firmId sessionId).map Prod.snd)

/-- How many sessions were created. -/
def created (actions : List Action) : ℕ :=
  actions.countP fun
    | .create .. => true
    | _ => false

/-- The call revokes this session of this user. -/
def Action.Revokes (firmId : String) (sessionId : Uuid) (userId : String) (action : Action) : Prop :=
  action = .revoke firmId sessionId ∨ action = .revokeAllForUser firmId userId

section Step

variable {manager : SessionManager} {session : Session} {action : Action} {k : String × Uuid}

/-- What a call makes of a session that is there. -/
def changed (manager : SessionManager) (action : Action) (session : Session) : Session :=
  match action with
  | .create .. => session
  | .revoke firmId sessionId =>
      if (session.firmId, session.id) = (firmId, sessionId) then { session with revoked := true } else session
  | .revokeAllForUser firmId userId =>
      if session.firmId = firmId ∧ session.userId = userId then { session with revoked := true } else session
  | .rotateRefreshToken firmId sessionId =>
      if (session.firmId, session.id) = (firmId, sessionId) then { session with refreshToken := manager.tokens }
      else session

lemma require_of_none {firmId : String} {sessionId : Uuid} (h : manager.store.get (firmId, sessionId) = none) :
    manager.require firmId sessionId = .error (keyError (toString sessionId)) := by
  unfold SessionManager.require
  rw [h]

lemma require_of_some {firmId : String} {sessionId : Uuid} (h : manager.store.get (firmId, sessionId) = some session) :
    manager.require firmId sessionId = .ok session := by
  unfold SessionManager.require
  rw [h]

/-- Looking a session up, changing it and saving it, unless there is none. -/
lemma step_revoke (manager : SessionManager) (firmId : String) (sessionId : Uuid) :
    step manager (.revoke firmId sessionId) =
      { manager with store := manager.store.saveAt (firmId, sessionId) fun s => { s with revoked := true } } := by
  cases h : manager.store.get (firmId, sessionId) with
  | none =>
    rw [step, SessionManager.revoke, require_of_none h, Store.saveAt, h]
    rfl
  | some session =>
    rw [step, SessionManager.revoke, require_of_some h, Store.saveAt, h]
    rfl

lemma step_rotate_store (manager : SessionManager) (firmId : String) (sessionId : Uuid) :
    (step manager (.rotateRefreshToken firmId sessionId)).store =
      manager.store.saveAt (firmId, sessionId) fun s => { s with refreshToken := manager.tokens } := by
  cases h : manager.store.get (firmId, sessionId) with
  | none =>
    rw [step, SessionManager.rotateRefreshToken, require_of_none h, Store.saveAt, h]
    rfl
  | some session =>
    rw [step, SessionManager.rotateRefreshToken, require_of_some h, Store.saveAt, h]
    rfl

/-- A token is drawn if there is a session to keep it. -/
lemma step_rotate_drawn (manager : SessionManager) (firmId : String) (sessionId : Uuid) :
    (step manager (.rotateRefreshToken firmId sessionId)).uuids = manager.uuids ∧
    (step manager (.rotateRefreshToken firmId sessionId)).tokens =
      manager.tokens + if (manager.store.get (firmId, sessionId)).isSome then 1 else 0 := by
  cases h : manager.store.get (firmId, sessionId) with
  | none =>
    rw [step, SessionManager.rotateRefreshToken, require_of_none h]
    exact ⟨rfl, rfl⟩
  | some session =>
    rw [step, SessionManager.rotateRefreshToken, require_of_some h]
    exact ⟨rfl, rfl⟩

/-- **What one call does to a session**, if there is one already. -/
theorem get_step (manager : SessionManager) (action : Action) (k : String × Uuid)
    (hnew : ∀ firmId userId deviceId now later, action = .create firmId userId deviceId now later →
      k ≠ (firmId, manager.uuids)) :
    (step manager action).store.get k = (manager.store.get k).map (changed manager action) := by
  cases action with
  | create firmId userId deviceId now later =>
    have hsave := Store.get_save manager.store (manager.create firmId userId deviceId now later).1 k
    refine (hsave.trans (if_neg (hnew _ _ _ _ _ rfl))).trans ?_
    cases manager.store.get k <;> rfl
  | revoke firmId sessionId =>
    rw [step_revoke]
    exact Store.get_saveAt (f := fun s : Session => { s with revoked := true }) (fun _ => rfl) ..
  | revokeAllForUser firmId userId =>
    have hsave := Store.get_saveEach (f := fun s : Session => { s with revoked := true }) (fun _ => rfl) manager.store
      (fun session => session.firmId = firmId ∧ session.userId = userId) k
    refine hsave.trans (congrArg (Option.map · _) (funext fun session => ?_))
    simp only [decide_eq_true_eq, changed]
  | rotateRefreshToken firmId sessionId =>
    rw [step_rotate_store]
    exact Store.get_saveAt (f := fun s : Session => { s with refreshToken := manager.tokens }) (fun _ => rfl) ..

/-- A session after a call was there, and is changed, or was created. -/
lemma of_get_step (hget : (step manager action).store.get k = some session) :
    (∃ old, manager.store.get k = some old ∧ session = changed manager action old) ∨
    ∃ firmId userId deviceId now later, action = .create firmId userId deviceId now later ∧
      k = (firmId, manager.uuids) ∧ session = (manager.create firmId userId deviceId now later).1 := by
  by_cases hnew : ∃ firmId userId deviceId now later, action = .create firmId userId deviceId now later ∧
    k = (firmId, manager.uuids)
  · obtain ⟨firmId, userId, deviceId, now, later, rfl, rfl⟩ := hnew
    have hsave : (step manager (.create firmId userId deviceId now later)).store.get (firmId, manager.uuids) =
        some (manager.create firmId userId deviceId now later).1 := Store.get_save_self ..
    rw [hsave] at hget
    exact Or.inr ⟨firmId, userId, deviceId, now, later, rfl, rfl, (Option.some.inj hget).symm⟩
  · rw [get_step manager action k fun firmId userId deviceId now later heq hk =>
      hnew ⟨firmId, userId, deviceId, now, later, heq, hk⟩] at hget
    obtain ⟨old, hold, rfl⟩ := Option.map_eq_some_iff.mp hget
    exact Or.inl ⟨old, hold, rfl⟩

lemma uuids_step (manager : SessionManager) (action : Action) :
    (step manager action).uuids = manager.uuids + created [action] := by
  cases action with
  | create => rfl
  | revokeAllForUser => rfl
  | revoke firmId sessionId =>
    rw [step_revoke]
    rfl
  | rotateRefreshToken firmId sessionId => exact (step_rotate_drawn manager firmId sessionId).1

lemma tokens_step (manager : SessionManager) (action : Action) : manager.tokens ≤ (step manager action).tokens := by
  cases action with
  | create => exact Nat.le_succ _
  | revokeAllForUser => exact le_rfl
  | revoke firmId sessionId =>
    rw [step_revoke]
  | rotateRefreshToken firmId sessionId =>
    rw [(step_rotate_drawn manager firmId sessionId).2]
    exact Nat.le_add_right _ _

/-- A session keeps its token, or takes the one that the call draws. -/
lemma token_changed (hget : manager.store.get k = some session) (action : Action) :
    (changed manager action session).refreshToken = session.refreshToken ∨
    ((changed manager action session).refreshToken = manager.tokens ∧
      action = .rotateRefreshToken k.1 k.2 ∧ manager.tokens < (step manager action).tokens) := by
  have hkey : (session.firmId, session.id) = k := manager.store.keyed k session hget
  cases action with
  | create => exact Or.inl rfl
  | revoke =>
    simp only [changed]
    left
    split <;> rfl
  | revokeAllForUser =>
    simp only [changed]
    left
    split <;> rfl
  | rotateRefreshToken firmId sessionId =>
    simp only [changed]
    by_cases hk : (session.firmId, session.id) = (firmId, sessionId)
    · have hk' : k = (firmId, sessionId) := hkey.symm.trans hk
      subst hk'
      refine Or.inr ⟨by rw [if_pos hk], rfl, ?_⟩
      rw [(step_rotate_drawn manager firmId sessionId).2, hget]
      exact Nat.lt_succ_self _
    · exact Or.inl (by rw [if_neg hk])

end Step

/-! ### Active sessions -/

section Active

variable {manager : SessionManager} {actions : List Action} {session : Session} {k : String × Uuid}

/-- What the actions say of a session: when it was created, for whom and until when, and whether it was revoked
since. -/
def CreatedIn (actions : List Action) (k : String × Uuid) (session : Session) : Prop :=
  ∃ before userId deviceId now later after, actions = before ++ .create k.1 userId deviceId now later :: after ∧
    k.2 = created before ∧ session.userId = userId ∧ session.expiresAt = later + defaultSessionTtl ∧
    (session.revoked = true ↔ ∃ action ∈ after, action.Revokes k.1 k.2 userId)

lemma created_append (before after : List Action) : created (before ++ after) = created before + created after :=
  List.countP_append

lemma created_cons (action : Action) (actions : List Action) :
    created (action :: actions) = created [action] + created actions := created_append [action] actions

lemma uuids_run (manager : SessionManager) (actions : List Action) :
    (run step manager actions).uuids = manager.uuids + created actions := by
  induction actions generalizing manager with
  | nil => rfl
  | cons action actions ih =>
    rw [run_cons, ih, uuids_step, created_cons action actions, Nat.add_assoc]

/-- Whom a session belongs to and until when it lasts is never changed. -/
lemma changed_kept (manager : SessionManager) (action : Action) (session : Session) :
    (changed manager action session).userId = session.userId ∧
    (changed manager action session).expiresAt = session.expiresAt ∧
    ((changed manager action session).revoked = true ↔
      session.revoked = true ∨ action.Revokes session.firmId session.id session.userId) := by
  cases action with
  | create => simp [changed, Action.Revokes]
  | revoke firmId sessionId =>
    simp only [changed]
    split
    · rename_i hk
      cases hk
      simp [Action.Revokes]
    · rename_i hk
      refine ⟨rfl, rfl, (or_iff_left ?_).symm⟩
      rintro (heq | heq)
      · cases heq
        exact hk rfl
      · cases heq
  | revokeAllForUser firmId userId =>
    simp only [changed]
    split
    · rename_i hk
      obtain ⟨rfl, rfl⟩ := hk
      simp [Action.Revokes]
    · rename_i hk
      refine ⟨rfl, rfl, (or_iff_left ?_).symm⟩
      rintro (heq | heq)
      · cases heq
      · cases heq
        exact hk ⟨rfl, rfl⟩
  | rotateRefreshToken firmId sessionId =>
    simp only [changed]
    split
    all_goals exact ⟨rfl, rfl, by simp [Action.Revokes]⟩

/-- A session that is there was created. -/
lemma createdIn_of_get {actions : List Action} {session : Session}
    (hget : (run step {} actions).store.get k = some session) : CreatedIn actions k session := by
  induction actions using List.reverseRecOn generalizing session with
  | nil => cases hget
  | append_singleton actions action ih =>
    rw [run_snoc] at hget
    rcases of_get_step hget with ⟨old, hold, rfl⟩ | ⟨firmId, userId, deviceId, now, later, rfl, rfl, rfl⟩
    · obtain ⟨before, userId, deviceId, now, later, after, rfl, hid, huser, hexpires, hrevoked⟩ := ih hold
      obtain ⟨huser', hexpires', hrevoked'⟩ := changed_kept (run step {} _) action old
      have hkey : (old.firmId, old.id) = k := (run step {} _).store.keyed k old hold
      refine ⟨before, userId, deviceId, now, later, after ++ [action], by simp, hid, huser'.trans huser,
        hexpires'.trans hexpires, ?_⟩
      rw [hrevoked', hrevoked, huser, ← hkey]
      simp only [List.mem_append, List.mem_singleton, or_and_right, exists_or, exists_eq_left]
    · refine ⟨actions, userId, deviceId, now, later, [], rfl, ?_, rfl, rfl, ?_⟩
      · exact (uuids_run {} actions).trans (Nat.zero_add _)
      · simp [SessionManager.create]

/-- A session that was created stays. -/
lemma get_run_of_get (manager : SessionManager) (actions : List Action) (h : (manager.store.get k).isSome) :
    ((run step manager actions).store.get k).isSome := by
  induction actions generalizing manager with
  | nil => exact h
  | cons action actions ih =>
    refine ih (step manager action) ?_
    by_cases hnew : ∃ firmId userId deviceId now later, action = .create firmId userId deviceId now later ∧
      k = (firmId, manager.uuids)
    · obtain ⟨firmId, userId, deviceId, now, later, rfl, rfl⟩ := hnew
      have hsave : (step manager (.create firmId userId deviceId now later)).store.get (firmId, manager.uuids) =
          some (manager.create firmId userId deviceId now later).1 := Store.get_save_self ..
      rw [hsave]
      rfl
    · rw [get_step manager action k fun firmId userId deviceId now later heq hk =>
        hnew ⟨firmId, userId, deviceId, now, later, heq, hk⟩, Option.isSome_map]
      exact h

/-- A session was created in one place of a run only. -/
lemma created_inj {before before' after after' : List Action} {a a' : Action} (ha : created [a] = 1)
    (ha' : created [a'] = 1) (heq : before ++ a :: after = before' ++ a' :: after')
    (hcount : created before = created before') : a = a' ∧ after = after' := by
  rcases List.append_eq_append_iff.mp heq with ⟨mid, rfl, hrest⟩ | ⟨mid, rfl, hrest⟩
  · cases mid with
    | nil => exact List.cons.inj hrest
    | cons x mid =>
      obtain ⟨rfl, -⟩ := List.cons.inj hrest
      rw [created_append, created_cons] at hcount
      omega
  · cases mid with
    | nil => exact (List.cons.inj hrest).imp Eq.symm Eq.symm
    | cons x mid =>
      obtain ⟨rfl, -⟩ := List.cons.inj hrest
      rw [created_append, created_cons] at hcount
      omega

/-- **Whether a session is active after any calls**: it is iff it was created, has not expired since, and neither it
nor all sessions of its user were revoked since. -/
theorem isActive_run (actions : List Action) (firmId : String) (sessionId : Uuid) (now : ℕ) :
    (run step {} actions).isActive firmId sessionId now = true ↔
      ∃ before userId deviceId createdAt later after,
        actions = before ++ .create firmId userId deviceId createdAt later :: after ∧
        sessionId = created before ∧ now < later + defaultSessionTtl ∧
        ∀ action ∈ after, ¬ action.Revokes firmId sessionId userId := by
  unfold SessionManager.isActive
  cases hget : (run step {} actions).store.get (firmId, sessionId) with
  | none =>
    refine iff_of_false Bool.false_ne_true ?_
    rintro ⟨before, userId, deviceId, createdAt, later, after, rfl, rfl, -⟩
    -- A session that was created is there.
    have hcreated := get_run_of_get (k := (firmId, created before))
      (step (run step {} before) (.create firmId userId deviceId createdAt later)) after (by
        have huuids : (run step {} before).uuids = created before := (uuids_run {} before).trans (Nat.zero_add _)
        rw [← huuids]
        exact Option.isSome_of_eq_some (Store.get_save_self ..))
    rw [← run_cons, ← run_append, hget] at hcreated
    cases hcreated
  | some session =>
    obtain ⟨before, userId, deviceId, createdAt, later, after, heq, hid, -, hexpires, hrevoked⟩ :=
      createdIn_of_get hget
    have hactive : (if session.revoked then false else decide (now < session.expiresAt)) = true ↔
        now < later + defaultSessionTtl ∧ ∀ action ∈ after, ¬ action.Revokes firmId sessionId userId := by
      rw [← hexpires, and_comm]
      have hnot : session.revoked = false ↔ ∀ action ∈ after, ¬ action.Revokes firmId sessionId userId := by
        rw [← Bool.not_eq_true, hrevoked]
        push Not
        rfl
      rw [← hnot]
      cases session.revoked <;> simp
    refine hactive.trans ⟨fun h => ⟨before, userId, deviceId, createdAt, later, after, heq, hid, h⟩, ?_⟩
    rintro ⟨before', userId', deviceId', createdAt', later', after', heq', hid', h⟩
    obtain ⟨hcall, rfl⟩ := created_inj rfl rfl (heq.symm.trans heq') (hid.symm.trans hid')
    cases hcall
    exact h

end Active

/-! ### Refresh tokens -/

section Tokens

variable {manager : SessionManager} {token : ℕ}

/-- Sessions have tokens that were drawn, no two of them the same one. -/
structure Drawn (manager : SessionManager) : Prop where
  below : ∀ k session, manager.store.get k = some session → session.refreshToken < manager.tokens
  distinct : ∀ k k' session session', manager.store.get k = some session → manager.store.get k' = some session' →
    session.refreshToken = session'.refreshToken → k = k'

/-- A token that was drawn, and that no session has. -/
structure Gone (manager : SessionManager) (token : ℕ) : Prop where
  drawn : token < manager.tokens
  absent : ∀ k session, manager.store.get k = some session → session.refreshToken ≠ token

/-- A session after a call has the token it had, or the one that the call draws for it alone. -/
lemma token_step {k : String × Uuid} {session : Session} {action : Action}
    (hget : (step manager action).store.get k = some session) :
    (∃ old, manager.store.get k = some old ∧ session.refreshToken = old.refreshToken) ∨
    (session.refreshToken = manager.tokens ∧ manager.tokens < (step manager action).tokens ∧
      ∀ k' session', (step manager action).store.get k' = some session' →
        session'.refreshToken = manager.tokens → k' = k ∨ ∃ old, manager.store.get k' = some old ∧
          session'.refreshToken = old.refreshToken) := by
  rcases of_get_step hget with ⟨old, hold, rfl⟩ | ⟨firmId, userId, deviceId, now, later, rfl, rfl, rfl⟩
  · rcases token_changed hold action with hkept | ⟨hnew, rfl, hlt⟩
    · exact Or.inl ⟨old, hold, hkept⟩
    · refine Or.inr ⟨hnew, hlt, fun k' session' hget' _ => ?_⟩
      rcases of_get_step hget' with ⟨old', hold', rfl⟩ | ⟨_, _, _, _, _, hcall, -⟩
      · rcases token_changed hold' (.rotateRefreshToken k.1 k.2) with hkept' | ⟨-, hcall, -⟩
        · exact Or.inr ⟨old', hold', hkept'⟩
        · obtain ⟨hfirm, hid⟩ := Action.rotateRefreshToken.inj hcall
          exact Or.inl (Prod.ext hfirm.symm hid.symm)
      · cases hcall
  · refine Or.inr ⟨rfl, Nat.lt_succ_self _, fun k' session' hget' _ => ?_⟩
    rcases of_get_step hget' with ⟨old', hold', hchanged⟩ | ⟨_, _, _, _, _, hcall, rfl, -⟩
    · exact Or.inr ⟨old', hold', congrArg Session.refreshToken hchanged⟩
    · cases hcall
      exact Or.inl rfl

lemma Drawn.step (h : Drawn manager) (action : Action) : Drawn (step manager action) where
  below k session hget := by
    rcases token_step hget with ⟨old, hold, htoken⟩ | ⟨htoken, hlt, -⟩
    · rw [htoken]
      exact (h.below k old hold).trans_le (tokens_step manager action)
    · rw [htoken]
      exact hlt
  distinct k k' session session' hget hget' heq := by
    rcases token_step hget with ⟨old, hold, htoken⟩ | ⟨htoken, -, halone⟩
    · rcases token_step hget' with ⟨old', hold', htoken'⟩ | ⟨htoken', -, -⟩
      · exact h.distinct k k' old old' hold hold' (htoken.symm.trans (heq.trans htoken'))
      · have hlt := h.below k old hold
        rw [← htoken, heq, htoken'] at hlt
        exact absurd hlt (Nat.lt_irrefl _)
    · rcases halone k' session' hget' (heq.symm.trans htoken) with rfl | ⟨old', hold', htoken'⟩
      · rfl
      · have hlt := h.below k' old' hold'
        rw [← htoken', ← heq, htoken] at hlt
        exact absurd hlt (Nat.lt_irrefl _)

lemma drawn_run (actions : List Action) : Drawn (run step {} actions) :=
  run_inv (I := Drawn) actions ⟨nofun, nofun⟩ fun _ action h => h.step action

/-- A token that is gone does not come back. -/
lemma Gone.step (h : Gone manager token) (action : Action) : Gone (step manager action) token where
  drawn := h.drawn.trans_le (tokens_step manager action)
  absent k session hget := by
    rcases of_get_step hget with ⟨old, hold, rfl⟩ | ⟨firmId, userId, deviceId, now, later, rfl, -, rfl⟩
    · rcases token_changed hold action with hkept | ⟨hnew, -⟩
      · rw [hkept]
        exact h.absent k old hold
      · rw [hnew]
        exact Nat.ne_of_gt h.drawn
    · exact Nat.ne_of_gt h.drawn

/-- The token that is rotated away is gone. -/
lemma gone_rotate (h : Drawn manager) {firmId : String} {sessionId : Uuid} {session : Session}
    (hget : manager.store.get (firmId, sessionId) = some session) :
    Gone (step manager (.rotateRefreshToken firmId sessionId)) session.refreshToken where
  drawn := (h.below _ _ hget).trans_le (tokens_step manager _)
  absent k other hother := by
    rcases of_get_step hother with ⟨old, hold, rfl⟩ | ⟨_, _, _, _, _, hcall, -⟩
    · by_cases hk : k = (firmId, sessionId)
      · subst hk
        have hkey : (old.firmId, old.id) = (firmId, sessionId) := manager.store.keyed _ old hold
        simp only [changed, if_pos hkey]
        exact Nat.ne_of_gt (h.below _ _ hget)
      · have hkey : (old.firmId, old.id) ≠ (firmId, sessionId) := fun heq =>
          hk ((manager.store.keyed k old hold).symm.trans heq)
        simp only [changed, if_neg hkey]
        exact fun heq => hk (h.distinct k _ old session hold hget heq)
    · cases hcall

/-- **A refresh token that was rotated away** is no session's token again, of that session or of another one, whatever
calls follow. -/
theorem rotated_token_gone (before after : List Action) (firmId : String) (sessionId : Uuid) (session : Session)
    (hget : (run step {} before).store.get (firmId, sessionId) = some session) (k : String × Uuid) (other : Session)
    (hother : (run step {} (before ++ .rotateRefreshToken firmId sessionId :: after)).store.get k = some other) :
    other.refreshToken ≠ session.refreshToken := by
  have hgone := run_inv (I := fun manager => Gone manager session.refreshToken) after
    (gone_rotate (drawn_run before) hget) fun _ action h => h.step action
  rw [run_append, run_cons] at hother
  exact hgone.absent k other hother

/-- A session that is there, and one that was created after its token was rotated away. -/
theorem rotated_token_gone_two :
    ∃ session other, (run step {} [.create "f" "u" none 0 0]).store.get ("f", 0) = some session ∧
      (run step {} ([.create "f" "u" none 0 0] ++ .rotateRefreshToken "f" 0 :: [.create "g" "v" none 1 1])).store.get
        ("g", 1) = some other ∧ other.refreshToken ≠ session.refreshToken :=
  ⟨_, _, rfl, rfl, rotated_token_gone [.create "f" "u" none 0 0] [.create "g" "v" none 1 1] "f" 0 _ rfl ("g", 1) _ rfl⟩

end Tokens

end Tmis.IdentityPlatform.Sessions

/-!
## Impersonation

The support sessions of `identity_platform.impersonation`, in which an administrator acts as a user.

* `ImpersonationEngine` — the engine over its in-memory store, with its operations;
* `atMostOne_run` — an administrator has one open session at most, and may start another one iff there is none;
* `record_run` — no record disappears or changes but for the moment at which it ended.
-/

namespace Tmis.IdentityPlatform.Impersonation

open Tmis.Lib

structure ImpersonationSession where
  id : Uuid
  firmId : String
  adminId : String
  targetUserId : String
  reason : String
  startedAt : ℕ
  endedAt : Option ℕ := none
  deriving DecidableEq

/-- The engine with its in-memory store; `uuids` counts the identifiers drawn so far. -/
structure ImpersonationEngine where
  store : Store (String × Uuid) ImpersonationSession (fun session => (session.firmId, session.id)) := ∅
  uuids : ℕ := 0

/-- A session of this administrator that has not ended. -/
def isOpen (firmId adminId : String) (session : ImpersonationSession) : Bool :=
  session.firmId = firmId ∧ session.adminId = adminId ∧ session.endedAt = none

namespace ImpersonationEngine

/-- `active_for_admin`, of the engine and of its store. -/
def activeForAdmin (engine : ImpersonationEngine) (firmId adminId : String) : Option ImpersonationSession :=
  engine.store.values.find? (isOpen firmId adminId)

def start (engine : ImpersonationEngine) (firmId adminId targetUserId reason : String) (now : ℕ) :
    Except PyException (ImpersonationSession × ImpersonationEngine) :=
  match engine.activeForAdmin firmId adminId with
  | some _ => .error ⟨"RuntimeError", "admin " ++ pyRepr adminId ++ " already has an active impersonation session"⟩
  | none =>
    let session : ImpersonationSession :=
      { id := engine.uuids, firmId, adminId, targetUserId, reason, startedAt := now }
    .ok (session, { store := engine.store.save session, uuids := engine.uuids + 1 })

def endSession (engine : ImpersonationEngine) (firmId : String) (sessionId : Uuid) (now : ℕ) :
    Except PyException (ImpersonationSession × ImpersonationEngine) :=
  match engine.store.get (firmId, sessionId) with
  | none => .error (keyError (toString sessionId))
  | some session =>
    let session := { session with endedAt := some now }
    .ok (session, { engine with store := engine.store.save session })

def history (engine : ImpersonationEngine) (firmId : String) : List ImpersonationSession :=
  engine.store.values.filter (·.firmId = firmId)

end ImpersonationEngine

/-! ### Runs -/

inductive Action where
  | start (firmId adminId targetUserId reason : String) (now : ℕ)
  | endSession (firmId : String) (sessionId : Uuid) (now : ℕ)

/-- A call that raises leaves the sessions as they are. -/
def step (engine : ImpersonationEngine) : Action → ImpersonationEngine
  | .start firmId adminId targetUserId reason now =>
      afterCall engine ((engine.start firmId adminId targetUserId reason now).map Prod.snd)
  | .endSession firmId sessionId now => afterCall engine ((engine.endSession firmId sessionId now).map Prod.snd)

/-- The moment at which a call ends a session. -/
def endedBy (k : String × Uuid) : Action → Option ℕ
  | .start .. => none
  | .endSession firmId sessionId now => if (firmId, sessionId) = k then some now else none

section Step

variable {engine : ImpersonationEngine} {firmId adminId : String} {k : String × Uuid}

/-- Identifiers are new, and an administrator has one open session at most. -/
structure Sound (engine : ImpersonationEngine) : Prop where
  ids : ∀ k session, engine.store.get k = some session → k.2 < engine.uuids
  single : ∀ firmId adminId, engine.store.values.countP (isOpen firmId adminId) ≤ 1

lemma Sound.new (h : Sound engine) (firmId : String) : engine.store.get (firmId, engine.uuids) = none := by
  cases hget : engine.store.get (firmId, engine.uuids) with
  | none => rfl
  | some session => exact absurd (h.ids _ session hget) (Nat.lt_irrefl _)

/-- There is no open session iff none is counted. -/
lemma activeForAdmin_eq_none_iff :
    engine.activeForAdmin firmId adminId = none ↔ engine.store.values.countP (isOpen firmId adminId) = 0 := by
  rw [ImpersonationEngine.activeForAdmin, List.find?_eq_none, List.countP_eq_zero]

lemma step_start (engine : ImpersonationEngine) (firmId adminId targetUserId reason : String) (now : ℕ) :
    step engine (.start firmId adminId targetUserId reason now) =
      match engine.activeForAdmin firmId adminId with
      | some _ => engine
      | none =>
        { store := engine.store.save ⟨engine.uuids, firmId, adminId, targetUserId, reason, now, none⟩,
          uuids := engine.uuids + 1 } := by
  simp only [step, ImpersonationEngine.start]
  cases engine.activeForAdmin firmId adminId <;> rfl

lemma step_end (engine : ImpersonationEngine) (firmId : String) (sessionId : Uuid) (now : ℕ) :
    step engine (.endSession firmId sessionId now) =
      { engine with store := engine.store.saveAt (firmId, sessionId) fun s => { s with endedAt := some now } } := by
  simp only [step, ImpersonationEngine.endSession, Store.saveAt]
  cases engine.store.get (firmId, sessionId) <;> rfl

lemma Sound.step (h : Sound engine) (action : Action) : Sound (step engine action) := by
  cases action with
  | start firmId adminId targetUserId reason now =>
    rw [step_start]
    split
    · exact h
    · rename_i hnone
      have hcount := activeForAdmin_eq_none_iff.mp hnone
      refine ⟨fun k session hget => ?_, fun firmId' adminId' => ?_⟩
      · obtain ⟨rfl, -⟩ | ⟨-, hget⟩ := Store.get_save_cases hget
        · exact Nat.lt_succ_self _
        · exact (h.ids k session hget).trans (Nat.lt_succ_self _)
      · refine (Store.countP_save_new (isOpen firmId' adminId') (h.new firmId)).trans_le ?_
        by_cases hsame : firmId = firmId' ∧ adminId = adminId'
        · obtain ⟨rfl, rfl⟩ := hsame
          rw [hcount, Nat.zero_add]
          exact Bool.toNat_le _
        · have hother : isOpen firmId' adminId' ⟨engine.uuids, firmId, adminId, targetUserId, reason, now, none⟩ = false :=
            decide_eq_false fun hopen => hsame ⟨hopen.1, hopen.2.1⟩
          rw [hother]
          exact h.single firmId' adminId'
  | endSession firmId sessionId now =>
    rw [step_end]
    refine ⟨fun k session hget => ?_, fun firmId' adminId' => ?_⟩
    · have hsave := Store.get_saveAt (f := fun s : ImpersonationSession => { s with endedAt := some now })
        (fun _ => rfl) engine.store (firmId, sessionId) k
      obtain ⟨old, hold, -⟩ := Option.map_eq_some_iff.mp (hsave.symm.trans hget)
      exact h.ids k old hold
    · unfold Store.saveAt
      split
      · exact h.single firmId' adminId'
      · rename_i session hget
        have hkey : (session.firmId, session.id) = (firmId, sessionId) := engine.store.keyed _ session hget
        have hcount := Store.countP_save_over (isOpen firmId' adminId')
          (v := { session with endedAt := some now }) (hkey ▸ hget)
        have hended : isOpen firmId' adminId' { session with endedAt := some now } = false :=
          decide_eq_false fun hopen => nomatch hopen.2.2
        rw [hended] at hcount
        have hsingle := h.single firmId' adminId'
        show (engine.store.save { session with endedAt := some now }).values.countP (isOpen firmId' adminId') ≤ 1
        rw [Bool.toNat_false] at hcount
        omega

lemma sound_run (actions : List Action) : Sound (run step {} actions) :=
  run_inv (I := Sound) actions ⟨nofun, fun _ _ => Nat.zero_le _⟩ fun _ action h => h.step action

/-- **One open session at most**: after any calls, each administrator of each firm has one open session at most, and
`start` is refused iff there is one. -/
theorem atMostOne_run (actions : List Action) (firmId adminId : String) :
    ((run step {} actions).history firmId).countP (isOpen firmId adminId) ≤ 1 ∧
    ∀ targetUserId reason now,
      (∃ error, (run step {} actions).start firmId adminId targetUserId reason now = .error error) ↔
        ∃ session ∈ (run step {} actions).history firmId, isOpen firmId adminId session = true := by
  refine ⟨?_, fun targetUserId reason now => ?_⟩
  · exact (List.filter_sublist.countP_le).trans ((sound_run actions).single firmId adminId)
  · have hmem : (∃ session ∈ (run step {} actions).history firmId, isOpen firmId adminId session = true) ↔
        ((run step {} actions).activeForAdmin firmId adminId).isSome := by
      rw [ImpersonationEngine.activeForAdmin, List.find?_isSome]
      constructor
      · rintro ⟨session, hsession, hopen⟩
        exact ⟨session, (List.mem_filter.mp hsession).1, hopen⟩
      · rintro ⟨session, hsession, hopen⟩
        have hfirm : session.firmId = firmId := (of_decide_eq_true hopen).1
        exact ⟨session, List.mem_filter.mpr ⟨hsession, decide_eq_true hfirm⟩, hopen⟩
    rw [hmem]
    unfold ImpersonationEngine.start
    cases (run step {} actions).activeForAdmin firmId adminId <;> simp

/-- What one call does to a session that is there: it ends it, or leaves it. -/
lemma get_step (h : Sound engine) (action : Action) {session : ImpersonationSession}
    (hget : engine.store.get k = some session) :
    (step engine action).store.get k =
      some { session with endedAt := (endedBy k action).or session.endedAt } := by
  cases action with
  | start firmId adminId targetUserId reason now =>
    rw [step_start]
    split
    · exact hget
    · have hne : k ≠ (firmId, engine.uuids) := by
        rintro rfl
        rw [h.new firmId] at hget
        cases hget
      exact (Store.get_save ..).trans ((if_neg hne).trans hget)
  | endSession firmId sessionId now =>
    have hkey : (session.firmId, session.id) = k := engine.store.keyed k session hget
    have hsave := Store.get_saveAt (f := fun s : ImpersonationSession => { s with endedAt := some now })
      (fun _ => rfl) engine.store (firmId, sessionId) k
    rw [step_end]
    refine hsave.trans ?_
    rw [hget, Option.map_some, hkey, endedBy]
    by_cases hk : k = (firmId, sessionId)
    · rw [if_pos hk, if_pos hk.symm]
      rfl
    · rw [if_neg hk, if_neg (Ne.symm hk)]
      rfl

/-- **The record of a session stays**: whatever calls follow, it is under its identifier, and all of it but the moment
at which it ended is as it was; that moment is the one that was given last, if one was. -/
theorem record_run (before after : List Action) (firmId : String) (sessionId : Uuid) (session : ImpersonationSession)
    (hget : (run step {} before).store.get (firmId, sessionId) = some session) :
    (run step {} (before ++ after)).store.get (firmId, sessionId) =
      some { session with endedAt := (lastWrite (endedBy (firmId, sessionId)) after).or session.endedAt } ∧
    { session with endedAt := (lastWrite (endedBy (firmId, sessionId)) after).or session.endedAt } ∈
      (run step {} (before ++ after)).history firmId := by
  have hrecord : (run step {} (before ++ after)).store.get (firmId, sessionId) =
      some { session with endedAt := (lastWrite (endedBy (firmId, sessionId)) after).or session.endedAt } := by
    induction after using List.reverseRecOn with
    | nil =>
      rw [List.append_nil]
      exact hget
    | append_singleton after action ih =>
      rw [← List.append_assoc, run_snoc, get_step (sound_run (before ++ after)) action ih, lastWrite_snoc,
        Option.or_assoc]
  have hkey := (run step {} (before ++ after)).store.keyed _ _ hrecord
  exact ⟨hrecord, List.mem_filter.mpr ⟨Store.mem_values_of_get hrecord, decide_eq_true (Prod.mk.inj hkey).1⟩⟩

/-- A session that ends, and is ended once more. -/
theorem record_run_ended :
    ∃ session, (run step {} [.start "f" "a" "u" "r" 0]).store.get ("f", 0) = some session ∧
      (run step {} ([.start "f" "a" "u" "r" 0] ++ [.endSession "f" 0 3, .endSession "f" 0 5])).store.get ("f", 0) =
        some { session with endedAt := some 5 } :=
  ⟨_, rfl, (record_run [.start "f" "a" "u" "r" 0] [.endSession "f" 0 3, .endSession "f" 0 5] "f" 0 _ rfl).1⟩

end Step

end Tmis.IdentityPlatform.Impersonation
