import Tmis.Collaboration.Confinement
import Tmis.Collaboration.Powers
import Tmis.Lib.Calls

/-!
# Operations of the workspace that raise

An operation looks up what it is about, writes to its store, records itself in the audit trail and
publishes an event.  Some look up after they have written, and what a subscriber of the event raises comes
out of the operation when everything is written.

* `Outside`, `attempt` — one operation, with what it returns or raises;
* `seen` — members, tasks, approvals, links and the audit trail;
* `RaisesFirst` — what can raise does so before the first write;
* `atomic_iff`, `along_workspaceAtomic_iff` — the runs in which an operation that raises changes nothing.
-/

namespace Tmis.Collaboration

open Tmis.Lib WorkspaceEngine

/-- What is raised, if anything, by what an operation calls besides the stores: where the expiry of a link
is computed, where the mentions in a comment are handed on, and by the subscribers of its event. -/
structure Outside where
  expiry : Option PyException := none
  mentions : Option PyException := none
  subscribers : Option PyException := none

/-- `CollaborationEventBus.publish`, at the end of an operation. -/
def published (outside : Outside) (s : WorkspaceEngine) : Except PyException Unit × WorkspaceEngine :=
  match outside.subscribers with
  | none => (.ok (), s)
  | some e => (.error e, s)

/-- An operation that either raises or publishes its event. -/
def ended {X : Type} (outside : Outside) (s : WorkspaceEngine)
    (call : Except PyException (X × WorkspaceEngine)) : Except PyException Unit × WorkspaceEngine :=
  match call with
  | .error e => (.error e, s)
  | .ok (_, s') => published outside s'

/-- An operation that may have written before it raises. -/
def endedAfter {X : Type} (outside : Outside) :
    Except PyException X × WorkspaceEngine → Except PyException Unit × WorkspaceEngine
  | (.error e, s') => (.error e, s')
  | (.ok _, s') => published outside s'

/-- What an operation returns or raises, and the state after it. -/
def attempt (outside : Outside) (s : WorkspaceEngine) :
    Operation → Except PyException Unit × WorkspaceEngine
  | .createWorkspace firmId name actorId => published outside (s.createWorkspace firmId name actorId).2
  | .inviteMember workspaceId email displayName actorId =>
    endedAfter outside (s.inviteMember workspaceId email displayName actorId)
  | .changeMemberStatus workspaceId memberId target actorId =>
    ended outside s (s.changeMemberStatus workspaceId memberId target actorId)
  | .assignRole workspaceId memberId role actorId =>
    published outside (s.assignRole workspaceId memberId role actorId)
  | .createTask workspaceId title actorId description caseId assigneeId priority dependsOn =>
    endedAfter outside
      (s.createTask workspaceId title actorId description caseId assigneeId priority dependsOn)
  | .updateTaskStatus workspaceId taskId target actorId =>
    ended outside s (s.updateTaskStatus workspaceId taskId target actorId)
  | .addComment workspaceId targetType targetId authorId text attachmentIds =>
    match outside.mentions with
    | some e =>
      -- the comment is saved, and nothing recorded
      let comment : Comment :=
        { id := s.uuids, workspaceId, targetType, targetId, authorId, text, attachmentIds }
      (.error e, { s with comments := s.comments.save comment, uuids := s.uuids + 1 })
    | none =>
      published outside (s.addComment workspaceId targetType targetId authorId text attachmentIds).2
  | .requestApproval workspaceId targetType targetId requestedBy approverIds mode =>
    published outside
      (s.requestApproval workspaceId targetType targetId requestedBy approverIds mode).2
  | .decideApproval workspaceId approvalId approverId decision actorId comment =>
    ended outside s (s.decideApproval workspaceId approvalId approverId decision actorId comment)
  | .createShareLink workspaceId targetType targetId permission actorId expiresIn now =>
    match outside.expiry with
    | some e => (.error e, s)
    | none => published outside
      (s.createShareLink workspaceId targetType targetId permission actorId expiresIn now).2
  | .revokeShareLink workspaceId token actorId now =>
    ended outside s (s.revokeShareLink workspaceId token actorId now)
  | .shareInternally workspaceId targetType targetId sharedWithMemberId permission actorId =>
    (.ok (), (s.shareInternally workspaceId targetType targetId sharedWithMemberId permission actorId).2)
  | .memberService transition memberId actorId =>
    match s.transitionMember memberId transition.toStatus actorId with
    | .error e => (.error e, s)
    | .ok (_, s') => (.ok (), s')
  | .grantOverride workspaceId memberId permission =>
    (.ok (), step s (.grantOverride workspaceId memberId permission))
  | .revokeOverride workspaceId memberId permission =>
    (.ok (), step s (.revokeOverride workspaceId memberId permission))
  | .setRolePermissions role permissions => (.ok (), step s (.setRolePermissions role permissions))

/-- Members, tasks, approvals, links and the audit trail. -/
def seen (s : WorkspaceEngine) :=
  (s.members, s.tasks, s.approvals, s.links, s.audit)

/-- What can raise does so before the first write: the workspace that a member or a task is added to is
there, and no subscriber raises once the operation has come to publish its event. -/
def RaisesFirst (outside : Outside) (s : WorkspaceEngine) : Operation → Prop
  | .inviteMember workspaceId _ _ _ | .createTask workspaceId _ _ _ _ _ _ _ =>
    s.workspaces.get workspaceId ≠ none ∧ outside.subscribers = none
  | .changeMemberStatus _ memberId target _ =>
    (∃ toStatus, statusNamed target = .ok toStatus ∧ s.MayMove memberId toStatus) →
      outside.subscribers = none
  | .updateTaskStatus _ taskId target _ =>
    (∃ task, s.tasks.get taskId = some task ∧ target ∈ s.transitions task.status) →
      outside.subscribers = none
  | .decideApproval _ approvalId approverId _ _ _ =>
    (∃ approval, s.approvals.get approvalId = some approval ∧ approverId ∈ approval.approverIds) →
      outside.subscribers = none
  | .revokeShareLink _ token _ _ => s.links.get token ≠ none → outside.subscribers = none
  | .addComment .. => outside.mentions = none → outside.subscribers = none
  | .createShareLink .. => outside.expiry = none → outside.subscribers = none
  | .createWorkspace .. | .assignRole .. | .requestApproval .. => outside.subscribers = none
  | .shareInternally .. | .memberService .. | .grantOverride .. | .revokeOverride ..
  | .setRolePermissions .. => True

/-! ### What is written when an operation raises -/

section Raise

variable {outside : Outside} {s s' : WorkspaceEngine}

/-- An operation that has been recorded must not raise any more. -/
lemma published_atomic_iff {entry : AuditEntry} (hrecorded : s'.audit = s.audit ++ [entry]) :
    AtomicOn seen s (published outside s') ↔ outside.subscribers = none := by
  unfold published
  cases outside.subscribers with
  | none => exact iff_of_true (atomicOn_ok _) rfl
  | some e =>
    rw [atomicOn_error_iff]
    refine iff_of_false (fun h => ?_) (fun h => by cases h)
    have haudit : s'.audit = s.audit := congrArg (fun seen => seen.2.2.2.2) h
    rw [hrecorded] at haudit
    exact absurd (congrArg List.length haudit) (by simp)

/-- An operation that raises before it writes, and has been recorded when it publishes. -/
lemma ended_atomic_iff {X : Type} {call : Except PyException (X × WorkspaceEngine)}
    (hrecorded : ∀ r, call = .ok r → ∃ entry, r.2.audit = s.audit ++ [entry]) :
    AtomicOn seen s (ended outside s call) ↔ ((∃ r, call = .ok r) → outside.subscribers = none) := by
  cases call with
  | error e =>
    refine iff_of_true (atomicOn_error_iff.mpr rfl) ?_
    rintro ⟨r, hr⟩
    cases hr
  | ok r =>
    obtain ⟨entry, hentry⟩ := hrecorded r rfl
    exact (published_atomic_iff hentry).trans ⟨fun h _ => h, fun h => h ⟨r, rfl⟩⟩

/-- The state after an operation is that of `step`, or nothing but a comment has been saved. -/
lemma attempt_snd (op : Operation) :
    (attempt outside s op).2 = step s op ∨ (attempt outside s op).2 = s ∨
      ∃ comment : Comment, comment.id = s.uuids ∧
        (attempt outside s op).2 = { s with comments := s.comments.save comment, uuids := s.uuids + 1 } := by
  have hpublished : ∀ s', (published outside s').2 = s' := by
    intro s'
    unfold published
    split <;> rfl
  have hended : ∀ {X : Type} (call : Except PyException (X × WorkspaceEngine)),
      (ended outside s call).2 = afterCall s (call.map Prod.snd) := by
    intro X call
    cases call with
    | error e => rfl
    | ok r => exact hpublished r.2
  have hendedAfter : ∀ {X : Type} (call : Except PyException X × WorkspaceEngine),
      (endedAfter outside call).2 = call.2 := by
    rintro X ⟨_ | _, s'⟩
    · rfl
    · exact hpublished s'
  cases op with
  | addComment workspaceId targetType targetId authorId text attachmentIds =>
    dsimp only [attempt]
    split
    · exact Or.inr (Or.inr ⟨_, rfl, rfl⟩)
    · exact Or.inl (hpublished _)
  | createShareLink workspaceId targetType targetId permission actorId expiresIn now =>
    dsimp only [attempt]
    split
    · exact Or.inr (Or.inl rfl)
    · exact Or.inl (hpublished _)
  | memberService transition memberId actorId =>
    refine Or.inl ?_
    dsimp only [attempt, step]
    cases s.transitionMember memberId transition.toStatus actorId <;> rfl
  | inviteMember workspaceId email displayName actorId => exact Or.inl (hendedAfter _)
  | createTask workspaceId title actorId description caseId assigneeId priority dependsOn =>
    exact Or.inl (hendedAfter _)
  | changeMemberStatus workspaceId memberId target actorId => exact Or.inl (hended _)
  | updateTaskStatus workspaceId taskId target actorId => exact Or.inl (hended _)
  | decideApproval workspaceId approvalId approverId decision actorId comment =>
    exact Or.inl (hended _)
  | revokeShareLink workspaceId token actorId now => exact Or.inl (hended _)
  | createWorkspace firmId name actorId => exact Or.inl (hpublished _)
  | assignRole workspaceId memberId role actorId => exact Or.inl (hpublished _)
  | requestApproval workspaceId targetType targetId requestedBy approverIds mode =>
    exact Or.inl (hpublished _)
  | _ => exact Or.inl rfl

lemma Fresh.attempt (h : Fresh s) (op : Operation) : Fresh (attempt outside s op).2 := by
  rcases attempt_snd op with hstep | hsame | ⟨comment, hid, hcomment⟩
  · rw [hstep]
    exact h.step op
  · rw [hsame]
    exact h
  · rw [hcomment]
    exact (h.draw (Nat.le_succ s.uuids)).saveComment comment (hid ▸ Nat.lt_succ_self s.uuids)

/-- What is saved under an identifier that has just been drawn was not there. -/
lemma save_ne {V : Type} {key : V → Uuid} {store : Store Uuid V key} {v : V}
    (hnew : store.get (key v) = none) : store.save v ≠ store := by
  intro h
  have hget := Store.get_save_self store v
  rw [h, hnew] at hget
  cases hget

lemma inviteMember_atomic_iff (h : Fresh s) (workspaceId : Uuid) (email displayName actorId : String) :
    AtomicOn seen s (endedAfter outside (s.inviteMember workspaceId email displayName actorId)) ↔
      s.workspaces.get workspaceId ≠ none ∧ outside.subscribers = none := by
  unfold inviteMember getWorkspace
  dsimp only
  cases hget : s.workspaces.get workspaceId with
  | none =>
    -- the member is saved, and the workspace not found
    refine iff_of_false (fun hatomic => ?_) fun hfound => hfound.1 rfl
    exact save_ne (h.members.get_eq_none (Nat.le_refl s.uuids)) (congrArg Prod.fst (hatomic _ rfl))
  | some workspace =>
    refine (published_atomic_iff rfl).trans ?_
    simp

lemma createTask_atomic_iff (h : Fresh s) (workspaceId : Uuid) (title actorId description : String)
    (caseId assigneeId : Option String) (priority : TaskPriority) (dependsOn : List String) :
    AtomicOn seen s (endedAfter outside
        (s.createTask workspaceId title actorId description caseId assigneeId priority dependsOn)) ↔
      s.workspaces.get workspaceId ≠ none ∧ outside.subscribers = none := by
  unfold createTask getWorkspace
  dsimp only
  cases hget : s.workspaces.get workspaceId with
  | none =>
    refine iff_of_false (fun hatomic => ?_) fun hfound => hfound.1 rfl
    exact save_ne (h.tasks.get_eq_none (Nat.le_refl s.uuids))
      (congrArg (fun seen => seen.2.1) (hatomic _ rfl))
  | some workspace =>
    refine (published_atomic_iff rfl).trans ?_
    simp

lemma changeMemberStatus_atomic_iff (workspaceId memberId : Uuid) (target actorId : String) :
    AtomicOn seen s (ended outside s (s.changeMemberStatus workspaceId memberId target actorId)) ↔
      ((∃ toStatus, statusNamed target = .ok toStatus ∧ s.MayMove memberId toStatus) →
        outside.subscribers = none) := by
  refine (ended_atomic_iff fun r hr => ?_).trans (imp_congr_left ?_)
  · simp only [changeMemberStatus, bind_eq_ok, pure_eq_ok] at hr
    obtain ⟨toStatus, -, moved, hmove, rfl⟩ := hr
    obtain ⟨member, -, -, rfl⟩ := transitionMember_ok.mp hmove
    exact ⟨_, rfl⟩
  · constructor
    · rintro ⟨r, hr⟩
      simp only [changeMemberStatus, bind_eq_ok] at hr
      obtain ⟨toStatus, hnamed, moved, hmove, -⟩ := hr
      obtain ⟨member, hget, hallowed, -⟩ := transitionMember_ok.mp hmove
      exact ⟨toStatus, hnamed, member, hget, hallowed⟩
    · rintro ⟨toStatus, hnamed, member, hget, hallowed⟩
      have hmove : s.transitionMember memberId toStatus (some actorId) = .ok _ :=
        transitionMember_ok.mpr ⟨member, hget, hallowed, rfl⟩
      exact ⟨_, bind_eq_ok.mpr ⟨toStatus, hnamed, bind_eq_ok.mpr ⟨_, hmove, rfl⟩⟩⟩

/-- **One operation.**  With identifiers drawn as they should be, an operation that raises changes nothing
iff what can raise does so before the first write. -/
theorem atomic_iff (h : Fresh s) (op : Operation) :
    AtomicOn seen s (attempt outside s op) ↔ RaisesFirst outside s op := by
  cases op with
  | inviteMember workspaceId email displayName actorId =>
    exact inviteMember_atomic_iff h workspaceId email displayName actorId
  | createTask workspaceId title actorId description caseId assigneeId priority dependsOn =>
    exact createTask_atomic_iff h workspaceId title actorId description caseId assigneeId priority dependsOn
  | changeMemberStatus workspaceId memberId target actorId =>
    exact changeMemberStatus_atomic_iff workspaceId memberId target actorId
  | updateTaskStatus workspaceId taskId target actorId =>
    refine (ended_atomic_iff fun r hr => ?_).trans (imp_congr_left ?_)
    · obtain ⟨task, -, -, rfl⟩ := updateTaskStatus_ok.mp hr
      exact ⟨_, rfl⟩
    · simp only [updateTaskStatus_ok]
      constructor
      · rintro ⟨r, task, hget, hallowed, -⟩
        exact ⟨task, hget, hallowed⟩
      · rintro ⟨task, hget, hallowed⟩
        exact ⟨_, task, hget, hallowed, rfl⟩
  | decideApproval workspaceId approvalId approverId decision actorId comment =>
    refine (ended_atomic_iff fun r hr => ?_).trans (imp_congr_left ?_)
    · obtain ⟨approval, -, -, rfl⟩ := decideApproval_ok.mp hr
      exact ⟨_, rfl⟩
    · simp only [decideApproval_ok]
      constructor
      · rintro ⟨r, approval, hget, hlisted, -⟩
        exact ⟨approval, hget, hlisted⟩
      · rintro ⟨approval, hget, hlisted⟩
        exact ⟨_, approval, hget, hlisted, rfl⟩
  | revokeShareLink workspaceId token actorId now =>
    refine (ended_atomic_iff fun r hr => ?_).trans (imp_congr_left ?_)
    · obtain ⟨link, -, rfl⟩ := revokeShareLink_ok.mp hr
      exact ⟨_, rfl⟩
    · simp only [revokeShareLink_ok, Option.ne_none_iff_exists']
      constructor
      · rintro ⟨r, link, hget, -⟩
        exact ⟨link, hget⟩
      · rintro ⟨link, hget⟩
        exact ⟨_, link, hget, rfl⟩
  | addComment workspaceId targetType targetId authorId text attachmentIds =>
    dsimp only [attempt, RaisesFirst]
    cases outside.mentions with
    | some e =>
      -- comments are not among what is seen
      exact iff_of_true (atomicOn_error_iff.mpr rfl) fun h => by cases h
    | none => exact (published_atomic_iff rfl).trans ⟨fun h _ => h, fun h => h rfl⟩
  | createShareLink workspaceId targetType targetId permission actorId expiresIn now =>
    dsimp only [attempt, RaisesFirst]
    cases outside.expiry with
    | some e => exact iff_of_true (atomicOn_error_iff.mpr rfl) fun h => by cases h
    | none => exact (published_atomic_iff rfl).trans ⟨fun h _ => h, fun h => h rfl⟩
  | createWorkspace firmId name actorId => exact published_atomic_iff rfl
  | assignRole workspaceId memberId role actorId => exact published_atomic_iff rfl
  | requestApproval workspaceId targetType targetId requestedBy approverIds mode =>
    exact published_atomic_iff rfl
  | memberService transition memberId actorId =>
    refine iff_of_true ?_ trivial
    dsimp only [attempt]
    split
    · exact atomicOn_error_iff.mpr rfl
    · exact atomicOn_ok _
  | shareInternally workspaceId targetType targetId sharedWithMemberId permission actorId =>
    exact iff_of_true (atomicOn_ok _) trivial
  | grantOverride workspaceId memberId permission => exact iff_of_true (atomicOn_ok _) trivial
  | revokeOverride workspaceId memberId permission => exact iff_of_true (atomicOn_ok _) trivial
  | setRolePermissions role permissions => exact iff_of_true (atomicOn_ok _) trivial

end Raise

/-! ### Runs -/

/-- One operation, with what is raised by what it calls. -/
def attemptStep (s : WorkspaceEngine) (call : Operation × Outside) : WorkspaceEngine :=
  (attempt call.2 s call.1).2

/-- **Operations are atomic, exactly.**  In a run of a new engine every operation that raises leaves
members, tasks, approvals, links and the audit trail as they were, iff in every operation what can raise
does so before the first write. -/
theorem along_workspaceAtomic_iff (matrix : Dict Role (Finset Permission)) (transitions : Transitions)
    (calls : List (Operation × Outside)) :
    Along attemptStep (fun s call => AtomicOn seen s (attempt call.2 s call.1)) (start matrix transitions)
        calls ↔
      Along attemptStep (fun s call => RaisesFirst call.2 s call.1) (start matrix transitions) calls :=
  along_congr (fresh_start matrix transitions) (fun _ call h _ => h.attempt call.1)
    fun _ call h => atomic_iff h call.1

/-- Someone is invited to a workspace that there is not. -/
def invitedNowhere : List (Operation × Outside) :=
  [(.inviteMember 7 "paul@cabinet.fr" "Paul" "associe1", {})]

/-- The operation raises, and the member is there. -/
theorem invitedNowhere_changed :
    ¬ Along attemptStep (fun s call => AtomicOn seen s (attempt call.2 s call.1))
      (start defaultMatrix defaultTransitions) invitedNowhere := by
  rintro ⟨hatomic, -⟩
  have hmembers := congrArg Prod.fst (hatomic (valueError "Unknown workspace '7'") (by decide +kernel))
  have hbefore : (start defaultMatrix defaultTransitions).members.get 0 = none := rfl
  have hafter : ((attempt {} (start defaultMatrix defaultTransitions)
      (.inviteMember 7 "paul@cabinet.fr" "Paul" "associe1")).2.members.get 0).isSome = true := by
    decide +kernel
  rw [show (attempt {} (start defaultMatrix defaultTransitions)
    (.inviteMember 7 "paul@cabinet.fr" "Paul" "associe1")).2.members =
    (start defaultMatrix defaultTransitions).members from hmembers, hbefore] at hafter
  cases hafter

end Tmis.Collaboration
