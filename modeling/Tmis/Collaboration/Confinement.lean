import Tmis.Collaboration.Workspace
import Tmis.Lib.Run

/-!
# Confinement of workspaces

An operation called with the identifier of a workspace should change that workspace only.  What it
creates belongs to the workspace; a member, a task, an approval or a link is found by its own identifier,
whichever workspace it belongs to.

* `Confined` — a change concerns one workspace, and is entered in its audit trail;
* `Fresh` — the identifiers in the stores have been drawn;
* `Associated` — the discipline: the entity that is named belongs to the workspace that is named;
* `confined_step_iff`, `along_confined_iff` — the runs in which workspaces are confined.
-/

namespace Tmis.Collaboration

open Tmis.Lib Store WorkspaceEngine

/-! ### Changes to one workspace -/

/-- Whatever differs belongs to the workspace, and what is added to the audit trail is entered under
it. -/
structure Confined (workspaceId : Uuid) (s s' : WorkspaceEngine) : Prop where
  workspaces : OthersKept Workspace.id workspaceId s.workspaces s'.workspaces
  members : OthersKept Member.workspaceId workspaceId s.members s'.members
  tasks : OthersKept Task.workspaceId workspaceId s.tasks s'.tasks
  comments : OthersKept Comment.workspaceId workspaceId s.comments s'.comments
  approvals : OthersKept ApprovalRequest.workspaceId workspaceId s.approvals s'.approvals
  shares : OthersKept InternalShare.workspaceId workspaceId s.shares s'.shares
  links : OthersKept ShareLink.workspaceId workspaceId s.links s'.links
  roles : ∀ key : MemberKey, key.1 ≠ workspaceId → s'.roles.get key = s.roles.get key
  permissions : s'.permissions = s.permissions
  audit : ∃ entries, s'.audit = s.audit ++ entries ∧ ∀ entry ∈ entries, entry.workspaceId = workspaceId

/-- The identifier of a workspace that an operation of the engine is called with. -/
def Operation.workspaceId : Operation → Option Uuid
  | .createWorkspace .. => none
  | .inviteMember workspaceId .. => some workspaceId
  | .changeMemberStatus workspaceId .. => some workspaceId
  | .assignRole workspaceId .. => some workspaceId
  | .createTask workspaceId .. => some workspaceId
  | .updateTaskStatus workspaceId .. => some workspaceId
  | .addComment workspaceId .. => some workspaceId
  | .requestApproval workspaceId .. => some workspaceId
  | .decideApproval workspaceId .. => some workspaceId
  | .createShareLink workspaceId .. => some workspaceId
  | .revokeShareLink workspaceId .. => some workspaceId
  | .shareInternally workspaceId .. => some workspaceId
  -- the operations of the member service and of the permission engine
  | .memberService .. => none
  | .grantOverride .. => none
  | .revokeOverride .. => none
  | .setRolePermissions .. => none

/-- An operation called with a workspace is confined to it. -/
def StaysConfined (s : WorkspaceEngine) (op : Operation) : Prop :=
  ∀ workspaceId, op.workspaceId = some workspaceId → Confined workspaceId s (step s op)

/-- The entity that an operation changes belongs to the workspace it is called with; a task that has
the status already, and a link revoked at the same time, do not change. -/
def Associated (s : WorkspaceEngine) : Operation → Prop
  | .changeMemberStatus workspaceId memberId target _ => ∀ toStatus member,
      statusNamed target = .ok toStatus → s.members.get memberId = some member →
      toStatus ∈ member.status.allowed → member.workspaceId = workspaceId
  | .updateTaskStatus workspaceId taskId target _ => ∀ task, s.tasks.get taskId = some task →
      target ∈ s.transitions task.status → task.workspaceId = workspaceId ∨ task.status = target
  | .decideApproval workspaceId approvalId approverId _ _ _ => ∀ approval,
      s.approvals.get approvalId = some approval → approverId ∈ approval.approverIds →
      approval.workspaceId = workspaceId
  | .revokeShareLink workspaceId token _ now => ∀ link, s.links.get token = some link →
      link.workspaceId = workspaceId ∨ link.revokedAt = some now
  | _ => True

section Confined

variable {workspaceId : Uuid} {s s' : WorkspaceEngine}

lemma Confined.refl (workspaceId : Uuid) (s : WorkspaceEngine) : Confined workspaceId s s where
  workspaces := OthersKept.refl _ _ _
  members := OthersKept.refl _ _ _
  tasks := OthersKept.refl _ _ _
  comments := OthersKept.refl _ _ _
  approvals := OthersKept.refl _ _ _
  shares := OthersKept.refl _ _ _
  links := OthersKept.refl _ _ _
  roles _ _ := rfl
  permissions := rfl
  audit := ⟨[], (List.append_nil _).symm, fun _ h => absurd h List.not_mem_nil⟩

lemma confined_members {members : Store Uuid Member Member.id} {uuids : ℕ}
    (h : OthersKept Member.workspaceId workspaceId s.members members) :
    Confined workspaceId s { s with members, uuids } :=
  { Confined.refl workspaceId s with members := h }

lemma confined_tasks {tasks : Store Uuid Task Task.id} {uuids : ℕ}
    (h : OthersKept Task.workspaceId workspaceId s.tasks tasks) :
    Confined workspaceId s { s with tasks, uuids } :=
  { Confined.refl workspaceId s with tasks := h }

lemma confined_comments {comments : Store Uuid Comment Comment.id} {uuids : ℕ}
    (h : OthersKept Comment.workspaceId workspaceId s.comments comments) :
    Confined workspaceId s { s with comments, uuids } :=
  { Confined.refl workspaceId s with comments := h }

lemma confined_approvals {approvals : Store Uuid ApprovalRequest ApprovalRequest.id} {uuids : ℕ}
    (h : OthersKept ApprovalRequest.workspaceId workspaceId s.approvals approvals) :
    Confined workspaceId s { s with approvals, uuids } :=
  { Confined.refl workspaceId s with approvals := h }

lemma confined_shares {shares : Store Uuid InternalShare InternalShare.id} {uuids : ℕ}
    (h : OthersKept InternalShare.workspaceId workspaceId s.shares shares) :
    Confined workspaceId s { s with shares, uuids } :=
  { Confined.refl workspaceId s with shares := h }

lemma confined_links {links : Store Uuid ShareLink ShareLink.token} {uuids : ℕ}
    (h : OthersKept ShareLink.workspaceId workspaceId s.links links) :
    Confined workspaceId s { s with links, uuids } :=
  { Confined.refl workspaceId s with links := h }

/-- An entry in the audit trail of the workspace. -/
lemma Confined.record (h : Confined workspaceId s s') (actorId action targetType targetId : String)
    (oldState newState : List (String × String)) :
    Confined workspaceId s
      (s'.record workspaceId actorId action targetType targetId oldState newState) where
  workspaces := h.workspaces
  members := h.members
  tasks := h.tasks
  comments := h.comments
  approvals := h.approvals
  shares := h.shares
  links := h.links
  roles := h.roles
  permissions := h.permissions
  audit := by
    obtain ⟨entries, hentries, hof⟩ := h.audit
    let entry : AuditEntry :=
      { id := s'.uuids, workspaceId, actorId, action, targetType, targetId, oldState, newState }
    have hadded : (s'.record workspaceId actorId action targetType targetId oldState newState).audit =
        s'.audit ++ [entry] := rfl
    refine ⟨entries ++ [entry], ?_, ?_⟩
    · rw [hadded, hentries, List.append_assoc]
    · intro added hmem
      rcases List.mem_append.mp hmem with hmem | hmem
      · exact hof added hmem
      · rw [List.mem_singleton.mp hmem]

end Confined

/-! ### The entity an operation finds -/

section Found

variable {s : WorkspaceEngine}

/-- A member who is put into another status is changed: its history grows. -/
lemma moved_ne (member : Member) (toStatus : MemberStatus) (actorId : Option String) :
    member.moved toStatus actorId ≠ member := by
  intro h
  have hlength := congrArg (fun m => m.history.length) h
  simp [Member.moved] at hlength

/-- An approval that is decided is changed: its history grows. -/
lemma decided_ne (approval : ApprovalRequest) (approverId : String) (decision : ApprovalDecisionType)
    (comment : Option String) : approval.decided approverId decision comment ≠ approval := by
  intro h
  have hlength := congrArg (fun a => a.history.length) h
  simp [ApprovalRequest.decided] at hlength

lemma confined_changeMemberStatus (workspaceId memberId : Uuid) (target actorId : String) :
    (∀ r, s.changeMemberStatus workspaceId memberId target actorId = .ok r →
      Confined workspaceId s r.2) ↔
      ∀ toStatus member, statusNamed target = .ok toStatus → s.members.get memberId = some member →
        toStatus ∈ member.status.allowed → member.workspaceId = workspaceId := by
  have hsave : ∀ toStatus member, s.members.get memberId = some member →
      (OthersKept Member.workspaceId workspaceId s.members
        (s.members.save (member.moved toStatus (some actorId))) ↔ member.workspaceId = workspaceId) := by
    intro toStatus member hget
    refine Iff.trans (othersKept_save_over (member.moved toStatus (some actorId)) hget rfl rfl) ?_
    exact or_iff_left (moved_ne member toStatus (some actorId))
  simp only [changeMemberStatus, bind_eq_ok, pure_eq_ok, transitionMember_ok]
  constructor
  · intro h toStatus member hnamed hget hallowed
    have hconfined := h _ ⟨toStatus, hnamed, _, ⟨member, hget, hallowed, rfl⟩, rfl⟩
    exact (hsave toStatus member hget).mp hconfined.members
  · rintro h _ ⟨toStatus, hnamed, _, ⟨member, hget, hallowed, rfl⟩, rfl⟩
    have hkept := (hsave toStatus member hget).mpr (h toStatus member hnamed hget hallowed)
    exact (confined_members hkept).record ..

lemma confined_updateTaskStatus (workspaceId taskId : Uuid) (target : WorkflowStatus)
    (actorId : String) :
    (∀ r, s.updateTaskStatus workspaceId taskId target actorId = .ok r → Confined workspaceId s r.2) ↔
      ∀ task, s.tasks.get taskId = some task → target ∈ s.transitions task.status →
        task.workspaceId = workspaceId ∨ task.status = target := by
  have hsame : ∀ task : Task, { task with status := target } = task ↔ task.status = target := by
    intro task
    constructor
    · exact fun h => (congrArg Task.status h).symm
    · rintro rfl
      rfl
  have hsave : ∀ task, s.tasks.get taskId = some task →
      (OthersKept Task.workspaceId workspaceId s.tasks (s.tasks.save { task with status := target }) ↔
        task.workspaceId = workspaceId ∨ task.status = target) := by
    intro task hget
    refine Iff.trans (othersKept_save_over { task with status := target } hget rfl rfl) ?_
    exact or_congr_right (hsame task)
  simp only [updateTaskStatus_ok]
  constructor
  · intro h task hget hallowed
    have hconfined := h _ ⟨task, hget, hallowed, rfl⟩
    exact (hsave task hget).mp hconfined.tasks
  · rintro h _ ⟨task, hget, hallowed, rfl⟩
    have hkept := (hsave task hget).mpr (h task hget hallowed)
    exact (confined_tasks hkept).record ..

lemma confined_decideApproval (workspaceId approvalId : Uuid) (approverId : String)
    (decision : ApprovalDecisionType) (actorId : String) (comment : Option String) :
    (∀ r, s.decideApproval workspaceId approvalId approverId decision actorId comment = .ok r →
      Confined workspaceId s r.2) ↔
      ∀ approval, s.approvals.get approvalId = some approval → approverId ∈ approval.approverIds →
        approval.workspaceId = workspaceId := by
  have hsave : ∀ approval, s.approvals.get approvalId = some approval →
      (OthersKept ApprovalRequest.workspaceId workspaceId s.approvals
        (s.approvals.save (approval.decided approverId decision comment)) ↔
          approval.workspaceId = workspaceId) := by
    intro approval hget
    refine Iff.trans (othersKept_save_over (approval.decided approverId decision comment) hget rfl rfl) ?_
    exact or_iff_left (decided_ne approval approverId decision comment)
  simp only [decideApproval_ok]
  constructor
  · intro h approval hget hlisted
    have hconfined := h _ ⟨approval, hget, hlisted, rfl⟩
    exact (hsave approval hget).mp hconfined.approvals
  · rintro h _ ⟨approval, hget, hlisted, rfl⟩
    have hkept := (hsave approval hget).mpr (h approval hget hlisted)
    exact (confined_approvals hkept).record ..

lemma confined_revokeShareLink (workspaceId token : Uuid) (actorId : String) (now : ℤ) :
    (∀ r, s.revokeShareLink workspaceId token actorId now = .ok r → Confined workspaceId s r.2) ↔
      ∀ link, s.links.get token = some link →
        link.workspaceId = workspaceId ∨ link.revokedAt = some now := by
  have hsame : ∀ link : ShareLink,
      { link with revokedAt := some now } = link ↔ link.revokedAt = some now := by
    intro link
    constructor
    · exact fun h => (congrArg ShareLink.revokedAt h).symm
    · intro h
      rw [← h]
  have hsave : ∀ link, s.links.get token = some link →
      (OthersKept ShareLink.workspaceId workspaceId s.links
        (s.links.save { link with revokedAt := some now }) ↔
          link.workspaceId = workspaceId ∨ link.revokedAt = some now) := by
    intro link hget
    refine Iff.trans (othersKept_save_over { link with revokedAt := some now } hget rfl rfl) ?_
    exact or_congr_right (hsame link)
  simp only [revokeShareLink_ok]
  constructor
  · intro h link hget
    have hconfined := h _ ⟨link, hget, rfl⟩
    exact (hsave link hget).mp hconfined.links
  · rintro h _ ⟨link, hget, rfl⟩
    have hkept := (hsave link hget).mpr (h link hget)
    exact (confined_links hkept).record ..

end Found

/-! ### Identifiers that have been drawn -/

/-- Whatever is stored was stored under an identifier drawn before. -/
structure Fresh (s : WorkspaceEngine) : Prop where
  workspaces : s.workspaces.Below s.uuids
  members : s.members.Below s.uuids
  tasks : s.tasks.Below s.uuids
  comments : s.comments.Below s.uuids
  approvals : s.approvals.Below s.uuids
  shares : s.shares.Below s.uuids
  links : s.links.Below s.uuids

section Fresh

variable {s : WorkspaceEngine}

lemma fresh_start (matrix : Dict Role (Finset Permission)) (transitions : Transitions) :
    Fresh (start matrix transitions) where
  workspaces := below_empty _
  members := below_empty _
  tasks := below_empty _
  comments := below_empty _
  approvals := below_empty _
  shares := below_empty _
  links := below_empty _

lemma Fresh.draw (h : Fresh s) {n : ℕ} (hle : s.uuids ≤ n) : Fresh { s with uuids := n } where
  workspaces := h.workspaces.mono hle
  members := h.members.mono hle
  tasks := h.tasks.mono hle
  comments := h.comments.mono hle
  approvals := h.approvals.mono hle
  shares := h.shares.mono hle
  links := h.links.mono hle

lemma Fresh.record (h : Fresh s) (workspaceId : Uuid) (actorId action targetType targetId : String)
    (oldState newState : List (String × String)) :
    Fresh (s.record workspaceId actorId action targetType targetId oldState newState) :=
  { h.draw (Nat.le_succ s.uuids) with }

lemma Fresh.saveWorkspace (h : Fresh s) (workspace : Workspace) (hlt : workspace.id < s.uuids) :
    Fresh { s with workspaces := s.workspaces.save workspace } :=
  { h with workspaces := h.workspaces.save hlt }

lemma Fresh.saveMember (h : Fresh s) (member : Member) (hlt : member.id < s.uuids) :
    Fresh { s with members := s.members.save member } :=
  { h with members := h.members.save hlt }

lemma Fresh.saveTask (h : Fresh s) (task : Task) (hlt : task.id < s.uuids) :
    Fresh { s with tasks := s.tasks.save task } :=
  { h with tasks := h.tasks.save hlt }

lemma Fresh.saveComment (h : Fresh s) (comment : Comment) (hlt : comment.id < s.uuids) :
    Fresh { s with comments := s.comments.save comment } :=
  { h with comments := h.comments.save hlt }

lemma Fresh.saveApproval (h : Fresh s) (approval : ApprovalRequest) (hlt : approval.id < s.uuids) :
    Fresh { s with approvals := s.approvals.save approval } :=
  { h with approvals := h.approvals.save hlt }

lemma Fresh.saveShare (h : Fresh s) (share : InternalShare) (hlt : share.id < s.uuids) :
    Fresh { s with shares := s.shares.save share } :=
  { h with shares := h.shares.save hlt }

lemma Fresh.saveLink (h : Fresh s) (link : ShareLink) (hlt : link.token < s.uuids) :
    Fresh { s with links := s.links.save link } :=
  { h with links := h.links.save hlt }

/-- A member that is found and changed stays under its identifier. -/
lemma Fresh.transitionMember (h : Fresh s) {memberId : Uuid} {toStatus : MemberStatus}
    {actorId : Option String} {r : Member × WorkspaceEngine}
    (hr : s.transitionMember memberId toStatus actorId = .ok r) : Fresh r.2 := by
  obtain ⟨member, hget, -, rfl⟩ := transitionMember_ok.mp hr
  have hlt : member.id < s.uuids := Store.key_of_get hget ▸ h.members _ _ hget
  exact h.saveMember (member.moved toStatus actorId) hlt

/-- A workspace that is found and changed stays under its identifier. -/
lemma Fresh.join (h : Fresh s) {workspaceId : Uuid} {workspace : Workspace} (workspace' : Workspace)
    (hfound : s.getWorkspace workspaceId = .ok workspace) (hid : workspace'.id = workspace.id) :
    Fresh { s with workspaces := s.workspaces.save workspace' } := by
  have hget := requireFound_ok.mp hfound
  have hlt : workspace.id < s.uuids := Store.key_of_get hget ▸ h.workspaces _ _ hget
  exact h.saveWorkspace workspace' (hid ▸ hlt)

/-- **One operation.**  Identifiers in the stores stay below the next one to be drawn. -/
theorem Fresh.step (h : Fresh s) (op : Operation) : Fresh (step s op) := by
  have hdraw := h.draw (Nat.le_succ s.uuids)
  have hdrawn : s.uuids < s.uuids + 1 := Nat.lt_succ_self s.uuids
  cases op with
  | createWorkspace firmId name actorId => exact (hdraw.saveWorkspace _ hdrawn).record ..
  | inviteMember workspaceId email displayName actorId =>
    have hinvited := hdraw.saveMember
      { id := s.uuids, workspaceId, email, displayName, history := [⟨none, .invited, none⟩] } hdrawn
    dsimp only [Collaboration.step, inviteMember]
    split
    · exact hinvited
    · rename_i workspace hfound
      have hjoined := hinvited.join
        { workspace with memberIds := insert s.uuids workspace.memberIds } hfound rfl
      exact hjoined.record ..
  | changeMemberStatus workspaceId memberId target actorId =>
    refine (afterCall_map_iff h).mpr fun r hr => ?_
    simp only [changeMemberStatus, bind_eq_ok, pure_eq_ok] at hr
    obtain ⟨toStatus, -, r, hr, rfl⟩ := hr
    exact (h.transitionMember hr).record ..
  | assignRole workspaceId memberId role actorId =>
    have hassigned : Fresh { s with roles := s.roles.set (workspaceId, memberId) role } := { h with }
    exact hassigned.record ..
  | createTask workspaceId title actorId description caseId assigneeId priority dependsOn =>
    have hcreated := hdraw.saveTask
      { id := s.uuids, workspaceId, title, description, caseId, assigneeId, priority, dependsOn } hdrawn
    dsimp only [Collaboration.step, createTask]
    split
    · exact hcreated
    · rename_i workspace hfound
      have hjoined := hcreated.join { workspace with taskIds := insert s.uuids workspace.taskIds } hfound rfl
      exact hjoined.record ..
  | updateTaskStatus workspaceId taskId target actorId =>
    refine (afterCall_map_iff h).mpr fun r hr => ?_
    obtain ⟨task, hget, -, rfl⟩ := updateTaskStatus_ok.mp hr
    have hlt : task.id < s.uuids := Store.key_of_get hget ▸ h.tasks _ _ hget
    exact (h.saveTask { task with status := target } hlt).record ..
  | addComment workspaceId targetType targetId authorId text attachmentIds =>
    exact (hdraw.saveComment _ hdrawn).record ..
  | requestApproval workspaceId targetType targetId requestedBy approverIds mode =>
    exact (hdraw.saveApproval _ hdrawn).record ..
  | decideApproval workspaceId approvalId approverId decision actorId comment =>
    refine (afterCall_map_iff h).mpr fun r hr => ?_
    obtain ⟨approval, hget, -, rfl⟩ := decideApproval_ok.mp hr
    have hlt : approval.id < s.uuids := Store.key_of_get hget ▸ h.approvals _ _ hget
    exact (h.saveApproval (approval.decided approverId decision comment) hlt).record ..
  | createShareLink workspaceId targetType targetId permission actorId expiresIn now =>
    -- a link draws an identifier and a token, and is stored under its token
    have htwo := h.draw (Nat.le_add_right s.uuids 2)
    exact (htwo.saveLink _ (Nat.lt_succ_self (s.uuids + 1))).record ..
  | revokeShareLink workspaceId token actorId now =>
    refine (afterCall_map_iff h).mpr fun r hr => ?_
    obtain ⟨link, hget, rfl⟩ := revokeShareLink_ok.mp hr
    have hlt : link.token < s.uuids := Store.key_of_get hget ▸ h.links _ _ hget
    exact (h.saveLink { link with revokedAt := some now } hlt).record ..
  | shareInternally workspaceId targetType targetId sharedWithMemberId permission actorId =>
    exact hdraw.saveShare _ hdrawn
  | memberService transition memberId actorId =>
    exact (afterCall_map_iff h).mpr fun r hr => h.transitionMember hr
  | grantOverride workspaceId memberId permission => exact { h with }
  | revokeOverride workspaceId memberId permission => exact { h with }
  | setRolePermissions role permissions => exact { h with }

end Fresh

/-! ### Runs -/

section Runs

variable {s s' : WorkspaceEngine} {workspaceId : Uuid}

/-- The workspace itself may be changed. -/
lemma Confined.join (h : Confined workspaceId s s') {workspace : Workspace} (workspace' : Workspace)
    (hfound : s'.getWorkspace workspaceId = .ok workspace) (hid : workspace'.id = workspace.id) :
    Confined workspaceId s { s' with workspaces := s'.workspaces.save workspace' } := by
  have hkey : workspace'.id = workspaceId := hid.trans (Store.key_of_get (requireFound_ok.mp hfound))
  have hsaved : OthersKept Workspace.id workspaceId s'.workspaces (s'.workspaces.save workspace') := by
    refine othersKept_save.mpr (Or.inr ⟨hkey, fun found hget => ?_⟩)
    exact (Store.key_of_get hget).trans hkey
  exact { h with workspaces := h.workspaces.trans hsaved }

lemma staysConfined_iff {op : Operation} (hop : op.workspaceId = some workspaceId) :
    StaysConfined s op ↔ Confined workspaceId s (step s op) := by
  simp only [StaysConfined, hop, Option.some.injEq, forall_eq']

/-- **One operation.**  With identifiers drawn as they should be, an operation is confined to the
workspace it is called with iff the entity that it changes belongs to it. -/
theorem confined_step_iff (h : Fresh s) (op : Operation) : StaysConfined s op ↔ Associated s op := by
  have hsame := Confined.refl
  cases op with
  | inviteMember workspaceId email displayName actorId =>
    refine iff_of_true ((staysConfined_iff rfl).mpr ?_) trivial
    let member : Member :=
      { id := s.uuids, workspaceId, email, displayName, history := [⟨none, .invited, none⟩] }
    have hinvited : Confined workspaceId s
        { s with members := s.members.save member, uuids := s.uuids + 1 } :=
      confined_members (othersKept_save_new (h.members.get_eq_none (Nat.le_refl s.uuids)) rfl)
    dsimp only [step, inviteMember]
    split
    · exact hinvited
    · rename_i workspace hfound
      have hjoined := hinvited.join
        { workspace with memberIds := insert s.uuids workspace.memberIds } hfound rfl
      exact hjoined.record ..
  | createTask workspaceId title actorId description caseId assigneeId priority dependsOn =>
    refine iff_of_true ((staysConfined_iff rfl).mpr ?_) trivial
    let task : Task :=
      { id := s.uuids, workspaceId, title, description, caseId, assigneeId, priority, dependsOn }
    have hcreated : Confined workspaceId s { s with tasks := s.tasks.save task, uuids := s.uuids + 1 } :=
      confined_tasks (othersKept_save_new (h.tasks.get_eq_none (Nat.le_refl s.uuids)) rfl)
    dsimp only [step, createTask]
    split
    · exact hcreated
    · rename_i workspace hfound
      have hjoined := hcreated.join { workspace with taskIds := insert s.uuids workspace.taskIds } hfound rfl
      exact hjoined.record ..
  | changeMemberStatus workspaceId memberId target actorId =>
    rw [staysConfined_iff rfl]
    exact (afterCall_map_iff (hsame workspaceId s)).trans
      (confined_changeMemberStatus workspaceId memberId target actorId)
  | updateTaskStatus workspaceId taskId target actorId =>
    rw [staysConfined_iff rfl]
    exact (afterCall_map_iff (hsame workspaceId s)).trans
      (confined_updateTaskStatus workspaceId taskId target actorId)
  | decideApproval workspaceId approvalId approverId decision actorId comment =>
    rw [staysConfined_iff rfl]
    exact (afterCall_map_iff (hsame workspaceId s)).trans
      (confined_decideApproval workspaceId approvalId approverId decision actorId comment)
  | revokeShareLink workspaceId token actorId now =>
    rw [staysConfined_iff rfl]
    exact (afterCall_map_iff (hsame workspaceId s)).trans
      (confined_revokeShareLink workspaceId token actorId now)
  | assignRole workspaceId memberId role actorId =>
    refine iff_of_true ((staysConfined_iff rfl).mpr ?_) trivial
    have hassigned : Confined workspaceId s
        { s with roles := s.roles.set (workspaceId, memberId) role } :=
      { hsame workspaceId s with
        roles := by
          intro key hother
          refine Dict.get_set_of_ne _ _ ?_
          rintro rfl
          exact hother rfl }
    exact hassigned.record ..
  | addComment workspaceId targetType targetId authorId text attachmentIds =>
    refine iff_of_true ((staysConfined_iff rfl).mpr ?_) trivial
    let comment : Comment :=
      { id := s.uuids, workspaceId, targetType, targetId, authorId, text, attachmentIds }
    have hadded : Confined workspaceId s
        { s with comments := s.comments.save comment, uuids := s.uuids + 1 } :=
      confined_comments (othersKept_save_new (h.comments.get_eq_none (Nat.le_refl s.uuids)) rfl)
    exact hadded.record ..
  | requestApproval workspaceId targetType targetId requestedBy approverIds mode =>
    refine iff_of_true ((staysConfined_iff rfl).mpr ?_) trivial
    let approval : ApprovalRequest :=
      { id := s.uuids, workspaceId, targetType, targetId, requestedBy, approverIds, mode }
    have hrequested : Confined workspaceId s
        { s with approvals := s.approvals.save approval, uuids := s.uuids + 1 } :=
      confined_approvals (othersKept_save_new (h.approvals.get_eq_none (Nat.le_refl s.uuids)) rfl)
    exact hrequested.record ..
  | createShareLink workspaceId targetType targetId permission actorId expiresIn now =>
    refine iff_of_true ((staysConfined_iff rfl).mpr ?_) trivial
    let link : ShareLink :=
      { id := s.uuids, workspaceId, targetType, targetId, token := s.uuids + 1, permission,
        createdBy := actorId, createdAt := now, expiresAt := expiresIn.map (now + ·) }
    have hcreated : Confined workspaceId s
        { s with links := s.links.save link, uuids := s.uuids + 2 } :=
      confined_links (othersKept_save_new (h.links.get_eq_none (Nat.le_succ s.uuids)) rfl)
    exact hcreated.record ..
  | shareInternally workspaceId targetType targetId sharedWithMemberId permission actorId =>
    refine iff_of_true ((staysConfined_iff rfl).mpr ?_) trivial
    exact confined_shares (othersKept_save_new (h.shares.get_eq_none (Nat.le_refl s.uuids)) rfl)
  | _ =>
    -- no workspace is named
    refine iff_of_true ?_ trivial
    rintro workspaceId ⟨⟩

end Runs

/-- A member of the first workspace is suspended by a call about the second. -/
def suspendedFromOutside : List Operation :=
  [.createWorkspace "firm-a" "Pôle social" "associe1",
    .createWorkspace "firm-b" "Pôle fiscal" "associe2",
    .inviteMember 0 "paul@cabinet.fr" "Paul" "associe1",
    .changeMemberStatus 0 4 "active" "associe1",
    .changeMemberStatus 2 4 "suspended" "associe2"]

end Tmis.Collaboration
