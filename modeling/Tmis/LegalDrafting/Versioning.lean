import Tmis.LegalDrafting.Orchestrator
import Tmis.Lib.Calls
import Tmis.Lib.Journal
import Tmis.Lib.Run

/-!
# Versions in the database

`legal_drafting.versioning.sqlalchemy_service`: one row for each snapshot of a document.  A snapshot reads
the versions there are and then inserts the next one; other requests read and insert meanwhile.

* `VersionTable`, `insert`, `listVersions`, `get`, `restore` — the table and the service over it;
* `Requests`, `Op`, `step` — the snapshots on their way;
* `Sequential` — the versions of each document carry the numbers 1, 2, 3, ..., none of them twice;
* `Undisturbed`, `along_sequential_iff` — the discipline that it takes where the table does not declare it;
* `get_of_sequential` — a version is looked up by its number.
-/

namespace Tmis.LegalDrafting

open Tmis.Lib

/-! ### The table -/

/-- A row of `drafting_document_versions`; the payload is that of the sections. -/
structure DraftDocumentVersionModel where
  id : Uuid
  documentId : Uuid
  firmId : String
  versionNumber : ℕ
  author : String
  createdAt : ℚ
  payload : List Section
  deriving DecidableEq

/-- How the table was made: from the row model, or by the migration `0009`. -/
inductive TableOrigin where
  | rowModel | migration
  deriving DecidableEq

/-- The migration declares `uq_drafting_version_number`, the row model does not. -/
def TableOrigin.uniqueVersions : TableOrigin → Bool
  | rowModel => false
  | migration => true

/-- The table; `uuids` counts the identifiers drawn so far. -/
structure VersionTable where
  origin : TableOrigin
  rows : List DraftDocumentVersionModel := []
  uuids : ℕ := 0
  deriving DecidableEq

/-- `_row_to_version`. -/
def DraftDocumentVersionModel.version (row : DraftDocumentVersionModel) : DocumentVersion where
  id := row.id
  documentId := row.documentId
  versionNumber := row.versionNumber
  sections := row.payload
  author := row.author

namespace VersionTable

/-- The rows of a document. -/
def rowsOf (table : VersionTable) (documentId : Uuid) : List DraftDocumentVersionModel :=
  table.rows.filter (·.documentId = documentId)

/-- `scoped_query` of one document. -/
def scopedQuery (table : VersionTable) (firmId : String) (documentId : Uuid) :
    List DraftDocumentVersionModel :=
  (table.rowsOf documentId).filter (·.firmId = firmId)

def listVersions (table : VersionTable) (firmId : String) (documentId : Uuid) : List DocumentVersion :=
  ((table.scopedQuery firmId documentId).insertionSort fun a b => a.versionNumber ≤ b.versionNumber).map
    (·.version)

/-- `add` and `commit` of a new row, under the constraints of the table. -/
def insert (table : VersionTable) (row : DraftDocumentVersionModel) : Except PyException VersionTable :=
  if table.origin.uniqueVersions ∧
      ∃ other ∈ table.rowsOf row.documentId, other.versionNumber = row.versionNumber then
    .error ⟨"IntegrityError", "uq_drafting_version_number"⟩
  else .ok { table with rows := table.rows ++ [row] }

/-- `get`: the row with the number, if there is one. -/
def get (table : VersionTable) (firmId : String) (documentId : Uuid) (versionNumber : ℤ) :
    Except PyException (Option DocumentVersion) :=
  match (table.scopedQuery firmId documentId).filter (·.versionNumber = versionNumber) with
  | [] => .ok none
  | [row] => .ok (some row.version)
  | _ => .error ⟨"MultipleResultsFound", "Multiple rows were found when one or none was required"⟩

def restore (table : VersionTable) (firmId : String) (documentId : Uuid) (versionNumber : ℤ) :
    Except PyException (List Section) := do
  match ← table.get firmId documentId versionNumber with
  | some version => return version.sections
  | none => .error (valueError ("Unknown version " ++ toString versionNumber ++ " for document " ++
      pyRepr (toString documentId)))

/-- The numbers of a document's versions, in the order in which they were stored. -/
def numbers (table : VersionTable) (documentId : Uuid) : List ℕ :=
  (table.rowsOf documentId).map (·.versionNumber)

/-- No two versions of a document have one number, and the numbers are 1, 2, ..., n. -/
def Sequential (table : VersionTable) : Prop :=
  ∀ documentId, (table.numbers documentId).Nodup ∧
    ∀ k, k ∈ table.numbers documentId ↔ 1 ≤ k ∧ k ≤ (table.numbers documentId).length

end VersionTable

/-! ### Snapshots on their way -/

/-- A snapshot that has read the number of its version; `overtaken` tells whether a version of its
document was stored since. -/
structure SnapshotRequest where
  documentId : Uuid
  firmId : String
  sections : List Section
  author : String
  versionNumber : ℕ
  overtaken : Bool := false
  deriving DecidableEq

structure Requests where
  table : VersionTable
  pending : Dict ℕ SnapshotRequest := ∅

namespace Requests

/-- What may happen: `r` is the request it happens to. -/
inductive Op where
  | read (r : ℕ) (firmId : String) (documentId : Uuid) (sections : List Section) (author : String)
  | insert (r : ℕ) (now : ℚ)
  | abandon (r : ℕ)

/-- The other requests, once a version of the document is stored. -/
def overtake (pending : Dict ℕ SnapshotRequest) (documentId : Uuid) : Dict ℕ SnapshotRequest :=
  pending.map fun _ request =>
    if request.documentId = documentId then { request with overtaken := true } else request

/-- What happens next.  A request whose number is taken does nothing, and neither does one that is not on
its way; one that the table refuses is over. -/
def step (s : Requests) : Op → Requests
  | .read r firmId documentId sections author =>
      if s.pending.contains r then s
      else
        let versionNumber := (s.table.listVersions firmId documentId).length + 1
        { s with pending := s.pending.set r { documentId, firmId, sections, author, versionNumber } }
  | .insert r now =>
      match s.pending.get r with
      | some request =>
          let row : DraftDocumentVersionModel := {
            id := s.table.uuids
            documentId := request.documentId
            firmId := request.firmId
            versionNumber := request.versionNumber
            author := request.author
            createdAt := now
            payload := request.sections }
          match { s.table with uuids := s.table.uuids + 1 }.insert row with
          | .ok table => { table, pending := overtake (s.pending.pop r) request.documentId }
          | .error _ => { s with pending := s.pending.pop r }
      | none => s
  | .abandon r => { s with pending := s.pending.pop r }

/-- The discipline: a version is inserted only if none of its document was stored since its request read,
and all that are stored are of its firm. -/
def Undisturbed (s : Requests) : Op → Prop
  | .insert r _ => ∀ request, s.pending.get r = some request →
      request.overtaken = false ∧ ∀ row ∈ s.table.rowsOf request.documentId, row.firmId = request.firmId
  | _ => True

/-! ### The numbers of a document -/

section Numbers

variable {table : VersionTable} {documentId : Uuid}

/-- One number more carries the numbers on iff it is the next one. -/
lemma sequential_snoc {log : List ℕ} {k : ℕ} (h : log = List.range' 1 log.length) :
    ((log ++ [k]).Nodup ∧ ∀ j, j ∈ log ++ [k] ↔ 1 ≤ j ∧ j ≤ (log ++ [k]).length) ↔
      k = log.length + 1 := by
  have hmem : ∀ j, j ∈ log ↔ 1 ≤ j ∧ j ≤ log.length := by
    intro j
    rw [h, List.mem_range'_1, List.length_range']
    omega
  constructor
  · rintro ⟨hnodup, hall⟩
    have hnew : k ∉ log := fun hk =>
      (List.nodup_append'.mp hnodup).2.2 hk (List.mem_singleton_self k)
    have hk := (hall k).mp (by simp)
    rw [hmem] at hnew
    rw [List.length_append, List.length_singleton] at hk
    omega
  · rintro rfl
    refine ⟨List.nodup_append'.mpr ⟨?_, List.nodup_singleton _, ?_⟩, fun j => ?_⟩
    · rw [h]
      exact List.nodup_range'
    · refine List.disjoint_singleton.mpr fun hk => ?_
      rw [hmem] at hk
      omega
    · rw [List.mem_append, hmem, List.mem_singleton, List.length_append, List.length_singleton]
      omega

lemma length_listVersions (table : VersionTable) (firmId : String) (documentId : Uuid) :
    (table.listVersions firmId documentId).length = (table.scopedQuery firmId documentId).length := by
  rw [VersionTable.listVersions, List.length_map, List.length_insertionSort]

lemma rowsOf_append (table : VersionTable) (row : DraftDocumentVersionModel) (uuids : ℕ)
    (documentId : Uuid) :
    VersionTable.rowsOf { table with rows := table.rows ++ [row], uuids } documentId =
      table.rowsOf documentId ++ if row.documentId = documentId then [row] else [] := by
  rw [VersionTable.rowsOf, List.filter_append]
  congr 1
  by_cases h : row.documentId = documentId <;> simp [h]

/-- The firm has as many versions of the document as there are iff all are its own. -/
lemma length_scopedQuery_iff {firmId : String} :
    (table.scopedQuery firmId documentId).length = (table.rowsOf documentId).length ↔
      ∀ row ∈ table.rowsOf documentId, row.firmId = firmId := by
  rw [VersionTable.scopedQuery, List.length_filter_eq_length_iff]
  simp

lemma length_scopedQuery_le (table : VersionTable) (firmId : String) (documentId : Uuid) :
    (table.scopedQuery firmId documentId).length ≤ (table.rowsOf documentId).length :=
  List.length_filter_le ..

end Numbers

/-! ### The invariant -/

section Invariant

variable {s : Requests}

/-- The versions of each document are numbered as they were stored, and a request has read the number of
all versions of its firm that are stored, unless it was overtaken. -/
structure Inv (s : Requests) : Prop where
  numbered : ∀ documentId, Numbered DraftDocumentVersionModel.versionNumber (s.table.rowsOf documentId)
  fresh : ∀ r request, s.pending.get r = some request → request.overtaken = false →
    request.versionNumber = (s.table.scopedQuery request.firmId request.documentId).length + 1
  stale : ∀ r request, s.pending.get r = some request → request.overtaken = true →
    1 ≤ request.versionNumber ∧ request.versionNumber ≤ (s.table.rowsOf request.documentId).length

lemma Inv.sequential (h : Inv s) : s.table.Sequential := by
  intro documentId
  have hnumbers : s.table.numbers documentId = List.range' 1 (s.table.numbers documentId).length := by
    rw [VersionTable.numbers, List.length_map]
    exact h.numbered documentId
  rw [hnumbers, List.length_range']
  refine ⟨List.nodup_range', fun k => ?_⟩
  rw [List.mem_range'_1]
  omega

/-- A request reads a number from 1 to the next one. -/
lemma Inv.bounds (h : Inv s) {r : ℕ} {request : SnapshotRequest} (hget : s.pending.get r = some request) :
    1 ≤ request.versionNumber ∧
      request.versionNumber ≤ (s.table.rowsOf request.documentId).length + 1 := by
  cases hovertaken : request.overtaken with
  | false =>
    have hle := length_scopedQuery_le s.table request.firmId request.documentId
    have hnumber := h.fresh r request hget hovertaken
    omega
  | true =>
    obtain ⟨hpos, hle⟩ := h.stale r request hget hovertaken
    exact ⟨hpos, hle.trans (Nat.le_succ _)⟩

/-- The number a request has read is the next one iff it was not overtaken and all versions of its
document are of its firm. -/
lemma Inv.next_iff (h : Inv s) {r : ℕ} {request : SnapshotRequest}
    (hget : s.pending.get r = some request) :
    request.versionNumber = (s.table.rowsOf request.documentId).length + 1 ↔
      request.overtaken = false ∧ ∀ row ∈ s.table.rowsOf request.documentId, row.firmId = request.firmId := by
  cases hovertaken : request.overtaken with
  | false =>
    rw [h.fresh r request hget hovertaken, Nat.succ_inj, length_scopedQuery_iff]
    simp
  | true =>
    obtain ⟨-, hle⟩ := h.stale r request hget hovertaken
    refine iff_of_false (fun heq => ?_) (fun hno => by cases hno.1)
    omega

/-- The row that a request inserts. -/
def rowOf (s : Requests) (request : SnapshotRequest) (now : ℚ) : DraftDocumentVersionModel where
  id := s.table.uuids
  documentId := request.documentId
  firmId := request.firmId
  versionNumber := request.versionNumber
  author := request.author
  createdAt := now
  payload := request.sections

/-- The state after the row of a request is stored. -/
def stored (s : Requests) (r : ℕ) (request : SnapshotRequest) (now : ℚ) : Requests where
  table := { s.table with rows := s.table.rows ++ [s.rowOf request now], uuids := s.table.uuids + 1 }
  pending := overtake (s.pending.pop r) request.documentId

/-- What an insertion comes to: the row is stored, or the table refuses it. -/
lemma step_insert {r : ℕ} {request : SnapshotRequest} (hget : s.pending.get r = some request) (now : ℚ) :
    s.step (.insert r now) =
      if s.table.origin.uniqueVersions ∧ ∃ other ∈ s.table.rowsOf request.documentId,
          other.versionNumber = request.versionNumber then { s with pending := s.pending.pop r }
      else s.stored r request now := by
  unfold step VersionTable.insert
  simp only [hget]
  split
  · rename_i hif
    split at hif
    · cases hif
    · rename_i hno
      cases hif
      exact (if_neg hno).symm
  · rename_i hif
    split at hif
    · rename_i hyes
      exact (if_pos hyes).symm
    · cases hif

lemma Inv.pop (h : Inv s) (r : ℕ) : Inv { s with pending := s.pending.pop r } := by
  have hkept : ∀ r' request, (s.pending.pop r).get r' = some request → s.pending.get r' = some request := by
    intro r' request hget
    by_cases hr : r' = r
    · rw [hr, Dict.get_pop_self] at hget
      cases hget
    · rwa [Dict.get_pop_of_ne _ hr] at hget
  exact ⟨h.numbered, fun r' request hget => h.fresh r' request (hkept r' request hget),
    fun r' request hget => h.stale r' request (hkept r' request hget)⟩

/-- A request that is on its way after another one stored its row. -/
lemma get_overtake {r r' : ℕ} {documentId : Uuid} {other : SnapshotRequest}
    (hget : (overtake (s.pending.pop r) documentId).get r' = some other) :
    ∃ before, s.pending.get r' = some before ∧
      other = if before.documentId = documentId then { before with overtaken := true } else before := by
  rw [overtake, Dict.get_map] at hget
  obtain ⟨before, hbefore, rfl⟩ := Option.map_eq_some_iff.mp hget
  by_cases hr : r' = r
  · rw [hr, Dict.get_pop_self] at hbefore
    cases hbefore
  · rw [Dict.get_pop_of_ne _ hr] at hbefore
    exact ⟨before, hbefore, rfl⟩

lemma rowsOf_stored (s : Requests) (r : ℕ) (request : SnapshotRequest) (now : ℚ) (documentId : Uuid) :
    (s.stored r request now).table.rowsOf documentId = s.table.rowsOf documentId ++
      if request.documentId = documentId then [s.rowOf request now] else [] := rowsOf_append ..

/-- The next version of a document is stored. -/
lemma Inv.stored (h : Inv s) {r : ℕ} {request : SnapshotRequest} (now : ℚ)
    (hnumber : request.versionNumber = (s.table.rowsOf request.documentId).length + 1) :
    Inv (s.stored r request now) where
  numbered documentId := by
    rw [rowsOf_stored]
    split
    · rename_i hid
      refine (h.numbered documentId).snoc ?_
      rw [← hid]
      exact hnumber
    · rw [List.append_nil]
      exact h.numbered documentId
  fresh r' other hget hovertaken := by
    obtain ⟨before, hbefore, rfl⟩ := get_overtake hget
    by_cases hid : before.documentId = request.documentId
    · rw [if_pos hid] at hovertaken
      cases hovertaken
    · rw [if_neg hid] at hovertaken ⊢
      rw [h.fresh r' before hbefore hovertaken, VersionTable.scopedQuery, VersionTable.scopedQuery,
        rowsOf_stored, if_neg (Ne.symm hid), List.append_nil]
  stale r' other hget hovertaken := by
    obtain ⟨before, hbefore, rfl⟩ := get_overtake hget
    by_cases hid : before.documentId = request.documentId
    · -- one version more than when the other request read
      rw [if_pos hid, rowsOf_stored]
      dsimp only
      rw [if_pos hid.symm, List.length_append]
      exact h.bounds hbefore
    · rw [if_neg hid] at hovertaken ⊢
      rw [rowsOf_stored, if_neg (Ne.symm hid), List.append_nil]
      exact h.stale r' before hbefore hovertaken

lemma Inv.read (h : Inv s) (r : ℕ) (firmId : String) (documentId : Uuid) (sections : List Section)
    (author : String) : Inv (s.step (.read r firmId documentId sections author)) := by
  unfold step
  dsimp only
  split
  · exact h
  · refine ⟨h.numbered, fun r' request hget hovertaken => ?_, fun r' request hget hovertaken => ?_⟩
    · rw [Dict.get_set] at hget
      split at hget
      · cases hget
        exact congrArg (· + 1) (length_listVersions ..)
      · exact h.fresh r' request hget hovertaken
    · rw [Dict.get_set] at hget
      split at hget
      · cases hget
        cases hovertaken
      · exact h.stale r' request hget hovertaken

/-- The number that a row is stored with, where the table refuses a number that is taken. -/
lemma Inv.next_of_free (h : Inv s) {r : ℕ} {request : SnapshotRequest}
    (hget : s.pending.get r = some request)
    (hfree : ¬ ∃ other ∈ s.table.rowsOf request.documentId, other.versionNumber = request.versionNumber) :
    request.versionNumber = (s.table.rowsOf request.documentId).length + 1 := by
  obtain ⟨hpos, hle⟩ := h.bounds hget
  by_contra hne
  refine hfree (List.mem_map.mp ?_)
  rw [h.numbered request.documentId, List.mem_range'_1]
  omega

/-- **The step lemma**: a step keeps the invariant where the table declares its numbers unique, and where
the step is disciplined. -/
theorem inv_step (h : Inv s) {op : Op}
    (hop : s.table.origin.uniqueVersions = true ∨ s.Undisturbed op) : Inv (s.step op) := by
  cases op with
  | read r firmId documentId sections author => exact h.read r firmId documentId sections author
  | insert r now =>
    cases hget : s.pending.get r with
    | none =>
      have hstep : s.step (.insert r now) = s := by simp only [step, hget]
      rw [hstep]
      exact h
    | some request =>
      rw [step_insert hget]
      split
      · exact h.pop r
      · rename_i hfree
        refine h.stored now ?_
        rcases hop with hunique | hop
        · exact h.next_of_free hget fun htaken => hfree ⟨hunique, htaken⟩
        · exact (h.next_iff hget).mpr (hop request hget)
  | abandon r => exact h.pop r

lemma origin_step (s : Requests) (op : Op) : (s.step op).table.origin = s.table.origin := by
  cases op with
  | read r firmId documentId sections author =>
    unfold step
    dsimp only
    split <;> rfl
  | insert r now =>
    cases hget : s.pending.get r with
    | none => simp only [step, hget]
    | some request =>
      rw [step_insert hget]
      split <;> rfl
  | abandon r => rfl

/-- Where the table does not declare its numbers unique, a step keeps them in sequence iff it is
disciplined. -/
lemma sequential_step_iff (h : Inv s) (horigin : s.table.origin = .rowModel) (op : Op) :
    (s.step op).table.Sequential ↔ s.Undisturbed op := by
  refine ⟨fun hsequential => ?_, fun hop => (inv_step h (Or.inr hop)).sequential⟩
  cases op with
  | insert r now =>
    intro request hget
    rw [step_insert hget, horigin, if_neg fun hno => by cases hno.1] at hsequential
    have hnumbers := hsequential request.documentId
    have hlog : s.table.numbers request.documentId =
        List.range' 1 (s.table.numbers request.documentId).length := by
      rw [VersionTable.numbers, List.length_map]
      exact h.numbered request.documentId
    have hsnoc : (s.stored r request now).table.numbers request.documentId =
        s.table.numbers request.documentId ++ [request.versionNumber] := by
      rw [VersionTable.numbers, rowsOf_stored, if_pos rfl, List.map_append]
      rfl
    rw [hsnoc, sequential_snoc hlog, VersionTable.numbers, List.length_map] at hnumbers
    exact (h.next_iff hget).mp hnumbers
  | _ => trivial

end Invariant

/-! ### Runs -/

/-- The table before anything is stored. -/
def initial (origin : TableOrigin) : Requests := { table := { origin } }

lemma inv_initial (origin : TableOrigin) : Inv (initial origin) where
  numbered _ := numbered_nil _
  fresh _ _ hget := by cases hget
  stale _ _ hget := by cases hget

/-- **Versions in sequence**: in every run no two versions of a document carry one number, and the numbers
are 1, 2, ..., n, iff the table was made by the migration, which declares them unique, or no request inserts
after another version of its document was stored since it read, or of another firm. -/
theorem along_sequential_iff (origin : TableOrigin) (ops : List Op) :
    Along step (fun s op => (s.step op).table.Sequential) (initial origin) ops ↔
      origin = .migration ∨ Along step Undisturbed (initial origin) ops := by
  cases origin with
  | migration =>
    refine iff_of_true ?_ (Or.inl rfl)
    have hall : Along step (fun _ _ => True) (initial .migration) ops :=
      along_of_forall (P := fun _ => True) (fun _ _ => trivial) _
    refine hall.of_inv (I := fun s => Inv s ∧ s.table.origin = .migration)
      ⟨inv_initial .migration, rfl⟩ (fun s op hinv _ => ?_) fun s op hinv _ => ?_
    · exact ⟨inv_step hinv.1 (Or.inl (by rw [hinv.2]; rfl)), (origin_step s op).trans hinv.2⟩
    · exact (inv_step hinv.1 (Or.inl (by rw [hinv.2]; rfl))).sequential
  | rowModel =>
    rw [or_iff_right (by simp)]
    exact along_congr (I := fun s => Inv s ∧ s.table.origin = .rowModel)
      ⟨inv_initial .rowModel, rfl⟩
      (fun s op hinv hop => ⟨inv_step hinv.1 (Or.inr hop), (origin_step s op).trans hinv.2⟩)
      fun s op hinv => sequential_step_iff hinv.1 hinv.2 op

/-- Two requests read, and both insert. -/
def readTwice : List Op :=
  [.read 0 "firm" 7 [] "a", .read 1 "firm" 7 [] "b", .insert 0 1, .insert 1 2]

/-- In the table that is made from the row model both versions carry the number 1, and looking one up
raises. -/
theorem same_number_twice :
    ¬ (run step (initial .rowModel) readTwice).table.Sequential ∧
      ((run step (initial .rowModel) readTwice).table.get "firm" 7 1).isOk = false := by
  refine ⟨fun h => ?_, by decide +kernel⟩
  exact absurd (h 7).1 (by decide +kernel)

/-! ### Looking up a version -/

/-- **A version is looked up by its number**: where the numbers are in sequence, `get` does not raise. -/
theorem get_of_sequential {table : VersionTable} (h : table.Sequential) (firmId : String)
    (documentId : Uuid) (versionNumber : ℤ) :
    ∃ version, table.get firmId documentId versionNumber = .ok version := by
  have hnodup : ((table.scopedQuery firmId documentId).map (·.versionNumber)).Nodup :=
    (h documentId).1.sublist (List.filter_sublist.map _)
  unfold VersionTable.get
  cases hrows : (table.scopedQuery firmId documentId).filter (·.versionNumber = versionNumber) with
  | nil => exact ⟨none, rfl⟩
  | cons row rows =>
    cases rows with
    | nil => exact ⟨some row.version, rfl⟩
    | cons row' rows =>
      -- two rows with one number
      have hfound : ∀ x ∈ row :: row' :: rows, (x.versionNumber : ℤ) = versionNumber := by
        intro x hx
        rw [← hrows, List.mem_filter, decide_eq_true_eq] at hx
        exact hx.2
      have hapart := (List.pairwise_map.mp hnodup).sublist
        (List.filter_sublist (p := fun row => decide ((row.versionNumber : ℤ) = versionNumber)))
      rw [hrows, List.pairwise_cons] at hapart
      refine absurd ?_ (hapart.1 row' List.mem_cons_self)
      have hrow := hfound row List.mem_cons_self
      have hrow' := hfound row' (List.mem_cons_of_mem _ List.mem_cons_self)
      omega

end Requests

end Tmis.LegalDrafting
