import Mathlib.Data.List.Perm.Basic
import Tmis.LegalDrafting.Orchestrator
import Tmis.Lib.ObjectHeap
import Tmis.Lib.Run

/-!
# The diff of two versions

`legal_drafting.versioning.diffing`: which paragraphs of two versions of a document stand in one of them only, and
which have another text.

* `DocumentVersion.texts`, `diffVersions` — the texts by their identifiers, and what differs in them;
* `added_swap`, `changed_perm` — the diff the other way round;
* `diff_empty_iff` — nothing differs exactly where both have the same texts.
-/

namespace Tmis.LegalDrafting

open Tmis.Lib

structure VersionDiff where
  versionA : ℤ
  versionB : ℤ
  addedParagraphIds : List Uuid
  removedParagraphIds : List Uuid
  changedParagraphIds : List Uuid
  deriving DecidableEq

/-- The text of each paragraph: of two with one identifier, that of the later one. -/
def DocumentVersion.texts (version : DocumentVersion) : Dict Uuid String :=
  Dict.ofEntries ((version.sections.flatMap (·.paragraphs)).map fun p => (p.id, p.text))

/-- `diff_versions`. -/
def diffVersions (a b : DocumentVersion) : VersionDiff where
  versionA := a.versionNumber
  versionB := b.versionNumber
  addedParagraphIds := b.texts.keys.filter fun pid => !a.texts.contains pid
  removedParagraphIds := a.texts.keys.filter fun pid => !b.texts.contains pid
  changedParagraphIds :=
    a.texts.keys.filter fun pid => b.texts.contains pid && a.texts.get pid != b.texts.get pid

/-- Nothing was added, removed or changed. -/
def VersionDiff.Empty (diff : VersionDiff) : Prop :=
  diff.addedParagraphIds = [] ∧ diff.removedParagraphIds = [] ∧ diff.changedParagraphIds = []

section Diff

variable (a b : DocumentVersion)

/-- What is added one way is removed the other way. -/
lemma added_swap : (diffVersions a b).addedParagraphIds = (diffVersions b a).removedParagraphIds := rfl

lemma mem_added_iff (pid : Uuid) :
    pid ∈ (diffVersions a b).addedParagraphIds ↔ a.texts.get pid = none ∧ ∃ text, b.texts.get pid = some text := by
  rw [diffVersions, List.mem_filter, Dict.mem_keys_iff, Dict.contains, and_comm]
  simp

lemma mem_changed_iff (pid : Uuid) :
    pid ∈ (diffVersions a b).changedParagraphIds ↔
      ∃ text text', a.texts.get pid = some text ∧ b.texts.get pid = some text' ∧ text ≠ text' := by
  rw [diffVersions, List.mem_filter, Dict.mem_keys_iff, Bool.and_eq_true, Dict.contains_iff, bne_iff_ne]
  constructor
  · rintro ⟨⟨text, htext⟩, ⟨text', htext'⟩, hne⟩
    refine ⟨text, text', htext, htext', fun heq => hne ?_⟩
    rw [htext, htext', heq]
  · rintro ⟨text, text', htext, htext', hne⟩
    refine ⟨⟨text, htext⟩, ⟨text', htext'⟩, fun heq => hne ?_⟩
    rw [htext, htext'] at heq
    exact Option.some_inj.mp heq

/-- What is changed one way is changed the other way. -/
lemma changed_perm :
    (diffVersions a b).changedParagraphIds.Perm (diffVersions b a).changedParagraphIds := by
  refine (List.perm_ext_iff_of_nodup (a.texts.nodup.filter _) (b.texts.nodup.filter _)).mpr fun pid => ?_
  have hab := mem_changed_iff a b pid
  have hba := mem_changed_iff b a pid
  refine hab.trans (Iff.trans ?_ hba.symm)
  constructor
  · rintro ⟨text, text', htext, htext', hne⟩
    exact ⟨text', text, htext', htext, hne.symm⟩
  · rintro ⟨text, text', htext, htext', hne⟩
    exact ⟨text', text, htext', htext, hne.symm⟩

/-- Nothing differs exactly where both versions have the same texts under the same identifiers. -/
lemma diff_empty_iff : (diffVersions a b).Empty ↔ ∀ pid, a.texts.get pid = b.texts.get pid := by
  have hadded := mem_added_iff a b
  have hremoved := mem_added_iff b a
  have hchanged := mem_changed_iff a b
  constructor
  · rintro ⟨hadd, hremove, hchange⟩ pid
    rw [← added_swap b a] at hremove
    rw [hadd] at hadded
    rw [hremove] at hremoved
    rw [hchange] at hchanged
    cases ha : a.texts.get pid with
    | none =>
      cases hb : b.texts.get pid with
      | none => rfl
      | some text' => exact absurd ((hadded pid).mpr ⟨ha, text', hb⟩) List.not_mem_nil
    | some text =>
      cases hb : b.texts.get pid with
      | none => exact absurd ((hremoved pid).mpr ⟨hb, text, ha⟩) List.not_mem_nil
      | some text' =>
        by_cases heq : text = text'
        · rw [heq]
        · exact absurd ((hchanged pid).mpr ⟨text, text', ha, hb, heq⟩) List.not_mem_nil
  · intro hsame
    refine ⟨List.eq_nil_iff_forall_not_mem.mpr fun pid hpid => ?_,
      List.eq_nil_iff_forall_not_mem.mpr fun pid hpid => ?_,
      List.eq_nil_iff_forall_not_mem.mpr fun pid hpid => ?_⟩
    · obtain ⟨hnone, text, hsome⟩ := (hadded pid).mp hpid
      rw [hsame pid, hsome] at hnone
      cases hnone
    · rw [← added_swap b a] at hpid
      obtain ⟨hnone, text, hsome⟩ := (hremoved pid).mp hpid
      rw [← hsame pid, hsome] at hnone
      cases hnone
    · obtain ⟨text, text', htext, htext', hne⟩ := (hchanged pid).mp hpid
      rw [hsame pid, htext'] at htext
      exact hne (Option.some_inj.mp htext).symm

end Diff

end Tmis.LegalDrafting

/-!
## The versions of a document in memory

`legal_drafting.versioning.service`: the sections and the paragraphs of a draft are objects that others refer to, and
may be written at any time; a version is a copy of them.

* `HeapObject`, `sectionAt` — the objects of a draft, and what is read of them;
* `copyParagraph`, `copySection` — the copies that the service makes;
* `VersionedDrafts`, `snapshot`, `compare`, `restoreVersion` — the service, and a draft that goes back to a version;
* `Op`, `step` — these, and whatever else is done to drafts in between;
* `copyItems_copied`, `copyOf_section` — a copy is read as what it is a copy of, and shares nothing with it.
-/

namespace Tmis.LegalDrafting

open Tmis.Lib

/-! ### Drafts as objects -/

/-- An object of a draft; what it refers to stands under an address. -/
inductive HeapObject where
  | document (sections : ℕ)
  | list (items : List ℕ)
  | section_ (id : Uuid) (key title : String) (order : ℕ) (paragraphs : ℕ) (dependsOn : List String)
  | paragraph (p : Paragraph)

namespace HeapObject

def refs : HeapObject → List ℕ
  | document sections => [sections]
  | list items => items
  | section_ _ _ _ _ paragraphs _ => [paragraphs]
  | paragraph _ => []

end HeapObject

abbrev DraftHeap := Heap HeapObject

def listAt (heap : DraftHeap) (r : ℕ) : Option (List ℕ) :=
  match heap[r]? with
  | some (.list items) => some items
  | _ => none

/-- What the items of a list are read as. -/
def itemsAt {V : Type*} (view : DraftHeap → ℕ → Option V) (heap : DraftHeap) (r : ℕ) : Option (List V) :=
  (listAt heap r).bind fun items => items.mapM (view heap)

def paragraphAt (heap : DraftHeap) (r : ℕ) : Option Paragraph :=
  match heap[r]? with
  | some (.paragraph p) => some p
  | _ => none

def sectionAt (heap : DraftHeap) (r : ℕ) : Option Section :=
  match heap[r]? with
  | some (.section_ id key title order paragraphs dependsOn) =>
    (itemsAt paragraphAt heap paragraphs).map fun paragraphs => { id, key, title, order, paragraphs, dependsOn }
  | _ => none

/-! ### Copies -/

/-- A new list, of copies of the items. -/
def copyItems (copy : DraftHeap → ℕ → Option (DraftHeap × ℕ)) (heap : DraftHeap) (items : List ℕ) :
    Option (DraftHeap × ℕ) :=
  (copyAll copy heap items).map fun (heap, copies) => (heap ++ [.list copies], heap.length)

/-- `_copy_paragraph`. -/
def copyParagraph (heap : DraftHeap) (r : ℕ) : Option (DraftHeap × ℕ) :=
  match heap[r]? with
  | some (.paragraph p) => some (heap ++ [.paragraph p], heap.length)
  | _ => none

/-- `dataclasses.replace` of a section, with a new list of copies of its paragraphs. -/
def copySection (heap : DraftHeap) (r : ℕ) : Option (DraftHeap × ℕ) :=
  match heap[r]? with
  | some (.section_ id key title order paragraphs dependsOn) => do
    let (heap, paragraphs) ← (listAt heap paragraphs).bind (copyItems copyParagraph heap)
    return (heap ++ [.section_ id key title order paragraphs dependsOn], heap.length)
  | _ => none

/-! ### The service -/

/-- A version as it is stored; the tuple of its sections refers to their copies. -/
structure StoredVersion where
  id : Uuid
  documentId : Uuid
  versionNumber : ℕ
  sections : List ℕ
  author : String

/-- The drafts with those who work on them, and the versions; `uuids` counts the identifiers drawn so far. -/
structure VersionedDrafts where
  client : Client HeapObject := ⟨[], []⟩
  versions : Dict Uuid (List StoredVersion) := ∅
  uuids : ℕ := 0

def StoredVersion.readAt (heap : DraftHeap) (version : StoredVersion) : Option DocumentVersion := do
  let sections ← version.sections.mapM (sectionAt heap)
  return {
    id := version.id
    documentId := version.documentId
    versionNumber := version.versionNumber
    sections
    author := version.author }

namespace VersionedDrafts

/-- `list_versions`. -/
def listVersions (s : VersionedDrafts) (documentId : Uuid) : List StoredVersion :=
  (s.versions.get documentId).getD []

/-- What `list_versions` shows. -/
def history (s : VersionedDrafts) (documentId : Uuid) : Option (List DocumentVersion) :=
  (s.listVersions documentId).mapM (·.readAt s.client.heap)

def get (s : VersionedDrafts) (documentId : Uuid) (versionNumber : ℤ) : Option StoredVersion :=
  (s.listVersions documentId).find? (·.versionNumber = versionNumber)

/-- `snapshot` of the sections of a list; where one of them is not a section of paragraphs, copying it raises. -/
def snapshot (s : VersionedDrafts) (documentId : Uuid) (sections : ℕ) (author : String) : VersionedDrafts :=
  let existing := s.listVersions documentId
  match (listAt s.client.heap sections).bind (copyAll copySection s.client.heap) with
  | some (heap, copies) =>
    let version : StoredVersion :=
      { id := s.uuids, documentId, versionNumber := existing.length + 1, sections := copies, author }
    { client := { s.client with heap }
      versions := s.versions.set documentId (existing ++ [version])
      uuids := s.uuids + 1 }
  | none => { s with versions := s.versions.set documentId existing, uuids := s.uuids + 1 }

def compare (s : VersionedDrafts) (documentId : Uuid) (versionA versionB : ℤ) : Except PyException VersionDiff :=
  match s.get documentId versionA, s.get documentId versionB with
  | some va, some vb =>
    match va.readAt s.client.heap, vb.readAt s.client.heap with
    | some va, some vb => .ok (diffVersions va vb)
    | _, _ => .error ⟨"AttributeError", "object has no attribute"⟩
  | _, _ => .error (valueError ("Unknown version for document " ++ pyRepr (toString documentId)))

/-- `restore`: a new list, of copies of the sections of a version. -/
def restore (s : VersionedDrafts) (documentId : Uuid) (versionNumber : ℤ) : Except PyException (DraftHeap × ℕ) :=
  match s.get documentId versionNumber with
  | some version =>
    match copyItems copySection s.client.heap version.sections with
    | some copies => .ok copies
    | none => .error ⟨"AttributeError", "object has no attribute"⟩
  | none => .error (valueError ("Unknown version " ++ toString versionNumber ++ " for document " ++
      pyRepr (toString documentId)))

/-- The list that a document has its sections in, for those who have the document. -/
def documentAt (s : VersionedDrafts) (r : ℕ) : Option ℕ :=
  match s.client.heap[r]? with
  | some (.document sections) => if r ∈ s.client.known then some sections else none
  | _ => none

/-- The sections of a document. -/
def contents (s : VersionedDrafts) (r : ℕ) : Option (List Section) := (s.documentAt r).bind (itemsAt sectionAt s.client.heap)

/-- `restore_version` of the orchestrator: the sections of a document become copies of those of a version, and a
version of them is stored. -/
def restoreVersion (s : VersionedDrafts) (documentId : Uuid) (versionNumber : ℤ) (r : ℕ) (author : String) :
    Except PyException VersionedDrafts := do
  let (heap, sections) ← s.restore documentId versionNumber
  let client := { s.client with heap := heap.set r (.document sections) }
  return { s with client }.snapshot documentId sections author

/-! ### Runs -/

/-- What may happen to the drafts: a version of one is stored, one goes back to a version, or those who work on them do
what they like with the objects they have.  The versions that are handed out are only read. -/
inductive Op where
  | snapshot (documentId : Uuid) (r : ℕ) (author : String)
  | restoreVersion (documentId : Uuid) (versionNumber : ℤ) (r : ℕ) (author : String)
  | edit (program : List (HeapAction HeapObject))

def step (s : VersionedDrafts) : Op → VersionedDrafts
  | .snapshot documentId r author =>
    match s.documentAt r with
    | some sections => s.snapshot documentId sections author
    | none => s
  | .restoreVersion documentId versionNumber r author =>
    match s.documentAt r with
    | some _ => afterCall s (s.restoreVersion documentId versionNumber r author)
    | none => s
  | .edit program => { s with client := program.foldl (Client.act HeapObject.refs) s.client }

end VersionedDrafts

/-! ### What is read of a draft -/

section Views

lemma local_listAt {G : ℕ → Prop} {heap heap' : DraftHeap} {r : ℕ} (hclosed : Closed HeapObject.refs heap G)
    (hkeeps : Keeps G heap heap') (hr : G r) :
    listAt heap' r = listAt heap r ∧ ∀ items, listAt heap r = some items → ∀ item ∈ items, G item := by
  refine ⟨by rw [listAt, listAt, hkeeps r hr], fun items hitems item hitem => ?_⟩
  unfold listAt at hitems
  split at hitems
  · rename_i hget
    cases hitems
    exact hclosed r _ hr hget item hitem
  · cases hitems

lemma local_paragraphAt : LocalView HeapObject.refs paragraphAt := by
  intro G heap heap' r _ hkeeps hr
  rw [paragraphAt, paragraphAt, hkeeps r hr]

lemma local_itemsAt {V : Type*} {view : DraftHeap → ℕ → Option V} (h : LocalView HeapObject.refs view) :
    LocalView HeapObject.refs (itemsAt view) := by
  intro G heap heap' r hclosed hkeeps hr
  obtain ⟨hlist, hitems⟩ := local_listAt hclosed hkeeps hr
  unfold itemsAt
  rw [hlist]
  cases hread : listAt heap r with
  | none => rfl
  | some items =>
    rw [Option.bind_some, Option.bind_some]
    exact mapM_congr_mem fun item hitem => h G heap heap' item hclosed hkeeps (hitems items hread item hitem)

lemma local_sectionAt : LocalView HeapObject.refs sectionAt := by
  intro G heap heap' r hclosed hkeeps hr
  unfold sectionAt
  rw [hkeeps r hr]
  cases hget : heap[r]? with
  | none => rfl
  | some o =>
    cases o with
    | section_ id key title order paragraphs dependsOn =>
      have hparagraphs : G paragraphs := hclosed r _ hr hget paragraphs List.mem_cons_self
      have hmap := local_itemsAt local_paragraphAt G heap heap' paragraphs hclosed hkeeps hparagraphs
      dsimp only
      rw [hmap]
    | _ => rfl

end Views

/-! ### What is read of a copy -/

section Copying

variable {V : Type*} {view : DraftHeap → ℕ → Option V} {copy : DraftHeap → ℕ → Option (DraftHeap × ℕ)}

lemma copyOf_paragraph : CopyOf HeapObject.refs paragraphAt copyParagraph where
  isLocal := local_paragraphAt
  copied base heap r v hbase hvalid hfresh hr hview := by
    unfold paragraphAt at hview
    split at hview
    · rename_i hget
      cases hview
      refine ⟨heap ++ [.paragraph v], heap.length, ?_, grown_alloc hvalid hfresh ?_, ⟨hbase, ?_⟩, ?_⟩
      · simp only [copyParagraph, hget]
      · intro r' hr'
        cases hr'
      · rw [List.length_append]
        exact Nat.lt_succ_self _
      · simp only [paragraphAt, List.getElem?_concat_length]
    · cases hview
  failed heap r _ hview := by
    unfold paragraphAt at hview
    unfold copyParagraph
    split at hview
    · cases hview
    · rfl

/-- The items of a list are objects. -/
lemma lt_of_mem_listAt {heap : DraftHeap} {r : ℕ} {items : List ℕ} (hvalid : Valid HeapObject.refs heap)
    (hitems : listAt heap r = some items) : ∀ item ∈ items, item < heap.length := by
  unfold listAt at hitems
  split at hitems
  · rename_i hget
    cases hitems
    exact hvalid r _ (List.getElem?_eq_some_iff.mp hget).1 hget
  · cases hitems

/-- A new list of copies is read as what they are copies of. -/
lemma copyItems_copied (h : CopyOf HeapObject.refs view copy) {base : ℕ} {heap : DraftHeap} {items : List ℕ}
    {vs : List V} (hbase : base ≤ heap.length) (hvalid : Valid HeapObject.refs heap)
    (hfresh : FreshFrom HeapObject.refs base heap) (hitems : ∀ item ∈ items, item < heap.length)
    (hview : items.mapM (view heap) = some vs) :
    ∃ heap' r, copyItems copy heap items = some (heap', r) ∧ Grown HeapObject.refs base heap heap' ∧
      (base ≤ r ∧ r < heap'.length) ∧ itemsAt view heap' r = some vs := by
  obtain ⟨heap₁, copies, hcopies, hgrown, hfreshCopies, hread⟩ := copyAll_copied h hbase hvalid hfresh hitems hview
  have hlist := grown_alloc (o := HeapObject.list copies) hgrown.valid hgrown.fresh hfreshCopies
  refine ⟨heap₁ ++ [.list copies], heap₁.length, ?_, hgrown.trans hlist, ⟨?_, ?_⟩, ?_⟩
  · rw [copyItems, hcopies, Option.map_some]
  · exact hbase.trans hgrown.isPrefix.length_le
  · rw [List.length_append]
    exact Nat.lt_succ_self _
  · simp only [itemsAt, listAt, List.getElem?_concat_length, Option.bind_some]
    rw [← hread]
    exact mapM_congr_mem fun item hitem =>
      h.isLocal.of_isPrefix hgrown.valid hlist.isPrefix (hfreshCopies item hitem).2

lemma copyOf_section : CopyOf HeapObject.refs sectionAt copySection where
  isLocal := local_sectionAt
  copied base heap r v hbase hvalid hfresh hr hview := by
    unfold sectionAt at hview
    split at hview
    · rename_i id key title order paragraphs dependsOn hget
      obtain ⟨ps, hps, hview⟩ := Option.map_eq_some_iff.mp hview
      obtain ⟨items, hitems, hps⟩ := Option.bind_eq_some_iff.mp hps
      cases hview
      obtain ⟨heap₁, list, hcopy, hgrown, hlist, hread⟩ := copyItems_copied copyOf_paragraph hbase hvalid hfresh
        (lt_of_mem_listAt hvalid hitems) hps
      have hsection := grown_alloc (o := HeapObject.section_ id key title order list dependsOn) hgrown.valid
        hgrown.fresh fun r' hr' => by rwa [List.mem_singleton.mp hr']
      refine ⟨_, heap₁.length, ?_, hgrown.trans hsection, ⟨?_, ?_⟩, ?_⟩
      · simp only [copySection, hget, hitems, hcopy, Option.bind_eq_bind, Option.bind_some, Option.pure_def]
      · exact hbase.trans hgrown.isPrefix.length_le
      · rw [List.length_append]
        exact Nat.lt_succ_self _
      · simp only [sectionAt, List.getElem?_concat_length]
        rw [(local_itemsAt local_paragraphAt).of_isPrefix hgrown.valid hsection.isPrefix hlist.2, hread, Option.map_some]
    · cases hview
  failed heap r hvalid hview := by
    unfold sectionAt at hview
    unfold copySection
    split at hview
    · rename_i id key title order paragraphs dependsOn hget
      rw [Option.map_eq_none_iff, itemsAt] at hview
      cases hitems : listAt heap paragraphs with
      | none => simp only [Option.bind_eq_bind, Option.bind_none]
      | some items =>
        rw [hitems, Option.bind_some] at hview
        simp only [copyItems, copyAll_failed copyOf_paragraph hvalid (lt_of_mem_listAt hvalid hitems) hview,
          Option.bind_eq_bind, Option.bind_some, Option.map_none, Option.bind_none]
    · rfl

end Copying

end Tmis.LegalDrafting
