import Tmis.Lib.Journal
import Tmis.LegalDrafting.VersionHistory

/-!
# Versions stay as they are

Whatever is done to the drafts, what `list_versions` shows of a document only grows, and the document may go back to
any of it.

* `Frozen` — nothing that may be written refers to the copies that the versions consist of;
* `frozen_step`, `frozen_run` — neither a snapshot, nor a restored version, nor an edit lets go of them;
* `Frozen.restored` — a version that is restored;
* `Represents`, `snapshot_represents`, `restoreVersion_represents` — the service over values, as the orchestrator has
  it, shows the same;
* `versions_kept_and_restored` — every run.
-/

namespace Tmis.LegalDrafting

open Tmis.Lib

/-! ### What may not be written -/

namespace VersionedDrafts

section Frozen

variable {F : ℕ → Prop} {s : VersionedDrafts}

/-- The objects of a part are those of the versions: nobody has them, and no reference leads to them from outside.
The versions of each document are numbered as they were stored. -/
structure Frozen (F : ℕ → Prop) (s : VersionedDrafts) : Prop where
  confined : s.client.Confined HeapObject.refs F
  refs : ∀ documentId, ∀ version ∈ s.listVersions documentId, ∀ r ∈ version.sections, F r
  shown : ∀ documentId, ∀ version ∈ s.listVersions documentId, ∃ shown, version.readAt s.client.heap = some shown
  numbered : ∀ documentId, Numbered StoredVersion.versionNumber (s.listVersions documentId)

/-- What follows on a state: the part may grow, and is as it was; so may the list of versions. -/
structure Follows (F G : ℕ → Prop) (s s' : VersionedDrafts) : Prop where
  mono : ∀ r, F r → G r
  keeps : Keeps F s.client.heap s'.client.heap
  versions : ∀ documentId, s.listVersions documentId <+: s'.listVersions documentId

lemma follows_refl (F : ℕ → Prop) (s : VersionedDrafts) : Follows F F s s :=
  ⟨fun _ hr => hr, keeps_refl, fun _ => List.prefix_rfl⟩

lemma Follows.trans {G H : ℕ → Prop} {s' s'' : VersionedDrafts} (h : Follows F G s s') (h' : Follows G H s' s'') :
    Follows F H s s'' where
  mono r hr := h'.mono r (h.mono r hr)
  keeps := h.keeps.trans (h'.keeps.mono h.mono)
  versions documentId := (h.versions documentId).trans (h'.versions documentId)

/-- A version is shown as it was. -/
lemma readAt_of_keeps {heap heap' : DraftHeap} (hclosed : Closed HeapObject.refs heap F) (hkeeps : Keeps F heap heap')
    {version : StoredVersion} (hrefs : ∀ r ∈ version.sections, F r) : version.readAt heap' = version.readAt heap := by
  unfold StoredVersion.readAt
  rw [mapM_congr_mem fun r hr => local_sectionAt F heap heap' r hclosed hkeeps (hrefs r hr)]

lemma Frozen.client (h : Frozen F s) {client : Client HeapObject} (hconfined : client.Confined HeapObject.refs F)
    (hkeeps : Keeps F s.client.heap client.heap) :
    Frozen F { s with client } ∧ Follows F F s { s with client } := by
  refine ⟨⟨hconfined, h.refs, fun documentId version hversion => ?_, h.numbered⟩,
    fun _ hr => hr, hkeeps, fun _ => List.prefix_rfl⟩
  obtain ⟨shown, hshown⟩ := h.shown documentId version hversion
  refine ⟨shown, ?_⟩
  rw [← hshown]
  exact readAt_of_keeps h.confined.separated.closed hkeeps (h.refs documentId version hversion)

/-! ### A snapshot -/

lemma listVersions_set (s : VersionedDrafts) (client : Client HeapObject) (documentId documentId' : Uuid)
    (versions : List StoredVersion) (uuids : ℕ) :
    listVersions { client, versions := s.versions.set documentId versions, uuids } documentId' =
      if documentId' = documentId then versions else s.listVersions documentId' := by
  rw [listVersions, Dict.get_set]
  split <;> rfl

/-- Where the sections cannot be read, no version is stored. -/
lemma snapshot_unread (h : Valid HeapObject.refs s.client.heap) {sections : ℕ}
    (hread : itemsAt sectionAt s.client.heap sections = none) (documentId : Uuid) (author : String) :
    s.snapshot documentId sections author = {
      s with versions := s.versions.set documentId (s.listVersions documentId), uuids := s.uuids + 1 } := by
  have hcopies : (listAt s.client.heap sections).bind (copyAll copySection s.client.heap) = none := by
    cases hitems : listAt s.client.heap sections with
    | none => rfl
    | some items =>
      rw [itemsAt, hitems, Option.bind_some] at hread
      rw [Option.bind_some, copyAll_failed copyOf_section h (lt_of_mem_listAt h hitems) hread]
  simp only [snapshot, hcopies]

/-- The version that a snapshot stores. -/
def versionOf (s : VersionedDrafts) (documentId : Uuid) (copies : List ℕ) (author : String) : StoredVersion where
  id := s.uuids
  documentId
  versionNumber := (s.listVersions documentId).length + 1
  sections := copies
  author

/-- The state after a version is stored. -/
def stored (s : VersionedDrafts) (documentId : Uuid) (heap : DraftHeap) (copies : List ℕ) (author : String) :
    VersionedDrafts where
  client := { s.client with heap }
  versions := s.versions.set documentId (s.listVersions documentId ++ [s.versionOf documentId copies author])
  uuids := s.uuids + 1

/-- Else the version consists of copies of them. -/
lemma snapshot_read (h : Valid HeapObject.refs s.client.heap) {sections : ℕ} {content : List Section}
    (hread : itemsAt sectionAt s.client.heap sections = some content) (documentId : Uuid) (author : String) :
    ∃ heap copies, s.snapshot documentId sections author = s.stored documentId heap copies author ∧
      Grown HeapObject.refs s.client.heap.length s.client.heap heap ∧
      (∀ r ∈ copies, s.client.heap.length ≤ r ∧ r < heap.length) ∧
      copies.mapM (sectionAt heap) = some content := by
  obtain ⟨items, hitems, hview⟩ := Option.bind_eq_some_iff.mp hread
  obtain ⟨heap, copies, hcopies, hcopied⟩ := copyAll_copied copyOf_section le_rfl h (freshFrom_length _)
    (lt_of_mem_listAt h hitems) hview
  refine ⟨heap, copies, ?_, hcopied⟩
  simp only [snapshot, hitems, Option.bind_some, hcopies]
  rfl

/-- What is shown of a version that is stored. -/
lemma readAt_versionOf {heap : DraftHeap} {copies : List ℕ} {content : List Section}
    (hread : copies.mapM (sectionAt heap) = some content) (documentId : Uuid) (author : String) :
    (s.versionOf documentId copies author).readAt heap = some {
      id := s.uuids
      documentId
      versionNumber := (s.listVersions documentId).length + 1
      sections := content
      author } := by
  simp only [StoredVersion.readAt, versionOf, hread, Option.bind_eq_bind, Option.bind_some, Option.pure_def,
    Nat.cast_add, Nat.cast_one]

/-- The copies join the part of the versions. -/
lemma Frozen.stored (h : Frozen F s) {heap : DraftHeap} {copies : List ℕ} {content : List Section}
    (hgrown : Grown HeapObject.refs s.client.heap.length s.client.heap heap)
    (hcopies : ∀ r ∈ copies, s.client.heap.length ≤ r ∧ r < heap.length)
    (hread : copies.mapM (sectionAt heap) = some content) (documentId : Uuid) (author : String) :
    ∃ G, Frozen G (s.stored documentId heap copies author) ∧
      Follows F G s (s.stored documentId heap copies author) := by
  have hkeeps : Keeps F s.client.heap heap := h.confined.separated.keeps_of_isPrefix hgrown.isPrefix
  have hversions := fun documentId' => listVersions_set s { s.client with heap } documentId documentId'
    (s.listVersions documentId ++ [s.versionOf documentId copies author]) (s.uuids + 1)
  refine ⟨fun r => F r ∨ (s.client.heap.length ≤ r ∧ r < heap.length), ⟨⟨?_, ?_⟩, ?_, ?_, ?_⟩, fun r hr => Or.inl hr,
    hkeeps, fun documentId' => ?_⟩
  · exact h.confined.separated.extend_frozen hgrown.isPrefix hgrown.fresh
  · intro r hr
    obtain ⟨hlt, hF⟩ := h.confined.known r hr
    exact ⟨hlt.trans_le hgrown.isPrefix.length_le, not_or.mpr ⟨hF, fun hnew => by omega⟩⟩
  · intro documentId' version hversion r hr
    rw [VersionedDrafts.stored, hversions] at hversion
    split at hversion
    · rcases List.mem_append.mp hversion with hold | hnew
      · exact Or.inl (h.refs documentId version hold r hr)
      · rw [List.mem_singleton.mp hnew] at hr
        exact Or.inr (hcopies r hr)
    · exact Or.inl (h.refs documentId' version hversion r hr)
  · intro documentId' version hversion
    have hold : ∀ documentId', version ∈ s.listVersions documentId' → ∃ shown, version.readAt heap = some shown := by
      intro documentId' hversion
      rw [readAt_of_keeps h.confined.separated.closed hkeeps (h.refs documentId' version hversion)]
      exact h.shown documentId' version hversion
    rw [VersionedDrafts.stored, hversions] at hversion
    split at hversion
    · rcases List.mem_append.mp hversion with hbefore | hnew
      · exact hold documentId hbefore
      · rw [List.mem_singleton.mp hnew]
        exact ⟨_, readAt_versionOf hread documentId author⟩
    · exact hold documentId' hversion
  · intro documentId'
    rw [VersionedDrafts.stored, hversions]
    split
    · exact (h.numbered documentId).snoc rfl
    · exact h.numbered documentId'
  · rw [VersionedDrafts.stored, hversions]
    split
    · rename_i heq
      rw [heq]
      exact List.prefix_append ..
    · exact List.prefix_rfl

lemma Frozen.unread (h : Frozen F s) (documentId : Uuid) (uuids : ℕ) :
    Frozen F { s with versions := s.versions.set documentId (s.listVersions documentId), uuids } ∧
      Follows F F s { s with versions := s.versions.set documentId (s.listVersions documentId), uuids } := by
  have hversions : ∀ documentId', listVersions
      { s with versions := s.versions.set documentId (s.listVersions documentId), uuids } documentId' =
        s.listVersions documentId' := by
    intro documentId'
    rw [listVersions_set]
    split
    · rename_i heq
      rw [heq]
    · rfl
  refine ⟨⟨h.confined, fun documentId' => ?_, fun documentId' => ?_, fun documentId' => ?_⟩,
    fun _ hr => hr, keeps_refl, fun documentId' => ?_⟩
  · rw [hversions]
    exact h.refs documentId'
  · rw [hversions]
    exact h.shown documentId'
  · rw [hversions]
    exact h.numbered documentId'
  · exact ⟨[], by rw [List.append_nil, hversions documentId']⟩

/-! ### What is shown -/

lemma Frozen.history (h : Frozen F s) (documentId : Uuid) : ∃ versions, s.history documentId = some versions :=
  exists_mapM (h.shown documentId)

/-- What was shown of the versions is shown of them later. -/
lemma Frozen.history_follows (h : Frozen F s) {G : ℕ → Prop} {s' : VersionedDrafts} (h' : Frozen G s')
    (hfollows : Follows F G s s') {documentId : Uuid} {versions : List DocumentVersion}
    (hhistory : s.history documentId = some versions) :
    ∃ later, s'.history documentId = some later ∧ versions <+: later := by
  obtain ⟨more, hmore⟩ := hfollows.versions documentId
  have hsame : (s.listVersions documentId).mapM (·.readAt s'.client.heap) = some versions := by
    rw [← hhistory, VersionedDrafts.history]
    exact mapM_congr_mem fun version hversion =>
      readAt_of_keeps h.confined.separated.closed hfollows.keeps (h.refs documentId version hversion)
  obtain ⟨later, hlater⟩ := h'.history documentId
  refine ⟨later, hlater, ?_⟩
  rw [VersionedDrafts.history, ← hmore, List.mapM_append, hsame] at hlater
  obtain ⟨before, hbefore, hlater⟩ := Option.bind_eq_some_iff.mp hlater
  cases hbefore
  obtain ⟨rest, -, hlater⟩ := Option.bind_eq_some_iff.mp hlater
  exact ⟨rest, Option.some_inj.mp hlater⟩

lemma readAt_number {heap : DraftHeap} {version : StoredVersion} {shown : DocumentVersion}
    (hread : version.readAt heap = some shown) : shown.versionNumber = version.versionNumber := by
  obtain ⟨content, -, hread⟩ := Option.bind_eq_some_iff.mp hread
  cases hread
  rfl

lemma readAt_sections {heap : DraftHeap} {version : StoredVersion} {shown : DocumentVersion}
    (hread : version.readAt heap = some shown) : version.sections.mapM (sectionAt heap) = some shown.sections := by
  obtain ⟨content, hcontent, hread⟩ := Option.bind_eq_some_iff.mp hread
  cases hread
  exact hcontent

lemma map_number {heap : DraftHeap} {stored : List StoredVersion} {versions : List DocumentVersion}
    (h : List.Forall₂ (fun version shown => version.readAt heap = some shown) stored versions) :
    versions.map (·.versionNumber) = stored.map fun version => (version.versionNumber : ℤ) := by
  induction h with
  | nil => rfl
  | cons hread _ ih => rw [List.map_cons, List.map_cons, ih, readAt_number hread]

/-- The versions shown are as many as are stored, with their numbers. -/
lemma Frozen.numbers (h : Frozen F s) {documentId : Uuid} {versions : List DocumentVersion}
    (hhistory : s.history documentId = some versions) :
    versions.length = (s.listVersions documentId).length ∧
      versions.map (·.versionNumber) = (List.range' 1 versions.length).map Nat.cast := by
  have hall := mapM_eq_some_iff.mp hhistory
  have hlength := hall.length_eq
  have hmap := map_number hall
  refine ⟨hlength.symm, ?_⟩
  rw [hmap, ← hlength, ← h.numbered documentId, List.map_map]
  rfl

/-- A version is found under its number. -/
lemma Frozen.get_of_mem (h : Frozen F s) {documentId : Uuid} {version : StoredVersion}
    (hversion : version ∈ s.listVersions documentId) : s.get documentId version.versionNumber = some version := by
  cases hget : s.get documentId version.versionNumber with
  | none =>
    have hnone := List.find?_eq_none.mp hget version hversion
    exact absurd (decide_eq_true rfl) hnone
  | some found =>
    have hnumber := List.find?_some hget
    rw [decide_eq_true_eq, Nat.cast_inj] at hnumber
    rw [(h.numbered documentId).eq_of_number_eq (List.mem_of_find?_eq_some hget) hversion hnumber]

lemma Frozen.get_shown (h : Frozen F s) {documentId : Uuid} {versions : List DocumentVersion}
    (hhistory : s.history documentId = some versions) {shown : DocumentVersion} (hshown : shown ∈ versions) :
    ∃ version, s.get documentId shown.versionNumber = some version ∧ version ∈ s.listVersions documentId ∧
      version.readAt s.client.heap = some shown := by
  obtain ⟨version, hversion, hread⟩ := (forall_mem_mapM hhistory).1 shown hshown
  refine ⟨version, ?_, hversion, hread⟩
  rw [readAt_number hread]
  exact h.get_of_mem hversion

/-- Two versions are compared by what is shown of them. -/
lemma Frozen.compare_shown (h : Frozen F s) {documentId : Uuid} {versions : List DocumentVersion}
    (hhistory : s.history documentId = some versions) {a b : DocumentVersion} (ha : a ∈ versions) (hb : b ∈ versions) :
    s.compare documentId a.versionNumber b.versionNumber = .ok (diffVersions a b) := by
  obtain ⟨va, hgetA, -, hreadA⟩ := h.get_shown hhistory ha
  obtain ⟨vb, hgetB, -, hreadB⟩ := h.get_shown hhistory hb
  simp only [VersionedDrafts.compare, hgetA, hgetB, hreadA, hreadB]

/-- What is shown once a version is stored. -/
lemma Frozen.history_stored (h : Frozen F s) {heap : DraftHeap} {copies : List ℕ} {content : List Section}
    (hprefixed : s.client.heap <+: heap) (hread : copies.mapM (sectionAt heap) = some content) {documentId : Uuid}
    (author : String) {versions : List DocumentVersion} (hhistory : s.history documentId = some versions) :
    (s.stored documentId heap copies author).history documentId = some (versions ++ [{
      id := s.uuids
      documentId
      versionNumber := versions.length + 1
      sections := content
      author }]) := by
  have hkeeps : Keeps F s.client.heap heap := h.confined.separated.keeps_of_isPrefix hprefixed
  have hsame : (s.listVersions documentId).mapM (·.readAt heap) = some versions := by
    rw [← hhistory, VersionedDrafts.history]
    exact mapM_congr_mem fun version hversion =>
      readAt_of_keeps h.confined.separated.closed hkeeps (h.refs documentId version hversion)
  have hversion := readAt_versionOf (s := s) hread documentId author
  rw [VersionedDrafts.history, VersionedDrafts.stored, listVersions_set, if_pos rfl, List.mapM_append, hsame,
    List.mapM_cons, hversion, (h.numbers hhistory).1]
  rfl

/-! ### A version restored -/

lemma documentAt_eq_some {r list : ℕ} (h : s.documentAt r = some list) :
    s.client.heap[r]? = some (.document list) ∧ r ∈ s.client.known := by
  unfold documentAt at h
  split at h
  · rename_i sections hget
    split_ifs at h with hr
    cases h
    exact ⟨hget, hr⟩
  · cases h

lemma documentAt_of_mem {r list : ℕ} (hget : s.client.heap[r]? = some (.document list)) (hr : r ∈ s.client.known) :
    s.documentAt r = some list := by
  simp only [documentAt, hget, if_pos hr]

/-- A snapshot leaves a document as it is. -/
lemma contents_stored (h : Valid HeapObject.refs s.client.heap) {heap : DraftHeap} (hprefixed : s.client.heap <+: heap)
    {r list : ℕ} (hr : s.documentAt r = some list) {content : List Section}
    (hread : itemsAt sectionAt s.client.heap list = some content) (documentId : Uuid) (copies : List ℕ)
    (author : String) : (s.stored documentId heap copies author).contents r = some content := by
  obtain ⟨hget, hknown⟩ := documentAt_eq_some hr
  have hlist : list < s.client.heap.length :=
    h r _ (List.getElem?_eq_some_iff.mp hget).1 hget list List.mem_cons_self
  have hafter : (s.stored documentId heap copies author).documentAt r = some list :=
    documentAt_of_mem (getElem?_of_isPrefix hprefixed hget) hknown
  rw [contents, hafter, Option.bind_some, ← hread]
  exact (local_itemsAt local_sectionAt).of_isPrefix h hprefixed hlist

/-- The document has copies of the version's sections before the next version is stored. -/
lemma Frozen.restoreVersion (h : Frozen F s) {documentId : Uuid} {versionNumber : ℤ} {version : StoredVersion}
    {shown : DocumentVersion} (hget : s.get documentId versionNumber = some version)
    (hversion : version ∈ s.listVersions documentId) (hread : version.readAt s.client.heap = some shown) {r old : ℕ}
    (hr : s.documentAt r = some old) (author : String) :
    ∃ client list, s.restoreVersion documentId versionNumber r author =
        .ok ({ s with client }.snapshot documentId list author) ∧
      client.Confined HeapObject.refs F ∧ Keeps F s.client.heap client.heap ∧
      documentAt { s with client } r = some list ∧ itemsAt sectionAt client.heap list = some shown.sections := by
  have hseparated := h.confined.separated
  obtain ⟨hdocument, hknown⟩ := documentAt_eq_some hr
  obtain ⟨hlt, hF⟩ := h.confined.known r hknown
  obtain ⟨heap, list, hcopy, hgrown, hlist, hcontent⟩ := copyItems_copied copyOf_section le_rfl hseparated.valid
    (freshFrom_length _) (fun x hx => hseparated.bounded x (h.refs documentId version hversion x hx))
    (readAt_sections hread)
  have hle := hgrown.isPrefix.length_le
  have hseparated' : Separated HeapObject.refs heap F := hseparated.extend_live hgrown.isPrefix hgrown.fresh
  refine ⟨{ s.client with heap := heap.set r (.document list) }, list, ?_, ⟨?_, ?_⟩, ?_, ?_, ?_⟩
  · simp only [VersionedDrafts.restoreVersion, restore, hget, hcopy]
    rfl
  · refine hseparated'.set hF fun r' hr' => ?_
    rw [List.mem_singleton.mp hr']
    exact ⟨hlist.2, fun hF' => absurd (hseparated.bounded list hF') (not_lt.mpr hlist.1)⟩
  · intro x hx
    obtain ⟨hxlt, hxF⟩ := h.confined.known x hx
    rw [List.length_set]
    exact ⟨hxlt.trans_le hle, hxF⟩
  · exact (hseparated.keeps_of_isPrefix hgrown.isPrefix).trans (keeps_set hF)
  · exact documentAt_of_mem (List.getElem?_set_self (hlt.trans_le hle)) hknown
  · -- the copies are not written with the document
    rw [← hcontent]
    refine local_itemsAt local_sectionAt (fun x => s.client.heap.length ≤ x ∧ x < heap.length) heap _ list
      (fun x o hx hxo x' hx' => hgrown.fresh x o hx.1 hxo x' hx') (keeps_set fun hr' => ?_) hlist
    exact absurd hlt (not_lt.mpr hr'.1)

/-- A version that is there is restored, and stored as the next one. -/
lemma Frozen.restoreVersion_stored (h : Frozen F s) {documentId : Uuid} {versionNumber : ℤ} {version : StoredVersion}
    {shown : DocumentVersion} (hget : s.get documentId versionNumber = some version)
    (hversion : version ∈ s.listVersions documentId) (hread : version.readAt s.client.heap = some shown) {r old : ℕ}
    (hr : s.documentAt r = some old) (author : String) :
    ∃ client heap copies, s.restoreVersion documentId versionNumber r author =
        .ok (VersionedDrafts.stored { s with client } documentId heap copies author) ∧
      client.Confined HeapObject.refs F ∧ Keeps F s.client.heap client.heap ∧
      Grown HeapObject.refs client.heap.length client.heap heap ∧
      (∀ r ∈ copies, client.heap.length ≤ r ∧ r < heap.length) ∧
      copies.mapM (sectionAt heap) = some shown.sections ∧
      (VersionedDrafts.stored { s with client } documentId heap copies author).contents r = some shown.sections := by
  obtain ⟨client, list, hcall, hconfined, hkeeps, hdocument, hitems⟩ := h.restoreVersion hget hversion hread hr author
  have hvalid := hconfined.separated.valid
  obtain ⟨heap, copies, hstored, hgrown, hcopies, hcontent⟩ :=
    snapshot_read (s := { s with client }) hvalid hitems documentId author
  rw [hstored] at hcall
  exact ⟨client, heap, copies, hcall, hconfined, hkeeps, hgrown, hcopies, hcontent,
    contents_stored (s := { s with client }) hvalid hgrown.isPrefix hdocument hitems documentId copies author⟩

/-- A version that is not there is not restored. -/
lemma restoreVersion_unknown {documentId : Uuid} {versionNumber : ℤ} (hget : s.get documentId versionNumber = none)
    (r : ℕ) (author : String) : ∃ e, s.restoreVersion documentId versionNumber r author = .error e := by
  simp only [VersionedDrafts.restoreVersion, restore, hget]
  exact ⟨_, rfl⟩

/-! ### Steps and runs -/

lemma Frozen.snapshot (h : Frozen F s) (documentId : Uuid) (sections : ℕ) (author : String) :
    ∃ G, Frozen G (s.snapshot documentId sections author) ∧ Follows F G s (s.snapshot documentId sections author) := by
  have hvalid := h.confined.separated.valid
  cases hread : itemsAt sectionAt s.client.heap sections with
  | none =>
    rw [snapshot_unread hvalid hread]
    exact ⟨F, h.unread documentId (s.uuids + 1)⟩
  | some content =>
    obtain ⟨heap, copies, hstored, hgrown, hcopies, hcontent⟩ := snapshot_read hvalid hread documentId author
    rw [hstored]
    exact h.stored hgrown hcopies hcontent documentId author

/-- **The step lemma**: whatever is done, the versions stay out of reach, and as they are. -/
theorem frozen_step (h : Frozen F s) (op : Op) : ∃ G, Frozen G (s.step op) ∧ Follows F G s (s.step op) := by
  cases op with
  | snapshot documentId r author =>
    rw [step]
    split
    · exact h.snapshot documentId _ author
    · exact ⟨F, h, follows_refl F s⟩
  | restoreVersion documentId versionNumber r author =>
    rw [step]
    split
    · rename_i old hr
      cases hget : s.get documentId versionNumber with
      | none =>
        obtain ⟨e, herror⟩ := restoreVersion_unknown hget r author
        rw [herror, afterCall_error]
        exact ⟨F, h, follows_refl F s⟩
      | some version =>
        have hversion := List.mem_of_find?_eq_some hget
        obtain ⟨shown, hshown⟩ := h.shown documentId version hversion
        obtain ⟨client, heap, copies, hcall, hconfined, hkeeps, hgrown, hcopies, hcontent, -⟩ :=
          h.restoreVersion_stored hget hversion hshown hr author
        rw [hcall, afterCall_ok]
        obtain ⟨hclient, hfollows⟩ := h.client hconfined hkeeps
        obtain ⟨G, hstored, hfollows'⟩ := hclient.stored hgrown hcopies hcontent documentId author
        exact ⟨G, hstored, hfollows.trans hfollows'⟩
    · exact ⟨F, h, follows_refl F s⟩
  | edit program =>
    obtain ⟨hconfined, hkeeps⟩ := h.confined.run program
    exact ⟨F, h.client hconfined hkeeps⟩

theorem frozen_run (h : Frozen F s) (ops : List Op) : ∃ G, Frozen G (run step s ops) ∧ Follows F G s (run step s ops) := by
  induction ops generalizing F s with
  | nil => exact ⟨F, h, follows_refl F s⟩
  | cons op ops ih =>
    obtain ⟨G, hG, hfollows⟩ := frozen_step h op
    obtain ⟨H, hH, hfollows'⟩ := ih hG
    exact ⟨H, hH, hfollows.trans hfollows'⟩

/-- Before anything is done. -/
lemma frozen_initial : Frozen (fun _ => False) {} where
  confined := ⟨⟨fun r o hget => (by cases hget), fun _ hF => hF.elim⟩, fun r hr => absurd hr List.not_mem_nil⟩
  refs _ _ hversion := absurd hversion List.not_mem_nil
  shown _ _ hversion := absurd hversion List.not_mem_nil
  numbered _ := numbered_nil _

/-- What is shown is what was shown before those who work on the drafts did something. -/
lemma Frozen.history_client (h : Frozen F s) {client : Client HeapObject} (hkeeps : Keeps F s.client.heap client.heap)
    (documentId : Uuid) : VersionedDrafts.history { s with client } documentId = s.history documentId :=
  mapM_congr_mem fun version hversion =>
    readAt_of_keeps h.confined.separated.closed hkeeps (h.refs documentId version hversion)

/-- **A version restored**: the document has its sections, and they are the last version. -/
theorem Frozen.restored (h : Frozen F s) {documentId : Uuid} {versions : List DocumentVersion}
    (hhistory : s.history documentId = some versions) {shown : DocumentVersion} (hshown : shown ∈ versions) {r old : ℕ}
    (hr : s.documentAt r = some old) (author : String) :
    ∃ s', s.restoreVersion documentId shown.versionNumber r author = .ok s' ∧ (∃ G, Frozen G s') ∧
      s'.contents r = some shown.sections ∧
      s'.history documentId = some (versions ++ [{
        id := s.uuids
        documentId
        versionNumber := versions.length + 1
        sections := shown.sections
        author }]) := by
  obtain ⟨version, hget, hversion, hread⟩ := h.get_shown hhistory hshown
  obtain ⟨client, heap, copies, hcall, hconfined, hkeeps, hgrown, hcopies, hcontent, hcontents⟩ :=
    h.restoreVersion_stored hget hversion hread hr author
  obtain ⟨hclient, -⟩ := h.client hconfined hkeeps
  obtain ⟨G, hG, -⟩ := hclient.stored hgrown hcopies hcontent documentId author
  exact ⟨_, hcall, ⟨G, hG⟩, hcontents, hclient.history_stored hgrown.isPrefix hcontent author
    ((h.history_client hkeeps documentId).trans hhistory)⟩

/-! ### The service over values -/

/-- The orchestrator that stores the versions as values shows the same ones. -/
structure Represents (s : VersionedDrafts) (o : DocumentOrchestrator) : Prop where
  versions : ∀ documentId, s.history documentId = some ((o.versions.get documentId).getD [])
  uuids : s.uuids = o.uuids

variable {o : DocumentOrchestrator}

lemma client_represents (h : Frozen F s) (ho : s.Represents o) {client : Client HeapObject}
    (hkeeps : Keeps F s.client.heap client.heap) : Represents { s with client } o :=
  ⟨fun documentId => (h.history_client hkeeps documentId).trans (ho.versions documentId), ho.uuids⟩

/-- What is done to the drafts is not seen in the versions. -/
theorem edit_represents (h : Frozen F s) (ho : s.Represents o) (program : List (HeapAction HeapObject)) :
    (s.step (.edit program)).Represents o := by
  obtain ⟨-, hkeeps⟩ := h.confined.run program
  exact client_represents h ho hkeeps

lemma stored_represents (h : Frozen F s) (ho : s.Represents o) {heap : DraftHeap} {copies : List ℕ}
    {content : List Section} (hprefixed : s.client.heap <+: heap) (hread : copies.mapM (sectionAt heap) = some content)
    (documentId : Uuid) (author : String) :
    (s.stored documentId heap copies author).Represents (o.snapshot documentId content author) where
  versions documentId' := by
    rw [DocumentOrchestrator.snapshot, Dict.get_set]
    split
    · rename_i heq
      rw [heq, h.history_stored hprefixed hread author (ho.versions documentId), ho.uuids, Option.getD_some]
    · rename_i hne
      have hkeeps : Keeps F s.client.heap heap := h.confined.separated.keeps_of_isPrefix hprefixed
      rw [← ho.versions documentId', VersionedDrafts.history, VersionedDrafts.stored, listVersions_set, if_neg hne]
      exact mapM_congr_mem fun version hversion =>
        readAt_of_keeps h.confined.separated.closed hkeeps (h.refs documentId' version hversion)
  uuids := congrArg (· + 1) ho.uuids

/-- A snapshot of objects stores what is read of them. -/
theorem snapshot_represents (h : Frozen F s) (ho : s.Represents o) {sections : ℕ} {content : List Section}
    (hread : itemsAt sectionAt s.client.heap sections = some content) (documentId : Uuid) (author : String) :
    (s.snapshot documentId sections author).Represents (o.snapshot documentId content author) := by
  obtain ⟨heap, copies, hstored, hgrown, -, hcontent⟩ :=
    snapshot_read h.confined.separated.valid hread documentId author
  rw [hstored]
  exact stored_represents h ho hgrown.isPrefix hcontent documentId author

/-- A version is restored, or is unknown, as the service over values has it. -/
theorem restoreVersion_represents (h : Frozen F s) (ho : s.Represents o) (documentId : Uuid) (versionNumber : ℤ)
    {r old : ℕ} (hr : s.documentAt r = some old) (author : String) :
    match o.restore documentId versionNumber with
    | .ok content => ∃ s', s.restoreVersion documentId versionNumber r author = .ok s' ∧
        s'.contents r = some content ∧ s'.Represents (o.snapshot documentId content author)
    | .error e => s.restoreVersion documentId versionNumber r author = .error e := by
  have hhistory := ho.versions documentId
  rw [DocumentOrchestrator.restore]
  cases hfind : ((o.versions.get documentId).getD []).find? (·.versionNumber = versionNumber) with
  | none =>
    have hget : s.get documentId versionNumber = none := by
      refine List.find?_eq_none.mpr fun version hversion hnumber => ?_
      obtain ⟨shown, hread, hshown⟩ := (forall_mem_mapM hhistory).2 version hversion
      refine List.find?_eq_none.mp hfind shown hread ?_
      rw [readAt_number hshown]
      exact hnumber
    simp only [VersionedDrafts.restoreVersion, restore, hget]
    rfl
  | some shown =>
    have hnumber := List.find?_some hfind
    rw [decide_eq_true_eq] at hnumber
    obtain ⟨version, hget, hversion, hread⟩ := h.get_shown hhistory (List.mem_of_find?_eq_some hfind)
    rw [hnumber] at hget
    obtain ⟨client, heap, copies, hcall, hconfined, hkeeps, hgrown, -, hcontent, hcontents⟩ :=
      h.restoreVersion_stored hget hversion hread hr author
    obtain ⟨hclient, -⟩ := h.client hconfined hkeeps
    exact ⟨_, hcall, hcontents, stored_represents hclient (client_represents h ho hkeeps) hgrown.isPrefix hcontent
      documentId author⟩

end Frozen

/-! ### Every run -/

/-- **Versions are kept, and restored**: whatever was done to the drafts, the versions of a document are numbered 1 to
n, and whatever is done next, they are shown as they were.  Where a document goes back to one, its sections are those
of the version, and what is stored as the next version does not differ from it.  What is added from one version to
another is removed on the way back, what is changed is changed both ways, and nothing differs exactly where both have
the same texts. -/
theorem versions_kept_and_restored (ops : List Op) (documentId : Uuid) :
    ∃ versions, (run step {} ops).history documentId = some versions ∧
      versions.map (·.versionNumber) = (List.range' 1 versions.length).map Nat.cast ∧
      (∀ more, ∃ later, (run step {} (ops ++ more)).history documentId = some later ∧ versions <+: later) ∧
      (∀ k ∈ versions, ∀ r sections author, (run step {} ops).documentAt r = some sections →
        ∃ restored, (run step {} (ops ++ [.restoreVersion documentId k.versionNumber r author])).contents r =
            some k.sections ∧
          (run step {} (ops ++ [.restoreVersion documentId k.versionNumber r author])).history documentId =
            some (versions ++ [restored]) ∧
          ∃ diff, (run step {} (ops ++ [.restoreVersion documentId k.versionNumber r author])).compare documentId
            k.versionNumber restored.versionNumber = .ok diff ∧ diff.Empty) ∧
      (∀ a ∈ versions, ∀ b ∈ versions, (run step {} ops).compare documentId a.versionNumber b.versionNumber =
        .ok (diffVersions a b)) ∧
      ∀ a b : DocumentVersion, (diffVersions a b).addedParagraphIds = (diffVersions b a).removedParagraphIds ∧
        (diffVersions a b).changedParagraphIds.Perm (diffVersions b a).changedParagraphIds ∧
        ((diffVersions a b).Empty ↔ ∀ pid, a.texts.get pid = b.texts.get pid) := by
  obtain ⟨F, hF, -⟩ := frozen_run frozen_initial ops
  obtain ⟨versions, hhistory⟩ := hF.history documentId
  refine ⟨versions, hhistory, (hF.numbers hhistory).2, fun more => ?_, fun k hk r sections author hr => ?_,
    fun a ha b hb => hF.compare_shown hhistory ha hb,
    fun a b => ⟨added_swap a b, changed_perm a b, diff_empty_iff a b⟩⟩
  · obtain ⟨G, hG, hfollows⟩ := frozen_run hF more
    rw [run_append]
    exact hF.history_follows hG hfollows hhistory
  · obtain ⟨s', hcall, ⟨G, hG⟩, hcontents, hhistory'⟩ := hF.restored hhistory hk hr author
    have hstep : run step {} (ops ++ [.restoreVersion documentId k.versionNumber r author]) = s' := by
      rw [run_snoc, step, hr]
      dsimp only
      rw [hcall, afterCall_ok]
    rw [hstep]
    refine ⟨_, hcontents, hhistory', _, hG.compare_shown hhistory' (List.mem_append_left _ hk)
      (List.mem_append_right _ (List.mem_singleton_self _)), ?_⟩
    -- the texts of both are those of the same sections
    exact (diff_empty_iff _ _).mpr fun pid => rfl

end VersionedDrafts

end Tmis.LegalDrafting
