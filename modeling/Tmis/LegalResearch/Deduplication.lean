import Mathlib.Data.String.Basic
import Tmis.LegalResearch.Ranking
import Tmis.Lib.Selection

/-!
# Each content once

The normalizer keeps, of the documents with one content, one of those with the latest date.

* `contentClass`, `versionDate` — what makes documents mirrors of each other, and what makes one newer;
* `normalize_eq` — the loop keeps the newest of each kind;
* `normalize_newest` — what is returned, and that the order of the documents does not matter to it.
-/

namespace Tmis.LegalResearch

open Tmis.Lib Tmis.Ai PyFloat

variable {F : Type} [PyFloat F]

/-- The content of a document up to white space at its ends and up to case. -/
def contentClass (text : PyText) (doc : ConnectorDocument) : String := text.lower (text.strip doc.content)

/-- `result.date or ""`. -/
def versionDate (result : ResearchResult F) : String := result.date.getD ""

/-- The result that is made of a document. -/
def resultOf (scores : Dict String (RelevanceScores F)) (doc : ConnectorDocument) : ResearchResult F :=
  toResult doc ((scores.get doc.id).getD ⟨ofRat 0, ofRat 0⟩)

section Normalize

variable {text : PyText} {sha256 : String → String} {scores : Dict String (RelevanceScores F)}

/-- The hash of the content of a document. -/
def docHash (text : PyText) (sha256 : String → String) (doc : ConnectorDocument) : String :=
  contentHash text sha256 doc.content

/-- The documents whose results are kept. -/
def keptDocs (text : PyText) (sha256 : String → String) (scores : Dict String (RelevanceScores F))
    (documents : List ConnectorDocument) : Dict String ConnectorDocument :=
  documents.foldl (keepNewest (docHash text sha256) fun doc => versionDate (resultOf scores doc)) ∅

lemma setEntries_map {K V W : Type*} [DecidableEq K] (f : V → W) (k : K) (v : V) (es : List (K × V)) :
    (Dict.setEntries k v es).map (Prod.map id f) = Dict.setEntries k (f v) (es.map (Prod.map id f)) := by
  induction es with
  | nil => rfl
  | cons e es ih =>
    obtain ⟨k', v'⟩ := e
    by_cases hk : k' = k
    · simp [Dict.setEntries, hk]
    · simp [Dict.setEntries, hk, ih]

/-- The results of the documents that are kept. -/
def Keeps (scores : Dict String (RelevanceScores F)) (results : Dict String (ResearchResult F))
    (kept : Dict String ConnectorDocument) : Prop :=
  results.entries = kept.entries.map (Prod.map id (resultOf scores))

lemma Keeps.get {results : Dict String (ResearchResult F)} {kept : Dict String ConnectorDocument}
    (h : Keeps scores results kept) (k : String) : results.get k = (kept.get k).map (resultOf scores) := by
  have hlookup : ∀ es : List (String × ConnectorDocument),
      (es.map (Prod.map id (resultOf scores))).lookup k = (es.lookup k).map (resultOf scores) := by
    intro es
    induction es with
    | nil => rfl
    | cons e es ih =>
      obtain ⟨k', v⟩ := e
      rw [List.map_cons, Prod.map_apply, List.lookup_cons, List.lookup_cons, ih, id_eq]
      cases k == k' <;> rfl
  rw [Dict.get, h, hlookup]
  rfl

lemma Keeps.set {results : Dict String (ResearchResult F)} {kept : Dict String ConnectorDocument}
    (h : Keeps scores results kept) (k : String) (doc : ConnectorDocument) :
    Keeps scores (results.set k (resultOf scores doc)) (kept.set k doc) := by
  have hset : Dict.setEntries k (resultOf scores doc) results.entries =
      (Dict.setEntries k doc kept.entries).map (Prod.map id (resultOf scores)) := by
    rw [setEntries_map, h]
  exact hset

/-- One turn of the loop. -/
def normalizeStep (text : PyText) (sha256 : String → String) (scores : Dict String (RelevanceScores F))
    (s : List String × Dict String (ResearchResult F)) (doc : ConnectorDocument) :
    List String × Dict String (ResearchResult F) :=
  if doc.id ∈ s.1 then s
  else
    (doc.id :: s.1,
      match s.2.get (docHash text sha256 doc) with
      | none => s.2.set (docHash text sha256 doc) (resultOf scores doc)
      | some existing =>
        if versionDate existing < versionDate (resultOf scores doc) then
          s.2.set (docHash text sha256 doc) (resultOf scores doc)
        else s.2)

lemma normalizeStep_keeps {s : List String × Dict String (ResearchResult F)} {kept : Dict String ConnectorDocument}
    (h : Keeps scores s.2 kept) {doc : ConnectorDocument} (hnew : doc.id ∉ s.1) :
    Keeps scores (normalizeStep text sha256 scores s doc).2
      (keepNewest (docHash text sha256) (fun doc => versionDate (resultOf scores doc)) kept doc) := by
  rw [normalizeStep, if_neg hnew, keepNewest, h.get]
  cases kept.get (docHash text sha256 doc) with
  | none => exact h.set ..
  | some existing =>
    dsimp only [Option.map_some]
    split_ifs
    · exact h.set ..
    · exact h

/-- With distinct ids, the loop keeps the newest of each content. -/
lemma foldl_normalizeStep (documents : List ConnectorDocument) (hids : (documents.map (·.id)).Nodup) :
    (∀ id ∈ (documents.foldl (normalizeStep text sha256 scores) ([], ∅)).1, id ∈ documents.map (·.id)) ∧
      Keeps scores (documents.foldl (normalizeStep text sha256 scores) ([], ∅)).2
        (keptDocs text sha256 scores documents) := by
  induction documents using List.reverseRecOn with
  | nil => exact ⟨fun id hid => absurd hid List.not_mem_nil, rfl⟩
  | append_singleton documents doc ih =>
    rw [List.map_append, List.nodup_append] at hids
    obtain ⟨hbefore, -, hdisjoint⟩ := hids
    obtain ⟨hseen, hkeeps⟩ := ih hbefore
    have hnew : doc.id ∉ (documents.foldl (normalizeStep text sha256 scores) ([], ∅)).1 := by
      intro hmem
      exact hdisjoint _ (hseen _ hmem) _ (List.mem_singleton_self _) rfl
    rw [List.foldl_append, keptDocs, List.foldl_append]
    refine ⟨fun id hid => ?_, normalizeStep_keeps hkeeps hnew⟩
    rw [List.foldl_cons, List.foldl_nil, normalizeStep, if_neg hnew] at hid
    rw [List.map_append]
    rcases List.mem_cons.mp hid with rfl | hid
    · exact List.mem_append_right _ (List.mem_singleton_self _)
    · exact List.mem_append_left _ (hseen _ hid)

/-- **The results of the documents that are kept.** -/
theorem normalize_eq (text : PyText) (sha256 : String → String) (scores : Dict String (RelevanceScores F))
    {documents : List ConnectorDocument} (hids : (documents.map (·.id)).Nodup) :
    normalize text sha256 documents scores = (keptDocs text sha256 scores documents).values.map (resultOf scores) := by
  have hkeeps : Keeps scores (documents.foldl (normalizeStep text sha256 scores) ([], ∅)).2
      (keptDocs text sha256 scores documents) := (foldl_normalizeStep documents hids).2
  have hloop : normalize text sha256 documents scores =
      (documents.foldl (normalizeStep text sha256 scores) ([], ∅)).2.values := rfl
  rw [hloop, Dict.values, hkeeps, Dict.values, List.map_map, List.map_map]
  rfl

/-- What is kept is in one content class only. -/
lemma nodup_contentClass (documents : List ConnectorDocument) :
    ((keptDocs text sha256 scores documents).values.map (contentClass text)).Nodup := by
  have hnewest : Newest (docHash text sha256) (fun doc => versionDate (resultOf scores doc)) documents
      (keptDocs text sha256 scores documents) := newest_foldl documents
  have hkeys : (keptDocs text sha256 scores documents).values.map (docHash text sha256) =
      (keptDocs text sha256 scores documents).keys := by
    rw [Dict.values, Dict.keys, List.map_map]
    refine List.map_congr_left fun entry hentry => ?_
    obtain ⟨k, doc⟩ := entry
    exact (hnewest.mem (Dict.mem_entries_iff.mp hentry)).2
  refine List.Nodup.of_map sha256 ?_
  rw [List.map_map]
  exact hkeys ▸ (keptDocs text sha256 scores documents).nodup

/-- **The newest of each content**: of the documents with one content, the result of one with the latest date is
returned, an empty date counting as none.  In another order of the documents the same contents and dates are
returned. -/
theorem normalize_newest (text : PyText) {sha256 : String → String} (hsha256 : Function.Injective sha256)
    (scores : Dict String (RelevanceScores F)) {documents documents' : List ConnectorDocument}
    (hids : (documents.map (·.id)).Nodup) (hperm : documents.Perm documents') :
    ∃ kept kept' : List ConnectorDocument,
      normalize text sha256 documents scores = kept.map (resultOf scores) ∧
      normalize text sha256 documents' scores = kept'.map (resultOf scores) ∧
      (∀ doc ∈ kept, doc ∈ documents) ∧ (kept.map (contentClass text)).Nodup ∧
      (∀ doc ∈ documents, ∃ newest ∈ kept, contentClass text newest = contentClass text doc ∧
        ∀ other ∈ documents, contentClass text other = contentClass text doc →
          versionDate (resultOf scores other) ≤ versionDate (resultOf scores newest)) ∧
      ∀ content date,
        (∃ doc ∈ kept, contentClass text doc = content ∧ versionDate (resultOf scores doc) = date) ↔
          ∃ doc ∈ kept', contentClass text doc = content ∧ versionDate (resultOf scores doc) = date := by
  have hnewest : Newest (docHash text sha256) (fun doc => versionDate (resultOf scores doc)) documents
      (keptDocs text sha256 scores documents) := newest_foldl documents
  have hnewest' : Newest (docHash text sha256) (fun doc => versionDate (resultOf scores doc)) documents'
      (keptDocs text sha256 scores documents') := newest_foldl documents'
  have hclass : ∀ doc doc', docHash text sha256 doc = docHash text sha256 doc' ↔
      contentClass text doc = contentClass text doc' := fun doc doc' => hsha256.eq_iff
  refine ⟨_, _, normalize_eq text sha256 scores hids,
    normalize_eq text sha256 scores ((hperm.map _).nodup_iff.mp hids), fun doc hdoc => ?_, nodup_contentClass documents,
    fun doc hdoc => ?_, fun content date => ?_⟩
  · obtain ⟨k, hk⟩ := Dict.mem_values_iff.mp hdoc
    exact (hnewest.mem hk).1
  · obtain ⟨newest, hget⟩ := hnewest.total doc hdoc
    refine ⟨newest, Dict.mem_values_iff.mpr ⟨_, hget⟩, (hclass _ _).mp (hnewest.mem hget).2,
      fun other hother hsame => ?_⟩
    exact hnewest.newest hget other hother ((hclass _ _).mpr hsame)
  · -- Documents of one content are those of one hash.
    have hkept : ∀ {docs : List ConnectorDocument} {kept : Dict String ConnectorDocument},
        Newest (docHash text sha256) (fun doc => versionDate (resultOf scores doc)) docs kept →
        ((∃ doc ∈ kept.values, contentClass text doc = content ∧ versionDate (resultOf scores doc) = date) ↔
          ∃ doc, kept.get (sha256 content) = some doc ∧ versionDate (resultOf scores doc) = date) := by
      intro docs kept h
      constructor
      · rintro ⟨doc, hdoc, rfl, hdate⟩
        obtain ⟨k, hk⟩ := Dict.mem_values_iff.mp hdoc
        refine ⟨doc, ?_, hdate⟩
        rw [← hk, ← (h.mem hk).2]
        rfl
      · rintro ⟨doc, hdoc, hdate⟩
        exact ⟨doc, Dict.mem_values_iff.mpr ⟨_, hdoc⟩, hsha256 (h.mem hdoc).2, hdate⟩
    rw [hkept hnewest, hkept hnewest']
    exact hnewest.perm hnewest' hperm (sha256 content) date

end Normalize

/-- Two versions of a text that two connectors mirror. -/
def mirrors : List ConnectorDocument :=
  [{ id := "a", title := "", content := "Art. 1", connector := "codes", metadata := Dict.ofEntries [("year", "2020")] },
    { id := "b", title := "", content := "art. 1 ", connector := "doctrine",
      metadata := Dict.ofEntries [("date", "2021-06-09")] }]

theorem normalize_newest_mirrors : Function.Injective (id : String → String) ∧ (mirrors.map (·.id)).Nodup ∧
    mirrors.Perm mirrors ∧ ∃ kept : List ConnectorDocument,
      normalize PyText.ascii id mirrors (∅ : Dict String (RelevanceScores ℚ)) = kept.map (resultOf ∅) := by
  obtain ⟨kept, -, hkept, -⟩ := normalize_newest PyText.ascii Function.injective_id (∅ : Dict String (RelevanceScores ℚ))
    (by decide : (mirrors.map (·.id)).Nodup) (List.Perm.refl _)
  exact ⟨Function.injective_id, by decide, List.Perm.refl _, kept, hkept⟩

/-- Of an empty date and none, the one that comes first is returned. -/
theorem empty_date_or_none :
    (normalize PyText.ascii id
        [{ id := "a", title := "", content := "Art. 1", connector := "codes", metadata := Dict.ofEntries [("year", "")] },
          { id := "b", title := "", content := "Art. 1", connector := "codes" }]
        (∅ : Dict String (RelevanceScores ℚ))).map (·.date) = [some ""] ∧
      (normalize PyText.ascii id
        [{ id := "b", title := "", content := "Art. 1", connector := "codes" },
          { id := "a", title := "", content := "Art. 1", connector := "codes", metadata := Dict.ofEntries [("year", "")] }]
        (∅ : Dict String (RelevanceScores ℚ))).map (·.date) = [none] := by
  decide +kernel

end Tmis.LegalResearch
