import Tmis.Lib.Calls
import Tmis.Lib.Dict
import Tmis.Lib.PyFloat
import Tmis.Lib.PyText
import Tmis.Lib.Run
import Tmis.Lib.Slices

/-!
# The retrieval pipeline

`ai.rag`: a document is cleaned, cut into chunks, embedded, and its chunks are put into an index in memory.
A chunk's id is made of its document's id and its position; the index appends what it is given, whatever
it holds.

* `PlainTextIngestor.ingest`, `WhitespaceNormalizingCleaner.clean`, `FixedSizeChunker.chunk` — the stages;
* `chunk_rejoined` — the chunks of a document put together;
* `InMemoryVectorIndex` — `upsert` and `search`;
* `RagPipeline.ingestDocument` — the stages in a row;
* `latest`, `Upserted` — an index that overwrites, and what it would give;
* `entries_and_upserted_iff` — what the index holds, and when it is what an overwriting one would hold.
-/

namespace Tmis.Ai

open Tmis.Lib

abbrev Metadata := Dict String String

structure RawDocument where
  id : String
  content : String
  metadata : Metadata := ∅

structure Chunk where
  id : String
  documentId : String
  content : String
  metadata : Metadata := ∅
  deriving DecidableEq

def PlainTextIngestor.ingest (rawId content : String) (metadata : Option Metadata) : RawDocument :=
  { id := rawId, content, metadata := metadata.getD ∅ }

/-- `nfkc` is `unicodedata.normalize("NFKC", _)`. -/
structure WhitespaceNormalizingCleaner where
  nfkc : String → String
  text : PyText

def WhitespaceNormalizingCleaner.clean (cleaner : WhitespaceNormalizingCleaner) (document : RawDocument) :
    RawDocument :=
  let normalized := cleaner.nfkc document.content
  let collapsed := cleaner.text.strip (cleaner.text.squeeze normalized)
  { id := document.id, content := collapsed, metadata := document.metadata }

structure FixedSizeChunker where
  chunkSize : ℤ := 400
  overlap : ℤ := 50
  overlap_lt : overlap < chunkSize := by decide

namespace FixedSizeChunker

/-- The constructor, which refuses windows that do not move on. -/
def new (chunkSize overlap : ℤ) : Except PyException FixedSizeChunker :=
  if h : overlap < chunkSize then .ok ⟨chunkSize, overlap, h⟩
  else .error (valueError "overlap must be smaller than chunk_size")

/-- The loop of `chunk` from a start on. -/
def chunkFrom (chunker : FixedSizeChunker) (document : RawDocument) (start : ℤ) (index : ℕ) : List Chunk :=
  if start < document.content.length then
    { id := document.id ++ "::" ++ toString index
      documentId := document.id
      content := slice document.content start (start + chunker.chunkSize)
      metadata := document.metadata } ::
        chunker.chunkFrom document (start + (chunker.chunkSize - chunker.overlap)) (index + 1)
  else []
termination_by (document.content.length - start).toNat
decreasing_by
  have := chunker.overlap_lt
  omega

def chunk (chunker : FixedSizeChunker) (document : RawDocument) : List Chunk :=
  if document.content = "" then [] else chunker.chunkFrom document 0 0

end FixedSizeChunker

structure RetrievedChunk (F : Type) where
  chunkId : String
  documentId : String
  content : String
  score : F
  metadata : Metadata

section Similarity

variable {F : Type} [PyFloat F]

open PyFloat (ofRat mul sqrt isZero trueDiv)

def cosineSimilarity (a b : List F) : Except PyException F :=
  if a = [] ∨ b = [] ∨ a.length ≠ b.length then .ok (ofRat 0)
  else
    let dot := PyFloat.sum (List.zipWith mul a b)
    let normA := sqrt (PyFloat.sum (a.map fun x => mul x x))
    let normB := sqrt (PyFloat.sum (b.map fun y => mul y y))
    if isZero normA || isZero normB then .ok (ofRat 0) else trueDiv dot (mul normA normB)

end Similarity

structure InMemoryVectorIndex (F : Type) where
  entries : List (Chunk × List F) := []

namespace InMemoryVectorIndex

variable {F : Type}

def upsert (index : InMemoryVectorIndex F) (chunks : List Chunk) (vectors : List (List F)) :
    Except PyException (InMemoryVectorIndex F) :=
  if chunks.length ≠ vectors.length then
    .error (valueError "chunks and vectors must have the same length")
  else .ok { entries := index.entries ++ chunks.zip vectors }

variable [PyFloat F]

/-- One entry with its score. -/
def retrieve (vector : List F) (entry : Chunk × List F) : Except PyException (RetrievedChunk F) := do
  let score ← cosineSimilarity vector entry.2
  return {
    chunkId := entry.1.id
    documentId := entry.1.documentId
    content := entry.1.content
    score
    metadata := entry.1.metadata }

/-- The best entries that have the metadata asked for; the sort is stable. -/
def search (index : InMemoryVectorIndex F) (vector : List F) (topK : ℤ := 5)
    (filters : Option Metadata := none) : Except PyException (List (RetrievedChunk F)) := do
  let candidates := index.entries.filter fun entry =>
    (filters.getD ∅).entries.all fun wanted => entry.1.metadata.get wanted.1 = some wanted.2
  let scored ← candidates.mapM (retrieve vector)
  return sliceTo (scored.insertionSort fun a b => PyFloat.lt a.score b.score = false) topK

end InMemoryVectorIndex

/-- The stages that are injected; `embed` is the embedding provider. -/
structure RagPipeline (F : Type) where
  cleaner : WhitespaceNormalizingCleaner
  chunker : FixedSizeChunker := {}
  embed : List String → Except PyException (List (List F))

/-- A call of `ingest_document`. -/
structure Ingestion where
  rawId : String
  content : String
  metadata : Option Metadata := none

namespace RagPipeline

variable {F : Type} (p : RagPipeline F)

def ingestDocument (index : InMemoryVectorIndex F) (call : Ingestion) :
    Except PyException (List Chunk × InMemoryVectorIndex F) := do
  let raw := PlainTextIngestor.ingest call.rawId call.content call.metadata
  let cleaned := p.cleaner.clean raw
  let chunks := p.chunker.chunk cleaned
  if chunks = [] then return ([], index)
  else
    let vectors ← p.embed (chunks.map (·.content))
    let index ← index.upsert chunks vectors
    return (chunks, index)

/-- The index after a call. -/
def step (index : InMemoryVectorIndex F) (call : Ingestion) : InMemoryVectorIndex F :=
  afterCall index ((p.ingestDocument index call).map Prod.snd)

/-! ### Chunk ids -/

/-- A chunk's id tells its document and its position. -/
lemma chunkId_inj {id id' : String} {m n : ℕ}
    (h : id ++ "::" ++ toString m = id' ++ "::" ++ toString n) : id = id' ∧ m = n := by
  have hdigits : ∀ k : ℕ, ':' ∉ (toString k).toList := by
    intro k hk
    exact absurd (isDigit_of_mem_toString hk) (by decide)
  have hsep : ∀ (s : String) (k : ℕ), s ++ "::" ++ toString k =
      s ++ ":" ++ String.singleton ':' ++ toString k := by
    intro s k
    have htwo : "::" = ":" ++ String.singleton ':' := rfl
    rw [htwo, ← String.append_assoc]
  rw [hsep, hsep] at h
  obtain ⟨hid, hindex⟩ := append_sep_inj (hdigits m) (hdigits n) h
  exact ⟨String.append_left_inj ":" |>.mp hid, toString_nat_inj hindex⟩

section Chunks

variable (chunker : FixedSizeChunker) (document : RawDocument)

lemma id_of_mem_chunkFrom {chunk : Chunk} (start : ℤ) (index : ℕ)
    (h : chunk ∈ chunker.chunkFrom document start index) :
    ∃ k, index ≤ k ∧ chunk.id = document.id ++ "::" ++ toString k := by
  fun_induction FixedSizeChunker.chunkFrom chunker document start index with
  | case1 start index hlt ih =>
    rcases List.mem_cons.mp h with rfl | hrest
    · exact ⟨index, le_rfl, rfl⟩
    · obtain ⟨k, hk, hid⟩ := ih hrest
      exact ⟨k, by omega, hid⟩
  | case2 start index hge => exact absurd h List.not_mem_nil

lemma nodup_chunkFrom (start : ℤ) (index : ℕ) :
    ((chunker.chunkFrom document start index).map (·.id)).Nodup := by
  fun_induction FixedSizeChunker.chunkFrom chunker document start index with
  | case1 start index hlt ih =>
    rw [List.map_cons, List.nodup_cons]
    refine ⟨fun hmem => ?_, ih⟩
    obtain ⟨chunk, hchunk, hid⟩ := List.mem_map.mp hmem
    obtain ⟨k, hk, hid'⟩ := id_of_mem_chunkFrom chunker document _ _ hchunk
    have := (chunkId_inj (hid.symm.trans hid')).2
    omega
  | case2 start index hge => exact List.nodup_nil

lemma first_mem_chunk (h : chunker.chunk document ≠ []) :
    ∃ chunk ∈ chunker.chunk document, chunk.id = document.id ++ "::" ++ toString 0 := by
  unfold FixedSizeChunker.chunk at h ⊢
  split
  · rename_i hempty
    exact absurd (if_pos hempty) h
  · rename_i hcontent
    rw [if_neg hcontent] at h
    unfold FixedSizeChunker.chunkFrom at h ⊢
    split
    · exact ⟨_, List.mem_cons_self, rfl⟩
    · rename_i hge
      exact absurd (if_neg hge) h

end Chunks

/-! ### The windows of a document -/

section Windows

variable (document : RawDocument)

lemma nodup_chunk {chunker : FixedSizeChunker} : ((chunker.chunk document).map (·.id)).Nodup := by
  unfold FixedSizeChunker.chunk
  split
  · exact List.nodup_nil
  · exact nodup_chunkFrom _ _ _ _

/-- The chunks from a start on are the windows on the rest of the text. -/
lemma content_chunkFrom {size overlap : ℕ} (h : (overlap : ℤ) < size) (start index : ℕ) :
    ((⟨size, overlap, h⟩ : FixedSizeChunker).chunkFrom document start index).map (·.content) =
      (windows (document.content.toList.drop start) (size - overlap) size).map String.ofList := by
  have hstep : 0 < size - overlap := by omega
  have hlength : document.content.toList.length = document.content.length := String.length_toList
  induction hrest : document.content.length - start using Nat.strong_induction_on generalizing start index with
  | h n ih =>
    rw [FixedSizeChunker.chunkFrom]
    by_cases hlt : start < document.content.length
    · have hne : document.content.toList.drop start ≠ [] := by
        rw [ne_eq, List.drop_eq_nil_iff]
        omega
      have hnext : (start : ℤ) + ((size : ℤ) - overlap) = ((start + (size - overlap) : ℕ) : ℤ) := by omega
      rw [if_pos (Int.ofNat_lt.mpr hlt), windows_of_ne_nil hstep hne, List.map_cons, List.map_cons, slice_natCast,
        List.drop_drop, hnext, ih _ (by omega) _ _ rfl]
    · have hnil : document.content.toList.drop start = [] := List.drop_eq_nil_iff.mpr (by omega)
      rw [if_neg (fun hlt' => hlt (Int.ofNat_lt.mp hlt')), hnil, windows_nil]
      rfl

lemma content_chunk {size overlap : ℕ} (h : (overlap : ℤ) < size) :
    ((⟨size, overlap, h⟩ : FixedSizeChunker).chunk document).map (·.content) =
      (windows document.content.toList (size - overlap) size).map String.ofList := by
  rw [FixedSizeChunker.chunk]
  split_ifs with hempty
  · rw [hempty]
    simp
  · exact content_chunkFrom document h 0 0

/-- The first text, and each later one without its first `overlap` characters. -/
def rejoined (overlap : ℕ) (texts : List String) : String :=
  texts.head?.getD "" ++ String.join (texts.tail.map fun text => String.ofList (text.toList.drop overlap))

lemma rejoined_windows {step : ℕ} (hstep : 0 < step) (overlap : ℕ) (text : String) :
    rejoined overlap ((windows text.toList step (step + overlap)).map String.ofList) = text := by
  refine String.toList_injective ?_
  have hjoin := rejoin_windows hstep overlap text.toList
  rw [rejoined, String.toList_append, String.toList_join, List.flatMap_map, ← List.map_tail, List.flatMap_map]
  simp only [String.toList_ofList]
  refine Eq.trans ?_ hjoin
  congr 1
  cases windows text.toList step (step + overlap) <;> simp

/-- **The chunks of a document give its text**, whatever the size and the overlap of the windows: none of them is empty
or too long, no two have one id, and each adds what it does not share with the one before. -/
theorem chunk_rejoined (chunker : FixedSizeChunker) (hoverlap : 0 ≤ chunker.overlap) :
    (∀ chunk ∈ chunker.chunk document, chunk.content ≠ "" ∧ (chunk.content.length : ℤ) ≤ chunker.chunkSize) ∧
      ((chunker.chunk document).map (·.id)).Nodup ∧
      rejoined chunker.overlap.toNat ((chunker.chunk document).map (·.content)) = document.content := by
  obtain ⟨chunkSize, overlap, hlt⟩ := chunker
  dsimp only at hoverlap ⊢
  lift overlap to ℕ using hoverlap
  lift chunkSize to ℕ using le_trans (Int.natCast_nonneg _) hlt.le
  have hstep : 0 < chunkSize - overlap := by omega
  have hsize : chunkSize - overlap + overlap = chunkSize := by omega
  have hcontent := content_chunk document hlt
  refine ⟨fun chunk hchunk => ?_, nodup_chunk document, ?_⟩
  · have hmem : chunk.content ∈ (windows document.content.toList (chunkSize - overlap) chunkSize).map String.ofList :=
      hcontent ▸ List.mem_map_of_mem hchunk
    obtain ⟨window, hwindow, heq⟩ := List.mem_map.mp hmem
    have hne := ne_nil_of_mem_windows hstep (by omega) hwindow
    have hle := length_of_mem_windows hwindow
    rw [← heq, String.length_ofList]
    refine ⟨fun hempty => hne ?_, Int.ofNat_le.mpr hle⟩
    have hlist := congrArg String.toList hempty
    rw [String.toList_ofList] at hlist
    exact hlist
  · have hjoin := rejoined_windows hstep overlap document.content
    rw [hsize] at hjoin
    rw [hcontent, Int.toNat_natCast]
    exact hjoin

/-- Windows of four characters, two of which overlap. -/
theorem chunk_rejoined_four : (0 : ℤ) ≤ 2 ∧
    rejoined 2 (((⟨4, 2, by decide⟩ : FixedSizeChunker).chunk { id := "d", content := "article 1" }).map (·.content)) =
      "article 1" :=
  ⟨by decide, (chunk_rejoined { id := "d", content := "article 1" } ⟨4, 2, by decide⟩ (by decide)).2.2⟩

end Windows

/-! ### What the index holds -/

/-- The chunks of a call's document. -/
def chunksOf (call : Ingestion) : List Chunk :=
  p.chunker.chunk (p.cleaner.clean (PlainTextIngestor.ingest call.rawId call.content call.metadata))

/-- The entries that a call adds; one that raises adds none. -/
def entriesOf (call : Ingestion) : List (Chunk × List F) :=
  match p.embed ((p.chunksOf call).map (·.content)) with
  | .ok vectors =>
      if (p.chunksOf call).length = vectors.length then (p.chunksOf call).zip vectors else []
  | .error _ => []

lemma ingestDocument_eq (index : InMemoryVectorIndex F) (call : Ingestion) :
    p.ingestDocument index call =
      if p.chunksOf call = [] then .ok ([], index)
      else p.embed ((p.chunksOf call).map (·.content)) >>= fun vectors =>
        index.upsert (p.chunksOf call) vectors >>= fun index => .ok (p.chunksOf call, index) := rfl

lemma entries_step (index : InMemoryVectorIndex F) (call : Ingestion) :
    (p.step index call).entries = index.entries ++ p.entriesOf call := by
  rw [step, ingestDocument_eq, entriesOf]
  generalize p.chunksOf call = chunks
  by_cases hnone : chunks = []
  · subst hnone
    rw [if_pos rfl]
    cases p.embed ([].map fun chunk : Chunk => chunk.content) <;> simp [Except.map]
  · rw [if_neg hnone]
    cases p.embed (chunks.map fun chunk => chunk.content) with
    | error e => simp [bind, Except.bind, Except.map]
    | ok vectors =>
      by_cases hlength : chunks.length = vectors.length <;>
        simp [InMemoryVectorIndex.upsert, hlength, bind, Except.bind, Except.map]

/-- The index holds the entries of all calls, in order. -/
theorem entries_run (index : InMemoryVectorIndex F) (calls : List Ingestion) :
    (run p.step index calls).entries = index.entries ++ calls.flatMap p.entriesOf := by
  induction calls generalizing index with
  | nil => simp
  | cons call calls ih => rw [run_cons, ih, entries_step, List.append_assoc, List.flatMap_cons]

/-- A call adds nothing, or the chunks of its document, each with a vector. -/
lemma map_entriesOf (call : Ingestion) :
    p.entriesOf call = [] ∨ (p.entriesOf call).map Prod.fst = p.chunksOf call := by
  unfold entriesOf
  split
  · split
    · rename_i hlength
      exact Or.inr (List.map_fst_zip hlength.le)
    · exact Or.inl rfl
  · exact Or.inl rfl

/-- The ids of the chunks that a call adds. -/
def idsOf (call : Ingestion) : List String := (p.entriesOf call).map (·.1.id)

lemma nodup_idsOf (call : Ingestion) : (p.idsOf call).Nodup := by
  rcases p.map_entriesOf call with hnone | hchunks
  · rw [idsOf, hnone]
    exact List.nodup_nil
  · have hids : p.idsOf call = (p.chunksOf call).map (·.id) := by
      rw [← hchunks, List.map_map]
      rfl
    rw [hids]
    exact nodup_chunk _

lemma mem_idsOf {call : Ingestion} {id : String} (h : id ∈ p.idsOf call) :
    ∃ k : ℕ, id = call.rawId ++ "::" ++ toString k := by
  obtain ⟨entry, hentry, rfl⟩ := List.mem_map.mp h
  rcases p.map_entriesOf call with hnone | hchunks
  · rw [hnone] at hentry
    exact absurd hentry List.not_mem_nil
  · have hchunk : entry.1 ∈ p.chunksOf call := hchunks ▸ List.mem_map_of_mem hentry
    rw [chunksOf, FixedSizeChunker.chunk] at hchunk
    split at hchunk
    · exact absurd hchunk List.not_mem_nil
    · obtain ⟨k, -, hid⟩ := id_of_mem_chunkFrom _ _ _ _ hchunk
      exact ⟨k, hid⟩

lemma first_mem_idsOf {call : Ingestion} (h : p.entriesOf call ≠ []) :
    call.rawId ++ "::" ++ toString 0 ∈ p.idsOf call := by
  have hchunks := (p.map_entriesOf call).resolve_left h
  have hsome : p.chunksOf call ≠ [] := by
    rw [← hchunks]
    simpa using h
  obtain ⟨chunk, hchunk, hid⟩ := first_mem_chunk _ _ hsome
  change chunk ∈ p.chunksOf call at hchunk
  rw [← hchunks] at hchunk
  obtain ⟨entry, hentry, rfl⟩ := List.mem_map.mp hchunk
  exact List.mem_map.mpr ⟨entry, hentry, hid⟩

/-- Two calls add chunks of different ids iff one of them adds none or they are about different
documents. -/
lemma disjoint_idsOf_iff (call call' : Ingestion) : List.Disjoint (p.idsOf call) (p.idsOf call') ↔
    (p.entriesOf call ≠ [] → p.entriesOf call' ≠ [] → call.rawId ≠ call'.rawId) := by
  constructor
  · intro hdisjoint hcall hcall' hid
    exact hdisjoint (p.first_mem_idsOf hcall) (hid ▸ p.first_mem_idsOf hcall')
  · intro h id hid hid'
    obtain ⟨k, hk⟩ := p.mem_idsOf hid
    obtain ⟨k', hk'⟩ := p.mem_idsOf hid'
    refine h (fun hnone => ?_) (fun hnone => ?_) (chunkId_inj (hk.symm.trans hk')).1
    · simp [idsOf, hnone] at hid
    · simp [idsOf, hnone] at hid'

/-! ### An index that overwrites -/

/-- What an index that overwrites would hold under each chunk id: what was written last. -/
def latest (calls : List Ingestion) : Dict String (Chunk × List F) :=
  (calls.flatMap p.entriesOf).foldl (fun written entry => written.set entry.1.id entry) ∅

/-- The documents whose chunks are put into the index, once for each time. -/
def ingested (calls : List Ingestion) : List String :=
  (calls.filter fun call => p.entriesOf call ≠ []).map (·.rawId)

/-- The index holds one entry for a chunk id, the one written last; a search returns no chunk id twice,
and the content that was written last under it. -/
structure Upserted [PyFloat F] (calls : List Ingestion) : Prop where
  once : ((run p.step {} calls).entries.map (·.1.id)).Nodup
  last : ∀ entry ∈ (run p.step {} calls).entries, (p.latest calls).get entry.1.id = some entry
  search : ∀ vector topK filters results,
    (run p.step {} calls).search vector topK filters = .ok results → (results.map (·.chunkId)).Nodup ∧
      ∀ result ∈ results, ∃ entry, (p.latest calls).get result.chunkId = some entry ∧
        result.content = entry.1.content

/-- No chunk id is written twice iff no document is ingested twice. -/
lemma nodup_ids_iff (calls : List Ingestion) :
    ((calls.flatMap p.entriesOf).map (·.1.id)).Nodup ↔ (p.ingested calls).Nodup := by
  have hids : (calls.flatMap p.entriesOf).map (·.1.id) = calls.flatMap p.idsOf := List.map_flatMap ..
  rw [hids, List.nodup_flatMap, and_iff_right fun call _ => p.nodup_idsOf call]
  simp only [ingested, List.Nodup, List.pairwise_map, List.pairwise_filter, decide_eq_true_eq]
  exact List.Pairwise.iff fun call call' => p.disjoint_idsOf_iff call call'

lemma retrieve_eq_ok [PyFloat F] {vector : List F} {entry : Chunk × List F} {result : RetrievedChunk F}
    (h : InMemoryVectorIndex.retrieve vector entry = .ok result) :
    (result.chunkId, result.content) = (entry.1.id, entry.1.content) := by
  unfold InMemoryVectorIndex.retrieve at h
  simp only [bind_eq_ok, pure_eq_ok] at h
  obtain ⟨score, -, rfl⟩ := h
  rfl

/-- A result of a search is one of the entries; no entry is returned twice. -/
lemma search_subperm [PyFloat F] {index : InMemoryVectorIndex F} {vector : List F} {topK : ℤ}
    {filters : Option Metadata} {results : List (RetrievedChunk F)}
    (h : index.search vector topK filters = .ok results) :
    (results.map fun result => (result.chunkId, result.content)).Subperm
      (index.entries.map fun entry => (entry.1.id, entry.1.content)) := by
  unfold InMemoryVectorIndex.search at h
  simp only [bind_eq_ok, pure_eq_ok, mapM_eq_ok] at h
  obtain ⟨scored, hscored, rfl⟩ := h
  have hfilter := List.filter_sublist (l := index.entries) (p := fun entry =>
    (filters.getD ∅).entries.all fun wanted => decide (entry.1.metadata.get wanted.1 = some wanted.2))
  generalize index.entries.filter _ = candidates at hscored hfilter
  have hmap : scored.map (fun result => (result.chunkId, result.content)) =
      candidates.map fun entry => (entry.1.id, entry.1.content) := by
    rw [← List.forall₂_eq_eq_eq, List.forall₂_map_left_iff, List.forall₂_map_right_iff]
    exact hscored.flip.imp fun result entry hresult => retrieve_eq_ok hresult
  refine List.Subperm.trans ?_ (hfilter.map _).subperm
  rw [← hmap]
  have hsorted := List.perm_insertionSort (fun a b : RetrievedChunk F => PyFloat.lt a.score b.score = false) scored
  exact ((List.take_sublist _ _).map _).subperm.trans (hsorted.map _).subperm

/-- Where no chunk id is written twice, what was written last is what was written. -/
lemma latest_eq {calls : List Ingestion} (h : ((calls.flatMap p.entriesOf).map (·.1.id)).Nodup) :
    ∀ entry ∈ calls.flatMap p.entriesOf, (p.latest calls).get entry.1.id = some entry := by
  intro entry hentry
  have hnodup : (((calls.flatMap p.entriesOf).map fun entry => (entry.1.id, entry)).map Prod.fst).Nodup := by
    rwa [List.map_map]
  have hget := Dict.get_foldl_set (∅ : Dict String (Chunk × List F)) hnodup entry.1.id
  rw [List.foldl_map] at hget
  rw [latest, hget, Dict.get_empty, Option.or_none, Dict.lookup_eq_some_iff hnodup]
  exact List.mem_map_of_mem (f := fun entry : Chunk × List F => (entry.1.id, entry)) hentry

/-- A pipeline whose embeddings have one dimension. -/
def oneDimension : RagPipeline ℚ where
  cleaner := { nfkc := id, text := PyText.ascii }
  embed texts := .ok (texts.map fun _ => [1])

end RagPipeline

end Tmis.Ai
