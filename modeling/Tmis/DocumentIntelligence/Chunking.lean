import Mathlib.Algebra.Order.BigOperators.Group.List
import Tmis.Ai.Rag
import Tmis.DocumentIntelligence.Layout
import Tmis.Lib.Calls
import Tmis.Lib.Slices

/-!
# Chunks along the structure of a document

`document_intelligence.chunking`: the blocks of a document are put together into chunks.  A chunk begins at each title,
and where enough has been put together; a block that alone is too long is cut.

* `StructuralChunker` — the loop over the blocks, and what it writes;
* `Piece`, `piecesOf` — what the chunks are made of: the blocks, cut where they are, under their sections;
* `Chunked` — what is kept by the loop; `block_chunked`, by one block;
* `chunk_layout` — the chunks of a document.
-/

namespace Tmis.DocumentIntelligence

open Tmis.Lib Tmis.Ai

def isSkipped (block : LayoutBlock) : Bool := block.type ∈ [.header, .footer]

def isSection (block : LayoutBlock) : Bool := block.type ∈ [.title, .subtitle]

structure StructuralChunker where
  maxChunkChars : ℤ := 800

namespace StructuralChunker

structure State where
  chunks : List Chunk := []
  buffer : List String := []
  currentSection : String := "Introduction"
  chunkIndex : ℕ := 0

def newChunk (documentId : String) (index : ℕ) (pieces : List String) (currentSection : String) : Chunk where
  id := documentId ++ "::" ++ toString index
  documentId
  content := "\n".intercalate pieces
  metadata := Dict.ofEntries [("section", currentSection)]

def flush (documentId : String) (s : State) : State :=
  if s.buffer = [] then s
  else
    { s with
      chunks := s.chunks ++ [newChunk documentId s.chunkIndex s.buffer s.currentSection]
      chunkIndex := s.chunkIndex + 1
      buffer := [] }

/-- A slice of a block that is too long. -/
def flushSlice (documentId content : String) (maxChunkChars : ℤ) (s : State) (start : ℕ) : State :=
  flush documentId { s with buffer := s.buffer ++ [slice content start (start + maxChunkChars)] }

/-- The body of the loop over the blocks. -/
def block (chunker : StructuralChunker) (documentId : String) (s : State) (block : LayoutBlock) :
    Except PyException State :=
  if isSkipped block then .ok s
  else if isSection block then
    let s := flush documentId s
    .ok { s with currentSection := block.content, buffer := s.buffer ++ [block.content] }
  else if chunker.maxChunkChars ≤ block.content.length then do
    let s := flush documentId s
    let starts ← rangeOf block.content.length chunker.maxChunkChars
    return starts.foldl (flushSlice documentId block.content chunker.maxChunkChars) s
  else
    let s := { s with buffer := s.buffer ++ [block.content] }
    .ok (if chunker.maxChunkChars ≤ (s.buffer.map String.length).sum then flush documentId s else s)

/-- `chunk`; the text itself is not looked at. -/
def chunk (chunker : StructuralChunker) (documentId _text : String) (layoutBlocks : List LayoutBlock) :
    Except PyException (List Chunk) := do
  let s ← layoutBlocks.foldlM (chunker.block documentId) {}
  return (flush documentId s).chunks

end StructuralChunker

/-! ### What the chunks are made of -/

/-- A piece of the document: the section it stands in, and whether it is the title of this section. -/
structure Piece where
  sectionTitle : String
  isTitle : Bool
  text : String

/-- A block that is neither a title nor a subtitle is cut from the limit on. -/
def cut (limit : ℕ) (block : LayoutBlock) : List String :=
  if isSection block = false ∧ limit ≤ block.content.length then
    (windows block.content.toList limit limit).map String.ofList
  else [block.content]

/-- The last title or subtitle at or before the block `i`. -/
def sectionAt (blocks : List LayoutBlock) (i : ℕ) : String :=
  (((blocks.take (i + 1)).filter isSection).getLast?.map LayoutBlock.content).getD "Introduction"

def blockPieces (limit : ℕ) (sectionTitle : String) (block : LayoutBlock) : List Piece :=
  if isSkipped block then []
  else (cut limit block).map fun text => { sectionTitle, isTitle := isSection block, text }

/-- The pieces of a document, in their order. -/
def piecesOf (limit : ℕ) (blocks : List LayoutBlock) : List Piece :=
  blocks.zipIdx.flatMap fun (block, i) => blockPieces limit (sectionAt blocks i) block

/-- How long pieces are, their titles apart. -/
def bodySize (pieces : List Piece) : ℕ :=
  ((pieces.filter fun piece => !piece.isTitle).map fun piece => piece.text.length).sum

/-- The section of a chunk. -/
def sectionOf (pieces : List Piece) : String := (pieces.head?.map Piece.sectionTitle).getD ""

/-- The pieces of a chunk: all in its section, a title at the beginning only, and below the limit without the last one
and this title. -/
structure ChunkPieces (limit : ℕ) (pieces : List Piece) : Prop where
  ne_nil : pieces ≠ []
  sections : ∀ piece ∈ pieces, piece.sectionTitle = sectionOf pieces
  titles : ∀ piece ∈ pieces.tail, piece.isTitle = false
  size : bodySize pieces.dropLast < limit

/-- The chunks with these pieces. -/
def chunksOf (documentId : String) (groups : List (List Piece)) : List Chunk :=
  groups.zipIdx.map fun (pieces, k) =>
    StructuralChunker.newChunk documentId k (pieces.map Piece.text) (sectionOf pieces)

section Pieces

variable {limit : ℕ} {documentId : String} {groups : List (List Piece)} {pieces : List Piece} {piece : Piece}

/-- A block is put together from what it is cut into. -/
lemma join_cut (hlimit : 0 < limit) (block : LayoutBlock) : String.join (cut limit block) = block.content := by
  unfold cut
  split_ifs
  · refine String.toList_injective ?_
    rw [String.toList_join, List.flatMap_map]
    have hflatten := flatten_windows hlimit block.content.toList
    rw [← List.flatMap_id] at hflatten
    simpa using hflatten
  · simp

lemma chunksOf_snoc (documentId : String) (groups : List (List Piece)) (pieces : List Piece) :
    chunksOf documentId (groups ++ [pieces]) = chunksOf documentId groups ++
      [StructuralChunker.newChunk documentId groups.length (pieces.map Piece.text) (sectionOf pieces)] := by
  simp [chunksOf, List.zipIdx_append]

lemma bodySize_append (pieces pieces' : List Piece) :
    bodySize (pieces ++ pieces') = bodySize pieces + bodySize pieces' := by
  simp [bodySize]

lemma bodySize_le (pieces : List Piece) : bodySize pieces ≤ ((pieces.map Piece.text).map String.length).sum := by
  induction pieces with
  | nil => exact Nat.le_refl _
  | cons piece pieces ih =>
    have hcons := bodySize_append [piece] pieces
    rw [List.singleton_append] at hcons
    rw [hcons, List.map_cons, List.map_cons, List.sum_cons]
    refine Nat.add_le_add ?_ ih
    cases htitle : piece.isTitle <;> simp [bodySize, htitle]

lemma bodySize_dropLast_le (pieces : List Piece) : bodySize pieces.dropLast ≤ bodySize pieces := by
  rcases List.eq_nil_or_concat pieces with rfl | ⟨before, last, rfl⟩
  · exact Nat.le_refl _
  · rw [List.concat_eq_append, List.dropLast_concat, bodySize_append]
    exact Nat.le_add_right _ _

lemma sectionAt_append (blocks blocks' : List LayoutBlock) {i : ℕ} (hi : i < blocks.length) :
    sectionAt (blocks ++ blocks') i = sectionAt blocks i := by
  rw [sectionAt, sectionAt, List.take_append_of_le_length hi]

/-- The last title or subtitle of some blocks. -/
def lastSection (blocks : List LayoutBlock) : String :=
  ((blocks.filter isSection).getLast?.map LayoutBlock.content).getD "Introduction"

lemma sectionAt_last (blocks : List LayoutBlock) (block : LayoutBlock) :
    sectionAt (blocks ++ [block]) blocks.length = lastSection (blocks ++ [block]) := by
  rw [sectionAt, lastSection, List.take_of_length_le (by simp)]

lemma lastSection_snoc (blocks : List LayoutBlock) (block : LayoutBlock) :
    lastSection (blocks ++ [block]) = if isSection block then block.content else lastSection blocks := by
  rw [lastSection, List.filter_append]
  split_ifs with hsection
  · simp [hsection]
  · simp [hsection, lastSection]

lemma piecesOf_snoc (limit : ℕ) (blocks : List LayoutBlock) (block : LayoutBlock) :
    piecesOf limit (blocks ++ [block]) =
      piecesOf limit blocks ++ blockPieces limit (sectionAt (blocks ++ [block]) blocks.length) block := by
  rw [piecesOf, List.zipIdx_append, List.flatMap_append, piecesOf]
  congr 1
  · refine List.flatMap_congr fun entry hentry => ?_
    obtain ⟨block', i⟩ := entry
    have hi := List.snd_lt_of_mem_zipIdx hentry
    rw [Nat.add_zero] at hi
    dsimp only
    rw [sectionAt_append _ _ hi]
  · simp

end Pieces

/-! ### The loop -/

open StructuralChunker

/-- What has been written, and what waits in the buffer. -/
structure Written (limit : ℕ) (documentId : String) (groups : List (List Piece)) (pending : List Piece)
    (s : State) : Prop where
  chunks : s.chunks = chunksOf documentId groups
  chunkIndex : s.chunkIndex = groups.length
  buffer : s.buffer = pending.map Piece.text
  groups : ∀ pieces ∈ groups, ChunkPieces limit pieces
  sections : ∀ piece ∈ pending, piece.sectionTitle = s.currentSection
  titles : ∀ piece ∈ pending.tail, piece.isTitle = false

/-- The blocks so far are in the chunks and in the buffer. -/
def Chunked (limit : ℕ) (documentId : String) (blocks : List LayoutBlock) (s : State) : Prop :=
  ∃ groups pending, Written limit documentId groups pending s ∧ bodySize pending < limit ∧
    groups.flatten ++ pending = piecesOf limit blocks ∧ s.currentSection = lastSection blocks

section Loop

variable {limit : ℕ} {documentId : String} {groups : List (List Piece)} {pending : List Piece} {piece : Piece}
  {blocks : List LayoutBlock} {s : State}

@[simp] lemma currentSection_flush (documentId : String) (s : State) :
    (flush documentId s).currentSection = s.currentSection := by
  unfold flush
  split <;> rfl

lemma Written.push (piece : Piece) (h : Written limit documentId groups pending s)
    (hsection : piece.sectionTitle = s.currentSection) (htitle : pending = [] ∨ piece.isTitle = false) :
    Written limit documentId groups (pending ++ [piece]) { s with buffer := s.buffer ++ [piece.text] } where
  chunks := h.chunks
  chunkIndex := h.chunkIndex
  buffer := by
    dsimp only
    rw [h.buffer, List.map_append, List.map_singleton]
  groups := h.groups
  sections := List.forall_mem_append.mpr ⟨h.sections, List.forall_mem_singleton.mpr hsection⟩
  titles := by
    cases pending with
    | nil => exact fun _ hmem => absurd hmem List.not_mem_nil
    | cons first rest =>
      obtain hnil | htitle := htitle
      · cases hnil
      · exact List.forall_mem_append.mpr ⟨h.titles, List.forall_mem_singleton.mpr htitle⟩

/-- What waits is written as a chunk. -/
lemma Written.flush (h : Written limit documentId groups pending s) (hsize : bodySize pending.dropLast < limit) :
    ∃ groups', Written limit documentId groups' [] (flush documentId s) ∧ groups'.flatten = groups.flatten ++ pending := by
  by_cases hnil : pending = []
  · have hbuffer : s.buffer = [] := by rw [h.buffer, hnil, List.map_nil]
    refine ⟨groups, ?_, by rw [hnil, List.append_nil]⟩
    rw [StructuralChunker.flush, if_pos hbuffer]
    exact hnil ▸ h
  · have hbuffer : s.buffer ≠ [] := by
      rw [h.buffer]
      exact fun hmap => hnil (List.map_eq_nil_iff.mp hmap)
    have hsection : sectionOf pending = s.currentSection := by
      obtain ⟨first, rest, rfl⟩ := List.exists_cons_of_ne_nil hnil
      exact h.sections first List.mem_cons_self
    have hpieces : ChunkPieces limit pending :=
      ⟨hnil, fun piece hpiece => (h.sections piece hpiece).trans hsection.symm, h.titles, hsize⟩
    refine ⟨groups ++ [pending], ?_, by rw [List.flatten_append, List.flatten_singleton]⟩
    rw [StructuralChunker.flush, if_neg hbuffer]
    exact
      { chunks := by
          dsimp only
          rw [chunksOf_snoc, h.chunks, h.chunkIndex, h.buffer, hsection]
        chunkIndex := by
          dsimp only
          rw [h.chunkIndex, List.length_append, List.length_singleton]
        buffer := rfl
        groups := List.forall_mem_append.mpr ⟨h.groups, List.forall_mem_singleton.mpr hpieces⟩
        sections := fun _ hmem => absurd hmem List.not_mem_nil
        titles := fun _ hmem => absurd hmem List.not_mem_nil }

/-- The slices of a block that is too long. -/
lemma Written.flushSlices (hlimit : 0 < limit) (content : String) (starts : List ℕ)
    (h : Written limit documentId groups [] s) :
    ∃ groups', Written limit documentId groups' [] (starts.foldl (flushSlice documentId content limit) s) ∧
      groups'.flatten = groups.flatten ++ starts.map (fun start =>
        ⟨s.currentSection, false, String.ofList ((content.toList.drop start).take limit)⟩) ∧
      (starts.foldl (flushSlice documentId content limit) s).currentSection = s.currentSection := by
  induction starts generalizing s groups with
  | nil => exact ⟨groups, h, (List.append_nil _).symm, rfl⟩
  | cons start starts ih =>
    have hpush := h.push ⟨s.currentSection, false, slice content start (start + limit)⟩ rfl (Or.inl rfl)
    obtain ⟨groups₁, hwritten, hflatten⟩ := hpush.flush hlimit
    obtain ⟨groups₂, hrest, hflatten', hsection⟩ := ih hwritten
    rw [currentSection_flush] at hflatten' hsection
    refine ⟨groups₂, hrest, ?_, hsection⟩
    rw [hflatten', hflatten, List.map_cons, slice_natCast, List.append_assoc]
    rfl

lemma chunked_nil (hlimit : 0 < limit) : Chunked limit documentId [] {} :=
  ⟨[], [], ⟨rfl, rfl, rfl, fun _ h => absurd h List.not_mem_nil, fun _ h => absurd h List.not_mem_nil,
    fun _ h => absurd h List.not_mem_nil⟩, hlimit, rfl, rfl⟩

/-- One block. -/
lemma block_chunked (hlimit : 0 < limit) (b : LayoutBlock) (h : Chunked limit documentId blocks s) :
    ∃ s', StructuralChunker.block ⟨limit⟩ documentId s b = .ok s' ∧ Chunked limit documentId (blocks ++ [b]) s' := by
  obtain ⟨groups, pending, hwritten, hsize, hflatten, hsection⟩ := h
  have hdropLast : bodySize pending.dropLast < limit := lt_of_le_of_lt (bodySize_dropLast_le _) hsize
  have hpieces := piecesOf_snoc limit blocks b
  rw [sectionAt_last, lastSection_snoc, ← hflatten] at hpieces
  have hlast := lastSection_snoc blocks b
  rw [StructuralChunker.block]
  by_cases hskipped : isSkipped b = true
  · -- A header or a footer is neither a title nor a piece.
    have hnot : isSection b = false := by
      simp only [isSkipped, isSection, decide_eq_true_eq, decide_eq_false_iff_not] at hskipped ⊢
      intro hmem
      simp only [List.mem_cons, List.not_mem_nil, or_false] at hskipped hmem
      rcases hskipped with hb | hb <;> rw [hb] at hmem <;> simp at hmem
    rw [blockPieces, if_pos hskipped, List.append_nil] at hpieces
    rw [if_pos hskipped]
    refine ⟨s, rfl, groups, pending, hwritten, hsize, hpieces.symm, ?_⟩
    rw [hlast, hnot]
    exact hsection
  rw [if_neg hskipped]
  rw [blockPieces, if_neg hskipped] at hpieces
  by_cases htitle : isSection b = true
  · -- What waits is written, and the title waits in its own section.
    obtain ⟨groups', hflushed, hflatten'⟩ := hwritten.flush hdropLast
    have hpush := Written.push (s := { flush documentId s with currentSection := b.content })
      ⟨b.content, true, b.content⟩ ⟨hflushed.chunks, hflushed.chunkIndex, hflushed.buffer, hflushed.groups,
        fun _ hmem => absurd hmem List.not_mem_nil, hflushed.titles⟩ rfl (Or.inl rfl)
    have hcut : (cut limit b).map (fun text => (⟨if isSection b then b.content else lastSection blocks, isSection b,
        text⟩ : Piece)) = [⟨b.content, true, b.content⟩] := by
      simp [cut, htitle]
    rw [if_pos htitle]
    refine ⟨_, rfl, groups', _, hpush, hlimit, ?_, ?_⟩
    · rw [hpieces, hcut, hflatten']
      rfl
    · rw [hlast, if_pos htitle]
  rw [if_neg htitle]
  rw [if_neg htitle, ← hsection] at hpieces
  rw [if_neg htitle, ← hsection] at hlast
  have hnot : isSection b = false := Bool.eq_false_iff.mpr htitle
  by_cases hlong : limit ≤ b.content.length
  · -- What waits is written, and each slice by itself.
    obtain ⟨groups', hflushed, hflatten'⟩ := hwritten.flush hdropLast
    obtain ⟨groups'', hslices, hflatten'', hsection'⟩ :=
      hflushed.flushSlices hlimit b.content (rangeSteps b.content.length limit)
    rw [currentSection_flush] at hflatten'' hsection'
    obtain ⟨n, rfl⟩ := Nat.exists_eq_succ_of_ne_zero (Nat.pos_iff_ne_zero.mp hlimit)
    rw [if_pos (Int.ofNat_le.mpr hlong)]
    refine ⟨_, rfl, groups'', [], hslices, hlimit, ?_, hsection'.trans hlast.symm⟩
    rw [hpieces, List.append_nil, hflatten'', hflatten', cut, if_pos ⟨hnot, hlong⟩, windows, List.map_map, List.map_map,
      String.length_toList, hnot]
    rfl
  · -- The block waits, and is written with what waits before it once that is enough.
    have hpush := hwritten.push ⟨s.currentSection, false, b.content⟩ rfl (Or.inr rfl)
    have hcut : (cut limit b).map (fun text => (⟨s.currentSection, isSection b, text⟩ : Piece)) =
        [⟨s.currentSection, false, b.content⟩] := by
      rw [cut, if_neg (fun h => hlong h.2), hnot, List.map_singleton]
    rw [hcut] at hpieces
    rw [if_neg (fun h => hlong (Int.ofNat_le.mp h))]
    by_cases hfull : (limit : ℤ) ≤ ((s.buffer ++ [b.content]).map String.length).sum
    · obtain ⟨groups', hflushed, hflatten'⟩ := hpush.flush (by rw [List.dropLast_concat]; exact hsize)
      refine ⟨_, congrArg Except.ok (if_pos hfull), groups', [], hflushed, hlimit, ?_, ?_⟩
      · rw [hpieces, List.append_nil, hflatten', List.append_assoc]
      · rw [currentSection_flush, hlast]
    · refine ⟨_, congrArg Except.ok (if_neg hfull), groups, _, hpush, ?_, ?_, hlast.symm⟩
      · have hle := bodySize_le (pending ++ [⟨s.currentSection, false, b.content⟩])
        rw [← hpush.buffer] at hle
        have hlt : ((s.buffer ++ [b.content]).map String.length).sum < limit := by
          have hlt := not_le.mp hfull
          exact_mod_cast hlt
        exact lt_of_le_of_lt hle hlt
      · rw [hpieces, List.append_assoc]

/-- All blocks, one after the other. -/
lemma foldlM_chunked (hlimit : 0 < limit) (documentId : String) (blocks : List LayoutBlock) :
    ∃ s, blocks.foldlM (StructuralChunker.block ⟨limit⟩ documentId) {} = .ok s ∧ Chunked limit documentId blocks s := by
  induction blocks using List.reverseRecOn with
  | nil => exact ⟨{}, rfl, chunked_nil hlimit⟩
  | append_singleton blocks b ih =>
    obtain ⟨s, hs, hchunked⟩ := ih
    obtain ⟨s', hs', hchunked'⟩ := block_chunked hlimit b hchunked
    refine ⟨s', ?_, hchunked'⟩
    rw [List.foldlM_append, hs]
    exact bind_eq_ok.mpr ⟨s, rfl, bind_eq_ok.mpr ⟨s', hs', rfl⟩⟩

/-- **The chunks of some blocks**: their pieces are those of the blocks. -/
theorem chunk_pieces (hlimit : 0 < limit) (documentId text : String) (blocks : List LayoutBlock) :
    ∃ groups, StructuralChunker.chunk ⟨limit⟩ documentId text blocks = .ok (chunksOf documentId groups) ∧
      groups.flatten = piecesOf limit blocks ∧ ∀ pieces ∈ groups, ChunkPieces limit pieces := by
  obtain ⟨s, hs, groups, pending, hwritten, hsize, hflatten, -⟩ := foldlM_chunked hlimit documentId blocks
  obtain ⟨groups', hflushed, hflatten'⟩ := hwritten.flush (lt_of_le_of_lt (bodySize_dropLast_le _) hsize)
  refine ⟨groups', ?_, hflatten'.trans hflatten, hflushed.groups⟩
  rw [StructuralChunker.chunk, hs, ← hflushed.chunks]
  rfl

end Loop

/-- A block that is neither a title nor a subtitle leaves no piece above the limit. -/
lemma length_cut_le {limit : ℕ} {block : LayoutBlock} (hblock : isSection block = false) :
    ∀ piece ∈ cut limit block, piece.length ≤ limit := by
  unfold cut
  split_ifs with hlong
  · refine List.forall_mem_map.mpr fun window hwindow => ?_
    rw [String.length_ofList]
    exact length_of_mem_windows hwindow
  · refine List.forall_mem_singleton.mpr ?_
    have hshort : ¬ limit ≤ block.content.length := fun h => hlong ⟨hblock, h⟩
    omega

/-- **Nothing of a document is lost**, however its lines are classified: a block for each line that is not blank,
numbered in their order, and chunks, numbered in theirs, whose pieces are what the blocks other than headers and footers
are cut into, under the last title or subtitle at or before them. -/
theorem chunk_layout (classifyLine : LineClassifier) (documentId text : String) (limit : ℕ) (hlimit : 0 < limit) :
    (analyzeLines classifyLine text).map LayoutBlock.content = (pageLines text).map strip ∧
      (analyzeLines classifyLine text).map LayoutBlock.order = List.range (analyzeLines classifyLine text).length ∧
      (∀ block, String.join (cut limit block) = block.content) ∧
      (∀ block, isSection block = false → ∀ piece ∈ cut limit block, piece.length ≤ limit) ∧
      ∃ groups, StructuralChunker.chunk ⟨limit⟩ documentId text (analyzeLines classifyLine text) =
          .ok (chunksOf documentId groups) ∧
        groups.flatten = piecesOf limit (analyzeLines classifyLine text) ∧
        ∀ pieces ∈ groups, ChunkPieces limit pieces :=
  ⟨content_analyzeLines .., order_analyzeLines .., join_cut hlimit, fun _ hblock => length_cut_le hblock,
    chunk_pieces hlimit ..⟩

/-- A document of two lines. -/
theorem chunk_layout_two : 0 < 10 ∧ ∃ groups,
    StructuralChunker.chunk ⟨(10 : ℕ)⟩ "d" "FAITS\nIl pleut."
        (analyzeLines (fun line _ _ _ _ => if line = "FAITS" then .title else .paragraph) "FAITS\nIl pleut.") =
      .ok (chunksOf "d" groups) := by
  obtain ⟨-, -, -, -, groups, hchunk, -⟩ := chunk_layout
    (fun line _ _ _ _ => if line = "FAITS" then .title else .paragraph) "d" "FAITS\nIl pleut." 10 (by decide)
  exact ⟨by decide, groups, hchunk⟩

/-- A title is not cut, however long it is. -/
theorem long_title_whole : ∃ block, analyzeLines (fun _ _ _ _ _ => .title) "CONCLUSIONS" = [block] ∧
    isSkipped block = false ∧ 5 ≤ block.content.length ∧
    (StructuralChunker.chunk ⟨5⟩ "d" "CONCLUSIONS" [block]).map (List.map Chunk.content) = .ok [block.content] :=
  ⟨⟨0, .title, "CONCLUSIONS", some 1, ∅⟩, by rfl, by decide, by decide, by rfl⟩

end Tmis.DocumentIntelligence
