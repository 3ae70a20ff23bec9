import MuniRag.Embeddings.Lossless

/-!
# Preparing the embeddings of a document

`prepareDocumentEmbeddings` plans the chunks of a document under a limit, checks them and asks
the provider for their vectors in batches; whatever goes wrong is returned as one failure.
-/

namespace Embeddings

open Documents

structure EmbeddingFailure where
  code : JsString
  message : JsString
  retryable : Bool
  deriving DecidableEq, Repr

/-- What can be thrown: an error of the pipeline, or anything else with the text it prints as. -/
inductive Thrown
  | pipeline (error : EmbeddingPipelineError)
  | other (message : JsString)
  deriving DecidableEq, Repr

/-- A provider; `embed` may answer each call in its own way. -/
structure EmbeddingProvider (ν : Type) where
  providerName : JsString
  model : JsString
  dimensions : Nat
  embed : (call : Nat) → List JsString → Except Thrown (List (List ν))

structure EmbeddingVectorRecord (ν : Type) where
  chunk : EmbeddingChunk ν
  embedding : List ν
  embeddingModel : JsString
  embeddingProvider : JsString
  embeddingDimension : Nat
  indexedAt : Time

structure PreparedEmbeddingRecords (ν : Type) where
  plannedCount : Nat
  records : List (EmbeddingVectorRecord ν)
  failedCount : Nat
  failures : List EmbeddingFailure

structure IndexDocumentOptions where
  chunkPlannerOptions : Option ChunkPlannerOptions
  maxChunksPerDocument : Option Int
  embeddingBatchSize : Option Int
  now : Time

def maxChunksPerDocument : Nat := 5000

def maxEmbeddingBatchSize : Nat := 64

def pipelineError (code message : JsString) : Thrown := .pipeline ⟨code, message, false⟩

def failureFromError : Thrown → EmbeddingFailure
  | .pipeline error => ⟨error.code, error.message, error.retryable⟩
  | .other message => ⟨js "embedding_pipeline_failed", message, true⟩

def boundedOption (value : Option Int) (fallback maximum : Nat) (name : JsString) :
    Except Thrown Nat :=
  let resolved := value.getD fallback
  if resolved < 1 ∨ resolved > maximum then
    .error (pipelineError (js "embedding_resource_policy_invalid")
      (name ++ js " must be an integer between 1 and " ++ Api.numberText maximum ++ js "."))
  else .ok resolved.toNat

section Prepare

variable {ν : Type} (numbers : Json.NumberText ν) (sha256Hex : JsString → JsString)

def validateChunk (chunk : EmbeddingChunk ν) : Except Thrown Unit :=
  if trim chunk.text = [] then
    .error (pipelineError (js "invalid_chunk_text")
      (js "Chunk " ++ chunk.chunkId ++ js " has empty text."))
  else if chunk.source.citationLabel.getD [] = [] then
    .error (pipelineError (js "missing_citation_label")
      (js "Chunk " ++ chunk.chunkId ++ js " is missing citation metadata."))
  else .ok ()

def validateChunks (chunks : List (EmbeddingChunk ν)) : Except Thrown Unit :=
  chunks.forM validateChunk

def validateVectorCount (vectors : List (List ν)) (expectedCount : Nat) : Except Thrown Unit :=
  if vectors.length = expectedCount then .ok ()
  else .error (pipelineError (js "embedding_vector_count_mismatch")
    (js "Embedding provider returned " ++ Api.numberText vectors.length ++
      js " vectors; expected " ++ Api.numberText expectedCount ++ js "."))

def validateVectorDimensions (vectors : List (List ν)) (expectedDimensions : Nat) :
    Except Thrown Unit :=
  vectors.zipIdx.forM fun (vector, index) =>
    if vector.length = expectedDimensions then .ok ()
    else .error (pipelineError (js "embedding_dimension_mismatch")
      (js "Embedding vector " ++ Api.numberText index ++ js " has " ++
        Api.numberText vector.length ++ js " dimensions; expected " ++
        Api.numberText expectedDimensions ++ js "."))

/-- The loop over the batches: `texts` are those that are left, `call` counts the batches. -/
def embedBatches (provider : EmbeddingProvider ν) (batchSize : Nat) :
    (fuel call : Nat) → List JsString → Except Thrown (List (List ν))
  | 0, _, _ => .ok []
  | _, _, [] => .ok []
  | fuel + 1, call, texts => do
      let batch := texts.take batchSize
      let batchVectors ← provider.embed call batch
      validateVectorCount batchVectors batch.length
      validateVectorDimensions batchVectors provider.dimensions
      let vectors ← embedBatches provider batchSize fuel (call + 1) (texts.drop batchSize)
      return batchVectors ++ vectors

/-- What comes after planning. -/
def embedPlan (provider : EmbeddingProvider ν) (batchSize : Nat) (now : Time)
    (chunks : List (EmbeddingChunk ν)) : Except Thrown (List (EmbeddingVectorRecord ν)) := do
  validateChunks chunks
  let vectors ← embedBatches provider batchSize chunks.length 0 (chunks.map (·.text))
  return (chunks.zip vectors).map fun (chunk, embedding) =>
    { chunk, embedding
      embeddingModel := provider.model
      embeddingProvider := provider.providerName
      embeddingDimension := provider.dimensions
      indexedAt := now }

def chunkLimitError (planned maxChunks : Nat) : Thrown :=
  pipelineError (js "embedding_chunk_limit_exceeded")
    (js "Document planned " ++ Api.numberText planned ++ js " chunks; the limit is " ++
      Api.numberText maxChunks ++ js ".")

/-- The `catch`, with the count that was set before. -/
def rejected (plannedCount : Nat) (error : Thrown) : PreparedEmbeddingRecords ν where
  plannedCount := plannedCount
  records := []
  failedCount := plannedCount
  failures := [failureFromError error]

/-- What is returned for a plan that can be embedded. -/
def prepared (chunks : List (EmbeddingChunk ν)) :
    Except Thrown (List (EmbeddingVectorRecord ν)) → PreparedEmbeddingRecords ν
  | .error error => rejected chunks.length error
  | .ok records => ⟨chunks.length, records, 0, []⟩

def prepareDocumentEmbeddings (document : NormalizedDocument ν) (input : PlanChunksInput)
    (provider : EmbeddingProvider ν) (options : IndexDocumentOptions) :
    PreparedEmbeddingRecords ν :=
  match boundedOption options.maxChunksPerDocument maxChunksPerDocument maxChunksPerDocument
      (js "maxChunksPerDocument"),
    boundedOption options.embeddingBatchSize maxEmbeddingBatchSize maxEmbeddingBatchSize
      (js "embeddingBatchSize") with
  | .error error, _ => rejected 0 error
  | .ok _, .error error => rejected 0 error
  | .ok maxChunks, .ok embeddingBatchSize =>
      match planChunks numbers sha256Hex document input
          (options.chunkPlannerOptions.getD defaultChunkPlannerOptions) maxChunks with
      | .error error => rejected 0 (.pipeline error)
      | .ok chunks =>
          if chunks.length > maxChunks then
            rejected chunks.length (chunkLimitError chunks.length maxChunks)
          else prepared chunks (embedPlan provider embeddingBatchSize options.now chunks)

/-! ## The plan and its limit -/

variable {numbers sha256Hex} {document : NormalizedDocument ν} {input : PlanChunksInput}
  {options : ChunkPlannerOptions} {maxChars overlapChars : Nat}

/-- What `assertPlannerOptions` lets pass. -/
def ValidPolicy (options : ChunkPlannerOptions) : Prop :=
  (32 ≤ options.maxChars ∧ options.maxChars ≤ 1000000) ∧
    0 ≤ options.overlapChars ∧ options.overlapChars ≤ options.maxChars / 2

theorem assertPlannerOptions_ok (h : ValidPolicy options) : assertPlannerOptions options = .ok () := by
  obtain ⟨⟨hlow, hhigh⟩, hpos, hhalf⟩ := h
  rw [assertPlannerOptions, if_neg (by omega), if_neg (by omega)]

theorem planChunks_eq (h : ValidPolicy options) {maxChunks : Int} (hpos : 1 ≤ maxChunks)
    (hsafe : maxChunks ≤ maxSafeInteger) :
    let full := fullPlan numbers sha256Hex document input options.maxChars.toNat
      options.overlapChars.toNat
    planChunks numbers sha256Hex document input options maxChunks =
      .ok (full.take (min full.length (maxChunks.toNat + 1))) := by
  have hbounds : ¬ (maxChunks < 1 ∨ maxChunks > maxSafeInteger) := by omega
  have hloops := @planSections_eq options.overlapChars.toNat options.maxChars.toNat _ numbers
    sha256Hex document input maxChunks.toNat ⟨[], 1⟩ document.sections (Nat.zero_le _)
  have hplan : ((⟨[], 1⟩ : Progress ν).extend numbers sha256Hex document input
      (document.sections.flatMap fun entry => (sectionTexts options.maxChars.toNat
        options.overlapChars.toNat entry).map fun text => (entry, text))).chunks =
          fullPlan numbers sha256Hex document input options.maxChars.toNat
            options.overlapChars.toNat := List.nil_append _
  intro full
  rw [stopAfter, hplan] at hloops
  by_cases hroom : full.length ≤ maxChunks.toNat
  · rw [if_pos hroom] at hloops
    rw [Nat.min_eq_left (by omega), List.take_length]
    simp only [planChunks, assertPlannerOptions_ok h, if_neg hbounds, hloops]
    exact congrArg Except.ok hplan
  · rw [if_neg hroom] at hloops
    rw [Nat.min_eq_right (by omega)]
    simp only [planChunks, assertPlannerOptions_ok h, if_neg hbounds, hloops]
    rfl

theorem sectionTexts_bounded (entry : NormalizedSection ν) :
    ∀ text ∈ sectionTexts maxChars overlapChars entry, trim text ≠ [] ∧ text.length ≤ maxChars := by
  rw [sectionTexts]
  by_cases hblank : (normalizeWhitespace entry.text).isEmpty = true
  · rw [if_pos hblank]
    exact fun text htext => absurd htext List.not_mem_nil
  · rw [if_neg hblank]
    refine splitLongText_bounded ?_
    rw [trim_normalizeWhitespace]
    exact isEmpty_of_not hblank

theorem reads_sectionTexts (hwindow : 1 ≤ maxChars - overlapChars) (entry : NormalizedSection ν) :
    Reads overlapChars [] (sectionTexts maxChars overlapChars entry)
      (solid (normalizeWhitespace entry.text)) := by
  rw [sectionTexts]
  by_cases hblank : (normalizeWhitespace entry.text).isEmpty = true
  · rw [if_pos hblank, List.isEmpty_iff.mp hblank]
    exact .nil
  · rw [if_neg hblank]
    exact reads_splitLongText hwindow _ _

/-- The chunks of a section: they read as its text, and there are some if it is not blank. -/
def IsCutOf (document : NormalizedDocument ν) (input : PlanChunksInput) (overlapChars : Nat)
    (entry : NormalizedSection ν) (chunks : List (EmbeddingChunk ν)) : Prop :=
  (∀ chunk ∈ chunks, chunk.source = sourceFromSection document entry input) ∧
    Reads overlapChars [] (chunks.map (·.text)) (solid (normalizeWhitespace entry.text)) ∧
    (normalizeWhitespace entry.text ≠ [] → chunks ≠ [])

theorem source_chunksFrom (entry : NormalizedSection ν) (texts : List JsString)
    (chunkOrdinal : Nat) : ∀ chunk ∈ chunksFrom numbers sha256Hex document input chunkOrdinal
      (texts.map fun text => (entry, text)),
        chunk.source = sourceFromSection document entry input := by
  induction texts generalizing chunkOrdinal with
  | nil => exact fun chunk hchunk => absurd hchunk List.not_mem_nil
  | cons text texts ih => exact List.forall_mem_cons.mpr ⟨rfl, ih _⟩

theorem chunksFrom_cut (hwindow : 1 ≤ maxChars - overlapChars)
    (sections : List (NormalizedSection ν)) (chunkOrdinal : Nat) :
    ∃ pieces : List (List (EmbeddingChunk ν)),
      chunksFrom numbers sha256Hex document input chunkOrdinal (sections.flatMap fun entry =>
        (sectionTexts maxChars overlapChars entry).map fun text => (entry, text)) =
          pieces.flatten ∧
        List.Forall₂ (IsCutOf document input overlapChars) sections pieces := by
  induction sections generalizing chunkOrdinal with
  | nil => exact ⟨[], rfl, .nil⟩
  | cons entry sections ih =>
      rw [List.flatMap_cons, chunksFrom_append]
      obtain ⟨pieces, hpieces, hcut⟩ := ih (chunkOrdinal +
        ((sectionTexts maxChars overlapChars entry).map fun text => (entry, text)).length)
      have htexts : (chunksFrom numbers sha256Hex document input chunkOrdinal
          ((sectionTexts maxChars overlapChars entry).map fun text => (entry, text))).map
            (·.text) = sectionTexts maxChars overlapChars entry := by
        rw [map_text_chunksFrom, List.map_map]
        exact List.map_id _
      have hreads := reads_sectionTexts hwindow entry
      rw [← htexts] at hreads
      refine ⟨_ :: pieces, by rw [hpieces, List.flatten_cons],
        .cons ⟨source_chunksFrom entry _ _, hreads, fun hsaid hnone => ?_⟩ hcut⟩
      have hsolid : solid (normalizeWhitespace entry.text) ≠ [] := by
        rw [Ne, ← trim_eq_nil_iff, trim_normalizeWhitespace]
        exact hsaid
      exact hreads.ne_nil hsolid (by rw [hnone]; rfl)

/-- **What the planner guarantees.** -/
structure LosslessPlan (numbers : Json.NumberText ν) (sha256Hex : JsString → JsString)
    (document : NormalizedDocument ν) (input : PlanChunksInput) (options : ChunkPlannerOptions)
    (full : List (EmbeddingChunk ν)) : Prop where
  bounded : ∀ chunk ∈ full, trim chunk.text ≠ [] ∧ chunk.text.length ≤ options.maxChars.toNat
  /-- The chunks come section after section. -/
  cut : ∃ pieces : List (List (EmbeddingChunk ν)), full = pieces.flatten ∧
    List.Forall₂ (IsCutOf document input options.overlapChars.toNat) document.sections pieces
  ordinals : full.map (·.chunkOrdinal) = List.range' 1 full.length
  limited : ∀ maxChunks : Int, 1 ≤ maxChunks → maxChunks ≤ maxSafeInteger →
    planChunks numbers sha256Hex document input options maxChunks =
      .ok (full.take (min full.length (maxChunks.toNat + 1)))
  /-- The limit of a document rejects the longer plans and no others. -/
  prepared : ∀ (provider : EmbeddingProvider ν) (indexing : IndexDocumentOptions)
    (maxChunks batchSize : Nat),
    indexing.chunkPlannerOptions.getD defaultChunkPlannerOptions = options →
    boundedOption indexing.maxChunksPerDocument maxChunksPerDocument maxChunksPerDocument
      (js "maxChunksPerDocument") = .ok maxChunks →
    boundedOption indexing.embeddingBatchSize maxEmbeddingBatchSize maxEmbeddingBatchSize
      (js "embeddingBatchSize") = .ok batchSize →
    prepareDocumentEmbeddings numbers sha256Hex document input provider indexing =
      if maxChunks < full.length then
        rejected (maxChunks + 1) (chunkLimitError (maxChunks + 1) maxChunks)
      else Embeddings.prepared full (embedPlan provider batchSize indexing.now full)

theorem boundedOption_ok {value : Option Int} {fallback maximum resolved : Nat} {name : JsString}
    (h : boundedOption value fallback maximum name = .ok resolved) :
    1 ≤ resolved ∧ resolved ≤ maximum := by
  rw [boundedOption] at h
  split_ifs at h with hbounds
  have hresolved : (value.getD fallback).toNat = resolved := Except.ok.inj h
  omega

/-- **The chunk planner is lossless and bounded.** -/
theorem fullPlan_lossless (numbers : Json.NumberText ν) (sha256Hex : JsString → JsString)
    (document : NormalizedDocument ν) (input : PlanChunksInput) (options : ChunkPlannerOptions)
    (h : ValidPolicy options) : LosslessPlan numbers sha256Hex document input options
      (fullPlan numbers sha256Hex document input options.maxChars.toNat
        options.overlapChars.toNat) := by
  have hwindow : 1 ≤ options.maxChars.toNat - options.overlapChars.toNat := by
    obtain ⟨⟨hlow, -⟩, hpos, hhalf⟩ := h
    omega
  constructor
  case bounded =>
    intro chunk hchunk
    have htext : chunk.text ∈ (document.sections.flatMap fun entry => (sectionTexts
        options.maxChars.toNat options.overlapChars.toNat entry).map fun text =>
          (entry, text)).map Prod.snd := by
      rw [← @map_text_chunksFrom _ numbers sha256Hex document input _ 1]
      exact List.mem_map_of_mem hchunk
    obtain ⟨⟨entry, text⟩, hplanned, rfl⟩ := List.mem_map.mp htext
    obtain ⟨entry, -, hmem⟩ := List.mem_flatMap.mp hplanned
    obtain ⟨text', htext', hpair⟩ := List.mem_map.mp hmem
    obtain ⟨rfl, rfl⟩ := Prod.mk.inj hpair
    exact sectionTexts_bounded _ _ htext'
  case cut => exact chunksFrom_cut hwindow document.sections 1
  case ordinals => rw [fullPlan, map_ordinal_chunksFrom, length_chunksFrom]
  case limited => exact fun maxChunks hpos hsafe => planChunks_eq h hpos hsafe
  case prepared =>
    intro provider indexing maxChunks batchSize hoptions hmax hbatch
    obtain ⟨hpos, hlimit⟩ := boundedOption_ok hmax
    have hsafe : ((maxChunks : Nat) : Int) ≤ maxSafeInteger := by
      have hconstants : maxChunksPerDocument ≤ maxSafeInteger := by decide
      omega
    have hone : 1 ≤ (maxChunks : Int) := by omega
    have hplan := @planChunks_eq _ numbers sha256Hex document input _ h _ hone hsafe
    rw [Int.toNat_natCast] at hplan
    generalize fullPlan numbers sha256Hex document input options.maxChars.toNat
      options.overlapChars.toNat = full at hplan ⊢
    by_cases hover : maxChunks < full.length
    · have hlength : (full.take (min full.length (maxChunks + 1))).length = maxChunks + 1 := by
        rw [List.length_take]
        omega
      simp only [prepareDocumentEmbeddings, hmax, hbatch, hoptions, hplan, hlength]
      rw [if_pos (Nat.lt_succ_self _), if_pos hover]
    · have htake : full.take (min full.length (maxChunks + 1)) = full :=
        List.take_of_length_le (by omega)
      simp only [prepareDocumentEmbeddings, hmax, hbatch, hoptions, hplan, htake]
      rw [if_neg hover, if_neg hover]

end Prepare

/-! ## A sample -/

/-- Numbers that are natural numbers, in decimal digits. -/
def sampleNumbers : Json.NumberText Unit where
  text _ := js "0"
  injective _ _ _ := rfl
  units _ := List.all_eq_true.mp (by decide : (js "0").all Json.isNumberUnit = true)
  nonempty _ := by decide

def sampleSection : NormalizedSection Unit where
  heading := some (js "Requisitos")
  sectionType := .section
  sectionPath := [js "Tasas", js "Requisitos"]
  text := js "Solicitud firmada. " ++ [0x0a, 0x0a] ++ js "Copia del documento" ++
    js " de identificacion y recibo."
  pageStart := none
  pageEnd := none
  articleNumber := none
  citationLabel := some (js "Tasas > Requisitos")
  metadata := []

def sampleDocument : NormalizedDocument Unit where
  title := js "Reglamento"
  sourceFormat := .markdown
  text := sampleSection.text
  sections := [sampleSection]
  metadata := []

example : (fullPlan sampleNumbers id sampleDocument ⟨js "reglamento", js "v1"⟩ 32 8).map (·.text) =
    [js "Solicitud firmada.", js "Copia del documento de identific",
      js "dentificacion y recibo."] := by decide +kernel

theorem fullPlan_lossless_sample : LosslessPlan sampleNumbers id sampleDocument
    ⟨js "reglamento", js "v1"⟩ ⟨32, 8⟩
      (fullPlan sampleNumbers id sampleDocument ⟨js "reglamento", js "v1"⟩ 32 8) :=
  fullPlan_lossless sampleNumbers id sampleDocument ⟨js "reglamento", js "v1"⟩ ⟨32, 8⟩
    (by unfold ValidPolicy; decide)

end Embeddings
