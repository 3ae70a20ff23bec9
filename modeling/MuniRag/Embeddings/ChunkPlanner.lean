import MuniRag.Api.DerivedIds
import MuniRag.Documents.Normalize

/-!
# The chunk planner

A section is cut into chunks of at most `maxChars` units: paragraphs are packed while they fit,
and a paragraph that is too long is sliced with an overlap.  Nothing of a section is lost,
and a limit on the number of chunks cuts the plan off one chunk later.
-/

namespace Embeddings

open Documents

/-! ## Sources and chunks -/

structure EmbeddingSource (ν : Type) where
  documentKey : JsString
  documentTitle : JsString
  documentVersion : JsString
  sourceFormat : SourceFormat
  sectionPath : List JsString
  sectionType : SectionType
  pageStart : Option ν
  pageEnd : Option ν
  articleNumber : Option JsString
  citationLabel : Option JsString

structure ChunkMetadata (ν : Type) where
  documentMetadata : Metadata ν
  sourcePath : Option JsString
  sourceFormat : SourceFormat
  sectionMetadata : Metadata ν
  planner : JsString

structure EmbeddingChunk (ν : Type) where
  chunkId : JsString
  chunkOrdinal : Nat
  text : JsString
  contentSha256 : JsString
  tokenEstimate : Nat
  source : EmbeddingSource ν
  metadata : ChunkMetadata ν

structure PlanChunksInput where
  documentKey : JsString
  documentVersion : JsString
  deriving DecidableEq, Repr

/-- Numbers that are no integers fail the check in the same way as negative ones. -/
structure ChunkPlannerOptions where
  maxChars : Int
  overlapChars : Int
  deriving DecidableEq, Repr

structure EmbeddingPipelineError where
  code : JsString
  message : JsString
  retryable : Bool
  deriving DecidableEq, Repr

def defaultChunkPlannerOptions : ChunkPlannerOptions := ⟨1800, 180⟩

def maxSafeInteger : Nat := 2 ^ 53 - 1

/-! ## Identity of chunks -/

section Identity

variable {ν : Type} (numbers : Json.NumberText ν)

/-- `?? ""` in front of `join`. -/
def numberOrEmpty (n : Option ν) : JsString := (n.map numbers.text).getD []

def buildChunkIdentityInput (source : EmbeddingSource ν) (contentSha256 : JsString)
    (chunkOrdinal : Nat) : JsString :=
  (js "|").intercalate
    [source.documentKey, source.documentVersion, (js "/").intercalate source.sectionPath,
      source.sectionType.text, source.citationLabel.getD [], numberOrEmpty numbers source.pageStart,
      numberOrEmpty numbers source.pageEnd, source.articleNumber.getD [], contentSha256,
      Api.numberText chunkOrdinal]

def buildChunkId (sha256Hex : JsString → JsString) (source : EmbeddingSource ν)
    (contentSha256 : JsString) (chunkOrdinal : Nat) : JsString :=
  sha256Hex (buildChunkIdentityInput numbers source contentSha256 chunkOrdinal)

end Identity

/-! ## Splitting a text -/

/-- `.split(/\n{2,}/)`, in or after a separator. -/
def splitParagraphs : Bool → JsString → List JsString
  | _, [] => [[]]
  | inSeparator, u :: rest =>
      if u = 0x0a ∧ inSeparator then splitParagraphs true rest
      else if u = 0x0a ∧ rest.head? = some 0x0a then [] :: splitParagraphs true rest
      else (splitParagraphs false rest).modifyHead (u :: ·)

/-- The loop over the start positions; `rest` is the paragraph from the position on. -/
def slices (maxChars step : Nat) : Nat → JsString → List JsString
  | 0, _ => []
  | _, [] => []
  | fuel + 1, rest =>
      let chunk := trim (rest.take maxChars)
      if chunk.isEmpty then slices maxChars step fuel (rest.drop step)
      else chunk :: slices maxChars step fuel (rest.drop step)

/-- The loop over the paragraphs, with the pending chunk. -/
def packParagraphs (maxChars overlapChars : Nat) : List JsString → JsString → List JsString
  | [], current => if current.isEmpty then [] else [current]
  | paragraph :: rest, current =>
      let candidate :=
        if current.isEmpty then paragraph else current ++ [0x0a, 0x0a] ++ paragraph
      if candidate.length ≤ maxChars then packParagraphs maxChars overlapChars rest candidate
      else
        (if current.isEmpty then [] else [current]) ++
          if paragraph.length ≤ maxChars then packParagraphs maxChars overlapChars rest paragraph
          else slices maxChars (max 1 (maxChars - overlapChars)) paragraph.length paragraph ++
            packParagraphs maxChars overlapChars rest []

def splitLongText (text : JsString) (maxChars overlapChars : Nat) : List JsString :=
  if text.length ≤ maxChars then [text]
  else packParagraphs maxChars overlapChars
    (((splitParagraphs false text).map trim).filter fun part => !part.isEmpty) []

/-! ## The plan -/

def plannerPolicyError (message : JsString) : EmbeddingPipelineError where
  code := js "chunk_planner_policy_invalid"
  message := message
  retryable := false

def assertPlannerOptions (options : ChunkPlannerOptions) : Except EmbeddingPipelineError Unit :=
  if options.maxChars < 32 ∨ options.maxChars > 1000000 then
    .error (plannerPolicyError (js "maxChars must be an integer between 32 and 1000000."))
  else if options.overlapChars < 0 ∨ options.overlapChars ≥ options.maxChars ∨
      options.overlapChars > options.maxChars / 2 then
    .error (plannerPolicyError
      (js "overlapChars must be an integer between 0 and half of maxChars."))
  else .ok ()

section Plan

variable {ν : Type} (numbers : Json.NumberText ν) (sha256Hex : JsString → JsString)

def sourceFromSection (document : NormalizedDocument ν) (entry : NormalizedSection ν)
    (input : PlanChunksInput) : EmbeddingSource ν where
  documentKey := input.documentKey
  documentTitle := document.title
  documentVersion := input.documentVersion
  sourceFormat := document.sourceFormat
  sectionPath := entry.sectionPath
  sectionType := entry.sectionType
  pageStart := entry.pageStart
  pageEnd := entry.pageEnd
  articleNumber := entry.articleNumber
  citationLabel := entry.citationLabel

/-- `Math.ceil(text.length / 4)`. -/
def estimateTokens (text : JsString) : Nat := (text.length + 3) / 4

/-- `typeof document.metadata.sourcePath === "string" ? … : null`. -/
def sourcePathOf (metadata : Metadata ν) : Option JsString :=
  match metadata.lookup (js "sourcePath") with
  | some (.string path) => some path
  | _ => none

/-- The chunk that is pushed. -/
def chunkOf (document : NormalizedDocument ν) (entry : NormalizedSection ν)
    (input : PlanChunksInput) (text : JsString) (chunkOrdinal : Nat) : EmbeddingChunk ν :=
  let source := sourceFromSection document entry input
  let contentSha256 := sha256Hex text
  { chunkId := buildChunkId numbers sha256Hex source contentSha256 chunkOrdinal
    chunkOrdinal
    text
    contentSha256
    tokenEstimate := estimateTokens text
    source
    metadata :=
      { documentMetadata := document.metadata
        sourcePath := sourcePathOf document.metadata
        sourceFormat := document.sourceFormat
        sectionMetadata := entry.metadata
        planner := js "section_text_v1" } }

/-- What the loops carry: the chunks and `chunkOrdinal`. -/
structure Progress (ν : Type) where
  chunks : List (EmbeddingChunk ν)
  chunkOrdinal : Nat

/-- The inner loop; `error` is the early return. -/
def pushTexts (document : NormalizedDocument ν) (input : PlanChunksInput) (maxChunks : Nat)
    (entry : NormalizedSection ν) :
    List JsString → Progress ν → Except (List (EmbeddingChunk ν)) (Progress ν)
  | [], progress => .ok progress
  | text :: rest, progress =>
      let chunks := progress.chunks ++
        [chunkOf numbers sha256Hex document entry input text progress.chunkOrdinal]
      if chunks.length > maxChunks then .error chunks
      else pushTexts document input maxChunks entry rest ⟨chunks, progress.chunkOrdinal + 1⟩

/-- The outer loop. -/
def planSections (document : NormalizedDocument ν) (input : PlanChunksInput)
    (maxChars overlapChars maxChunks : Nat) :
    List (NormalizedSection ν) → Progress ν → Except (List (EmbeddingChunk ν)) (Progress ν)
  | [], progress => .ok progress
  | entry :: rest, progress =>
      let sectionText := normalizeWhitespace entry.text
      if sectionText.isEmpty then
        planSections document input maxChars overlapChars maxChunks rest progress
      else do
        let progress ← pushTexts numbers sha256Hex document input maxChunks entry
          (splitLongText sectionText maxChars overlapChars) progress
        planSections document input maxChars overlapChars maxChunks rest progress

def planChunks (document : NormalizedDocument ν) (input : PlanChunksInput)
    (options : ChunkPlannerOptions) (maxChunks : Int) :
    Except EmbeddingPipelineError (List (EmbeddingChunk ν)) := do
  assertPlannerOptions options
  if maxChunks < 1 ∨ maxChunks > maxSafeInteger then
    .error
      { code := js "embedding_resource_policy_invalid"
        message := js "maxChunks must be a positive safe integer."
        retryable := false }
  else
    match planSections numbers sha256Hex document input options.maxChars.toNat
        options.overlapChars.toNat maxChunks.toNat document.sections ⟨[], 1⟩ with
    | .ok progress => .ok progress.chunks
    | .error chunks => .ok chunks

end Plan

end Embeddings
