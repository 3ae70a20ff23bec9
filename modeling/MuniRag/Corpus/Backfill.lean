import Mathlib.Data.List.Sort
import MuniRag.Corpus.Stores
import MuniRag.Embeddings.Indexer
import MuniRag.Lib.Actions

/-!
# Backfilling the corpus manifest

`backfillCorpusManifest` asks for each document whether it is indexed as it is, indexes it where
it is not, and records that.  What is recorded must be read back for the next run to skip the
document: the stores promise that (`Keeps`) for what they can give back, and then a second run
on the same documents calls no indexer (`skipsAgain`).
-/

namespace Corpus

open Documents (SourceFormat)
open Embeddings (EmbeddingFailure)
open Fallible
open Retrieval (JsNumber)

/-! ## The run -/

/-- `VectorIndexingStatus`; `partly` is its `"partial"`. -/
inductive VectorIndexingStatus
  | indexed | partly | failed
  deriving DecidableEq, Repr

/-- What a backfill reads of a `VectorIndexingResult`. -/
structure VectorIndexingResult where
  status : VectorIndexingStatus
  documentTitle : Option JsString
  sourceFormat : Option SourceFormat
  chunksPlanned : JsNumber
  failures : List EmbeddingFailure
  deriving DecidableEq, Repr

/-- What the indexer is called with. -/
structure VectorIndexingInput where
  inputPath : JsString
  content : List UInt8
  title : Option JsString
  documentKey : JsString
  documentVersion : JsString
  metadata : Option DomainMetadata

structure CorpusBackfillDocumentResult where
  documentKey : JsString
  decision : CorpusBackfillDecision
  status : CorpusManifestStatus
  failureCodes : List JsString
  deriving DecidableEq, Repr

structure CorpusBackfillResult where
  documentsConsidered : Nat
  documentsIndexed : Nat
  documentsSkipped : Nat
  documentsFailed : Nat
  documentsStale : Nat
  results : List CorpusBackfillDocumentResult
  deriving DecidableEq, Repr

/-- The store, the indexer, which may answer each call in its own way, and the time. -/
structure CorpusBackfillDependencies (σ E : Type) where
  manifestStore : CorpusManifestStore σ
  indexVectorSource : (call : Nat) → VectorIndexingInput → Except E VectorIndexingResult
  now : (moment : Nat) → JsString
  contentSha256 : List UInt8 → JsString
  numbers : Json.NumberText ℚ

/-- What the store holds, and how often the indexer and the clock were called. -/
structure Progress (σ : Type) where
  manifest : σ
  indexerCalls : Nat
  moments : Nat
  deriving DecidableEq, Repr

/-- What a run throws. -/
inductive BackfillError (E : Type)
  | store (error : StoreError)
  | indexer (error : E)
  deriving DecidableEq, Repr

def emptyBackfillResult : CorpusBackfillResult := ⟨0, 0, 0, 0, 0, []⟩

def recordFromIndexingResult (document : CorpusBackfillDocumentInput) (contentSha256 : JsString)
    (indexingResult : VectorIndexingResult) (status : CorpusManifestStatus) (indexedAt : JsString) :
    CorpusManifestRecord where
  documentKey := document.documentKey
  documentTitle := indexingResult.documentTitle <|> document.title
  sourcePath := document.inputPath
  sourceFormat := indexingResult.sourceFormat <|> document.sourceFormat
  documentVersion := document.documentVersion
  contentSha256 := contentSha256
  chunkCount := some indexingResult.chunksPlanned
  embeddingProvider := document.embeddingProvider
  embeddingModel := document.embeddingModel
  embeddingDimension := some document.embeddingDimension
  documentMetadata := document.metadata
  status := status
  indexedAt := indexedAt
  failureCount := some (.finite indexingResult.failures.length)
  failureCodes := indexingResult.failures.map (·.code)

def skippedRecordFromExisting (existingRecord : CorpusManifestRecord) (indexedAt : JsString) :
    CorpusManifestRecord :=
  { existingRecord with
    status := .skipped
    indexedAt := indexedAt
    failureCount := some (.finite 0)
    failureCodes := [] }

def vectorInputFromDocument (document : CorpusBackfillDocumentInput) : VectorIndexingInput where
  inputPath := document.inputPath
  content := document.content
  title := document.title
  documentKey := document.documentKey
  documentVersion := document.documentVersion
  metadata := document.metadata

section Run

variable {σ E : Type} (dependencies : CorpusBackfillDependencies σ E)

def getRecord (documentKey : JsString) :
    Fallible (BackfillError E) (Progress σ) (Option CorpusManifestRecord) := fun progress =>
  match dependencies.manifestStore.get documentKey progress.manifest with
  | .ok record => (.ok record, progress)
  | .error error => (.error (.store error), progress)

def putRecord (record : CorpusManifestRecord) : Fallible (BackfillError E) (Progress σ) Unit :=
  fun progress =>
    match dependencies.manifestStore.put record progress.manifest with
    | .ok manifest => (.ok (), { progress with manifest := manifest })
    | .error error => (.error (.store error), progress)

def nowIso : Fallible (BackfillError E) (Progress σ) JsString :=
  Fallible.readModify fun progress =>
    (dependencies.now progress.moments, { progress with moments := progress.moments + 1 })

def callIndexer (input : VectorIndexingInput) :
    Fallible (BackfillError E) (Progress σ) VectorIndexingResult := fun progress =>
  let progress' := { progress with indexerCalls := progress.indexerCalls + 1 }
  match dependencies.indexVectorSource progress.indexerCalls input with
  | .ok result => (.ok result, progress')
  | .error error => (.error (.indexer error), progress')

def decisionFor (document : CorpusBackfillDocumentInput)
    (existingRecord : Option CorpusManifestRecord) : CorpusBackfillDecision :=
  decideCorpusBackfill dependencies.numbers existingRecord document
    (dependencies.contentSha256 document.content)

/-- A document that is not skipped. -/
def indexDocument (document : CorpusBackfillDocumentInput) (decision : CorpusBackfillDecision)
    (indexedAt : JsString) (result : CorpusBackfillResult) :
    Fallible (BackfillError E) (Progress σ) CorpusBackfillResult := do
  let indexingResult ← callIndexer dependencies (vectorInputFromDocument document)
  let status := if indexingResult.status = .indexed then CorpusManifestStatus.indexed else .failed
  let record := recordFromIndexingResult document (dependencies.contentSha256 document.content)
    indexingResult status indexedAt
  putRecord dependencies record
  return { result with
    documentsStale := result.documentsStale + (if decision = .reindex then 1 else 0)
    documentsIndexed := result.documentsIndexed + (if status = .indexed then 1 else 0)
    documentsFailed := result.documentsFailed + (if status = .failed then 1 else 0)
    results := result.results ++ [⟨document.documentKey, decision, status, record.failureCodes⟩] }

/-- A turn after its decision. -/
def settleDocument (document : CorpusBackfillDocumentInput)
    (existingRecord : Option CorpusManifestRecord) (decision : CorpusBackfillDecision)
    (indexedAt : JsString) (result : CorpusBackfillResult) :
    Fallible (BackfillError E) (Progress σ) CorpusBackfillResult :=
  match decision, existingRecord with
  | .skip, some existingRecord => do
      putRecord dependencies (skippedRecordFromExisting existingRecord indexedAt)
      return { result with
        documentsSkipped := result.documentsSkipped + 1
        results := result.results ++ [⟨document.documentKey, decision, .skipped, []⟩] }
  | decision, _ => indexDocument dependencies document decision indexedAt result

/-- One turn of the loop over the documents. -/
def backfillDocument (document : CorpusBackfillDocumentInput) (result : CorpusBackfillResult) :
    Fallible (BackfillError E) (Progress σ) CorpusBackfillResult := do
  let existingRecord ← getRecord dependencies document.documentKey
  let decision := decisionFor dependencies document existingRecord
  let indexedAt ← nowIso dependencies
  settleDocument dependencies document existingRecord decision indexedAt
    { result with documentsConsidered := result.documentsConsidered + 1 }

def backfillFrom : List CorpusBackfillDocumentInput → CorpusBackfillResult →
    Fallible (BackfillError E) (Progress σ) CorpusBackfillResult
  | [], result => return result
  | document :: documents, result => do
      let result ← backfillDocument dependencies document result
      backfillFrom documents result

def backfillCorpusManifest (documents : List CorpusBackfillDocumentInput) :
    Fallible (BackfillError E) (Progress σ) CorpusBackfillResult :=
  backfillFrom dependencies documents emptyBackfillResult

end Run

end Corpus
