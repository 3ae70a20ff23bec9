import Mathlib.Data.List.Sort
import MuniRag.Api.CanonicalJson
import MuniRag.Documents.Normalize
import MuniRag.Lib.JsMap
import MuniRag.Lib.JsValue
import MuniRag.Retrieval.Dedupe

/-!
# The corpus manifest

The records of `corpusManifest.ts`, its two stores and `decideCorpusBackfill`.  The in-memory
store keeps a record as it is; the file store writes it as JSON, and a parser that refuses a
blank key reads the whole file at every call.  A file is the list of the records that JSON gives
back, none where there is no file.  The sorting of the file is by the collation of the platform.
-/

namespace Corpus

open Documents (SourceFormat)
open Retrieval (JsNumber)

/-! ## Records -/

/-- `CorpusManifestStatus`. -/
inductive CorpusManifestStatus
  | indexed | skipped | stale | failed
  deriving DecidableEq, Repr

/-- `DomainDocumentMetadata`, an object of any members. -/
abbrev DomainMetadata := List (JsString × JsValue JsNumber)

/-- `CorpusManifestRecord`; a number is missing where the file has `null` for it. -/
structure CorpusManifestRecord where
  documentKey : JsString
  documentTitle : Option JsString
  sourcePath : JsString
  sourceFormat : Option SourceFormat
  documentVersion : JsString
  contentSha256 : JsString
  chunkCount : Option JsNumber
  embeddingProvider : JsString
  embeddingModel : JsString
  embeddingDimension : Option JsNumber
  documentMetadata : Option DomainMetadata
  status : CorpusManifestStatus
  indexedAt : JsString
  failureCount : Option JsNumber
  failureCodes : List JsString

def isFinite : JsNumber → Bool
  | .finite _ => true
  | _ => false

def storedNumber (number : Option JsNumber) : Option JsNumber := number.filter isFinite

/-- The record that comes back of what is written of it. -/
def throughJson (record : CorpusManifestRecord) : CorpusManifestRecord :=
  { record with
    chunkCount := storedNumber record.chunkCount
    embeddingDimension := storedNumber record.embeddingDimension
    documentMetadata := record.documentMetadata.map (JsValue.storedMembers isFinite)
    failureCount := storedNumber record.failureCount }

theorem throughJson_throughJson (record : CorpusManifestRecord) :
    throughJson (throughJson record) = throughJson record := by
  have hnumber : ∀ number, storedNumber (storedNumber number) = storedNumber number := by
    intro number
    simp [storedNumber, Option.filter_filter]
  simp only [throughJson, hnumber, Option.map_map, CorpusManifestRecord.mk.injEq, true_and, and_true]
  cases record.documentMetadata with
  | none => rfl
  | some members => exact congrArg some (JsValue.storedMembers_storedMembers members)

/-- `trim().length === 0`. -/
def isBlank (key : JsString) : Bool := (trim key).isEmpty

/-- A record that the file store keeps as it is and can read again. -/
structure Storable (record : CorpusManifestRecord) : Prop where
  json : throughJson record = record
  key : isBlank record.documentKey = false

/-! ## Stores -/

/-- What a store can throw: `CorpusManifestFileError`. -/
inductive StoreError
  | invalidFile (message : JsString)
  deriving DecidableEq, Repr

/-- `CorpusManifestStore`, over the states `σ`. -/
structure CorpusManifestStore (σ : Type) where
  get : JsString → σ → Except StoreError (Option CorpusManifestRecord)
  put : CorpusManifestRecord → σ → Except StoreError σ
  list : σ → Except StoreError (List CorpusManifestRecord)

/-- The map of `InMemoryCorpusManifestStore`. -/
abbrev ManifestMap := JsMap JsString CorpusManifestRecord

/-- `new InMemoryCorpusManifestStore(initialRecords)`. -/
def ManifestMap.of (initialRecords : List CorpusManifestRecord) : ManifestMap :=
  JsMap.ofEntries (initialRecords.map fun record => (record.documentKey, record))

def inMemoryCorpusManifestStore : CorpusManifestStore ManifestMap where
  get documentKey records := .ok (JsMap.get records documentKey)
  put record records := .ok (JsMap.set records record.documentKey record)
  list records := .ok (JsMap.values records)

/-- The records of a file, which JSON gives back as they are. -/
abbrev ManifestFile :=
  Option {records : List CorpusManifestRecord // ∀ record ∈ records, throughJson record = record}

def ManifestFile.records (file : ManifestFile) : List CorpusManifestRecord :=
  (file.map Subtype.val).getD []

section FileStore

variable (collation : CanonicalJson.Collation)

def sortManifestRecords (records : List CorpusManifestRecord) : List CorpusManifestRecord :=
  records.insertionSort fun left right =>
    collation.localeCompare left.documentKey right.documentKey ≠ .gt

/-- `readManifestFile`, with the checks of `validateCorpusManifestRecord`. -/
def readManifestFile (file : ManifestFile) : Except StoreError (List CorpusManifestRecord) :=
  if file.records.any (isBlank ·.documentKey) then
    .error (.invalidFile (js "Corpus manifest record documentKey must be a non-empty string."))
  else .ok (sortManifestRecords collation file.records)

/-- The file with these records. -/
def writeManifestFile (records : List CorpusManifestRecord) : ManifestFile :=
  some ⟨(sortManifestRecords collation records).map throughJson, by
    intro record hrecord
    obtain ⟨written, -, rfl⟩ := List.mem_map.mp hrecord
    exact throughJson_throughJson written⟩

def jsonFileCorpusManifestStore : CorpusManifestStore ManifestFile where
  get documentKey file := do
    let records ← readManifestFile collation file
    return records.find? (·.documentKey = documentKey)
  put record file := do
    let records ← readManifestFile collation file
    let others := records.filter (·.documentKey ≠ record.documentKey)
    return writeManifestFile collation (sortManifestRecords collation (others ++ [record]))
  list file := do
    let records ← readManifestFile collation file
    return sortManifestRecords collation records

end FileStore

/-! ## The decision -/

section Decision

variable (numbers : Json.NumberText ℚ)

/-- Lexicographic order of code units, that of `sort()`. -/
def sortByKey (entries : List (JsString × JsString)) : List (JsString × JsString) :=
  entries.insertionSort fun left right => ¬ right.1 < left.1

mutual

def stableJson : JsValue JsNumber → JsString
  | .undefined => js "undefined"
  | .null => js "null"
  | .bool b => if b then js "true" else js "false"
  | .number (.finite n) => numbers.text n
  | .number _ => js "null"
  | .text s => Json.quote s
  | .array items => js "[" ++ (js ",").intercalate (stableItems items) ++ js "]"
  | .object members => [0x7b] ++ (js ",").intercalate ((sortByKey (stableMembers members)).map
      fun member => Json.quote member.1 ++ js ":" ++ member.2) ++ [0x7d]
  | .date _ => [0x7b, 0x7d]

def stableItems : List (JsValue JsNumber) → List JsString
  | [] => []
  | item :: items => stableJson item :: stableItems items

/-- The keys with the texts of their values. -/
def stableMembers : List (JsString × JsValue JsNumber) → List (JsString × JsString)
  | [] => []
  | (key, value) :: members => (key, stableJson value) :: stableMembers members

end

/-- `CorpusBackfillDocumentInput`, with the content as its bytes. -/
structure CorpusBackfillDocumentInput where
  inputPath : JsString
  title : Option JsString
  documentKey : JsString
  documentVersion : JsString
  sourceFormat : Option SourceFormat
  content : List UInt8
  embeddingProvider : JsString
  embeddingModel : JsString
  embeddingDimension : JsNumber
  metadata : Option DomainMetadata

/-- `CorpusBackfillDecision`. -/
inductive CorpusBackfillDecision
  | index | skip | reindex | retry
  deriving DecidableEq, Repr

/-- `metadata ?? null`. -/
def metadataValue (metadata : Option DomainMetadata) : JsValue JsNumber :=
  (metadata.map JsValue.object).getD .null

/-- `===` of a stored number and one that is given; `NaN` equals nothing. -/
def sameNumber (existing : Option JsNumber) (given : JsNumber) : Bool :=
  existing == some given && given ≠ .nan

/-- `decideCorpusBackfill`. -/
def decideCorpusBackfill (existingRecord : Option CorpusManifestRecord)
    (document : CorpusBackfillDocumentInput) (contentSha256 : JsString) : CorpusBackfillDecision :=
  match existingRecord with
  | none => .index
  | some existingRecord =>
      if existingRecord.status = .failed then .retry
      else if existingRecord.contentSha256 ≠ contentSha256 ∨
          existingRecord.documentVersion ≠ document.documentVersion ∨
          existingRecord.embeddingProvider ≠ document.embeddingProvider ∨
          existingRecord.embeddingModel ≠ document.embeddingModel ∨
          sameNumber existingRecord.embeddingDimension document.embeddingDimension = false ∨
          stableJson numbers (metadataValue existingRecord.documentMetadata) ≠
            stableJson numbers (metadataValue document.metadata) then .reindex
      else .skip

/-- What a record must say for its document to be skipped. -/
structure UpToDate (record : CorpusManifestRecord) (document : CorpusBackfillDocumentInput)
    (contentSha256 : JsString) : Prop where
  settled : record.status ≠ .failed
  content : record.contentSha256 = contentSha256
  version : record.documentVersion = document.documentVersion
  provider : record.embeddingProvider = document.embeddingProvider
  model : record.embeddingModel = document.embeddingModel
  dimension : sameNumber record.embeddingDimension document.embeddingDimension = true
  metadata : stableJson numbers (metadataValue record.documentMetadata) =
    stableJson numbers (metadataValue document.metadata)

variable {numbers} {existingRecord : Option CorpusManifestRecord}
  {document : CorpusBackfillDocumentInput} {contentSha256 : JsString}

theorem decideCorpusBackfill_skip_iff :
    decideCorpusBackfill numbers existingRecord document contentSha256 = .skip ↔
      ∃ record, existingRecord = some record ∧ UpToDate numbers record document contentSha256 := by
  cases existingRecord with
  | none => simp [decideCorpusBackfill]
  | some record =>
      simp only [decideCorpusBackfill, Option.some.injEq, exists_eq_left']
      constructor
      · intro h
        split_ifs at h with hfailed hchanged
        simp only [not_or, not_not, Bool.not_eq_false] at hchanged
        obtain ⟨hcontent, hversion, hprovider, hmodel, hdimension, hmetadata⟩ := hchanged
        exact ⟨hfailed, hcontent, hversion, hprovider, hmodel, hdimension, hmetadata⟩
      · rintro ⟨hsettled, hcontent, hversion, hprovider, hmodel, hdimension, hmetadata⟩
        rw [if_neg hsettled, if_neg]
        simp [hcontent, hversion, hprovider, hmodel, hdimension, hmetadata]

end Decision

end Corpus
