import MuniRag.Ingestion.Identity
import MuniRag.Lib.Table

/-!
# The ingestion tables

The rows of documents, artifact objects, scans, jobs and vectors as migrations
005, 007 and 011 leave them, and the conditions under which a scan proves an
object.  Jobs are those of type `document_vector_index_v1` and vectors those of
contract version 1.  Tenants and principals are never deleted and every call
comes from an authenticated principal, so the foreign keys to them always hold
and are not checked again; a UUID text that is none is refused before any
statement, so the calls take the UUIDs themselves.
-/

namespace Ingestion

open Results

/-- `rag.ingestion_status`. -/
inductive IngestionStatus
  | queued
  | processing
  | processed
  | failed
  | superseded
  deriving DecidableEq, Repr

/-- `rag.document_status`. -/
inductive DocumentStatus
  | active
  | superseded
  | repealed
  | draft
  | archived
  | unknown
  deriving DecidableEq, Repr

/-- A document; `documentKey` is `metadata ->> 'document_key'`. -/
structure DocumentRow where
  id : Uuid
  tenantId : Uuid
  status : DocumentStatus
  title : JsString
  documentKey : Option JsString
  deriving DecidableEq, Repr

structure VersionRow where
  id : Uuid
  tenantId : Uuid
  documentId : Uuid
  versionLabel : JsString
  contentSha256 : JsString
  extractionStatus : IngestionStatus
  extractionMethod : Option JsString
  extractedAt : Option Time
  deriving DecidableEq, Repr

/-- `ArtifactObjectReference`. -/
structure ArtifactObjectReference where
  storeName : JsString
  objectNamespace : JsString
  objectKey : JsString
  objectVersion : JsString
  deriving DecidableEq, Repr

inductive ObjectStatus
  | scanning
  | accepted
  | rejected
  | superseded
  deriving DecidableEq, Repr

structure ObjectRow where
  id : Uuid
  tenantId : Uuid
  documentVersionId : Uuid
  registeredByPrincipalId : Uuid
  reference : ArtifactObjectReference
  originalFilename : JsString
  declaredMediaType : JsString
  expectedSha256 : Sha256
  inspectionGeneration : Nat
  status : ObjectStatus
  acceptedScanId : Option Uuid
  acceptedUntil : Option Time
  createdAt : Time
  updatedAt : Time
  deriving DecidableEq, Repr

inductive Verdict
  | clean
  | infected
  | rejected
  | error
  deriving DecidableEq, Repr

structure ScanRow where
  id : Uuid
  tenantId : Uuid
  artifactObjectId : Uuid
  inspectionGeneration : Nat
  inspectedByPrincipalId : Uuid
  verdict : Verdict
  contentSha256 : Option Sha256
  byteLength : Option Int
  detectedMediaType : Option JsString
  structuralSignature : Option JsString
  inspectedAt : Time
  scannerEngine : JsString
  scannerEngineVersion : JsString
  scannerDefinitionsVersion : Option JsString
  malwareSignature : Option JsString
  failureCode : Option JsString
  createdAt : Time
  deriving DecidableEq, Repr

structure JobRow where
  id : Uuid
  tenantId : Uuid
  documentVersionId : Uuid
  requestedByPrincipalId : Uuid
  idempotencyKeySha256 : Sha256
  requestSha256 : Sha256
  artifactSha256 : Sha256
  pipelineConfigSha256 : Sha256
  workSha256 : Sha256
  pipelineConfig : PipelineConfig
  status : IngestionStatus
  attemptCount : Nat
  maxAttempts : Nat
  availableAt : Time
  startedAt : Option Time
  finishedAt : Option Time
  leaseOwnerSha256 : Option Sha256
  leaseTokenSha256 : Option Sha256
  leaseExpiresAt : Option Time
  heartbeatAt : Option Time
  artifactObjectId : Option Uuid
  artifactScanId : Option Uuid
  lastErrorCode : Option JsString
  lastErrorRetryable : Option Bool
  createdAt : Time
  updatedAt : Time
  deriving DecidableEq, Repr

/-- The columns of a vector that its chunk gives. -/
structure VectorValues where
  chunkId : JsString
  documentKey : JsString
  documentVersion : JsString
  documentTitle : JsString
  citationLabel : JsString
  pageStart : Option Int
  pageEnd : Option Int
  articleNumber : Option JsString
  sourceType : JsString
  sectionPath : List JsString
  sectionType : JsString
  chunkOrdinal : Int
  chunkText : JsString
  contentSha256 : JsString
  tokenEstimate : Int
  embeddingModel : JsString
  embeddingProvider : JsString
  embeddingDimension : Int
  embeddingLiteral : JsString
  metadata : JsString
  deriving DecidableEq, Repr

structure VectorRow where
  tenantId : Uuid
  documentVersionId : Uuid
  ingestionJobId : Uuid
  values : VectorValues
  deriving DecidableEq, Repr

structure Tables where
  documents : List DocumentRow
  versions : List VersionRow
  objects : List ObjectRow
  scans : List ScanRow
  jobs : List JobRow
  vectors : List VectorRow

def Tables.empty : Tables where
  documents := []
  versions := []
  objects := []
  scans := []
  jobs := []
  vectors := []

/-- A job, an object and a version are addressed by `(tenant_id, id)`. -/
abbrev Key := Uuid × Uuid

def JobRow.key (job : JobRow) : Key := (job.tenantId, job.id)

/-- The version a job publishes. -/
def JobRow.version (job : JobRow) : Key := (job.tenantId, job.documentVersionId)

def VersionRow.key (version : VersionRow) : Key := (version.tenantId, version.id)
def ObjectRow.key (object : ObjectRow) : Key := (object.tenantId, object.id)
def ObjectRow.version (object : ObjectRow) : Key := (object.tenantId, object.documentVersionId)
def ScanRow.object (scan : ScanRow) : Key := (scan.tenantId, scan.artifactObjectId)
def VectorRow.version (vector : VectorRow) : Key := (vector.tenantId, vector.documentVersionId)

def raiseUnless (c : Prop) [Decidable c] (message : String) : Except Refusal Unit :=
  require c (.database message)

theorem raiseUnless_ok {c : Prop} [Decidable c] {message : String} {done : Unit} :
    raiseUnless c message = .ok done ↔ c := require_ok

/-! ## Documents -/

/-- The version of a key whose document is active: what every statement that
joins `rag.documents` reads. -/
def Tables.activeVersion? (tables : Tables) (key : Key) : Option (VersionRow × DocumentRow) :=
  tables.versions.findSome? fun version =>
    if version.key = key then
      (tables.documents.find? fun document =>
        document.id = version.documentId ∧ document.tenantId = version.tenantId ∧
          document.status = .active).map (version, ·)
    else none

theorem activeVersion?_some {tables : Tables} {key : Key} {found : VersionRow × DocumentRow}
    (h : tables.activeVersion? key = some found) :
    found.1 ∈ tables.versions ∧ found.1.key = key ∧ found.2 ∈ tables.documents ∧
      found.2.id = found.1.documentId ∧ found.2.tenantId = found.1.tenantId ∧
      found.2.status = .active := by
  obtain ⟨version, hversion, hfound⟩ := List.exists_of_findSome?_eq_some h
  split_ifs at hfound with hkey
  obtain ⟨document, hdocument, rfl⟩ := Option.map_eq_some_iff.mp hfound
  have hmatches := List.find?_some hdocument
  simp only [decide_eq_true_eq] at hmatches
  exact ⟨hversion, hkey, List.mem_of_find?_eq_some hdocument, hmatches⟩

/-! ## What proves an accepted object -/

def sevenDays : Time := 7 * 24 * 60 * 60 * 1000

/-- **Proof of an object.**  The scan is the one the object was accepted for,
it found the exact expected bytes of the current inspection generation clean,
and the acceptance ends after the inspection and within seven days of it. -/
structure ObjectRow.ProvenBy (object : ObjectRow) (scan : ScanRow) : Prop where
  reference : object.acceptedScanId = some scan.id
  target : scan.object = object.key
  verdict : scan.verdict = .clean
  generation : scan.inspectionGeneration = object.inspectionGeneration
  content : scan.contentSha256 = some object.expectedSha256
  mediaType : scan.detectedMediaType = some object.declaredMediaType
  window : ∃ expiry ∈ object.acceptedUntil,
    scan.inspectedAt < expiry ∧ expiry ≤ scan.inspectedAt + sevenDays

instance (object : ObjectRow) (scan : ScanRow) : Decidable (object.ProvenBy scan) :=
  decidable_of_iff
    (object.acceptedScanId = some scan.id ∧ scan.object = object.key ∧ scan.verdict = .clean ∧
      scan.inspectionGeneration = object.inspectionGeneration ∧
      scan.contentSha256 = some object.expectedSha256 ∧
      scan.detectedMediaType = some object.declaredMediaType ∧
      ∃ expiry ∈ object.acceptedUntil,
        scan.inspectedAt < expiry ∧ expiry ≤ scan.inspectedAt + sevenDays)
    ⟨fun ⟨h1, h2, h3, h4, h5, h6, h7⟩ => ⟨h1, h2, h3, h4, h5, h6, h7⟩,
      fun ⟨h1, h2, h3, h4, h5, h6, h7⟩ => ⟨h1, h2, h3, h4, h5, h6, h7⟩⟩

/-- `status = 'accepted' AND accepted_until > now`. -/
def ObjectRow.acceptedAt (object : ObjectRow) (now : Time) : Bool :=
  decide (object.status = .accepted) && object.acceptedUntil.any (now < ·)

/-- The accepted objects of a version with the scans that prove them at `now`,
as the lease, the publication and the search join them. -/
def Tables.acceptances (tables : Tables) (version : Key) (expectedSha256 : Sha256) (now : Time) :
    List (ObjectRow × ScanRow) :=
  (tables.objects.filter fun object =>
      object.version = version ∧ object.expectedSha256 = expectedSha256 ∧
        object.acceptedAt now = true).flatMap fun object =>
    (tables.scans.filter fun scan => object.ProvenBy scan).map (object, ·)

theorem mem_acceptances {tables : Tables} {version : Key} {expectedSha256 : Sha256} {now : Time}
    {object : ObjectRow} {scan : ScanRow} :
    (object, scan) ∈ tables.acceptances version expectedSha256 now ↔
      object ∈ tables.objects ∧ object.version = version ∧
        object.expectedSha256 = expectedSha256 ∧ object.acceptedAt now = true ∧
        scan ∈ tables.scans ∧ object.ProvenBy scan := by
  simp only [Tables.acceptances, List.mem_flatMap, List.mem_map, List.mem_filter,
    decide_eq_true_eq, Prod.mk.injEq]
  constructor
  · rintro ⟨_, ⟨hobject, hversion, hsha, haccepted⟩, _, ⟨hscan, hproven⟩, rfl, rfl⟩
    exact ⟨hobject, hversion, hsha, haccepted, hscan, hproven⟩
  · rintro ⟨hobject, hversion, hsha, haccepted, hscan, hproven⟩
    exact ⟨object, ⟨hobject, hversion, hsha, haccepted⟩, scan, ⟨hscan, hproven⟩, rfl, rfl⟩

/-! ## The extraction status of a version -/

/-- `UPDATE_DOCUMENT_VERSION_SQL`. -/
def VersionRow.assign (version : VersionRow) (status : IngestionStatus) (now : Time) :
    VersionRow :=
  { version with
    extractionStatus := status
    extractionMethod :=
      if status = .processed then some (js "tenant_ingestion_job_v1") else version.extractionMethod
    extractedAt := if status = .processed then some now else version.extractedAt }

/-- `UPDATE_DOCUMENT_VERSION_SQL` with the check that it found its one row. -/
def updateDocumentVersion (tables : Tables) (version : Key) (status : IngestionStatus)
    (now : Time) (missing : Refusal) : Except Refusal Tables := do
  require (∃ row ∈ tables.versions, row.key = version) missing
  pure { tables with
    versions := Table.updateWhere (·.key = version) (·.assign status now) tables.versions }

@[simp] theorem VersionRow.assign_key (version : VersionRow) (status : IngestionStatus)
    (now : Time) : (version.assign status now).key = version.key := rfl

@[simp] theorem VersionRow.assign_status (version : VersionRow) (status : IngestionStatus)
    (now : Time) : (version.assign status now).extractionStatus = status := rfl

theorem updateDocumentVersion_ok {tables out : Tables} {version : Key} {status : IngestionStatus}
    {now : Time} {missing : Refusal} :
    updateDocumentVersion tables version status now missing = .ok out ↔
      (∃ row ∈ tables.versions, row.key = version) ∧
        out = { tables with
          versions := Table.updateWhere (·.key = version) (·.assign status now)
            tables.versions } := by
  simp only [updateDocumentVersion, then_ok, require_ok, return_ok]
  constructor
  · rintro ⟨_, hfound, rfl⟩
    exact ⟨hfound, rfl⟩
  · rintro ⟨hfound, rfl⟩
    exact ⟨(), hfound, rfl⟩

end Ingestion
