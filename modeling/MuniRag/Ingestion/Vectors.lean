import MuniRag.Ingestion.Database

/-!
# Publishing the vectors of a version

`TenantPgVectorRepository.replaceDocumentVersion`: the records a worker
prepared are checked against the scope of its job, written batch by batch, and
every vector of the version that another job published is deleted.
-/

namespace Ingestion

open Results

/-- `EmbeddingVectorRecord`.  The vector of floats is its literal, with its
length and whether all of its values are finite; `metadata` is its JSON text. -/
structure VectorRecord where
  chunkId : JsString
  documentKey : JsString
  documentVersion : JsString
  documentTitle : JsString
  sourceFormat : JsString
  sectionPath : List JsString
  sectionType : JsString
  pageStart : Option Int
  pageEnd : Option Int
  articleNumber : Option JsString
  citationLabel : Option JsString
  chunkOrdinal : Int
  text : JsString
  contentSha256 : JsString
  tokenEstimate : Int
  metadata : JsString
  embeddingLiteral : JsString
  embeddingLength : Int
  embeddingFinite : Bool
  embeddingModel : JsString
  embeddingProvider : JsString
  embeddingDimension : Int
  isEmbedded : Bool
  hasFailure : Bool
  deriving DecidableEq, Repr

/-- `LeasedDocumentIdentity`. -/
structure DocumentIdentity where
  documentKey : JsString
  documentTitle : JsString
  documentVersion : JsString
  deriving DecidableEq, Repr

/-- `TenantVectorScope`, from the pipeline configuration of the job. -/
structure VectorScope where
  tenantId : Uuid
  embeddingProvider : JsString
  embeddingModel : JsString
  embeddingDimension : Int
  deriving DecidableEq, Repr

def JobRow.vectorScope (job : JobRow) : VectorScope where
  tenantId := job.tenantId
  embeddingProvider := job.pipelineConfig.embeddingProvider
  embeddingModel := job.pipelineConfig.embeddingModel
  embeddingDimension := job.pipelineConfig.embeddingDimension

/-- `CONTROL_CHARACTER.test`. -/
def hasControlCharacter (text : JsString) : Bool := text.any isControl

def isBounded (text : JsString) (maximum : Nat) : Bool :=
  decide (1 ≤ text.length ∧ text.length ≤ maximum)

/-- A bounded text without control characters. -/
def isPlain (text : JsString) (maximum : Nat) : Bool :=
  isBounded text maximum && !hasControlCharacter text

/-- `JSON.stringify` of texts without control characters. -/
def jsonTexts (texts : List JsString) : JsString :=
  [0x5b] ++ List.intercalate [0x2c] (texts.map fun text =>
    jsonText (text.flatMap fun u => if u == 0x22 || u == 0x5c then [0x5c, u] else [u])) ++ [0x5d]

/-- `embeddingRecordToPgVectorValues`. -/
def VectorRecord.columns (record : VectorRecord) : VectorValues where
  chunkId := record.chunkId
  documentKey := record.documentKey
  documentVersion := record.documentVersion
  documentTitle := record.documentTitle
  citationLabel := trim (record.citationLabel.getD [])
  pageStart := record.pageStart
  pageEnd := record.pageEnd
  articleNumber := record.articleNumber
  sourceType := record.sourceFormat
  sectionPath := record.sectionPath
  sectionType := record.sectionType
  chunkOrdinal := record.chunkOrdinal
  chunkText := record.text
  contentSha256 := record.contentSha256
  tokenEstimate := record.tokenEstimate
  embeddingModel := record.embeddingModel
  embeddingProvider := record.embeddingProvider
  embeddingDimension := record.embeddingDimension
  embeddingLiteral := record.embeddingLiteral
  metadata := record.metadata

/-- The bounds that `valuesFor` puts on the columns. -/
def VectorValues.isShaped (values : VectorValues) : Bool :=
  isPlain values.chunkId 512 && isComponent 511 values.documentKey &&
    isPlain values.documentVersion 256 && isPlain values.documentTitle 1000 &&
    isPlain values.citationLabel 2000 && isComponent 63 values.sourceType &&
    isComponent 63 values.sectionType && decide (1 ≤ values.chunkOrdinal) &&
    decide (1 ≤ values.tokenEstimate) && isBounded values.chunkText 1048576 &&
    values.chunkText.all (· != 0) && values.articleNumber.all (isPlain · 256) &&
    values.pageStart.all (1 ≤ ·) && values.pageEnd.all (1 ≤ ·) &&
    (values.pageStart.all fun first => values.pageEnd.all (first ≤ ·)) &&
    values.sectionPath.all (isPlain · 1000)

/-- `valuesFor`, with the checks of `embeddingRecordToPgVectorValues`. -/
def valuesFor (scope : VectorScope) (record : VectorRecord) : Except Refusal VectorValues := do
  require (record.embeddingLength = scope.embeddingDimension)
    (.vectors "vector_dimension_mismatch" "Expected vector dimension 1536.")
  require (trim (record.citationLabel.getD []) ≠ [])
    (.vectors "missing_citation_label" "Embedding chunks must have citation labels.")
  require (record.embeddingFinite = true)
    (.vectors "invalid_vector_value" "Vector contains non-finite values.")
  require (isSha256Hex record.columns.contentSha256 = true)
    (.vectors "invalid_content_sha256" "Vector content digest must be lowercase SHA-256 hex.")
  require (record.columns.isShaped = true)
    (.vectors "vector_record_shape_invalid"
      "Prepared vector record violates the bounded persistence shape.")
  require (utf8Length record.metadata ≤ 262144)
    (.vectors "vector_metadata_too_large" "Vector metadata exceeds the bounded persistence limit.")
  require (utf8Length (jsonTexts record.sectionPath) ≤ 65536)
    (.vectors "vector_section_path_too_large"
      "Vector section path exceeds the bounded persistence limit.")
  pure record.columns

/-- Whether a prepared record belongs to the leased job. -/
def VectorRecord.inScope (record : VectorRecord) (scope : VectorScope)
    (identity : DocumentIdentity) : Bool :=
  record.isEmbedded && !record.hasFailure && record.documentKey == identity.documentKey &&
    record.documentTitle == identity.documentTitle &&
    record.documentVersion == identity.documentVersion &&
    record.embeddingProvider == scope.embeddingProvider &&
    record.embeddingModel == scope.embeddingModel &&
    record.embeddingDimension == scope.embeddingDimension

/-- The loop that prepares the records. -/
def prepareVectors (scope : VectorScope) (identity : DocumentIdentity) :
    List JsString → List VectorRecord → Except Refusal (List VectorValues)
  | _, [] => pure []
  | chunkIds, record :: records => do
      require (record.inScope scope identity = true)
        (.vectors "vector_record_scope_mismatch"
          "Prepared vector does not match the leased job scope.")
      require (record.chunkId ∉ chunkIds)
        (.vectors "duplicate_vector_chunk" "Prepared vectors contain a duplicate chunk identity.")
      let values ← valuesFor scope record
      let rest ← prepareVectors scope identity (record.chunkId :: chunkIds) records
      pure (values :: rest)

/-- One row of the batch upsert, after the conflict lookup. -/
def upsertVector (vectors : List VectorRow) (new : VectorRow) : List VectorRow :=
  if ∃ row ∈ vectors, row.tenantId = new.tenantId ∧ row.values.chunkId = new.values.chunkId then
    Table.updateWhere
      (fun row => row.tenantId = new.tenantId ∧ row.values.chunkId = new.values.chunkId)
      (fun _ => new) vectors
  else vectors ++ [new]

/-- The batches of upserts; each conflict lookup refuses a chunk of another
version. -/
def upsertVectors : List VectorRow → List VectorRow → Except Refusal (List VectorRow)
  | vectors, [] => pure vectors
  | vectors, new :: rest => do
      require (∀ row ∈ vectors, row.tenantId = new.tenantId →
          row.values.chunkId = new.values.chunkId → row.documentVersionId = new.documentVersionId)
        (.vectors "vector_chunk_identity_conflict"
          "Vector chunk identity is already bound to a different document generation.")
      upsertVectors (upsertVector vectors new) rest

/-- `DELETE_STALE_SQL`. -/
def deleteStale (vectors : List VectorRow) (job : JobRow) : List VectorRow :=
  vectors.filter fun row => ¬ (row.version = job.version ∧ row.ingestionJobId ≠ job.id)

def JobRow.vector (job : JobRow) (values : VectorValues) : VectorRow where
  tenantId := job.tenantId
  documentVersionId := job.documentVersionId
  ingestionJobId := job.id
  values := values

def replaceDocumentVersion (vectors : List VectorRow) (job : JobRow) (identity : DocumentIdentity)
    (records : List VectorRecord) : Except Refusal (List VectorRow) := do
  let scope := job.vectorScope
  require (isComponent 127 scope.embeddingProvider = true ∧
      isComponent 127 scope.embeddingModel = true)
    (.vectors "vector_scope_invalid" "Embedding provider and model identifiers are invalid.")
  require (scope.embeddingDimension = defaultVectorDimension)
    (.vectors "vector_dimension_mismatch" "Tenant vector persistence requires dimension 1536.")
  require (isComponent 511 identity.documentKey = true ∧ isPlain identity.documentTitle 1000 = true ∧
      isPlain identity.documentVersion 256 = true)
    (.vectors "vector_document_identity_invalid"
      "Vector replacement requires a bounded canonical document identity.")
  require (1 ≤ records.length ∧ records.length ≤ 5000)
    (.vectors "vector_record_count_invalid"
      "Vector replacement requires between 1 and 5000 records.")
  let values ← prepareVectors scope identity [] records
  let written ← upsertVectors vectors (values.map job.vector)
  pure (deleteStale written job)

/-! ## What a replacement leaves -/

/-- The vectors of a version. -/
def published (vectors : List VectorRow) (version : Key) : List VectorRow :=
  vectors.filter (·.version = version)

theorem mem_published {vectors : List VectorRow} {version : Key} {row : VectorRow} :
    row ∈ published vectors version ↔ row ∈ vectors ∧ row.version = version := by
  simp [published]

theorem mem_upsertVector {vectors : List VectorRow} {new row : VectorRow}
    (h : row ∈ upsertVector vectors new) : row = new ∨ row ∈ vectors := by
  rw [upsertVector] at h
  split_ifs at h with hfound
  · rcases Table.mem_updateWhere.mp h with ⟨_, _, _, rfl⟩ | ⟨hrow, -⟩
    · exact .inl rfl
    · exact .inr hrow
  · rcases List.mem_append.mp h with hrow | hnew
    · exact .inr hrow
    · exact .inl (List.mem_singleton.mp hnew)

theorem new_mem_upsertVector (vectors : List VectorRow) (new : VectorRow) :
    new ∈ upsertVector vectors new := by
  rw [upsertVector]
  split_ifs with hfound
  · obtain ⟨old, hold, hsame⟩ := hfound
    exact Table.mem_updateWhere.mpr (.inl ⟨old, hold, hsame, rfl⟩)
  · exact List.mem_append_right _ (List.mem_singleton_self new)

/-- A row of another version is kept, and nothing else becomes one. -/
theorem mem_upsertVector_other {vectors : List VectorRow} {new row : VectorRow}
    (hfree : ∀ old ∈ vectors, old.tenantId = new.tenantId →
      old.values.chunkId = new.values.chunkId → old.documentVersionId = new.documentVersionId)
    (hrow : row.version ≠ new.version) : row ∈ upsertVector vectors new ↔ row ∈ vectors := by
  constructor
  · intro h
    rcases mem_upsertVector h with rfl | hmem
    · exact absurd rfl hrow
    · exact hmem
  · intro hmem
    rw [upsertVector]
    split_ifs
    · refine Table.mem_updateWhere.mpr (.inr ⟨hmem, fun hsame => hrow ?_⟩)
      exact Prod.ext hsame.1 (hfree row hmem hsame.1 hsame.2)
    · exact List.mem_append_left _ hmem

/-- The upserts of rows of one version leave the other versions alone, and the
last row they write is there. -/
theorem upsertVectors_ok {rows vectors out : List VectorRow} {version : Key}
    (hrows : ∀ row ∈ rows, row.version = version) (h : upsertVectors vectors rows = .ok out) :
    (∀ row : VectorRow, row.version ≠ version → (row ∈ out ↔ row ∈ vectors)) ∧
      ∀ last ∈ rows.getLast?, last ∈ out := by
  induction rows generalizing vectors with
  | nil =>
      obtain rfl := return_ok.mp h
      exact ⟨fun _ _ => Iff.rfl, by simp⟩
  | cons new rest ih =>
      simp only [upsertVectors, then_ok, require_ok] at h
      obtain ⟨_, hfree, hrest⟩ := h
      obtain ⟨hnew, hrows⟩ := List.forall_mem_cons.mp hrows
      obtain ⟨hother, hlast⟩ := ih hrows hrest
      refine ⟨fun row hrow => ?_, ?_⟩
      · rw [hother row hrow]
        exact mem_upsertVector_other hfree (by rwa [hnew])
      · cases rest with
        | nil =>
            obtain rfl := return_ok.mp hrest
            simpa using new_mem_upsertVector vectors new
        | cons next rest => simpa [List.getLast?_cons_cons] using hlast

theorem prepareVectors_length {scope : VectorScope} {identity : DocumentIdentity}
    {records : List VectorRecord} {chunkIds : List JsString} {values : List VectorValues}
    (h : prepareVectors scope identity chunkIds records = .ok values) :
    values.length = records.length := by
  induction records generalizing chunkIds values with
  | nil =>
      obtain rfl := return_ok.mp h
      rfl
  | cons record records ih =>
      simp only [prepareVectors, then_ok, return_ok] at h
      obtain ⟨_, _, _, _, _, _, rest, hrest, rfl⟩ := h
      simp [ih hrest]

/-- **Replacement.**  The version has vectors afterwards, all of them published
by the job, and no other version has lost or gained any. -/
theorem replaceDocumentVersion_ok {vectors out : List VectorRow} {job : JobRow}
    {identity : DocumentIdentity} {records : List VectorRecord}
    (h : replaceDocumentVersion vectors job identity records = .ok out) :
    published out job.version ≠ [] ∧
      (∀ row ∈ published out job.version, row.ingestionJobId = job.id) ∧
      ∀ version, version ≠ job.version →
        ∀ row, row ∈ published out version ↔ row ∈ published vectors version := by
  simp only [replaceDocumentVersion, then_ok, require_ok, return_ok] at h
  obtain ⟨_, _, _, _, _, _, _, hcount, values, hvalues, written, hwritten, rfl⟩ := h
  have hrows : ∀ row ∈ values.map job.vector, row.version = job.version := by
    intro row hrow
    obtain ⟨_, _, rfl⟩ := List.mem_map.mp hrow
    rfl
  obtain ⟨hother, hlast⟩ := upsertVectors_ok hrows hwritten
  refine ⟨?_, ?_, ?_⟩
  · have hlength : values.length = records.length := prepareVectors_length hvalues
    cases hvector : (values.map job.vector).getLast? with
    | none =>
        rw [List.getLast?_eq_none_iff, List.map_eq_nil_iff] at hvector
        rw [hvector] at hlength
        exact absurd hcount.1 (by simp [← hlength])
    | some vector =>
        obtain ⟨value, -, hvalue⟩ := List.mem_map.mp (List.mem_of_getLast? hvector)
        have hmem : vector ∈ published (deleteStale written job) job.version := by
          rw [mem_published, deleteStale, List.mem_filter]
          refine ⟨⟨hlast vector hvector, ?_⟩, ?_⟩
          · simp [← hvalue, JobRow.vector]
          · rw [← hvalue]
            rfl
        exact List.ne_nil_of_mem hmem
  · intro row hrow
    rw [mem_published, deleteStale, List.mem_filter] at hrow
    obtain ⟨⟨_, hkept⟩, hversion⟩ := hrow
    by_contra hjob
    exact absurd hkept (by simp [hversion, hjob])
  · intro version hversion row
    rw [mem_published, mem_published, deleteStale, List.mem_filter]
    constructor
    · rintro ⟨⟨hmem, -⟩, rfl⟩
      exact ⟨(hother row hversion).mp hmem, rfl⟩
    · rintro ⟨hmem, rfl⟩
      exact ⟨⟨(hother row hversion).mpr hmem, by simp [hversion]⟩, rfl⟩

end Ingestion
