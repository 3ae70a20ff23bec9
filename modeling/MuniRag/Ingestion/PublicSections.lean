import MuniRag.Ingestion.Backlog
import MuniRag.SearchEvidence.Candidates

/-!
# The public sections of a version

`projectPublicSections` copies the vectors of an accepted version to `rag.document_sections`, where
the public search reads them: it counts the vectors, refuses a version with sections of another
kind, deletes the projections of before, inserts a section for each vector and counts again, in one
transaction.  Transactions of any number of calls for one version go on at once, a statement of one
after a statement of another, and the corpus may change between two statements.  Each statement
sees what is committed when it begins, and a delete waits for the transaction that has deleted the
row already.  No constraint of the table keeps two projections of a version apart.
-/

namespace PublicSections

open Ingestion Runs
open scoped List

/-! ## The vectors that are projected -/

structure SourceRow where
  id : Uuid
  tenantId : Uuid
  acquisitionState : SearchEvidence.AcquisitionState
  ingestionState : SearchEvidence.SourceIngestionState
  retrievalState : SearchEvidence.SourceRetrievalState
  deriving DecidableEq, Repr

/-- The columns of a document that the search of `Ingestion.Tables` does not read. -/
structure DocumentPlace where
  id : Uuid
  tenantId : Uuid
  sourceId : Uuid
  confidentiality : SearchEvidence.Confidentiality
  deriving DecidableEq, Repr

/-- What the statements read of the other tables, and the time. -/
structure Corpus where
  tables : Tables
  places : List DocumentPlace
  sources : List SourceRow
  now : Time

def SourceRow.isIndexed (source : SourceRow) : Prop :=
  source.acquisitionState = .acquired ∧ source.ingestionState = .ingested ∧
    source.retrievalState = .indexed

instance (source : SourceRow) : Decidable source.isIndexed :=
  inferInstanceAs (Decidable (_ ∧ _ ∧ _))

/-- The document of the version is public and comes from an indexed source. -/
def Corpus.isPublic (corpus : Corpus) (version : Key) : Prop :=
  ∃ row ∈ corpus.tables.versions, row.key = version ∧
    ∃ place ∈ corpus.places, place.id = row.documentId ∧ place.tenantId = row.tenantId ∧
      place.confidentiality = .isPublic ∧
      ∃ source ∈ corpus.sources, source.id = place.sourceId ∧
        source.tenantId = place.tenantId ∧ source.isIndexed

instance (corpus : Corpus) (version : Key) : Decidable (corpus.isPublic version) :=
  inferInstanceAs (Decidable (∃ row ∈ corpus.tables.versions, _))

/-- `length(trim(text)) > 0`. -/
def hasText (text : JsString) : Bool := text.any fun u => u != 0x20

/-- The rows of the joins of `ELIGIBILITY_SQL` and `INSERT_PROJECTION_SQL`. -/
def Corpus.eligible (corpus : Corpus) (version : Key) : List VectorRow :=
  (corpus.tables.searchHits version corpus.now).filter fun vector =>
    decide (corpus.isPublic version) && hasText vector.values.citationLabel &&
      hasText vector.values.chunkText

/-- The jobs that the vectors come from. -/
def jobsOf (vectors : List VectorRow) : List Uuid := (vectors.map (·.ingestionJobId)).dedup

/-! ## Sections -/

def publicSectionProjection : JsString := js "embedding_vectors_to_document_sections_v1"

/-- The metadata of a section: those of the vector, and what the projection puts into them. -/
structure SectionMetadata where
  vectorMetadata : JsString
  projection : JsString
  chunkId : JsString
  sourceType : JsString
  sectionPath : List JsString
  ingestionJobId : Uuid
  deriving DecidableEq, Repr

structure SectionContent where
  sectionLabel : JsString
  sectionNumber : Option JsString
  title : JsString
  ordinalPath : List Int
  citationLabel : JsString
  pageStart : Option Int
  pageEnd : Option Int
  content : JsString
  contentSha256 : JsString
  metadata : SectionMetadata
  deriving DecidableEq, Repr

/-- The columns that `INSERT_PROJECTION_SQL` selects. -/
def sectionOf (vector : VectorRow) : SectionContent where
  sectionLabel := vector.values.citationLabel
  sectionNumber := vector.values.articleNumber
  title := vector.values.documentTitle
  ordinalPath := [vector.values.chunkOrdinal]
  citationLabel := vector.values.citationLabel
  pageStart := vector.values.pageStart
  pageEnd := vector.values.pageEnd
  content := vector.values.chunkText
  contentSha256 := vector.values.contentSha256
  metadata :=
    { vectorMetadata := vector.values.metadata
      projection := publicSectionProjection
      chunkId := vector.values.chunkId
      sourceType := vector.values.sourceType
      sectionPath := vector.values.sectionPath
      ingestionJobId := vector.ingestionJobId }

/-- A projected section; its id is fresh, the call that inserted it with a number. -/
structure SectionRow (ι : Type) where
  id : ι × Nat
  content : SectionContent
  deriving DecidableEq, Repr

def SectionRow.owner {ι : Type} (row : SectionRow ι) : ι := row.id.1

/-- The sections that a call inserts. -/
def generation {ι : Type} (i : ι) (vectors : List VectorRow) : List (SectionRow ι) :=
  vectors.mapIdx fun place vector => ⟨(i, place), sectionOf vector⟩

/-! ## Calls -/

inductive Thrown
  | noGeneration
  | nonProjected
  | incomplete
  | database
  deriving DecidableEq, Repr

/-- `PublicSectionProjectionResult`, without the ids of the request. -/
structure Result where
  vectorCount : Nat
  sectionCount : Nat
  deletedProjectionCount : Nat
  deriving DecidableEq, Repr

/-- Where a call is.  A delete has a snapshot of rows still to delete; `vectors` are those that
were inserted. -/
inductive Phase (ι : Type)
  | counting
  | checking (vectorCount : Nat)
  | preparing (vectorCount : Nat)
  | deleting (vectorCount : Nat) (remaining deleted : List (ι × Nat))
  | verifying (vectorCount : Nat) (deleted : List (ι × Nat)) (vectors : List VectorRow)
  | committing (result : Result) (deleted : List (ι × Nat)) (vectors : List VectorRow)
  | returned (result : Result) (vectors : List VectorRow)
  | unheard (vectors : List VectorRow)
  | thrown (error : Thrown)

section Phases

variable {ι : Type}

/-- The rows that the transaction of the call has deleted. -/
def Phase.deleted : Phase ι → List (ι × Nat)
  | .deleting _ _ deleted | .verifying _ deleted _ | .committing _ deleted _ => deleted
  | _ => []

/-- The rows that it has deleted or is about to. -/
def Phase.snapshot : Phase ι → List (ι × Nat)
  | .deleting _ remaining deleted => remaining ++ deleted
  | phase => phase.deleted

/-- The vectors that a committed call has projected. -/
def Phase.published : Phase ι → Option (List VectorRow)
  | .returned _ vectors | .unheard vectors => some vectors
  | _ => none

/-- The call is over. -/
def Phase.hasEnded : Phase ι → Bool
  | .returned _ _ | .unheard _ | .thrown _ => true
  | _ => false

end Phases

/-- What happens to a request: nothing bad, the transaction is lost with it, or the reply is lost
after a commit. -/
inductive Fault
  | none
  | lost
  | unheard
  deriving DecidableEq, Repr

/-- `others` counts the sections of the version that are no projections. -/
structure World (ι : Type) where
  corpus : Corpus
  others : Nat
  sections : List (SectionRow ι)
  locked : ι × Nat → Option ι
  phases : ι → Phase ι

inductive Event (ι : Type)
  | corpusChanges (corpus : Corpus)
  | othersChange (others : Nat)
  | request (i : ι) (fault : Fault)

/-- What the runs record: what a call counted, what it inserted, that it found as many sections as
vectors, and that it committed. -/
inductive Entry (ι : Type)
  | counted (i : ι) (vectors : List VectorRow)
  | inserted (i : ι) (vectors : List VectorRow)
  | verified (i : ι)
  | committed (i : ι)

namespace World

variable {ι : Type} [DecidableEq ι]

def opening (corpus : Corpus) (others : Nat) : World ι where
  corpus := corpus
  others := others
  sections := []
  locked := fun _ => none
  phases := fun _ => .counting

def put (world : World ι) (i : ι) (phase : Phase ι) : World ι :=
  { world with phases := Function.update world.phases i phase }

/-- The locks of a transaction that ends. -/
def release (world : World ι) (i : ι) : World ι :=
  { world with locked := fun id => if world.locked id = some i then none else world.locked id }

def fail (world : World ι) (i : ι) (error : Thrown) : World ι :=
  (world.release i).put i (.thrown error)

/-- The sections that a transaction sees which has deleted some and inserted none. -/
def visible (world : World ι) (deleted : List (ι × Nat)) : List (SectionRow ι) :=
  world.sections.filter fun row => row.id ∉ deleted

/-- A row of the snapshot is deleted, unless it is gone; the lock of another transaction makes the
statement wait. -/
def deleteNext (world : World ι) (i : ι) (vectorCount : Nat) (id : ι × Nat)
    (remaining deleted : List (ι × Nat)) : World ι :=
  if world.locked id ≠ none then world
  else if id ∈ world.sections.map (·.id) then
    { world with locked := Function.update world.locked id (some i) }.put i
      (.deleting vectorCount remaining (id :: deleted))
  else world.put i (.deleting vectorCount remaining deleted)

def commit (world : World ι) (i : ι) (deleted : List (ι × Nat)) (vectors : List VectorRow)
    (phase : Phase ι) : World ι :=
  { world.release i with sections := world.visible deleted ++ generation i vectors }.put i phase

/-- The next statement of a call. -/
def proceed (version : Key) (world : World ι) (i : ι) : World ι :=
  match world.phases i with
  | .counting =>
      let vectors := world.corpus.eligible version
      if vectors.length < 1 ∨ (jobsOf vectors).length ≠ 1 then world.fail i .noGeneration
      else world.put i (.checking vectors.length)
  | .checking vectorCount =>
      if world.others ≠ 0 then world.fail i .nonProjected
      else world.put i (.preparing vectorCount)
  | .preparing vectorCount =>
      world.put i (.deleting vectorCount (world.sections.map (·.id)) [])
  | .deleting vectorCount (id :: remaining) deleted =>
      world.deleteNext i vectorCount id remaining deleted
  | .deleting vectorCount [] deleted =>
      world.put i (.verifying vectorCount deleted (world.corpus.eligible version))
  | .verifying vectorCount deleted vectors =>
      let sectionCount := (world.visible deleted).length + vectors.length
      if vectors.length ≠ vectorCount ∨ sectionCount ≠ vectorCount then world.fail i .incomplete
      else world.put i (.committing ⟨vectorCount, sectionCount, deleted.length⟩ deleted vectors)
  | .committing result deleted vectors =>
      world.commit i deleted vectors (.returned result vectors)
  | _ => world

def step (version : Key) (world : World ι) : Event ι → World ι
  | .corpusChanges corpus => { world with corpus := corpus }
  | .othersChange others => { world with others := others }
  | .request i .none => world.proceed version i
  | .request i fault =>
      if (world.phases i).hasEnded then world
      else
        match fault, world.phases i with
        | .unheard, .committing _ deleted vectors =>
            world.commit i deleted vectors (.unheard vectors)
        | _, _ => world.fail i .database

/-- What a statement records. -/
def recorded (version : Key) (world : World ι) (i : ι) : Option (Entry ι) :=
  match world.phases i with
  | .counting =>
      let vectors := world.corpus.eligible version
      if vectors.length < 1 ∨ (jobsOf vectors).length ≠ 1 then none
      else some (.counted i vectors)
  | .deleting _ [] _ => some (.inserted i (world.corpus.eligible version))
  | .verifying vectorCount deleted vectors =>
      let sectionCount := (world.visible deleted).length + vectors.length
      if vectors.length ≠ vectorCount ∨ sectionCount ≠ vectorCount then none
      else some (.verified i)
  | .committing _ _ _ => some (.committed i)
  | _ => none

def entry (version : Key) (world : World ι) : Event ι → Option (Entry ι)
  | .request i .none => world.recorded version i
  | .request i .unheard =>
      match world.phases i with
      | .committing _ _ _ => some (.committed i)
      | _ => none
  | _ => none

end World

end PublicSections
