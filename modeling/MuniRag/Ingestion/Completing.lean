import MuniRag.Ingestion.Enqueueing

/-!
# Completing, statement by statement

`complete` as the transaction it is: the two row locks, the check of the
acceptance, for each batch of the vectors the conflict lookup and the upsert,
the deletion of the stale vectors and the two closing updates are steps of
their own.  Any number of completions run interleaved with each other and with
the other calls of the runtime; a statement that meets a row that another
transaction has locked or written waits for it.
-/

namespace Ingestion

open Results Table Runs

/-- `TenantVectorReplaceResult`. -/
structure ReplaceResult where
  insertedCount : Nat
  updatedCount : Nat
  unchangedCount : Nat
  deletedCount : Nat
  deriving DecidableEq, Repr

def ReplaceResult.zero : ReplaceResult where
  insertedCount := 0
  updatedCount := 0
  unchangedCount := 0
  deletedCount := 0

/-- `CompleteIngestionJobResult`. -/
structure CompleteAnswer where
  job : JobRow
  vectors : ReplaceResult
  deriving DecidableEq, Repr

/-! ## The vectors of a transaction -/

/-- The primary key of a vector. -/
def VectorRow.key (row : VectorRow) : Uuid × JsString := (row.tenantId, row.values.chunkId)

/-- The vectors that a transaction has written and deleted and not committed. -/
structure VectorDelta where
  written : List VectorRow
  deleted : List VectorRow
  deriving DecidableEq, Repr

namespace VectorDelta

def empty : VectorDelta where
  written := []
  deleted := []

def keys (delta : VectorDelta) : List (Uuid × JsString) :=
  (delta.written ++ delta.deleted).map (·.key)

/-- The table as the transaction sees it, and as its commit leaves it. -/
def apply (delta : VectorDelta) (vectors : List VectorRow) : List VectorRow :=
  (vectors.filter fun row => row.key ∉ delta.keys) ++ delta.written

end VectorDelta

def vectorWriteBatchSize : Nat := 64

/-- `buildBatchUpsertSql` writes a row of the batch: no row has its chunk, or
the one that does is of the version and differs in some column. -/
def VectorRow.upserts (vectors : List VectorRow) (new : VectorRow) : Prop :=
  ∀ old ∈ vectors, old.key = new.key → old.documentVersionId = new.documentVersionId ∧ old ≠ new

instance (vectors : List VectorRow) (new : VectorRow) : Decidable (new.upserts vectors) := by
  unfold VectorRow.upserts
  infer_instance

/-- The conflict lookup of a batch. -/
def existingBatch (vectors : List VectorRow) (job : JobRow) (batch : List VectorValues) :
    List VectorRow :=
  vectors.filter fun row => row.tenantId = job.tenantId ∧ row.values.chunkId ∈ batch.map (·.chunkId)

/-- The check of the rows that the conflict lookup has found. -/
def checkExisting (job : JobRow) (existing : List VectorRow) : Except Refusal (List JsString) := do
  require (∀ row ∈ existing, row.documentVersionId = job.documentVersionId)
    (.vectors "vector_chunk_identity_conflict"
      "Vector chunk identity is already bound to a different document generation.")
  pure (existing.map (·.values.chunkId))

/-- The loop that counts what has become of the chunks of a batch. -/
def countBatch (existingIds writtenIds : List JsString) :
    List JsString → ReplaceResult → Except Refusal ReplaceResult
  | [], result => pure result
  | chunkId :: chunkIds, result =>
      if chunkId ∈ writtenIds then
        if chunkId ∈ existingIds then
          countBatch existingIds writtenIds chunkIds
            { result with updatedCount := result.updatedCount + 1 }
        else
          countBatch existingIds writtenIds chunkIds
            { result with insertedCount := result.insertedCount + 1 }
      else if chunkId ∈ existingIds then
        countBatch existingIds writtenIds chunkIds
          { result with unchangedCount := result.unchangedCount + 1 }
      else
        throw (.vectors "vector_chunk_identity_conflict"
          "A concurrent vector chunk conflict prevented a complete generation.")

/-- What `replaceDocumentVersion` checks before its first statement. -/
def prepareReplacement (job : JobRow) (identity : DocumentIdentity)
    (records : List VectorRecord) : Except Refusal (List VectorValues) := do
  let scope := job.vectorScope
  require (isComponent 127 scope.embeddingProvider = true ∧
      isComponent 127 scope.embeddingModel = true)
    (.vectors "vector_scope_invalid" "Embedding provider and model identifiers are invalid.")
  require (scope.embeddingDimension = defaultVectorDimension)
    (.vectors "vector_dimension_mismatch" "Tenant vector persistence requires dimension 1536.")
  require (isComponent 511 identity.documentKey = true ∧ isPlain identity.documentTitle 1000 = true ∧
      isPlain identity.documentVersion 256 = true)
    (.vectors "vector_document_identity_invalid"
      "Vector replacement requires a bounded canonical document identity.")
  require (1 ≤ records.length ∧ records.length ≤ 5000)
    (.vectors "vector_record_count_invalid"
      "Vector replacement requires between 1 and 5000 records.")
  prepareVectors scope identity [] records

/-! ## A completion -/

/-- The next statement of a completion, with what it knows by then. -/
inductive CompleteStage
  | start
  | lockingVersion (job : JobRow)
  | lockingAcceptance (job : JobRow) (identity : DocumentIdentity)
  | selecting (job : JobRow) (rest : List VectorValues) (result : ReplaceResult)
  | upserting (job : JobRow) (rest : List VectorValues) (result : ReplaceResult)
      (existingIds : List JsString)
  | deletingStale (job : JobRow) (result : ReplaceResult)
  | completing (job : JobRow) (result : ReplaceResult)
  | updatingVersion (job : JobRow) (answer : CompleteAnswer)
  | committing (job : JobRow) (answer : CompleteAnswer) (assignedAt : Time)
  | done (answer : CompleteAnswer)
  | failed (refusal : Refusal)
  deriving DecidableEq, Repr

namespace CompleteStage

def ended : CompleteStage → Bool
  | .done _ | .failed _ => true
  | _ => false

/-- The job whose row the transaction has locked. -/
def lockedJob : CompleteStage → Option JobRow
  | .lockingVersion job | .lockingAcceptance job _ | .selecting job .. | .upserting job ..
  | .deletingStale job _ | .completing job _ | .updatingVersion job _ | .committing job .. =>
      some job
  | .start | .done _ | .failed _ => none

/-- The job for which the transaction has locked the row of the version. -/
def lockedVersion : CompleteStage → Option JobRow
  | .start | .lockingVersion _ | .done _ | .failed _ => none
  | stage => stage.lockedJob

end CompleteStage

structure CompleteSession where
  stage : CompleteStage
  delta : VectorDelta

def CompleteSession.opening : CompleteSession where
  stage := .start
  delta := .empty

def CompleteSession.refused (refusal : Refusal) : CompleteSession where
  stage := .failed refusal
  delta := .empty

/-- A completion that has committed: the job it has closed, the records it was
given and the counts it reports. -/
structure Completion where
  job : JobRow
  records : List VectorRecord
  vectors : ReplaceResult

/-- The tables and the completions on their way; `history` remembers what has
committed, the newest first. -/
structure CompleteWorld (ι : Type) where
  tables : Tables
  sessions : ι → CompleteSession
  history : List Completion

/-- A completion takes its next step at an instant, its next statement fails on
the server, or another component calls the runtime. -/
inductive CompleteEvent (ι : Type)
  | proceed (i : ι) (now : Time)
  | fault (i : ι) (message : String)
  | call (command : Command)

variable {ι : Type} [DecidableEq ι]

namespace CompleteWorld

def opening (ι : Type) : CompleteWorld ι where
  tables := .empty
  sessions := fun _ => .opening
  history := []

def put (world : CompleteWorld ι) (i : ι) (session : CompleteSession) : CompleteWorld ι :=
  { world with sessions := Function.update world.sessions i session }

theorem put_self (world : CompleteWorld ι) (i : ι) (session : CompleteSession) :
    (world.put i session).sessions i = session := Function.update_self ..

theorem put_other {i j : ι} (world : CompleteWorld ι) (session : CompleteSession) (h : j ≠ i) :
    (world.put i session).sessions j = world.sessions j := Function.update_of_ne h ..

def refuse (world : CompleteWorld ι) (i : ι) (refusal : Refusal) : CompleteWorld ι :=
  world.put i (.refused refusal)

/-- Another transaction has locked the row of the job. -/
def AwaitsJob [Fintype ι] (world : CompleteWorld ι) (i : ι) (job : JobRow) : Prop :=
  ∃ j, j ≠ i ∧ ∃ other ∈ (world.sessions j).stage.lockedJob, other.key = job.key

/-- Another transaction has locked the row of the version. -/
def AwaitsVersion [Fintype ι] (world : CompleteWorld ι) (i : ι) (job : JobRow) : Prop :=
  (world.tables.activeVersion? job.version).isSome = true ∧
    ∃ j, j ≠ i ∧ ∃ other ∈ (world.sessions j).stage.lockedVersion, other.version = job.version

/-- Another transaction has written or deleted a vector with one of the keys. -/
def AwaitsVectors [Fintype ι] (world : CompleteWorld ι) (i : ι) (keys : List (Uuid × JsString)) :
    Prop :=
  ∃ j, j ≠ i ∧ ∃ key ∈ keys, key ∈ (world.sessions j).delta.keys

instance [Fintype ι] (world : CompleteWorld ι) (i : ι) (job : JobRow) :
    Decidable (world.AwaitsJob i job) := by
  unfold AwaitsJob
  infer_instance

instance [Fintype ι] (world : CompleteWorld ι) (i : ι) (job : JobRow) :
    Decidable (world.AwaitsVersion i job) := by
  unfold AwaitsVersion
  infer_instance

instance [Fintype ι] (world : CompleteWorld ι) (i : ι) (keys : List (Uuid × JsString)) :
    Decidable (world.AwaitsVectors i keys) := by
  unfold AwaitsVectors
  infer_instance

/-- `LOCK_LEASE_SQL` with the check of the digest before it. -/
def lockInput (platform : Platform) (tables : Tables) (input : CompleteInput) (now : Time) :
    Except Refusal JobRow := do
  require (isSha256Hex input.artifactSha256 = true)
    (jobError "ingestion_artifact_digest_invalid"
      "Completion requires the accepted lowercase SHA-256 artifact identity.")
  lockLease platform tables (input.tenantId, input.jobId) input.leaseToken now

/-- The checks that follow `LOCK_DOCUMENT_VERSION_SQL`. -/
def checkLeased (tables : Tables) (input : CompleteInput) (job : JobRow) :
    Except Refusal DocumentIdentity := do
  require (input.artifactSha256 = job.artifactSha256)
    (jobError "ingestion_artifact_identity_mismatch"
      "Completion artifact identity does not match the leased job.")
  require (some input.artifactObjectId = job.artifactObjectId ∧
      some input.artifactScanId = job.artifactScanId)
    (jobError "ingestion_artifact_acceptance_mismatch"
      "Completion acceptance identity does not match the leased job.")
  let version ← orRefuse (tables.activeVersion? job.version)
    (jobError "ingestion_document_version_missing" "Leased job document version is unavailable.")
  require (version.1.contentSha256 = job.artifactSha256)
    (jobError "ingestion_artifact_identity_mismatch"
      "Locked document version no longer matches the leased artifact identity.")
  pure (documentIdentity version.1 version.2)

/-- `LOCK_ACCEPTED_ARTIFACT_SQL` and the preparation of the vectors. -/
def acceptAndPrepare (tables : Tables) (input : CompleteInput) (job : JobRow)
    (identity : DocumentIdentity) (now : Time) : Except Refusal (List VectorValues) := do
  require (∃ binding ∈ tables.acceptances job.version job.artifactSha256 now,
      binding.1.id = input.artifactObjectId ∧ binding.2.id = input.artifactScanId)
    (.job {
      code := "ingestion_artifact_acceptance_rejected"
      message := "Persisted artifact acceptance changed before vector publication."
      retryable := true })
  prepareReplacement job identity input.records

/-- The stage after a batch. -/
def afterBatch (job : JobRow) (rest : List VectorValues) (result : ReplaceResult) : CompleteStage :=
  if rest = [] then .deletingStale job result else .selecting job rest result

variable [Fintype ι] (platform : Platform)

/-- The conflict lookup of the next batch. -/
def selectBatch (world : CompleteWorld ι) (i : ι) (job : JobRow) (rest : List VectorValues)
    (result : ReplaceResult) : CompleteWorld ι :=
  let session := world.sessions i
  let existing := existingBatch (session.delta.apply world.tables.vectors) job
    (rest.take vectorWriteBatchSize)
  if world.AwaitsVectors i (existing.map (·.key)) then world
  else match checkExisting job existing with
    | .ok existingIds =>
        world.put i { session with stage := .upserting job rest result existingIds }
    | .error refusal => world.refuse i refusal

/-- The upsert of the next batch. -/
def upsertBatch (world : CompleteWorld ι) (i : ι) (job : JobRow) (rest : List VectorValues)
    (result : ReplaceResult) (existingIds : List JsString) : CompleteWorld ι :=
  let session := world.sessions i
  let batch := (rest.take vectorWriteBatchSize).map job.vector
  let written := batch.filter (VectorRow.upserts (session.delta.apply world.tables.vectors))
  if world.AwaitsVectors i (batch.map (·.key)) then world
  else match countBatch existingIds (written.map (·.values.chunkId))
      (batch.map (·.values.chunkId)) result with
    | .ok result => world.put i {
        stage := afterBatch job (rest.drop vectorWriteBatchSize) result
        delta := { session.delta with written := session.delta.written ++ written } }
    | .error refusal => world.refuse i refusal

/-- `DELETE_STALE_SQL`. -/
def deleteStaleVectors (world : CompleteWorld ι) (i : ι) (job : JobRow) (result : ReplaceResult) :
    CompleteWorld ι :=
  let session := world.sessions i
  let stale := (session.delta.apply world.tables.vectors).filter fun row =>
    row.version = job.version ∧ row.ingestionJobId ≠ job.id
  world.put i {
    stage := .completing job { result with deletedCount := stale.length }
    delta := { session.delta with deleted := stale } }

/-- `COMMIT`. -/
def commit (world : CompleteWorld ι) (i : ι) (input : CompleteInput) (job : JobRow)
    (answer : CompleteAnswer) (assignedAt : Time) : CompleteWorld ι :=
  ({ world with
    tables := { world.tables.rewriteJob job answer.job with
      versions := updateWhere (·.key = job.version) (·.assign .processed assignedAt)
        world.tables.versions
      vectors := (world.sessions i).delta.apply world.tables.vectors }
    history := { job := answer.job, records := input.records, vectors := answer.vectors } ::
      world.history }).put i { stage := .done answer, delta := .empty }

/-- The next statement of a completion. -/
def proceed (input : CompleteInput) (world : CompleteWorld ι) (i : ι) (now : Time) :
    CompleteWorld ι :=
  let session := world.sessions i
  match session.stage with
  | .start =>
      match lockInput platform world.tables input now with
      | .error refusal => world.refuse i refusal
      | .ok job =>
          if world.AwaitsJob i job then world
          else world.put i { session with stage := .lockingVersion job }
  | .lockingVersion job =>
      if world.AwaitsVersion i job then world
      else match checkLeased world.tables input job with
        | .error refusal => world.refuse i refusal
        | .ok identity => world.put i { session with stage := .lockingAcceptance job identity }
  | .lockingAcceptance job identity =>
      match acceptAndPrepare world.tables input job identity now with
      | .error refusal => world.refuse i refusal
      | .ok values => world.put i { session with stage := .selecting job values .zero }
  | .selecting job rest result => world.selectBatch i job rest result
  | .upserting job rest result existingIds => world.upsertBatch i job rest result existingIds
  | .deletingStale job result => world.deleteStaleVectors i job result
  | .completing job result =>
      match world.tables.held? (input.tenantId, input.jobId) (platform.sha256 input.leaseToken)
          now with
      | none => world.refuse i (leaseRejected "Lease changed before completion.")
      | some row => world.put i { session with
          stage := .updatingVersion job { job := row.complete now, vectors := result } }
  | .updatingVersion job answer =>
      if ∃ row ∈ world.tables.versions, row.key = job.version then
        world.put i { session with stage := .committing job answer now }
      else world.refuse i (jobError "ingestion_document_version_missing"
        "Completed job lost its document version.")
  | .committing job answer assignedAt => world.commit i input job answer assignedAt
  | .done _ | .failed _ => world

/-- The rows that the completions have locked are what they were. -/
def Spares (world : CompleteWorld ι) (tables : Tables) : Prop :=
  ∀ i, (∀ job ∈ (world.sessions i).stage.lockedJob,
      tables.jobs.filter (·.key = job.key) = world.tables.jobs.filter (·.key = job.key)) ∧
    ∀ job ∈ (world.sessions i).stage.lockedVersion,
      tables.versions.filter (·.key = job.version) =
        world.tables.versions.filter (·.key = job.version)

instance (world : CompleteWorld ι) (tables : Tables) : Decidable (world.Spares tables) := by
  unfold Spares
  infer_instance

/-- Another call of the runtime, a transaction of its own; one that would write
a locked row waits. -/
def call (world : CompleteWorld ι) : Command → CompleteWorld ι
  | .complete .. => world
  | command =>
      match Ingestion.call platform world.tables command with
      | .error _ => world
      | .ok out => if world.Spares out.1 then { world with tables := out.1 } else world

def step (requests : ι → CompleteInput) (world : CompleteWorld ι) :
    CompleteEvent ι → CompleteWorld ι
  | .proceed i now => world.proceed platform (requests i) i now
  | .fault i message =>
      if (world.sessions i).stage.ended = true then world
      else world.refuse i (.database message)
  | .call command => world.call platform command

end CompleteWorld

end Ingestion
