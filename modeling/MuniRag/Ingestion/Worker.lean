import MuniRag.Ingestion.System
import MuniRag.Lib.Runs

/-!
# One run of the ingestion worker

`TenantIngestionWorker.runOnce` with its `LeaseHeartbeat`.  The run waits for the
lease service, the artifact reader, the extractor, the embedder and its own
heartbeats; everything between two of these answers is one step.  The timer of
the heartbeat may fire, and a heartbeat may be answered, before any of them.
-/

namespace Ingestion

open Runs

/-! ## Failures -/

/-- What a stage throws: one of the three error classes with a code, any other
object, or a value that JavaScript takes for false. -/
inductive WorkerError
  | acceptedArtifact (code : JsString) (retryable : Bool)
  | ingestion (code : JsString) (retryable : Bool)
  | job (code : JsString) (retryable : Bool)
  | other
  | falsy
  deriving DecidableEq, Repr

/-- `ClassifiedWorkerFailure`. -/
structure ClassifiedFailure where
  code : JsString
  retryable : Bool
  deriving DecidableEq, Repr

def classifyFailure : WorkerError → ClassifiedFailure
  | .acceptedArtifact code retryable => ⟨code, retryable⟩
  | .ingestion code retryable => ⟨code, retryable⟩
  | .job code retryable =>
      ⟨if code = js "ingestion_lease_rejected" then js "ingestion_lease_lost" else code, retryable⟩
  | .other => ⟨js "ingestion_worker_failed", true⟩
  | .falsy => ⟨js "ingestion_worker_failed", true⟩

def safeFailure (failure : ClassifiedFailure) : ClassifiedFailure :=
  { failure with
    code := if isCodeText failure.code then failure.code else js "ingestion_worker_failed" }

/-- Whether the worker takes an error for the loss of its lease. -/
def WorkerError.isLoss (error : WorkerError) : Bool :=
  (safeFailure (classifyFailure error)).code == js "ingestion_lease_lost"

/-- What a failed checkpoint throws. -/
def checkpointRejected : WorkerError := .job (js "ingestion_lease_rejected") false

/-! ## The stages -/

/-- The fields of an `AcceptedArtifact` that a run uses. -/
structure WorkerArtifact where
  content : List UInt8
  originalFilename : JsString
  artifactObjectId : Uuid
  artifactScanId : Uuid
  deriving DecidableEq, Repr

/-- The embedding provider, `verifyAcceptedArtifact` and `artifactSha256`. -/
structure WorkerHost where
  providerName : JsString
  model : JsString
  dimensions : Int
  verifyAcceptedArtifact : JobRow → WorkerArtifact → Except WorkerError WorkerArtifact
  artifactSha256 : List UInt8 → Sha256

/-- What `prepareDocumentEmbeddings` returns: the code and the retryability of each
failure, and the records. -/
structure Prepared where
  failures : List ClassifiedFailure
  records : List VectorRecord
  deriving DecidableEq, Repr

/-- The fields of a `CompleteIngestionJobResult` that a result has. -/
structure CompletedJob where
  jobId : Uuid
  insertedCount : Nat
  updatedCount : Nat
  unchangedCount : Nat
  deletedCount : Nat
  deriving DecidableEq, Repr

/-- `IngestionWorkerResult`, or the error that the run rejects with. -/
inductive WorkerResult
  | idle
  | processed (completed : CompletedJob) (chunkCount : Nat)
  | retryScheduled (jobId : Uuid) (errorCode : JsString)
  | failed (jobId : Uuid) (errorCode : JsString)
  | leaseLost (jobId : Uuid)
  | rejected (error : WorkerError)
  deriving DecidableEq, Repr

/-- `assertPipelineMatchesProvider`. -/
def assertPipelineMatchesProvider (host : WorkerHost) (job : JobRow) : Except WorkerError Unit :=
  if job.pipelineConfig.extractorName ≠ js "bounded_document_registry" ∨
      job.pipelineConfig.extractorVersion ≠ js "1.0.0" ∨
      job.pipelineConfig.embeddingProvider ≠ host.providerName ∨
      job.pipelineConfig.embeddingModel ≠ host.model ∨
      job.pipelineConfig.embeddingDimension ≠ host.dimensions then
    .error (.job (js "ingestion_pipeline_profile_mismatch") false)
  else .ok ()

/-- The check that a job is bound to an object and a scan. -/
def assertBound (job : JobRow) : Except WorkerError Unit :=
  if job.artifactObjectId = none ∨ job.artifactScanId = none then
    .error (.acceptedArtifact (js "artifact_acceptance_unavailable") true)
  else .ok ()

/-- The checks of a lease before anything is awaited. -/
def checkLease (host : WorkerHost) (job : JobRow) : Except WorkerError Unit := do
  assertPipelineMatchesProvider host job
  assertBound job

/-- The private `verify`. -/
def verify (host : WorkerHost) (job : JobRow) (artifact : WorkerArtifact) :
    Except WorkerError WorkerArtifact := do
  assertBound job
  host.verifyAcceptedArtifact job artifact

/-- What the bytes of the artifact are after extraction. -/
def checkExtracted (host : WorkerHost) (job : JobRow) (content : List UInt8) :
    Except WorkerError Unit :=
  if host.artifactSha256 content ≠ job.artifactSha256 then
    .error (.acceptedArtifact (js "artifact_changed_during_extraction") false)
  else .ok ()

/-- The records of a preparation without failures. -/
def checkPrepared (prepared : Prepared) : Except WorkerError (List VectorRecord) :=
  match prepared.failures with
  | first :: _ =>
      .error (.ingestion (if isCodeText first.code then first.code else js "embedding_failed")
        first.retryable)
  | [] => .ok prepared.records

/-! ## The run -/

/-- A lease with its verified artifact. -/
structure Work where
  lease : LeasedJob
  artifact : WorkerArtifact
  deriving DecidableEq, Repr

/-- What follows a checkpoint. -/
inductive Stage
  | extract
  | prepare
  | complete (records : List VectorRecord)
  deriving DecidableEq, Repr

/-- What a run waits for. -/
inductive Phase
  | leasing
  | resolving (lease : LeasedJob)
  | checking (work : Work) (stage : Stage)
  | extracting (work : Work)
  | preparing (work : Work)
  | completing (work : Work) (records : List VectorRecord)
  | stopping (lease : LeasedJob) (error : WorkerError)
  | failing (lease : LeasedJob) (failure : ClassifiedFailure)
  | ended (result : WorkerResult)
  deriving DecidableEq, Repr

/-- What a run has done and seen, as far as its protocol is about it. -/
inductive Note
  | heartbeatCalled (jobId : Uuid)
  | heartbeatFailed (error : WorkerError)
  | completeCalled (input : CompleteInput)
  | completeReturned
  | lossCaught
  | failCalled (input : FailInput)
  deriving DecidableEq, Repr

/-- The state of a run; `timer`, `inFlight` and `failure` are the fields of its
`LeaseHeartbeat`, and the notes stand the newest first. -/
structure WorkerState where
  phase : Phase
  timer : Bool
  inFlight : Bool
  failure : Option WorkerError
  notes : List Note
  deriving DecidableEq, Repr

def WorkerState.opening : WorkerState := ⟨.leasing, false, false, none, []⟩

/-- What the outside of a run does: the timer fires, a heartbeat is answered, or
the call that the run awaits settles. `extracted` has the bytes of the artifact
as the extractor leaves them. -/
inductive WorkerEvent
  | tick
  | beatSettled (answer : Except WorkerError Unit)
  | leaseSettled (answer : Except WorkerError (Option LeasedJob))
  | resolved (answer : Except WorkerError WorkerArtifact)
  | extracted (answer : Except WorkerError Unit) (content : List UInt8)
  | prepared (answer : Except WorkerError Prepared)
  | completed (answer : Except WorkerError CompletedJob)
  | failSettled (answer : Except WorkerError (Uuid × IngestionStatus))

namespace WorkerState

/-- `beat` where no heartbeat is in flight and none has failed. -/
def startBeat (state : WorkerState) (jobId : Uuid) : WorkerState :=
  { state with inFlight := true, notes := .heartbeatCalled jobId :: state.notes }

/-- The answer of the heartbeat in flight; an error that JavaScript takes for
false leaves no failure. -/
def settleBeat (state : WorkerState) : Except WorkerError Unit → WorkerState
  | .ok () => { state with inFlight := false }
  | .error .falsy => { state with inFlight := false }
  | .error error =>
      { state with
        inFlight := false, failure := some error, notes := .heartbeatFailed error :: state.notes }

/-- The `catch` block behind its `stop`. -/
def handleFailure (state : WorkerState) (lease : LeasedJob) (error : WorkerError) : WorkerState :=
  let failure := safeFailure (classifyFailure error)
  if error.isLoss then
    { state with phase := .ended (.leaseLost lease.job.id), notes := .lossCaught :: state.notes }
  else
    { state with
      phase := .failing lease failure
      notes := .failCalled {
        tenantId := lease.job.tenantId, jobId := lease.job.id, leaseToken := lease.leaseToken
        errorCode := failure.code, retryable := failure.retryable
        retryDelaySeconds := none } :: state.notes }

/-- The `catch` block: `stop` clears the timer and awaits the heartbeat in flight. -/
def raise (state : WorkerState) (lease : LeasedJob) (error : WorkerError) : WorkerState :=
  if state.inFlight then { state with timer := false, phase := .stopping lease error }
  else handleFailure { state with timer := false } lease error

/-- `checkpoint` up to the answer of its heartbeat. -/
def enterCheckpoint (state : WorkerState) (work : Work) (stage : Stage) : WorkerState :=
  if state.failure.isSome then state.raise work.lease checkpointRejected
  else if state.inFlight then { state with phase := .checking work stage }
  else { state.startBeat work.lease.job.id with phase := .checking work stage }

/-- What follows a checkpoint that passed. -/
def enterStage (state : WorkerState) (work : Work) : Stage → WorkerState
  | .extract => { state with phase := .extracting work }
  | .prepare => { state with phase := .preparing work }
  | .complete records =>
      { state with
        timer := false
        phase := .completing work records
        notes := .completeCalled {
          tenantId := work.lease.job.tenantId, jobId := work.lease.job.id
          leaseToken := work.lease.leaseToken, artifactSha256 := work.lease.job.artifactSha256
          artifactObjectId := work.artifact.artifactObjectId
          artifactScanId := work.artifact.artifactScanId, records } :: state.notes }

/-- Goes on with what a stage returned, or throws what it threw. -/
def proceed {α : Type} (state : WorkerState) (lease : LeasedJob) (answer : Except WorkerError α)
    (next : α → WorkerState) : WorkerState :=
  match answer with
  | .error error => state.raise lease error
  | .ok value => next value

/-- The job that a phase holds the lease of. -/
def jobId? (state : WorkerState) : Option Uuid :=
  match state.phase with
  | .leasing => none
  | .resolving lease => some lease.job.id
  | .checking work _ => some work.lease.job.id
  | .extracting work => some work.lease.job.id
  | .preparing work => some work.lease.job.id
  | .completing work _ => some work.lease.job.id
  | .stopping lease _ => some lease.job.id
  | .failing lease _ => some lease.job.id
  | .ended _ => none

/-- The timer fires. -/
def fireTimer (state : WorkerState) : WorkerState :=
  match state.jobId? with
  | some jobId =>
      if state.timer ∧ state.failure = none ∧ state.inFlight = false then state.startBeat jobId
      else state
  | none => state

/-- A heartbeat is answered: at a checkpoint and in `stop` the run awaits it. -/
def receiveBeat (state : WorkerState) (answer : Except WorkerError Unit) : WorkerState :=
  if state.inFlight = false then state
  else
    let settled := state.settleBeat answer
    match state.phase with
    | .checking work stage =>
        if settled.failure.isSome then settled.raise work.lease checkpointRejected
        else settled.enterStage work stage
    | .stopping lease error => settled.handleFailure lease error
    | _ => settled

end WorkerState

/-- One step of a run; what the phase does not await changes nothing. -/
def workerStep (host : WorkerHost) (state : WorkerState) (event : WorkerEvent) : WorkerState :=
  match event, state.phase with
  | .tick, _ => state.fireTimer
  | .beatSettled answer, _ => state.receiveBeat answer
  | .leaseSettled (.error error), .leasing => { state with phase := .ended (.rejected error) }
  | .leaseSettled (.ok none), .leasing => { state with phase := .ended .idle }
  | .leaseSettled (.ok (some lease)), .leasing =>
      { state with timer := true }.proceed lease (checkLease host lease.job) fun _ =>
        { state with timer := true, phase := .resolving lease }
  | .resolved answer, .resolving lease =>
      state.proceed lease (answer.bind (verify host lease.job)) fun artifact =>
        state.enterCheckpoint ⟨lease, artifact⟩ .extract
  | .extracted answer content, .extracting work =>
      state.proceed work.lease (answer.bind fun _ => checkExtracted host work.lease.job content)
        fun _ => state.enterCheckpoint work .prepare
  | .prepared answer, .preparing work =>
      state.proceed work.lease (answer.bind checkPrepared) fun records =>
        state.enterCheckpoint work (.complete records)
  | .completed answer, .completing work records =>
      state.proceed work.lease answer fun completed =>
        { state with
          phase := .ended (.processed completed records.length)
          notes := .completeReturned :: state.notes }
  | .failSettled (.ok (jobId, status)), .failing _ failure =>
      { state with phase := .ended (if status = .queued then .retryScheduled jobId failure.code
          else .failed jobId failure.code) }
  | .failSettled (.error (.job code retryable)), .failing lease _ =>
      { state with phase := .ended (if code = js "ingestion_lease_rejected" then
          .leaseLost lease.job.id else .rejected (.job code retryable)) }
  | .failSettled (.error error), .failing _ _ => { state with phase := .ended (.rejected error) }
  | _, _ => state

end Ingestion
