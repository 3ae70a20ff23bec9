import MuniRag.Ingestion.Vectors

/-!
# The job service

`PostgresIngestionJobService`, statement by statement.  `now` is the
`statement_timestamp()` of a statement, and `skipped` are the jobs that
`SKIP LOCKED` passes over because another transaction holds them.  Each
function reads and writes the tables as its transaction sees them; a refusal
rolls the transaction back.
-/

namespace Ingestion

open Results Table

/-! ## Enqueueing -/

/-- The statuses of the index `ingestion_jobs_vector_work_idx`. -/
def IngestionStatus.isLive : IngestionStatus → Bool
  | .queued | .processing | .processed => true
  | .failed | .superseded => false

/-- The row that `INSERT_JOB_SQL` writes. -/
def JobIdentity.job (identity : JobIdentity) (pipelineConfig : PipelineConfig) (jobId : Uuid)
    (now : Time) : JobRow where
  id := jobId
  tenantId := identity.tenantId
  documentVersionId := identity.documentVersionId
  requestedByPrincipalId := identity.principalId
  idempotencyKeySha256 := identity.idempotencyKeySha256
  requestSha256 := identity.requestSha256
  artifactSha256 := identity.artifactSha256
  pipelineConfigSha256 := identity.pipelineConfigSha256
  workSha256 := identity.workSha256
  pipelineConfig := pipelineConfig
  status := .queued
  attemptCount := 0
  maxAttempts := identity.maxAttempts
  availableAt := now
  startedAt := none
  finishedAt := none
  leaseOwnerSha256 := none
  leaseTokenSha256 := none
  leaseExpiresAt := none
  heartbeatAt := none
  artifactObjectId := none
  artifactScanId := none
  lastErrorCode := none
  lastErrorRetryable := none
  createdAt := now
  updatedAt := now

/-- The unique indexes of the table: the id, the idempotency key of a
principal, and the work among live jobs. -/
def Tables.admits (tables : Tables) (new : JobRow) : Prop :=
  ∀ job ∈ tables.jobs, job.id ≠ new.id ∧
    ¬ (job.tenantId = new.tenantId ∧ job.requestedByPrincipalId = new.requestedByPrincipalId ∧
      job.idempotencyKeySha256 = new.idempotencyKeySha256) ∧
    ¬ (job.tenantId = new.tenantId ∧ job.workSha256 = new.workSha256 ∧ job.status.isLive = true)

instance (tables : Tables) (new : JobRow) : Decidable (tables.admits new) := by
  unfold Tables.admits
  infer_instance

/-- `EnqueueIngestionJobResult`. -/
inductive EnqueueAnswer
  | new (job : JobRow)
  | replay (job : JobRow)
  | duplicateWork (job : JobRow)
  | conflict
  deriving DecidableEq, Repr

/-- `SELECT_BY_IDEMPOTENCY_SQL`. -/
def Tables.byIdempotency? (tables : Tables) (identity : JobIdentity) : Option JobRow :=
  tables.jobs.find? fun job =>
    job.tenantId = identity.tenantId ∧ job.requestedByPrincipalId = identity.principalId ∧
      job.idempotencyKeySha256 = identity.idempotencyKeySha256

/-- `SELECT_BY_WORK_SQL`. -/
def Tables.byWork? (tables : Tables) (identity : JobIdentity) : Option JobRow :=
  tables.jobs.find? fun job =>
    job.tenantId = identity.tenantId ∧ job.workSha256 = identity.workSha256 ∧
      job.status.isLive = true

/-- The answer to a request whose insert met a conflict. -/
def Tables.resolveConflict (tables : Tables) (identity : JobIdentity) :
    Except Refusal EnqueueAnswer :=
  match tables.byIdempotency? identity with
  | some job =>
      if job.requestSha256 = identity.requestSha256 then pure (.replay job) else pure .conflict
  | none => do
      let job ← orRefuse (tables.byWork? identity) (.job {
        code := "ingestion_claim_disappeared"
        message := "Conflicting ingestion job could not be resolved.", retryable := true })
      pure (.duplicateWork job)

/-- `INSERT … ON CONFLICT DO NOTHING`, and what becomes of a conflict. -/
def Tables.admitOrResolve (tables : Tables) (identity : JobIdentity) (new : JobRow) :
    Except Refusal (Tables × EnqueueAnswer) :=
  if tables.admits new then
    pure ({ tables with jobs := tables.jobs ++ [new] }, .new new)
  else do
    let answer ← tables.resolveConflict identity
    pure (tables, answer)

def enqueue (platform : Platform) (tables : Tables) (input : EnqueueInput) (jobId : Uuid)
    (now : Time) : Except Refusal (Tables × EnqueueAnswer) := do
  let mismatch := jobError "ingestion_artifact_identity_mismatch"
    "Document version is unavailable or does not match the accepted artifact digest."
  let identity ← buildIngestionJobIdentity platform input
  let version ← orRefuse
    (tables.activeVersion? (identity.tenantId, identity.documentVersionId)) mismatch
  require (version.1.contentSha256 = identity.artifactSha256) mismatch
  tables.admitOrResolve identity (identity.job input.pipelineConfig jobId now)

/-! ## What the statements make of a row -/

/-- The lease columns set to `NULL`. -/
def JobRow.release (job : JobRow) : JobRow :=
  { job with
    leaseOwnerSha256 := none, leaseTokenSha256 := none, leaseExpiresAt := none
    heartbeatAt := none }

/-- `EXHAUST_EXPIRED_SQL` on one row. -/
def JobRow.exhaust (job : JobRow) (now : Time) : JobRow :=
  { job.release with
    status := .failed, finishedAt := some now, lastErrorCode := some (js "lease_expired")
    lastErrorRetryable := some false, updatedAt := now }

/-- `LEASE_NEXT_SQL` on one row. -/
def JobRow.lease (job : JobRow) (binding : ObjectRow × ScanRow) (owner token : Sha256)
    (expiresAt now : Time) : JobRow :=
  { job with
    status := .processing, attemptCount := job.attemptCount + 1
    startedAt := some (job.startedAt.getD now), finishedAt := none
    leaseOwnerSha256 := some owner, leaseTokenSha256 := some token
    leaseExpiresAt := some expiresAt, heartbeatAt := some now
    artifactObjectId := some binding.1.id, artifactScanId := some binding.2.id
    lastErrorCode := none, lastErrorRetryable := none, updatedAt := now }

/-- `HEARTBEAT_SQL` on one row. -/
def JobRow.beat (job : JobRow) (expiresAt now : Time) : JobRow :=
  { job with heartbeatAt := some now, leaseExpiresAt := some expiresAt, updatedAt := now }

/-- `COMPLETE_JOB_SQL` on one row. -/
def JobRow.complete (job : JobRow) (now : Time) : JobRow :=
  { job.release with
    status := .processed, finishedAt := some now, lastErrorCode := none
    lastErrorRetryable := none, updatedAt := now }

/-- `RETRY_JOB_SQL` on one row. -/
def JobRow.retry (job : JobRow) (errorCode : JsString) (availableAt now : Time) : JobRow :=
  { job.release with
    status := .queued, availableAt, finishedAt := none, lastErrorCode := some errorCode
    lastErrorRetryable := some true, updatedAt := now }

/-- `FAIL_JOB_SQL` on one row. -/
def JobRow.fail (job : JobRow) (errorCode : JsString) (retryable : Bool) (now : Time) : JobRow :=
  { job.release with
    status := .failed, finishedAt := some now, lastErrorCode := some errorCode
    lastErrorRetryable := some retryable, updatedAt := now }

/-- An update of the rows with the id of `old`, which is the one row `old`. -/
def Tables.rewriteJob (tables : Tables) (old new : JobRow) : Tables :=
  { tables with jobs := updateWhere (·.key = old.key) (fun _ => new) tables.jobs }

/-! ## Leasing -/

/-- `status = 'processing' AND lease_expires_at <= now`. -/
def JobRow.hasExpired (job : JobRow) (now : Time) : Bool :=
  decide (job.status = .processing) && job.leaseExpiresAt.any (· ≤ now)

/-- The rows that `EXHAUST_EXPIRED_SQL` updates, at most a hundred at a time. -/
def Tables.exhausted (tables : Tables) (tenantId : Uuid) (skipped : List Uuid) (now : Time) :
    List JobRow :=
  (orderedBy (fun job => toLex (job.leaseExpiresAt.getD 0, job.id))
    (tables.jobs.filter fun job =>
      job.tenantId = tenantId ∧ job.hasExpired now = true ∧ job.maxAttempts ≤ job.attemptCount ∧
        job.id ∉ skipped)).take 100

/-- `UPDATE_DOCUMENT_VERSION_SQL` for each exhausted job. -/
def failVersions (tables : Tables) (now : Time) : List JobRow → Except Refusal Tables
  | [] => pure tables
  | job :: jobs => do
      let tables ← updateDocumentVersion tables job.version .failed now
        (jobError "ingestion_document_version_missing" "Exhausted job lost its document version.")
      failVersions tables now jobs

/-- The first half of `leaseNext`: expired leases of jobs without attempts left
fail their jobs. -/
def exhaustExpired (tables : Tables) (tenantId : Uuid) (skipped : List Uuid) (now : Time) :
    Except Refusal (Tables × List JobRow) := do
  let exhausted := tables.exhausted tenantId skipped now
  let updated ← failVersions
    { tables with jobs := updateWhere (· ∈ exhausted) (·.exhaust now) tables.jobs } now exhausted
  pure (updated, exhausted)

def boundedLeaseSeconds (value : Option Int) : Except Refusal Int := do
  require (30 ≤ value.getD 300 ∧ value.getD 300 ≤ 900)
    (jobError "ingestion_lease_policy_invalid"
      "Lease duration must be between 30 and 900 seconds.")
  pure (value.getD 300)

/-- `make_interval(secs => n)`. -/
def seconds (n : Int) : Time := 1000 * n

/-- `SAFE_WORKER_PATTERN`. -/
def isWorkerId (text : JsString) : Bool :=
  decide (1 ≤ text.length ∧ text.length ≤ 128) && text.all isPrintable

/-- `SAFE_LEASE_TOKEN_PATTERN`. -/
def isLeaseToken (text : JsString) : Bool :=
  decide (32 ≤ text.length ∧ text.length ≤ 256) &&
    text.all fun u => isAlphanumeric u || u == 0x5f || u == 0x2d

/-- The jobs that `LEASE_NEXT_SQL` may lease, each with an accepted object and
the scan that proves it. -/
def Tables.leasable (tables : Tables) (tenantId : Uuid) (skipped : List Uuid) (now : Time) :
    List (JobRow × ObjectRow × ScanRow) :=
  (tables.jobs.filter fun job =>
      job.tenantId = tenantId ∧ job.attemptCount < job.maxAttempts ∧
        (job.status = .queued ∧ job.availableAt ≤ now ∨ job.hasExpired now = true) ∧
        job.id ∉ skipped).flatMap fun job =>
    (tables.acceptances job.version job.artifactSha256 now).map (job, ·)

/-- `ORDER BY job.available_at, job.created_at, job.id`. -/
def JobRow.leaseRank (job : JobRow) : Time ×ₗ Time ×ₗ Uuid :=
  toLex (job.availableAt, toLex (job.createdAt, job.id))

structure LeaseInput where
  tenantId : Uuid
  workerId : JsString
  leaseDurationSeconds : Option Int
  deriving DecidableEq, Repr

/-- `LeasedIngestionJob`. -/
structure LeasedJob where
  job : JobRow
  leaseToken : JsString
  documentIdentity : DocumentIdentity
  deriving DecidableEq, Repr

/-- The columns of `LOCK_DOCUMENT_VERSION_SQL` that name the document. -/
def documentIdentity (version : VersionRow) (document : DocumentRow) : DocumentIdentity where
  documentKey := (document.documentKey.filter (· ≠ [])).getD (uuidText document.id)
  documentTitle := document.title
  documentVersion := version.versionLabel

/-- `rowToLeasedDocumentIdentity`. -/
def DocumentIdentity.isLeasable (identity : DocumentIdentity) : Bool :=
  isBounded identity.documentKey 512 && isBounded identity.documentTitle 1000 &&
    isBounded identity.documentVersion 256

/-- What `leaseNext` does with the row that `LEASE_NEXT_SQL` leased. -/
def Tables.handOut (tables : Tables) (job : JobRow) (token : JsString) :
    Except Refusal LeasedJob := do
  let version ← orRefuse (tables.activeVersion? job.version)
    (jobError "ingestion_document_version_missing" "Leased job lost its document identity.")
  require ((documentIdentity version.1 version.2).isLeasable = true)
    (jobError "ingestion_persistence_invalid" "Stored document identity is invalid.")
  pure { job, leaseToken := token, documentIdentity := documentIdentity version.1 version.2 }

/-- `LEASE_NEXT_SQL` with what follows it. -/
def Tables.claim (tables : Tables) (owner : Sha256) (token : JsString) (tokenSha256 : Sha256)
    (duration : Int) (now : Time) :
    Option (JobRow × ObjectRow × ScanRow) → Except Refusal (Tables × Option LeasedJob)
  | none => pure (tables, none)
  | some (job, binding) => do
      let leased := job.lease binding owner tokenSha256 (now + seconds duration) now
      let handed ← tables.handOut leased token
      pure (tables.rewriteJob job leased, some handed)

/-- The second half of `leaseNext`. -/
def claimNext (platform : Platform) (tables : Tables) (input : LeaseInput) (token : JsString)
    (skipped : List Uuid) (now : Time) : Except Refusal (Tables × Option LeasedJob) := do
  require (isWorkerId input.workerId = true)
    (jobError "ingestion_worker_invalid" "Worker identity is invalid.")
  let duration ← boundedLeaseSeconds input.leaseDurationSeconds
  require (isLeaseToken token = true)
    (jobError "ingestion_lease_token_invalid" "Generated lease token is invalid.")
  tables.claim (platform.sha256 input.workerId) token (platform.sha256 token) duration now
    (least (fun candidate => candidate.1.leaseRank) (tables.leasable input.tenantId skipped now))

/-- `leaseNext`: both halves in one transaction. -/
def leaseNext (platform : Platform) (tables : Tables) (input : LeaseInput) (token : JsString)
    (exhaustSkipped skipped : List Uuid) (exhaustedAt now : Time) :
    Except Refusal (Tables × Option LeasedJob) := do
  let exhausted ← exhaustExpired tables input.tenantId exhaustSkipped exhaustedAt
  claimNext platform exhausted.1 input token skipped now

/-! ## Holding a lease -/

def leaseRejected (message : String) : Refusal := jobError "ingestion_lease_rejected" message

/-- The condition that `HEARTBEAT_SQL`, `LOCK_LEASE_SQL` and the closing
statements share. -/
def JobRow.heldBy (job : JobRow) (tokenSha256 : Sha256) (now : Time) : Bool :=
  decide (job.status = .processing) && decide (job.leaseTokenSha256 = some tokenSha256) &&
    job.leaseExpiresAt.any (now < ·)

def Tables.held? (tables : Tables) (key : Key) (tokenSha256 : Sha256) (now : Time) :
    Option JobRow :=
  tables.jobs.find? fun job => job.key = key ∧ job.heldBy tokenSha256 now = true

/-- `lockLease`. -/
def lockLease (platform : Platform) (tables : Tables) (key : Key) (leaseToken : JsString)
    (now : Time) : Except Refusal JobRow := do
  require (isLeaseToken leaseToken = true) (leaseRejected "Lease is invalid or expired.")
  orRefuse (tables.held? key (platform.sha256 leaseToken) now)
    (leaseRejected "Lease is invalid or expired.")

structure HeartbeatInput where
  tenantId : Uuid
  jobId : Uuid
  leaseToken : JsString
  leaseDurationSeconds : Option Int
  deriving DecidableEq, Repr

def heartbeat (platform : Platform) (tables : Tables) (input : HeartbeatInput) (now : Time) :
    Except Refusal (Tables × JobRow) := do
  require (isLeaseToken input.leaseToken = true) (leaseRejected "Lease is invalid or expired.")
  let duration ← boundedLeaseSeconds input.leaseDurationSeconds
  let job ← orRefuse
    (tables.held? (input.tenantId, input.jobId) (platform.sha256 input.leaseToken) now)
    (leaseRejected "Lease is invalid or expired.")
  let updated := job.beat (now + seconds duration) now
  pure (tables.rewriteJob job updated, updated)

structure CompleteInput where
  tenantId : Uuid
  jobId : Uuid
  leaseToken : JsString
  artifactSha256 : JsString
  artifactObjectId : Uuid
  artifactScanId : Uuid
  records : List VectorRecord
  deriving DecidableEq, Repr

def complete (platform : Platform) (tables : Tables) (input : CompleteInput) (now : Time) :
    Except Refusal (Tables × JobRow) := do
  require (isSha256Hex input.artifactSha256 = true)
    (jobError "ingestion_artifact_digest_invalid"
      "Completion requires the accepted lowercase SHA-256 artifact identity.")
  let job ← lockLease platform tables (input.tenantId, input.jobId) input.leaseToken now
  require (input.artifactSha256 = job.artifactSha256)
    (jobError "ingestion_artifact_identity_mismatch"
      "Completion artifact identity does not match the leased job.")
  require (some input.artifactObjectId = job.artifactObjectId ∧
      some input.artifactScanId = job.artifactScanId)
    (jobError "ingestion_artifact_acceptance_mismatch"
      "Completion acceptance identity does not match the leased job.")
  let version ← orRefuse (tables.activeVersion? job.version)
    (jobError "ingestion_document_version_missing" "Leased job document version is unavailable.")
  require (version.1.contentSha256 = job.artifactSha256)
    (jobError "ingestion_artifact_identity_mismatch"
      "Locked document version no longer matches the leased artifact identity.")
  require (∃ binding ∈ tables.acceptances job.version job.artifactSha256 now,
      binding.1.id = input.artifactObjectId ∧ binding.2.id = input.artifactScanId)
    (.job {
      code := "ingestion_artifact_acceptance_rejected"
      message := "Persisted artifact acceptance changed before vector publication."
      retryable := true })
  let vectors ← replaceDocumentVersion tables.vectors job (documentIdentity version.1 version.2)
    input.records
  let updated ← updateDocumentVersion (tables.rewriteJob job (job.complete now)) job.version
    .processed now
    (jobError "ingestion_document_version_missing" "Completed job lost its document version.")
  pure ({ updated with vectors }, job.complete now)

structure FailInput where
  tenantId : Uuid
  jobId : Uuid
  leaseToken : JsString
  errorCode : JsString
  retryable : Bool
  retryDelaySeconds : Option Int
  deriving DecidableEq, Repr

/-- Whether `fail` puts the job back into the queue. -/
def FailInput.retries (input : FailInput) (job : JobRow) : Bool :=
  input.retryable && decide (job.attemptCount < job.maxAttempts)

/-- The delay of a retry: the one asked for, or the doubling default. -/
def FailInput.delay (input : FailInput) (job : JobRow) : Int :=
  input.retryDelaySeconds.getD (min 900 (30 * 2 ^ (job.attemptCount - 1)))

/-- The row that `RETRY_JOB_SQL` or `FAIL_JOB_SQL` writes. -/
def FailInput.outcome (input : FailInput) (job : JobRow) (now : Time) : JobRow :=
  if input.retries job = true then
    job.retry input.errorCode (now + seconds (input.delay job)) now
  else job.fail input.errorCode input.retryable now

def fail (platform : Platform) (tables : Tables) (input : FailInput) (now : Time) :
    Except Refusal (Tables × JobRow) := do
  require (isCodeText input.errorCode = true)
    (jobError "ingestion_error_code_invalid" "Ingestion failure requires a safe stable code.")
  let job ← lockLease platform tables (input.tenantId, input.jobId) input.leaseToken now
  require (0 ≤ input.delay job ∧ input.delay job ≤ 900)
    (jobError "ingestion_retry_policy_invalid"
      "Retry delay must be between 0 and 900 seconds.")
  let updated ← updateDocumentVersion (tables.rewriteJob job (input.outcome job now)) job.version
    (input.outcome job now).status now
    (jobError "ingestion_document_version_missing" "Failed job lost its document version.")
  pure (updated, input.outcome job now)

end Ingestion
