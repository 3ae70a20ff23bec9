import MuniRag.Cases.Postgres
import MuniRag.Lib.Runs
import Mathlib.Data.Fintype.Basic

/-!
# Mutations of the case API as concurrent transactions

`executeMutation` of `procedureCaseHandler.ts` with the statements that
`claimIdempotency`, `create`, `applyAction`, `sealCreation` and
`completeIdempotency` issue, one step at a time.  Any number of requests run
interleaved under `READ COMMITTED`: a statement reads what is committed when it
starts, together with the writes of its own transaction; a row that another
transaction has locked is waited for, and so is an uncommitted row under the
same unique key; a failed statement aborts its transaction; locks are held to
the end.

The rows of one case are only written under the lock of the case row, or by the
transaction that inserts the case, so the statements of one repository call on
a case are one step.  Identifiers drawn for one request are never drawn for
another that is in flight, so no statement waits for a row of another case.
-/

namespace Cases

open Results

/-! ## Requests -/

inductive Operation
  | create
  | update
  deriving DecidableEq, Repr

/-- The status of a successful response. -/
def Operation.status : Operation → Nat
  | .create => 201
  | .update => 200

structure Principal where
  tenantId : Uuid
  principalId : Uuid
  credentialId : JsString
  deriving DecidableEq, Repr

inductive RequestBody
  | create (caseKey workflowVersionId jurisdiction : JsString)
      (subjectReference communityReference followUpAt : Option JsString)
  | update (caseId : JsString) (expectedRevision : Nat) (action : Action)
  deriving DecidableEq, Repr

/-- `ProcedureCaseRequestV1`. -/
structure CaseRequest where
  requestId : JsString
  tenantId : JsString
  credentialId : JsString
  body : RequestBody
  deriving DecidableEq, Repr

def CaseRequest.operation (request : CaseRequest) : Operation :=
  match request.body with
  | .create .. => .create
  | .update .. => .update

/-- One call of `executeMutation`: its arguments, what `dependencies.now`
returns the first and the second time, and the identifiers drawn. -/
structure Mutation where
  request : CaseRequest
  principal : Principal
  requestId : JsString
  idempotencyKey : JsString
  pathCaseId : Option JsString
  claimedAt : Time
  now : Time
  auditId : JsString
  caseId : JsString
  eventId : JsString
  entityId : JsString
  deriving DecidableEq, Repr

/-- `ProcedureCaseResponseV1` as `responseFor` builds it. -/
structure Response where
  requestId : JsString
  tenantId : JsString
  record : StoredCase
  limitations : List String
  credentialId : JsString
  auditId : JsString
  createdAt : Time
  deriving DecidableEq, Repr

def limitations : List String := [
  "Operational case tracking does not prove legal compliance, municipal approval, reception, liquidation, payment, or institutional closure.",
  "Document states describe references recorded in this system and require human validation against the authoritative source.",
  "A workflow approval is a governance decision about a version; it does not prove applicability to every case fact."]

def responseFor (record : StoredCase) (requestId credentialId auditId : JsString)
    (createdAt : Time) : Response where
  requestId := requestId
  tenantId := record.tenantId
  record := record
  limitations := limitations
  credentialId := credentialId
  auditId := auditId
  createdAt := createdAt

/-- What the handler gets from its host: PostgreSQL's text functions, the
digest, the canonical text of a request, `hashtextextended`, the response
validator on a generated response, `JSON.stringify`, and `JSON.parse` followed
by the validator. -/
structure Service where
  sql : SqlHost
  sha256 : JsString → JsString
  canonicalJson : CaseRequest → JsString
  hashText : JsString → Int
  accepts : Response → Bool
  render : Response → JsString
  parse : JsString → Option Response
  idempotencyTtl : Time

variable (service : Service)

/-! ## Idempotency rows -/

/-- The primary key of `integration.procedure_case_idempotency`. -/
structure KeyName where
  tenantId : Uuid
  principalId : Uuid
  operation : Operation
  keySha256 : JsString
  deriving DecidableEq, Repr

/-- The columns that a completed row has, and no other. -/
structure Completion where
  status : Nat
  body : JsString
  bodySha256 : JsString
  auditId : JsString
  completedAt : Time
  deriving DecidableEq, Repr

/-- A row; its state is `processing` while nothing is completed. -/
structure KeyRow where
  requestSha256 : JsString
  completion : Option Completion
  createdAt : Time
  expiresAt : Time
  deriving DecidableEq, Repr

def Mutation.operation (mutation : Mutation) : Operation := mutation.request.operation

/-- `scope.requestSha256`. -/
def Mutation.requestSha256 (mutation : Mutation) : JsString :=
  service.sha256 (service.canonicalJson mutation.request)

/-- The row that the scope of a request names. -/
def Mutation.keyName (mutation : Mutation) : KeyName where
  tenantId := mutation.principal.tenantId
  principalId := mutation.principal.principalId
  operation := mutation.operation
  keySha256 := service.sha256 mutation.idempotencyKey

/-- The row that `claimIdempotency` inserts. -/
def Mutation.claimRow (mutation : Mutation) : KeyRow where
  requestSha256 := mutation.requestSha256 service
  completion := none
  createdAt := mutation.claimedAt
  expiresAt := mutation.claimedAt + service.idempotencyTtl

/-- The lock of a creation: the hash of `tenant:principal:digest`. -/
def Mutation.lockKey (mutation : Mutation) : Int :=
  service.hashText (uuidText mutation.principal.tenantId ++ [0x3a] ++
    uuidText mutation.principal.principalId ++ [0x3a] ++ mutation.requestSha256 service)

/-! ## Errors -/

/-- What `executeMutation` can throw. -/
inductive Failure
  | api (statusCode : Nat) (code : String)
  | caseError (error : CaseError)
  | plain (message : String)
  | server (message : String)
  deriving DecidableEq, Repr

/-- What PostgreSQL answers to every statement of an aborted transaction. -/
def transactionAborted : Failure :=
  .server "current transaction is aborted, commands ignored until end of transaction block"

/-- What the caller of a repository call catches. -/
def Refusal.thrown : Refusal → Failure
  | .case error => .caseError error
  | .duplicate constraint =>
      .server ("duplicate key value violates unique constraint " ++ constraint)
  | .database message => .server message
  | .failure message => .plain message

/-- A refusal by the server aborts the transaction. -/
def Refusal.aborts : Refusal → Bool
  | .duplicate _ | .database _ => true
  | .case _ | .failure _ => false

/-- `normalizeError`: the status code and the code of the answer. -/
def normalizeError : Failure → Nat × String
  | .api statusCode code => (statusCode, code)
  | .caseError error =>
      if error.code = "workflow_not_approved" ∨ error.code = "case_conflict" then (409, error.code)
      else if error.code = "case_not_found" ∨ error.code = "step_not_found" ∨
          error.code = "document_not_found" ∨ error.code = "blocker_not_found" then
        (404, "not_found")
      else (409, error.code)
  | .plain _ | .server _ => (500, "internal_error")

/-! ## The statements of a creation -/

/-- `create` without the mapping of its `catch`: what the statements answer. -/
def createStatements (host : SqlHost) (catalog : Catalog) (tables : Tables) (input : CreateInput) :
    Except Refusal Outcome := do
  let tenantId ← castUuid input.tenantId
  let workflowVersionId ← castUuid input.workflowVersionId
  let workflow ← orRefuse
    ((catalog.workflows.find? fun row =>
      row.tenantId = tenantId ∧ row.id = workflowVersionId).filter (·.isApproved))
    (.case { code := "workflow_not_approved", message := "Approved workflow version required" })
  require (workflow.jurisdiction = input.jurisdiction)
    (.case { code := "workflow_not_approved", message := "Workflow jurisdiction mismatch" })
  let steps := workflow.steps.mapIdx RawStep.named
  require (1 ≤ steps.length ∧ steps.length ≤ 100)
    (.case { code := "workflow_not_approved", message := "Approved workflow has invalid steps" })
  insertCreation host catalog tables input tenantId workflow steps

/-- What the `catch` of `create` makes of a refusal. -/
def Refusal.mapped : Refusal → Refusal
  | .duplicate _ => .case { code := "case_conflict", message := "Case key already exists" }
  | other => other

theorem mapDuplicate_error {α : Type} (refusal : Refusal) :
    mapDuplicate (.error refusal : Except Refusal α) = .error refusal.mapped := by
  cases refusal <;> rfl

theorem mapDuplicate_bind {α β : Type} {first : Except Refusal α} {rest : α → Except Refusal β}
    (h : mapDuplicate first = first) :
    mapDuplicate (first >>= rest) = first >>= fun a => mapDuplicate (rest a) := by
  cases first with
  | ok a => rfl
  | error refusal =>
      cases refusal with
      | duplicate constraint => cases h
      | _ => rfl

/-- The `catch` of `create` maps what its statements answer. -/
theorem create_eq (host : SqlHost) (catalog : Catalog) (tables : Tables) (input : CreateInput) :
    create host catalog tables input =
      mapDuplicate (createStatements host catalog tables input) := by
  have hcast : ∀ text, mapDuplicate (castUuid text) = castUuid text := by
    intro text
    rw [castUuid]
    cases uuidValue text <;> rfl
  have hlookup : ∀ (α : Type) (x : Option α) error,
      mapDuplicate (orRefuse x (.case error)) = orRefuse x (.case error) := by
    intro α x error
    cases x <;> rfl
  have hcheck : ∀ (c : Prop) (_ : Decidable c) error,
      mapDuplicate (require c (.case error)) = require c (.case error) := by
    intro c _ error
    rw [require]
    split <;> rfl
  rw [create, createStatements, mapDuplicate_bind (hcast _)]
  congr 1
  funext tenantId
  rw [mapDuplicate_bind (hcast _)]
  congr 1
  funext workflowVersionId
  rw [mapDuplicate_bind (hlookup _ _ _)]
  congr 1
  funext workflow
  rw [mapDuplicate_bind (hcheck _ _ _)]
  congr 1
  funext _
  rw [mapDuplicate_bind (hcheck _ _ _)]

/-! ## Transactions in progress -/

/-- The next statement of a request, with what the code has read so far. -/
inductive Stage
  | start
  | locking
  | locked
  | claiming
  | selecting (tid : Nat)
  | clearing
  | deleting (tid : Nat)
  | inserting
  | working
  | acting (record : StoredCase) (key : CaseKey)
  | responding (record : StoredCase)
  | sealing (record : StoredCase) (body : JsString)
  | auditing (body : JsString)
  | completing (body : JsString)
  | releasing (failure : Failure)
  | replaying (status : Nat) (body auditId : JsString)
  | invalidating
  | committing (status : Nat) (body : JsString)
  | done (status : Nat) (body : JsString)
  | failed (failure : Failure)
  deriving DecidableEq, Repr

/-- The request has an answer. -/
def Stage.ended : Stage → Bool
  | .done .. | .failed _ => true
  | _ => false

/-- A request and its transaction: the locks it holds, the versions of rows it
has written and not committed, whether a statement of its `try` block failed,
and what that block has thrown.  `applied` says that it committed a change of a
case. -/
structure Session where
  stage : Stage
  advisory : Option Int
  rowLock : Option Nat
  removed : Bool
  inserted : Option KeyRow
  caseLock : Option CaseKey
  staged : Option (CaseKey × Tables)
  aborted : Bool
  thrown : Option Failure
  applied : Bool

def Session.opening : Session where
  stage := .start
  advisory := none
  rowLock := none
  removed := false
  inserted := none
  caseLock := none
  staged := none
  aborted := false
  thrown := none
  applied := false

/-- The end of a transaction: its locks and private rows are gone. -/
def Session.close (session : Session) (stage : Stage) : Session :=
  { Session.opening with stage, thrown := session.thrown, applied := session.applied }

/-- An error outside the `try` block: the transaction is rolled back. -/
def Session.refuse (session : Session) (failure : Failure) : Session :=
  session.close (.failed failure)

/-- An error inside the `try` block is caught there first. -/
def Session.caught (session : Session) (failure : Failure) (aborted : Bool) : Session :=
  { session with stage := .releasing failure, aborted, thrown := some failure }

/-- A committed row of the idempotency table; a row that is deleted and
inserted again is another version. -/
structure KeyVersion where
  tid : Nat
  row : KeyRow
  deriving DecidableEq, Repr

structure World (ι : Type) where
  catalog : Catalog
  tables : Tables
  keys : KeyName → Option KeyVersion
  nextTid : Nat
  sessions : ι → Session

variable {ι : Type} [DecidableEq ι]

def World.put (world : World ι) (i : ι) (session : Session) : World ι :=
  { world with sessions := Function.update world.sessions i session }

theorem put_self (world : World ι) (i : ι) (session : Session) :
    (world.put i session).sessions i = session := Function.update_self ..

theorem put_other {i j : ι} (world : World ι) (session : Session) (h : j ≠ i) :
    (world.put i session).sessions j = world.sessions j := Function.update_of_ne h ..

/-- The rows of `base`, those of one case from `own` instead. -/
def Tables.graft (base own : Tables) (key : CaseKey) : Tables where
  cases := base.cases.filter (·.key ≠ key) ++ own.cases.filter (·.key = key)
  steps := base.steps.filter (·.case ≠ key) ++ own.steps.filter (·.case = key)
  documents := base.documents.filter (·.case ≠ key) ++ own.documents.filter (·.case = key)
  blockers := base.blockers.filter (·.case ≠ key) ++ own.blockers.filter (·.case = key)
  events := base.events.filter (·.case ≠ key) ++ own.events.filter (·.case = key)

/-- The case itself is the one of `own`, every other one is the one of `base`. -/
theorem graft_case? (base own : Tables) (key other : CaseKey) :
    (base.graft own key).case? other = if other = key then own.case? key else base.case? other := by
  have hfind : ∀ (rows : List CaseRow) (p : CaseRow → Bool), (∀ row, row.key = other → p row = true) →
      (rows.filter p).find? (·.key = other) = rows.find? (·.key = other) := by
    intro rows p hp
    rw [List.find?_filter]
    congr 1
    funext row
    by_cases hrow : row.key = other <;> simp [hrow, hp]
  have hnone : ∀ (rows : List CaseRow) (p : CaseRow → Bool), (∀ row, row.key = other → p row = false) →
      (rows.filter p).find? (·.key = other) = none := by
    intro rows p hp
    rw [List.find?_filter, List.find?_eq_none]
    intro row _
    by_cases hrow : row.key = other <;> simp [hrow, hp]
  simp only [Tables.case?, Tables.graft, List.find?_append]
  by_cases hother : other = key
  · subst hother
    rw [if_pos rfl, hnone base.cases _ (by simp), hfind own.cases _ (by simp), Option.none_or]
  · have hne : ∀ row : CaseRow, row.key = other → row.key ≠ key := by
      intro row hrow hkey
      exact hother (hrow.symm.trans hkey)
    rw [if_neg hother, hfind base.cases _ (by simpa using hne), hnone own.cases _ (by simpa using hne),
      Option.or_none]

/-- What the statements of a transaction see. -/
def World.view (world : World ι) (session : Session) : Tables :=
  match session.staged with
  | none => world.tables
  | some (key, own) => world.tables.graft own key

/-! ## Waiting -/

variable [Fintype ι]

/-- Another transaction has locked this version of a row. -/
def World.isLocked (world : World ι) (i : ι) (tid : Nat) : Prop :=
  ∃ j, j ≠ i ∧ (world.sessions j).rowLock = some tid

instance (world : World ι) (i : ι) (tid : Nat) : Decidable (world.isLocked i tid) := by
  unfold World.isLocked
  infer_instance

/-- The transaction has deleted this version of a row. -/
def Session.hasRemoved (session : Session) (version : KeyVersion) : Bool :=
  session.removed && decide (session.rowLock = some version.tid)

/-- An uncommitted row or an uncommitted deletion that an insert waits for. -/
def World.awaitsInsert (world : World ι) (mutations : ι → Mutation) (i : ι) : Prop :=
  ∃ j, j ≠ i ∧ (mutations j).keyName service = (mutations i).keyName service ∧
    ((world.sessions j).inserted ≠ none ∨
      ∃ version ∈ world.keys ((mutations i).keyName service),
        (world.sessions j).hasRemoved version = true)

instance (world : World ι) (mutations : ι → Mutation) (i : ι) :
    Decidable (world.awaitsInsert service mutations i) := by
  unfold World.awaitsInsert
  infer_instance

/-- A committed row that an insert violates the primary key with. -/
def World.rival (world : World ι) (name : KeyName) (session : Session) : Option KeyVersion :=
  (world.keys name).filter fun version => !session.hasRemoved version

/-- Another transaction has an uncommitted case row under a unique key of the
case that a creation inserts. -/
def World.awaitsCase (world : World ι) (i : ι) (input : CreateInput) : Prop :=
  ∃ j, j ≠ i ∧ ∃ staged ∈ (world.sessions j).staged, ∃ row ∈ staged.2.cases, row.key = staged.1 ∧
    (some row.id = uuidValue input.caseId ∨
      some row.tenantId = uuidValue input.tenantId ∧
        (row.caseKey = input.caseKey ∨ some row.createdByPrincipalId = uuidValue input.principalId ∧
          row.createRequestSha256 = input.requestSha256))

instance (world : World ι) (i : ι) (input : CreateInput) :
    Decidable (world.awaitsCase i input) := by
  unfold World.awaitsCase
  infer_instance

/-! ## The claim -/

/-- The aggregate that `claimIdempotency` reads under the lock of a creation. -/
def Tables.acknowledged? (tables : Tables) (tenantId principalId : Uuid)
    (requestSha256 : JsString) : Option CaseRow :=
  tables.cases.find? fun row => row.tenantId = tenantId ∧ row.createdByPrincipalId = principalId ∧
    row.createRequestSha256 = requestSha256

/-- After the aggregate was read: a sealed one is replayed. -/
def Session.readAggregate (session : Session) (row : Option CaseRow) : Session :=
  match row.bind fun row => row.initialResponseBody.bind fun body =>
      row.initialAuditId.map fun auditId => (body, uuidText auditId) with
  | some (body, auditId) =>
      if body = [] then { session with stage := .claiming }
      else { session with stage := .replaying Operation.create.status body auditId }
  | none => { session with stage := .claiming }

/-- After `SELECT … FOR UPDATE` returned the row of the key. -/
def Session.readKey (session : Session) (mutation : Mutation) (version : KeyVersion) : Session :=
  let session := { session with rowLock := some version.tid }
  if mutation.claimedAt < version.row.expiresAt then
    if version.row.requestSha256 ≠ mutation.requestSha256 service then
      session.refuse (.api 409 "idempotency_conflict")
    else
      match version.row.completion with
      | none => session.refuse (.api 409 "request_in_progress")
      | some completion =>
          if completion.bodySha256 ≠ service.sha256 completion.body then
            session.refuse (.plain "procedure case replay hash mismatch")
          else { session with
            stage := .replaying completion.status completion.body completion.auditId }
  else { session with stage := .clearing }

/-- Only a sealed aggregate is replayed. -/
theorem readAggregate_cases (session : Session) (row : Option CaseRow) :
    session.readAggregate row = { session with stage := .claiming } ∨
      ∃ found ∈ row, ∃ body ∈ found.initialResponseBody, ∃ auditId ∈ found.initialAuditId,
        session.readAggregate row =
          { session with stage := .replaying Operation.create.status body (uuidText auditId) } := by
  cases row with
  | none => exact .inl rfl
  | some found =>
      cases hbody : found.initialResponseBody with
      | none =>
          left
          simp [Session.readAggregate, hbody]
      | some body =>
          cases haudit : found.initialAuditId with
          | none =>
              left
              simp [Session.readAggregate, hbody, haudit]
          | some auditId =>
              by_cases hempty : body = []
              · left
                simp [Session.readAggregate, hbody, haudit, hempty]
              · right
                refine ⟨found, rfl, body, hbody, auditId, haudit, ?_⟩
                simp [Session.readAggregate, hbody, haudit, hempty]

/-- **What is made of the row of a key.**  A row that has not run out refuses
the request or is replayed; one that has is cleared. -/
theorem readKey_cases (service : Service) (session : Session) (mutation : Mutation)
    (version : KeyVersion) :
    (∃ failure, mutation.claimedAt < version.row.expiresAt ∧
        (version.row.requestSha256 ≠ mutation.requestSha256 service ∧
            failure = .api 409 "idempotency_conflict" ∨
          version.row.completion = none ∧ failure = .api 409 "request_in_progress" ∨
          (∃ completion ∈ version.row.completion,
              completion.bodySha256 ≠ service.sha256 completion.body) ∧
            failure = .plain "procedure case replay hash mismatch") ∧
        session.readKey service mutation version = session.refuse failure) ∨
      (∃ completion ∈ version.row.completion, mutation.claimedAt < version.row.expiresAt ∧
        version.row.requestSha256 = mutation.requestSha256 service ∧
        session.readKey service mutation version = { session with
          rowLock := some version.tid
          stage := .replaying completion.status completion.body completion.auditId }) ∨
      ¬ mutation.claimedAt < version.row.expiresAt ∧
        session.readKey service mutation version =
          { session with rowLock := some version.tid, stage := .clearing } := by
  by_cases hlive : mutation.claimedAt < version.row.expiresAt
  swap
  · exact .inr (.inr ⟨hlive, by simp [Session.readKey, hlive]⟩)
  by_cases hdigest : version.row.requestSha256 = mutation.requestSha256 service
  swap
  · refine .inl ⟨_, hlive, .inl ⟨hdigest, rfl⟩, ?_⟩
    simp [Session.readKey, hlive, hdigest, Session.refuse, Session.close]
  cases hcompletion : version.row.completion with
  | none =>
      refine .inl ⟨_, hlive, .inr (.inl ⟨rfl, rfl⟩), ?_⟩
      simp [Session.readKey, hlive, hdigest, hcompletion, Session.refuse, Session.close]
  | some completion =>
      by_cases hhash : completion.bodySha256 = service.sha256 completion.body
      · refine .inr (.inl ⟨completion, rfl, hlive, hdigest, ?_⟩)
        simp [Session.readKey, hlive, hdigest, hcompletion, hhash]
      · refine .inl ⟨_, hlive, .inr (.inr ⟨⟨completion, rfl, hhash⟩, rfl⟩), ?_⟩
        simp [Session.readKey, hlive, hdigest, hcompletion, hhash, Session.refuse, Session.close]

def World.selectKey (world : World ι) (mutation : Mutation) (i : ι) (session : Session) :
    World ι :=
  match world.keys (mutation.keyName service) with
  | none => world.put i { session with stage := .clearing }
  | some version =>
      if world.isLocked i version.tid then
        world.put i { session with stage := .selecting version.tid }
      else world.put i (session.readKey service mutation version)

/-- A `SELECT … FOR UPDATE` that has waited: the version it found may be gone. -/
def World.resumeSelect (world : World ι) (mutation : Mutation) (i : ι) (session : Session)
    (tid : Nat) : World ι :=
  if world.isLocked i tid then world
  else
    match (world.keys (mutation.keyName service)).filter (·.tid = tid) with
    | none => world.put i { session with stage := .clearing }
    | some version => world.put i (session.readKey service mutation version)

/-- The first `DELETE` of the claim. -/
def World.clearKey (world : World ι) (mutation : Mutation) (i : ι) (session : Session) : World ι :=
  match world.keys (mutation.keyName service) with
  | none => world.put i { session with stage := .inserting }
  | some version =>
      if world.isLocked i version.tid then
        world.put i { session with stage := .deleting version.tid }
      else world.put i { session with
        rowLock := some version.tid, removed := true, stage := .inserting }

def World.resumeDelete (world : World ι) (mutation : Mutation) (i : ι) (session : Session)
    (tid : Nat) : World ι :=
  if world.isLocked i tid then world
  else
    match (world.keys (mutation.keyName service)).filter (·.tid = tid) with
    | none => world.put i { session with stage := .inserting }
    | some version => world.put i { session with
        rowLock := some version.tid, removed := true, stage := .inserting }

/-- The `INSERT` of the claim. -/
def World.insertKey (world : World ι) (mutations : ι → Mutation) (i : ι) (session : Session) :
    World ι :=
  if world.awaitsInsert service mutations i then world
  else
    match world.rival ((mutations i).keyName service) session with
    | some _ => world.put i (session.refuse (Refusal.duplicate "procedure_case_idempotency_pkey").thrown)
    | none => world.put i { session with
        inserted := some ((mutations i).claimRow service), stage := .working }

/-! ## The work of a request -/

/-- What `executeMutation` passes to `create`. -/
def Mutation.createInput (mutation : Mutation) : CreateInput :=
  match mutation.request.body with
  | .create caseKey workflowVersionId jurisdiction subjectReference communityReference followUpAt =>
      { caseId := mutation.caseId, eventId := mutation.eventId
        tenantId := mutation.request.tenantId, caseKey, workflowVersionId, jurisdiction
        subjectReference, communityReference, followUpAt
        principalId := uuidText mutation.principal.principalId, now := mutation.now
        requestSha256 := mutation.requestSha256 service }
  | .update .. =>
      { caseId := mutation.caseId, eventId := mutation.eventId
        tenantId := mutation.request.tenantId, caseKey := [], workflowVersionId := []
        jurisdiction := [], subjectReference := none, communityReference := none
        followUpAt := none, principalId := uuidText mutation.principal.principalId
        now := mutation.now, requestSha256 := mutation.requestSha256 service }

/-- The case that a creation inserts. -/
def Mutation.newKey (mutation : Mutation) : CaseKey :=
  ((uuidValue mutation.request.tenantId).getD 0, (uuidValue mutation.caseId).getD 0)

def World.createCase (world : World ι) (mutation : Mutation) (i : ι) (session : Session) :
    World ι :=
  let input := mutation.createInput service
  if world.awaitsCase i input then world
  else
    match createStatements service.sql world.catalog world.tables input with
    | .error refusal =>
        world.put i (session.caught refusal.mapped.thrown refusal.aborts)
    | .ok out => world.put i { session with
        staged := some (mutation.newKey, out.tables), stage := .responding out.record }

/-- `tenantIdsEqual`. -/
def sameUuid (a b : JsString) : Bool := (uuidValue a).isSome && uuidValue a == uuidValue b

/-- The path check of an update. -/
def Mutation.namesCase (mutation : Mutation) (caseId : JsString) : Bool :=
  mutation.pathCaseId.any fun path => path ≠ [] ∧ sameUuid caseId path

/-- The case that an update names. -/
def Mutation.caseKey (mutation : Mutation) (caseId : JsString) : CaseKey :=
  (mutation.principal.tenantId, (uuidValue caseId).getD 0)

/-- The path check and `get … FOR UPDATE`. -/
def World.lockCase (world : World ι) (mutation : Mutation) (i : ι) (session : Session)
    (caseId : JsString) : World ι :=
  if mutation.namesCase caseId = true then
    if ∃ j, j ≠ i ∧ (world.sessions j).caseLock = some (mutation.caseKey caseId) then world
    else
      match get service.sql world.tables (mutation.caseKey caseId) with
      | none => world.put i (session.caught (.caseError
          { code := "case_not_found", message := "Procedure case not found" }) false)
      | some record => world.put i { session with
          caseLock := some (mutation.caseKey caseId)
          stage := .acting record (mutation.caseKey caseId) }
  else world.put i (session.caught (.api 400 "invalid_request") false)

/-- What `executeMutation` passes to `applyAction`. -/
def Mutation.actionInput (mutation : Mutation) (expectedRevision : Nat) (action : Action) :
    ActionInput where
  expectedRevision := expectedRevision
  action := action
  principalId := uuidText mutation.principal.principalId
  eventId := mutation.eventId
  entityId := mutation.entityId
  now := mutation.now

def World.work (world : World ι) (mutation : Mutation) (i : ι) (session : Session) : World ι :=
  match mutation.request.body with
  | .create .. => world.createCase service mutation i session
  | .update caseId _ _ => world.lockCase service mutation i session caseId

def World.act (world : World ι) (mutation : Mutation) (i : ι) (session : Session)
    (record : StoredCase) (key : CaseKey) : World ι :=
  match mutation.request.body with
  | .create .. => world
  | .update _ expectedRevision action =>
      match applyAction service.sql world.catalog world.tables record
          (mutation.actionInput expectedRevision action) with
      | .error refusal => world.put i (session.caught refusal.thrown refusal.aborts)
      | .ok out => world.put i { session with
          staged := some (key, out.tables), stage := .responding out.record }

/-- The response of a request that has changed a case. -/
def Mutation.response (mutation : Mutation) (record : StoredCase) : Response :=
  responseFor record mutation.requestId mutation.principal.credentialId mutation.auditId
    mutation.now

/-- The response is built and checked; a creation is sealed with it. -/
def Session.respond (session : Session) (mutation : Mutation) (record : StoredCase) : Session :=
  let response := mutation.response record
  if service.accepts response = true then
    match mutation.operation with
    | .create => { session with stage := .sealing record (service.render response) }
    | .update => { session with stage := .auditing (service.render response) }
  else session.caught
    (.plain "Generated ProcedureCase response failed the canonical v1 contract") false

def World.seal (world : World ι) (mutation : Mutation) (i : ι) (session : Session)
    (record : StoredCase) (body : JsString) : World ι :=
  match sealCreation service.sql world.catalog (world.view session) {
      tenantId := uuidText mutation.principal.tenantId, caseId := record.caseId
      principalId := uuidText mutation.principal.principalId
      requestSha256 := mutation.requestSha256 service, responseBody := body
      auditId := mutation.auditId } with
  | .error refusal => world.put i (session.caught refusal.thrown refusal.aborts)
  | .ok tables => world.put i { session with
      staged := session.staged.map fun staged => (staged.1, tables), stage := .auditing body }

/-- The `CHECK` on the length of a stored response. -/
def Service.acceptsLength (service : Service) (body : JsString) : Prop :=
  2 ≤ service.sql.bodyLength body ∧ service.sql.bodyLength body ≤ 1048576

instance (body : JsString) : Decidable (service.acceptsLength body) := by
  unfold Service.acceptsLength
  infer_instance

/-- `completeIdempotency` on the row that the transaction inserted. -/
def Session.complete (session : Session) (mutation : Mutation) (body : JsString) : Session :=
  match session.inserted.filter fun row =>
      row.requestSha256 = mutation.requestSha256 service ∧ row.completion = none with
  | none => session.caught (.plain "procedure case idempotency completion mismatch") false
  | some row =>
      if service.acceptsLength body then
        { session with
          inserted := some { row with
            completion := some {
              status := mutation.operation.status, body, bodySha256 := service.sha256 body
              auditId := mutation.auditId, completedAt := mutation.now } }
          stage := .committing mutation.operation.status body }
      else session.caught (.server "procedure_case_idempotency check") true

/-! ## The ends of a request -/

/-- The `catch`: `releaseIdempotency` runs before the error is thrown again, and
on an aborted transaction it throws itself. -/
def Session.release (session : Session) (failure : Failure) : Session :=
  if session.aborted = true then session.refuse transactionAborted else session.refuse failure

/-- The checks of `replayResponse` on a stored body. -/
def Mutation.recognizes (mutation : Mutation) (body auditId : JsString) : Bool :=
  (service.parse body).any fun response =>
    response.tenantId = uuidText mutation.principal.tenantId &&
      response.requestId = mutation.requestId &&
      response.credentialId = mutation.principal.credentialId && response.auditId = auditId

def Session.replay (session : Session) (mutation : Mutation) (status : Nat)
    (body auditId : JsString) : Session :=
  if mutation.recognizes service body auditId = true then
    { session with stage := .committing status body }
  else { session with stage := .invalidating }

/-- `invalidateCompletedIdempotency` in a transaction of its own, on a second
connection: it waits for every transaction that has locked the row, that of its
own request included. -/
def World.invalidate (world : World ι) (mutation : Mutation) (i : ι) (session : Session) :
    World ι :=
  match world.keys (mutation.keyName service) with
  | none => world.put i (session.refuse (.api 500 "internal_error"))
  | some version =>
      if ∃ j, (world.sessions j).rowLock = some version.tid then world
      else ({ world with
          keys := Function.update world.keys (mutation.keyName service) none }).put i
        (session.refuse (.api 500 "internal_error"))

/-- `COMMIT`: the private rows become the committed ones. -/
def World.commit (world : World ι) (mutation : Mutation) (i : ι) (session : Session)
    (status : Nat) (body : JsString) : World ι :=
  let name := mutation.keyName service
  let keys :=
    match session.inserted with
    | some row => Function.update world.keys name (some { tid := world.nextTid, row })
    | none => if session.removed = true then Function.update world.keys name none else world.keys
  ({ world with tables := world.view session, keys, nextTid := world.nextTid + 1 }).put i
    { session.close (.done status body) with
      applied := session.applied || session.staged.isSome }

/-! ## One step -/

/-- The next statement of a request. -/
def World.proceed (mutations : ι → Mutation) (world : World ι) (i : ι) : World ι :=
  let session := world.sessions i
  let mutation := mutations i
  match session.stage with
  | .start => world.put i { session with
      stage := match mutation.operation with
        | .create => .locking
        | .update => .claiming }
  | .locking =>
      if ∃ j, j ≠ i ∧ (world.sessions j).advisory = some (mutation.lockKey service) then world
      else world.put i { session with
        advisory := some (mutation.lockKey service), stage := .locked }
  | .locked => world.put i (session.readAggregate (world.tables.acknowledged?
      mutation.principal.tenantId mutation.principal.principalId
      (mutation.requestSha256 service)))
  | .claiming => world.selectKey service mutation i session
  | .selecting tid => world.resumeSelect service mutation i session tid
  | .clearing => world.clearKey service mutation i session
  | .deleting tid => world.resumeDelete service mutation i session tid
  | .inserting => world.insertKey service mutations i session
  | .working => world.work service mutation i session
  | .acting record key => world.act service mutation i session record key
  | .responding record => world.put i (session.respond service mutation record)
  | .sealing record body => world.seal service mutation i session record body
  | .auditing body => world.put i { session with stage := .completing body }
  | .completing body => world.put i (session.complete service mutation body)
  | .releasing failure => world.put i (session.release failure)
  | .replaying status body auditId =>
      world.put i (session.replay service mutation status body auditId)
  | .invalidating => world.invalidate service mutation i session
  | .committing status body => world.commit service mutation i session status body
  | .done _ _ | .failed _ => world

/-- The next statement of a request fails on the server: a lost connection, a
timeout, a full disk. -/
def Session.fault (session : Session) (message : String) : Session :=
  match session.stage with
  | .working | .acting _ _ | .sealing _ _ | .auditing _ | .completing _ =>
      session.caught (.server message) true
  | .releasing _ =>
      if session.aborted = true then session.refuse transactionAborted
      else session.refuse (.server message)
  | .responding _ | .replaying _ _ _ | .done _ _ | .failed _ => session
  | _ => session.refuse (.server message)

/-- Before any request has begun. -/
def World.opening (ι : Type) (catalog : Catalog) (tables : Tables)
    (keys : KeyName → Option KeyVersion) (nextTid : Nat) : World ι where
  catalog := catalog
  tables := tables
  keys := keys
  nextTid := nextTid
  sessions := fun _ => .opening

/-- A request takes its next step, its next statement fails, or another
component changes what the case statements only read. -/
inductive Event (ι : Type)
  | proceed (i : ι)
  | fault (i : ι) (message : String)
  | catalog (catalog : Catalog)

/-- The request that takes the step. -/
def Event.request : Event ι → Option ι
  | .proceed i | .fault i _ => some i
  | .catalog _ => none

def World.step (mutations : ι → Mutation) (world : World ι) : Event ι → World ι
  | .proceed i => world.proceed service mutations i
  | .fault i message => world.put i ((world.sessions i).fault message)
  | .catalog catalog => { world with catalog }

/-! ## What a step does -/

/-- **Errors of the `try` block**: what a step has found, what it throws, and
whether the server has aborted the transaction. -/
inductive Session.Throws (mutations : ι → Mutation) (world : World ι) (i : ι) :
    Failure → Bool → Prop
  | create (refusal : Refusal) (hstage : (world.sessions i).stage = .working)
      (hkind : (mutations i).operation = .create)
      (hrefused : createStatements service.sql world.catalog world.tables
        ((mutations i).createInput service) = .error refusal) :
      Session.Throws mutations world i refusal.mapped.thrown refusal.aborts
  | path (caseId : JsString) (expectedRevision : Nat) (action : Action)
      (hstage : (world.sessions i).stage = .working)
      (hbody : (mutations i).request.body = .update caseId expectedRevision action)
      (hpath : (mutations i).namesCase caseId = false) :
      Session.Throws mutations world i (.api 400 "invalid_request") false
  | missing (caseId : JsString) (expectedRevision : Nat) (action : Action)
      (hstage : (world.sessions i).stage = .working)
      (hbody : (mutations i).request.body = .update caseId expectedRevision action)
      (hnone : get service.sql world.tables ((mutations i).caseKey caseId) = none) :
      Session.Throws mutations world i (.caseError
        { code := "case_not_found", message := "Procedure case not found" }) false
  | act (record : StoredCase) (key : CaseKey) (caseId : JsString) (expectedRevision : Nat)
      (action : Action) (refusal : Refusal) (hstage : (world.sessions i).stage = .acting record key)
      (hbody : (mutations i).request.body = .update caseId expectedRevision action)
      (hrefused : applyAction service.sql world.catalog world.tables record
        ((mutations i).actionInput expectedRevision action) = .error refusal) :
      Session.Throws mutations world i refusal.thrown refusal.aborts
  | respond (record : StoredCase) (hstage : (world.sessions i).stage = .responding record)
      (hrejects : service.accepts ((mutations i).response record) = false) :
      Session.Throws mutations world i
        (.plain "Generated ProcedureCase response failed the canonical v1 contract") false
  | sealing (record : StoredCase) (body : JsString) (refusal : Refusal)
      (hstage : (world.sessions i).stage = .sealing record body) :
      Session.Throws mutations world i refusal.thrown refusal.aborts
  | mismatch (body : JsString) (hstage : (world.sessions i).stage = .completing body)
      (hnone : ∀ row ∈ (world.sessions i).inserted,
        ¬ (row.requestSha256 = (mutations i).requestSha256 service ∧ row.completion = none)) :
      Session.Throws mutations world i
        (.plain "procedure case idempotency completion mismatch") false
  | length (body : JsString) (hstage : (world.sessions i).stage = .completing body)
      (hlength : ¬ service.acceptsLength body) :
      Session.Throws mutations world i (.server "procedure_case_idempotency check") true

/-- **Move of one transaction.**  What a step that only changes the transaction
of its request has found, and what it makes of the transaction. -/
inductive Session.Move (mutations : ι → Mutation) (world : World ι) (i : ι) : Session → Prop
  | begin (hstage : (world.sessions i).stage = .start) :
      Session.Move mutations world i { world.sessions i with
        stage := match (mutations i).operation with
          | .create => .locking
          | .update => .claiming }
  | lock (hstage : (world.sessions i).stage = .locking)
      (hfree : ∀ j, j ≠ i → (world.sessions j).advisory ≠ some ((mutations i).lockKey service)) :
      Session.Move mutations world i { world.sessions i with
        advisory := some ((mutations i).lockKey service), stage := .locked }
  | aggregate (hstage : (world.sessions i).stage = .locked) :
      Session.Move mutations world i ((world.sessions i).readAggregate (world.tables.acknowledged?
        (mutations i).principal.tenantId (mutations i).principal.principalId
        ((mutations i).requestSha256 service)))
  | selects (version : KeyVersion) (hstage : (world.sessions i).stage = .claiming)
      (hkey : world.keys ((mutations i).keyName service) = some version)
      (hlocked : world.isLocked i version.tid) :
      Session.Move mutations world i { world.sessions i with stage := .selecting version.tid }
  | read (version : KeyVersion)
      (hstage : (world.sessions i).stage = .claiming ∨
        (world.sessions i).stage = .selecting version.tid)
      (hkey : world.keys ((mutations i).keyName service) = some version)
      (hfree : ¬ world.isLocked i version.tid) :
      Session.Move mutations world i ((world.sessions i).readKey service (mutations i) version)
  | unread (hstage : (world.sessions i).stage = .claiming ∧
          world.keys ((mutations i).keyName service) = none ∨
        ∃ tid, (world.sessions i).stage = .selecting tid ∧
          ∀ version ∈ world.keys ((mutations i).keyName service), version.tid ≠ tid) :
      Session.Move mutations world i { world.sessions i with stage := .clearing }
  | deletes (version : KeyVersion) (hstage : (world.sessions i).stage = .clearing)
      (hkey : world.keys ((mutations i).keyName service) = some version)
      (hlocked : world.isLocked i version.tid) :
      Session.Move mutations world i { world.sessions i with stage := .deleting version.tid }
  | remove (version : KeyVersion)
      (hstage : (world.sessions i).stage = .clearing ∨
        (world.sessions i).stage = .deleting version.tid)
      (hkey : world.keys ((mutations i).keyName service) = some version)
      (hfree : ¬ world.isLocked i version.tid) :
      Session.Move mutations world i { world.sessions i with
        rowLock := some version.tid, removed := true, stage := .inserting }
  | unremoved (hstage : (world.sessions i).stage = .clearing ∧
          world.keys ((mutations i).keyName service) = none ∨
        ∃ tid, (world.sessions i).stage = .deleting tid ∧
          ∀ version ∈ world.keys ((mutations i).keyName service), version.tid ≠ tid) :
      Session.Move mutations world i { world.sessions i with stage := .inserting }
  | collide (version : KeyVersion) (hstage : (world.sessions i).stage = .inserting)
      (hfree : ¬ world.awaitsInsert service mutations i)
      (hrival : world.rival ((mutations i).keyName service) (world.sessions i) = some version) :
      Session.Move mutations world i ((world.sessions i).refuse
        (Refusal.duplicate "procedure_case_idempotency_pkey").thrown)
  | insert (hstage : (world.sessions i).stage = .inserting)
      (hfree : ¬ world.awaitsInsert service mutations i)
      (hrival : world.rival ((mutations i).keyName service) (world.sessions i) = none) :
      Session.Move mutations world i { world.sessions i with
        inserted := some ((mutations i).claimRow service), stage := .working }
  | throws (failure : Failure) (aborted : Bool)
      (hthrows : Session.Throws service mutations world i failure aborted) :
      Session.Move mutations world i ((world.sessions i).caught failure aborted)
  | create (out : Outcome) (hstage : (world.sessions i).stage = .working)
      (hkind : (mutations i).operation = .create)
      (hfree : ¬ world.awaitsCase i ((mutations i).createInput service))
      (hout : createStatements service.sql world.catalog world.tables
        ((mutations i).createInput service) = .ok out) :
      Session.Move mutations world i { world.sessions i with
        staged := some ((mutations i).newKey, out.tables), stage := .responding out.record }
  | lockCase (key : CaseKey) (record : StoredCase) (hstage : (world.sessions i).stage = .working)
      (hbody : ∃ caseId expectedRevision action,
        (mutations i).request.body = .update caseId expectedRevision action ∧
          key = (mutations i).caseKey caseId)
      (hfree : ∀ j, j ≠ i → (world.sessions j).caseLock ≠ some key)
      (hrecord : get service.sql world.tables key = some record) :
      Session.Move mutations world i { world.sessions i with
        caseLock := some key, stage := .acting record key }
  | act (record : StoredCase) (key : CaseKey) (caseId : JsString) (expectedRevision : Nat)
      (action : Action) (out : Outcome) (hstage : (world.sessions i).stage = .acting record key)
      (hbody : (mutations i).request.body = .update caseId expectedRevision action)
      (hout : applyAction service.sql world.catalog world.tables record
        ((mutations i).actionInput expectedRevision action) = .ok out) :
      Session.Move mutations world i { world.sessions i with
        staged := some (key, out.tables), stage := .responding out.record }
  | respond (record : StoredCase) (hstage : (world.sessions i).stage = .responding record)
      (haccepts : service.accepts ((mutations i).response record) = true) :
      Session.Move mutations world i { world.sessions i with
        stage := match (mutations i).operation with
          | .create => .sealing record (service.render ((mutations i).response record))
          | .update => .auditing (service.render ((mutations i).response record)) }
  | sealing (record : StoredCase) (body : JsString) (tables : Tables)
      (hstage : (world.sessions i).stage = .sealing record body)
      (hsealed : sealCreation service.sql world.catalog (world.view (world.sessions i)) {
          tenantId := uuidText (mutations i).principal.tenantId, caseId := record.caseId
          principalId := uuidText (mutations i).principal.principalId
          requestSha256 := (mutations i).requestSha256 service, responseBody := body
          auditId := (mutations i).auditId } = .ok tables) :
      Session.Move mutations world i { world.sessions i with
        staged := (world.sessions i).staged.map fun staged => (staged.1, tables)
        stage := .auditing body }
  | audit (body : JsString) (hstage : (world.sessions i).stage = .auditing body) :
      Session.Move mutations world i { world.sessions i with stage := .completing body }
  | complete (body : JsString) (row : KeyRow)
      (hstage : (world.sessions i).stage = .completing body)
      (hrow : (world.sessions i).inserted = some row)
      (hmine : row.requestSha256 = (mutations i).requestSha256 service ∧ row.completion = none) :
      Session.Move mutations world i { world.sessions i with
        inserted := some { row with
          completion := some {
            status := (mutations i).operation.status, body, bodySha256 := service.sha256 body
            auditId := (mutations i).auditId, completedAt := (mutations i).now } }
        stage := .committing (mutations i).operation.status body }
  | release (failure : Failure) (hstage : (world.sessions i).stage = .releasing failure) :
      Session.Move mutations world i ((world.sessions i).release failure)
  | recognize (status : Nat) (body auditId : JsString)
      (hstage : (world.sessions i).stage = .replaying status body auditId)
      (hbody : (mutations i).recognizes service body auditId = true) :
      Session.Move mutations world i { world.sessions i with stage := .committing status body }
  | reject (status : Nat) (body auditId : JsString)
      (hstage : (world.sessions i).stage = .replaying status body auditId)
      (hbody : (mutations i).recognizes service body auditId = false) :
      Session.Move mutations world i { world.sessions i with stage := .invalidating }
  | forget (hstage : (world.sessions i).stage = .invalidating)
      (hnone : world.keys ((mutations i).keyName service) = none) :
      Session.Move mutations world i ((world.sessions i).refuse (.api 500 "internal_error"))

/-- **Change of the world** by one event. -/
inductive Change (mutations : ι → Mutation) (world : World ι) : Event ι → World ι → Prop
  | wait (i : ι) : Change mutations world (.proceed i) world
  | move (i : ι) (session : Session) (hmove : Session.Move service mutations world i session) :
      Change mutations world (.proceed i) (world.put i session)
  | commit (i : ι) (status : Nat) (body : JsString)
      (hstage : (world.sessions i).stage = .committing status body) :
      Change mutations world (.proceed i)
        (world.commit service (mutations i) i (world.sessions i) status body)
  | invalidate (i : ι) (version : KeyVersion) (hstage : (world.sessions i).stage = .invalidating)
      (hkey : world.keys ((mutations i).keyName service) = some version)
      (hfree : ∀ j, (world.sessions j).rowLock ≠ some version.tid) :
      Change mutations world (.proceed i)
        (({ world with
          keys := Function.update world.keys ((mutations i).keyName service) none }).put i
            ((world.sessions i).refuse (.api 500 "internal_error")))
  | fault (i : ι) (message : String) :
      Change mutations world (.fault i message)
        (world.put i ((world.sessions i).fault message))
  | catalog (catalog : Catalog) :
      Change mutations world (.catalog catalog) { world with catalog }

variable {service : Service} {mutations : ι → Mutation} {world : World ι} {i j : ι}

theorem filter_tid {found : Option KeyVersion} {tid : Nat} :
    found.filter (·.tid = tid) = none ↔ ∀ version ∈ found, version.tid ≠ tid := by
  simp [Option.filter_eq_none_iff]

theorem selectKey_change (hstage : (world.sessions i).stage = .claiming) :
    Change service mutations world (.proceed i)
      (world.selectKey service (mutations i) i (world.sessions i)) := by
  rw [World.selectKey]
  split
  · exact .move i _ (.unread (.inl ⟨hstage, ‹_›⟩))
  · split
    · exact .move i _ (.selects _ hstage ‹_› ‹_›)
    · exact .move i _ (.read _ (.inl hstage) ‹_› ‹_›)

theorem resumeSelect_change {tid : Nat} (hstage : (world.sessions i).stage = .selecting tid) :
    Change service mutations world (.proceed i)
      (world.resumeSelect service (mutations i) i (world.sessions i) tid) := by
  rw [World.resumeSelect]
  split
  · exact .wait i
  · split
    next hnone => exact .move i _ (.unread (.inr ⟨tid, hstage, filter_tid.mp hnone⟩))
    next version hfound =>
      obtain ⟨hkey, htid⟩ := Option.filter_eq_some_iff.mp hfound
      obtain rfl : version.tid = tid := by simpa using htid
      exact .move i _ (.read version (.inr hstage) hkey ‹_›)

theorem clearKey_change (hstage : (world.sessions i).stage = .clearing) :
    Change service mutations world (.proceed i)
      (world.clearKey service (mutations i) i (world.sessions i)) := by
  rw [World.clearKey]
  split
  · exact .move i _ (.unremoved (.inl ⟨hstage, ‹_›⟩))
  · split
    · exact .move i _ (.deletes _ hstage ‹_› ‹_›)
    · exact .move i _ (.remove _ (.inl hstage) ‹_› ‹_›)

theorem resumeDelete_change {tid : Nat} (hstage : (world.sessions i).stage = .deleting tid) :
    Change service mutations world (.proceed i)
      (world.resumeDelete service (mutations i) i (world.sessions i) tid) := by
  rw [World.resumeDelete]
  split
  · exact .wait i
  · split
    next hnone => exact .move i _ (.unremoved (.inr ⟨tid, hstage, filter_tid.mp hnone⟩))
    next version hfound =>
      obtain ⟨hkey, htid⟩ := Option.filter_eq_some_iff.mp hfound
      obtain rfl : version.tid = tid := by simpa using htid
      exact .move i _ (.remove version (.inr hstage) hkey ‹_›)

theorem insertKey_change (hstage : (world.sessions i).stage = .inserting) :
    Change service mutations world (.proceed i)
      (world.insertKey service mutations i (world.sessions i)) := by
  rw [World.insertKey]
  split
  · exact .wait i
  · split
    · exact .move i _ (.collide _ hstage ‹_› ‹_›)
    · exact .move i _ (.insert hstage ‹_› ‹_›)

theorem createCase_change (hstage : (world.sessions i).stage = .working)
    (hkind : (mutations i).operation = .create) :
    Change service mutations world (.proceed i)
      (world.createCase service (mutations i) i (world.sessions i)) := by
  rw [World.createCase]
  split
  · exact .wait i
  · split
    · exact .move i _ (.throws _ _ (.create _ hstage hkind ‹_›))
    · exact .move i _ (.create _ hstage hkind ‹_› ‹_›)

theorem lockCase_change {caseId : JsString} {expectedRevision : Nat} {action : Action}
    (hstage : (world.sessions i).stage = .working)
    (hbody : (mutations i).request.body = .update caseId expectedRevision action) :
    Change service mutations world (.proceed i)
      (world.lockCase service (mutations i) i (world.sessions i) caseId) := by
  rw [World.lockCase]
  split
  · split
    · exact .wait i
    next hfree =>
      split
      · exact .move i _ (.throws _ _ (.missing caseId _ _ hstage hbody ‹_›))
      · exact .move i _ (.lockCase _ _ hstage ⟨caseId, _, _, hbody, rfl⟩
          (fun j hj hlock => hfree ⟨j, hj, hlock⟩) ‹_›)
  next hpath => exact .move i _ (.throws _ _ (.path caseId _ _ hstage hbody (by simpa using hpath)))

omit [Fintype ι] in
theorem act_change {record : StoredCase} {key : CaseKey}
    (hstage : (world.sessions i).stage = .acting record key) :
    Change service mutations world (.proceed i)
      (world.act service (mutations i) i (world.sessions i) record key) := by
  rw [World.act]
  split
  · exact .wait i
  · split
    · exact .move i _ (.throws _ _ (.act record key _ _ _ _ hstage ‹_› ‹_›))
    · exact .move i _ (.act record key _ _ _ _ hstage ‹_› ‹_›)

omit [Fintype ι] in
theorem respond_change {record : StoredCase}
    (hstage : (world.sessions i).stage = .responding record) :
    Change service mutations world (.proceed i)
      (world.put i ((world.sessions i).respond service (mutations i) record)) := by
  rw [Session.respond]
  by_cases haccepts : service.accepts ((mutations i).response record) = true
  · have hmove := Session.Move.respond record hstage haccepts
    simp only [haccepts, if_true]
    cases hkind : (mutations i).operation <;> rw [hkind] at hmove <;> exact .move i _ hmove
  · simp only [haccepts]
    exact .move i _ (.throws _ _ (.respond record hstage (by simpa using haccepts)))

omit [Fintype ι] in
theorem complete_change {body : JsString}
    (hstage : (world.sessions i).stage = .completing body) :
    Change service mutations world (.proceed i)
      (world.put i ((world.sessions i).complete service (mutations i) body)) := by
  rw [Session.complete]
  split
  next hnone =>
    refine .move i _ (.throws _ _ (.mismatch body hstage fun row hrow hmine => ?_))
    exact Option.filter_eq_none_iff.mp hnone row hrow (by simpa using hmine)
  next row hfound =>
    obtain ⟨hrow, hmine⟩ := Option.filter_eq_some_iff.mp hfound
    split
    · exact .move i _ (.complete body row hstage hrow (by simpa using hmine))
    next hlength => exact .move i _ (.throws _ _ (.length body hstage hlength))

/-- **Inversion of a step.** -/
theorem step_change (event : Event ι) :
    Change service mutations world event (world.step service mutations event) := by
  cases event with
  | fault i message => exact .fault i message
  | catalog catalog => exact .catalog catalog
  | proceed i =>
      rw [World.step, World.proceed]
      cases hstage : (world.sessions i).stage with
      | start => exact .move i _ (.begin hstage)
      | locking =>
          simp only
          split
          · exact .wait i
          next hfree => exact .move i _ (.lock hstage fun j hj hlock => hfree ⟨j, hj, hlock⟩)
      | locked => exact .move i _ (.aggregate hstage)
      | claiming => exact selectKey_change hstage
      | selecting tid => exact resumeSelect_change hstage
      | clearing => exact clearKey_change hstage
      | deleting tid => exact resumeDelete_change hstage
      | inserting => exact insertKey_change hstage
      | working =>
          simp only [World.work]
          cases hbody : (mutations i).request.body with
          | create =>
              exact createCase_change hstage (by rw [Mutation.operation, CaseRequest.operation, hbody])
          | update =>
              exact lockCase_change hstage hbody
      | acting record key => exact act_change hstage
      | responding record => exact respond_change hstage
      | sealing record body =>
          simp only [World.seal]
          split
          · exact .move i _ (.throws _ _ (.sealing record body _ hstage))
          · exact .move i _ (.sealing record body _ hstage ‹_›)
      | auditing body => exact .move i _ (.audit body hstage)
      | completing body => exact complete_change hstage
      | releasing failure => exact .move i _ (.release failure hstage)
      | replaying status body auditId =>
          simp only [Session.replay]
          split
          next hbody => exact .move i _ (.recognize status body auditId hstage hbody)
          next hbody => exact .move i _ (.reject status body auditId hstage (by simpa using hbody))
      | invalidating =>
          simp only [World.invalidate]
          split
          · exact .move i _ (.forget hstage ‹_›)
          · split
            · exact .wait i
            next hfree => exact .invalidate i _ hstage ‹_› fun j hj => hfree ⟨j, hj⟩
      | committing status body => exact .commit i status body hstage
      | done status body => exact .wait i
      | failed failure => exact .wait i

/-- `step_change`, in a form to take apart. -/
theorem step_cases (service : Service) (mutations : ι → Mutation) (world : World ι)
    (event : Event ι) : ∃ next, world.step service mutations event = next ∧
      Change service mutations world event next :=
  ⟨_, rfl, step_change event⟩

omit [DecidableEq ι] [Fintype ι] in
theorem move_not_ended {session : Session}
    (hmove : Session.Move service mutations world i session) :
    (world.sessions i).stage.ended = false := by
  cases hmove with
  | read version hstage => rcases hstage with hstage | hstage <;> rw [hstage] <;> rfl
  | unread hstage => rcases hstage with ⟨hstage, _⟩ | ⟨_, hstage, _⟩ <;> rw [hstage] <;> rfl
  | remove version hstage => rcases hstage with hstage | hstage <;> rw [hstage] <;> rfl
  | unremoved hstage => rcases hstage with ⟨hstage, _⟩ | ⟨_, hstage, _⟩ <;> rw [hstage] <;> rfl
  | throws failure aborted hthrows => cases hthrows <;> simp_all [Stage.ended]
  | _ => simp_all [Stage.ended]

omit [DecidableEq ι] [Fintype ι] in
/-- Only a commit counts as an application. -/
theorem move_applied {session : Session}
    (hmove : Session.Move service mutations world i session) :
    session.applied = (world.sessions i).applied := by
  cases hmove with
  | aggregate hstage =>
      rcases readAggregate_cases (world.sessions i) (world.tables.acknowledged?
          (mutations i).principal.tenantId (mutations i).principal.principalId
          ((mutations i).requestSha256 service)) with hread | ⟨_, _, _, _, _, _, hread⟩
      · rw [hread]
      · rw [hread]
  | read version =>
      rcases readKey_cases service (world.sessions i) (mutations i) version with
          ⟨_, _, _, hread⟩ | ⟨_, _, _, _, hread⟩ | ⟨_, hread⟩
      · rw [hread]
        rfl
      · rw [hread]
      · rw [hread]
  | release failure hstage =>
      rw [Session.release]
      split <;> rfl
  | _ => rfl

theorem fault_ended {session : Session} {message : String} (hended : session.stage.ended = true) :
    session.fault message = session := by
  rw [Session.fault]
  cases hstage : session.stage with
  | done | failed => rfl
  | _ => simp [hstage, Stage.ended] at hended

/-- A step of another request leaves a request alone. -/
theorem step_other {event : Event ι} (hother : event.request ≠ some i) :
    (world.step service mutations event).sessions i = world.sessions i := by
  obtain ⟨next, hnext, hchange⟩ := step_cases service mutations world event
  rw [hnext]
  cases hchange with
  | wait j => rfl
  | catalog catalog => rfl
  | move j session hmove => exact put_other _ _ fun h => hother (by rw [h]; rfl)
  | fault j message => exact put_other _ _ fun h => hother (by rw [h]; rfl)
  | commit j status body hstage => exact put_other _ _ fun h => hother (by rw [h]; rfl)
  | invalidate j version hstage hkey hfree =>
      exact put_other _ _ fun h => hother (by rw [h]; rfl)

/-- A request that has an answer takes no further step. -/
theorem ended_stays (event : Event ι) (hended : (world.sessions i).stage.ended = true) :
    (world.step service mutations event).sessions i = world.sessions i := by
  by_cases hother : event.request = some i
  swap
  · exact step_other hother
  obtain ⟨next, hnext, hchange⟩ := step_cases service mutations world event
  rw [hnext]
  cases hchange with
  | wait j => rfl
  | catalog catalog => rfl
  | move j session hmove =>
      obtain rfl : j = i := by simpa [Event.request] using hother
      simp [move_not_ended hmove] at hended
  | fault j message =>
      obtain rfl : j = i := by simpa [Event.request] using hother
      rw [put_self, fault_ended hended]
  | commit j status body hstage =>
      obtain rfl : j = i := by simpa [Event.request] using hother
      simp [hstage, Stage.ended] at hended
  | invalidate j version hstage hkey hfree =>
      obtain rfl : j = i := by simpa [Event.request] using hother
      simp [hstage, Stage.ended] at hended

end Cases
