import MuniRag.Workflow.Database
import MuniRag.Lib.Runs

/-!
# The PostgreSQL workflow repository

`PostgresWorkflowLifecycleRepository` as the API handler drives it: one
transaction reads the version for update, applies one operation of the state
machine to the record read, and writes the result back.  A thrown error rolls
the transaction back.

The record is rebuilt from the tables on every read.  In particular its latest
review comes from the review table, where reviews of earlier submissions stay.
-/

namespace Workflow

open Results Runs

variable {Value : Type}

/-- A call of the state machine inside a repository call. -/
def throughStateMachine {α : Type} : Except LifecycleError α → Except Refusal α
  | .ok a => .ok a
  | .error error => .error (.lifecycle error)

theorem throughStateMachine_ok {α : Type} {answer : Except LifecycleError α} {a : α} :
    throughStateMachine answer = .ok a ↔ answer = .ok a := by
  cases answer <;> simp [throughStateMachine]

/-- `StoredWorkflowVersion`. -/
structure StoredVersion (Value : Type) extends VersionRecord Value where
  procedureKey : JsString

def ReviewRow.record (review : ReviewRow) : ReviewRecord where
  reviewId := review.id
  reviewerPrincipalId := review.reviewerPrincipalId
  decision := review.decision
  notes := review.notes
  createdAt := review.createdAt

def ApprovalRow.record (approval : ApprovalRow) : ApprovalRecord where
  approvalId := approval.id
  approverPrincipalId := approval.approverPrincipalId
  notes := approval.notes
  createdAt := approval.createdAt

def mapRow (db : Database Value) (row : VersionRow Value) (procedureKey : JsString) :
    StoredVersion Value where
  workflowVersionId := row.id
  tenantId := row.tenantId
  procedureId := row.procedureId
  versionNumber := row.versionNumber
  lifecycleStatus := row.lifecycleStatus
  generationSource := row.generationSource
  createdByPrincipalId := row.createdByPrincipalId
  jurisdiction := row.jurisdiction
  title := row.title
  workflowDefinition := row.workflowDefinition
  evidenceBundleId := row.evidenceBundleId
  revision := row.revision
  submittedByPrincipalId := row.submittedByPrincipalId
  submittedAt := row.submittedAt
  latestReview := (db.latestReview row.key).map ReviewRow.record
  approval := (db.approvalOf row.key).map ApprovalRow.record
  supersededByWorkflowVersionId := row.supersededByWorkflowVersionId
  archivedByPrincipalId := row.archivedByPrincipalId
  archivedAt := row.archivedAt
  createdAt := row.createdAt
  procedureKey := procedureKey

def get (db : Database Value) (key : VersionKey) : Option (StoredVersion Value) := do
  let row ← db.version? key
  let procedure ← db.procedures.find? fun procedure =>
    procedure.id = row.procedureId ∧ procedure.tenantId = row.tenantId
  pure (mapRow db row procedure.procedureKey)

/-- The columns that `updateRecord` assigns. -/
def VersionRow.assign (row : VersionRow Value) (record : VersionRecord Value) :
    VersionRow Value :=
  { row with
    lifecycleStatus := record.lifecycleStatus
    title := record.title
    jurisdiction := record.jurisdiction
    workflowDefinition := record.workflowDefinition
    evidenceBundleId := record.evidenceBundleId
    revision := record.revision
    submittedByPrincipalId := record.submittedByPrincipalId
    submittedAt := record.submittedAt
    approvedByPrincipalId := record.approval.map (·.approverPrincipalId)
    approvedAt := record.approval.map (·.createdAt)
    supersededByWorkflowVersionId := record.supersededByWorkflowVersionId
    archivedByPrincipalId := record.archivedByPrincipalId
    archivedAt := record.archivedAt }

@[simp] theorem VersionRow.assign_key (row : VersionRow Value) (record : VersionRecord Value) :
    (row.assign record).key = row.key := rfl

@[simp] theorem VersionRow.assign_status (row : VersionRow Value) (record : VersionRecord Value) :
    (row.assign record).lifecycleStatus = record.lifecycleStatus := rfl

def VersionRecord.key (record : VersionRecord Value) : VersionKey :=
  (record.tenantId, record.workflowVersionId)

/-- The tables a call leaves and the record it returns. -/
structure Outcome (Value : Type) where
  db : Database Value
  stored : StoredVersion Value

variable [DecidableEq Value] (host : SqlHost Value)

def updateRecord (db : Database Value) (record : VersionRecord Value) :
    Except Refusal (Outcome Value) := do
  let old ← orRefuse (db.version? record.key)
    (.failure "workflow version disappeared after update")
  let db ← updateVersion host db old (old.assign record)
  let stored ← orRefuse (get db record.key)
    (.failure "workflow version disappeared after update")
  pure { db, stored }

/-- A cast `$n::uuid`. -/
def castUuid (text : JsString) : Except Refusal Uuid :=
  orRefuse (uuidValue text) (.database "invalid input syntax for type uuid")

/-- A cast `$n::timestamptz` of a clock value. -/
def castTime (value : DateText) : Except Refusal Time :=
  orRefuse value (.database "invalid input syntax for type timestamp with time zone")

/-! ## The operations -/

/-- A draft request, with the two fresh identifiers.  The title and the
jurisdiction are those inside the definition. -/
structure DraftInput (Value : Type) where
  procedureId : JsString
  workflowVersionId : JsString
  tenantId : JsString
  procedureKey : JsString
  generationSource : String
  evidenceBundleId : Option JsString
  workflowDefinition : Value
  title : JsString
  jurisdiction : JsString
  now : DateText

/-- `INSERT INTO rag.procedures … ON CONFLICT (tenant_id, procedure_key) DO NOTHING`. -/
def insertProcedure (db : Database Value) (new : ProcedureRow) :
    Except Refusal (Database Value) := do
  raiseUnless (isKeyText new.procedureKey = true ∧ host.plainText new.title 300 ∧
    host.plainText new.jurisdiction 500) "procedures check"
  if ∃ row ∈ db.procedures, row.tenantId = new.tenantId ∧ row.procedureKey = new.procedureKey then
    pure db
  else
    raiseUnless (∀ row ∈ db.procedures, row.id ≠ new.id) "procedures_pkey"
    raiseUnless (new.tenantId ∈ db.tenants ∧
      (new.createdByPrincipalId, new.tenantId) ∈ db.principals) "procedures foreign key"
    pure { db with procedures := db.procedures ++ [new] }

def nextVersionNumber (db : Database Value) (tenantId procedureId : Uuid) : Int :=
  ((db.versions.filter fun row => row.tenantId = tenantId ∧ row.procedureId = procedureId).map
    (·.versionNumber)).foldl max 0 + 1

def createDraft (db : Database Value) (principal : Actor) (input : DraftInput Value) :
    Except Refusal (Outcome Value) := do
  let procedureId ← castUuid input.procedureId
  let tenantId ← castUuid input.tenantId
  let createdBy ← castUuid principal.principalId
  let db ← insertProcedure host db {
    id := procedureId, tenantId, procedureKey := input.procedureKey, title := input.title
    jurisdiction := input.jurisdiction, createdByPrincipalId := createdBy }
  let procedure ← orRefuse
    (db.procedures.find? fun row =>
      row.tenantId = tenantId ∧ row.procedureKey = input.procedureKey)
    (.failure "procedure identity unavailable")
  let record ← throughStateMachine (initializeWorkflowVersion host.toHost {
    workflowVersionId := input.workflowVersionId, tenantId := input.tenantId
    procedureId := uuidText procedure.id
    versionNumber := nextVersionNumber db tenantId procedure.id
    generationSource := input.generationSource, createdByPrincipalId := principal.principalId
    jurisdiction := input.jurisdiction, title := input.title
    workflowDefinition := input.workflowDefinition, evidenceBundleId := input.evidenceBundleId
    now := input.now })
  let db ← insertVersion host db {
    id := record.workflowVersionId, tenantId := record.tenantId
    procedureId := record.procedureId, versionNumber := record.versionNumber
    lifecycleStatus := .draft, generationSource := record.generationSource
    createdByPrincipalId := record.createdByPrincipalId, title := record.title
    jurisdiction := record.jurisdiction, workflowDefinition := record.workflowDefinition
    evidenceBundleId := record.evidenceBundleId, revision := record.revision
    submittedByPrincipalId := none, submittedAt := none, approvedByPrincipalId := none
    approvedAt := none, supersededByWorkflowVersionId := none, archivedByPrincipalId := none
    archivedAt := none, createdAt := record.createdAt }
  let stored ← orRefuse (get db record.key)
    (.failure "created workflow version unavailable")
  pure { db, stored }

def submitForReview (db : Database Value) (record : StoredVersion Value) (principal : Actor)
    (now : DateText) : Except Refusal (Outcome Value) := do
  let updated ← throughStateMachine
    (submitWorkflowForReview record.toVersionRecord principal now)
  updateRecord host db updated

def recordReview (db : Database Value) (record : StoredVersion Value) (principal : Actor)
    (input : ReviewInput) : Except Refusal (Outcome Value) := do
  let updated ← throughStateMachine
    (recordWorkflowReview host.toHost record.toVersionRecord principal input)
  let id ← castUuid input.reviewId
  let reviewerPrincipalId ← castUuid principal.principalId
  let decision ← orRefuse (reviewDecision? input.decision)
    (.database "workflow_reviews_decision_check")
  let createdAt ← castTime input.now
  let db ← insertReview host db {
    id, tenantId := record.tenantId, workflowVersionId := record.workflowVersionId
    reviewerPrincipalId, decision, notes := input.notes, createdAt }
  updateRecord host db updated

def approve (db : Database Value) (record : StoredVersion Value) (principal : Actor)
    (input : ApprovalInput) : Except Refusal (Outcome Value) := do
  let updated ← throughStateMachine
    (approveWorkflowVersion host.toHost record.toVersionRecord principal input)
  let id ← castUuid input.approvalId
  let approverPrincipalId ← castUuid principal.principalId
  let createdAt ← castTime input.now
  let db ← insertApproval host db {
    id, tenantId := record.tenantId, workflowVersionId := record.workflowVersionId
    approverPrincipalId, notes := input.notes, createdAt }
  updateRecord host db updated

def supersede (db : Database Value) (record : StoredVersion Value) (principal : Actor)
    (input : SupersessionApprovalInput) : Except Refusal (Outcome Value) := do
  let replacementId ← castUuid input.replacementWorkflowVersionId
  let replacement ← orRefuse (get db (record.tenantId, replacementId))
    (.lifecycle {
      code := "workflow_supersession_invalid"
      message := "Replacement workflow version is unavailable" })
  let result ← throughStateMachine
    (approveReplacementAndSupersede host.toHost record.toVersionRecord
      replacement.toVersionRecord principal input)
  let superseded ← updateRecord host db result.superseded
  let id ← castUuid input.approvalId
  let approverPrincipalId ← castUuid principal.principalId
  let createdAt ← castTime input.now
  let db ← insertApproval host superseded.db {
    id, tenantId := replacement.tenantId, workflowVersionId := replacement.workflowVersionId
    approverPrincipalId, notes := input.notes, createdAt }
  let approved ← updateRecord host db result.replacement
  pure { db := approved.db, stored := superseded.stored }

def archive (db : Database Value) (record : StoredVersion Value) (principal : Actor)
    (now : DateText) : Except Refusal (Outcome Value) := do
  let updated ← throughStateMachine
    (archiveWorkflowVersion record.toVersionRecord principal now)
  updateRecord host db updated

/-! ## One transaction of the handler -/

/-- One request: the principal, the version it names, and the operation. -/
inductive Command (Value : Type)
  | createDraft (principal : Actor) (input : DraftInput Value)
  | submitForReview (principal : Actor) (workflowVersionId : JsString) (now : DateText)
  | recordReview (principal : Actor) (workflowVersionId : JsString) (input : ReviewInput)
  | approve (principal : Actor) (workflowVersionId : JsString) (input : ApprovalInput)
  | supersede (principal : Actor) (workflowVersionId : JsString)
      (input : SupersessionApprovalInput)
  | archive (principal : Actor) (workflowVersionId : JsString) (now : DateText)

/-- `get(client, principal.tenantId, workflow_version_id, true)` of the handler. -/
def existing (db : Database Value) (principal : Actor) (workflowVersionId : JsString) :
    Except Refusal (StoredVersion Value) := do
  let tenantId ← castUuid principal.tenantId
  let id ← castUuid workflowVersionId
  orRefuse (get db (tenantId, id)) (.failure "Workflow not found")

def transaction (db : Database Value) : Command Value → Except Refusal (Outcome Value)
  | .createDraft principal input => createDraft host db principal input
  | .submitForReview principal id now => do
      let record ← existing db principal id
      submitForReview host db record principal now
  | .recordReview principal id input => do
      let record ← existing db principal id
      recordReview host db record principal input
  | .approve principal id input => do
      let record ← existing db principal id
      approve host db record principal input
  | .supersede principal id input => do
      let record ← existing db principal id
      supersede host db record principal input
  | .archive principal id now => do
      let record ← existing db principal id
      archive host db record principal now

/-! ## What the calls do to the tables -/

variable {host}
variable {db db' : Database Value} {out : Outcome Value}

omit [DecidableEq Value] in
theorem get_some {key : VersionKey} {stored : StoredVersion Value} (h : get db key = some stored) :
    ∃ row procedureKey, db.version? key = some row ∧ stored = mapRow db row procedureKey := by
  simp only [get, Option.bind_eq_bind, Option.bind_eq_some_iff] at h
  obtain ⟨row, hrow, procedure, -, hmap⟩ := h
  exact ⟨row, procedure.procedureKey, hrow, (Option.some.inj hmap).symm⟩

/-- The row behind a record that was read. -/
structure ReadFrom (db : Database Value) (row : VersionRow Value)
    (record : VersionRecord Value) : Prop where
  mem : row ∈ db.versions
  key : record.key = row.key
  find : db.version? row.key = some row
  status : record.lifecycleStatus = row.lifecycleStatus
  latestReview : record.latestReview = (db.latestReview row.key).map ReviewRow.record

omit [DecidableEq Value] in
theorem get_readFrom {key : VersionKey} {stored : StoredVersion Value}
    (h : get db key = some stored) :
    ∃ row, row.key = key ∧ ReadFrom db row stored.toVersionRecord := by
  obtain ⟨row, procedureKey, hrow, rfl⟩ := get_some h
  obtain ⟨hmem, hkey⟩ := Database.version?_some hrow
  exact ⟨row, hkey, hmem, rfl, hkey ▸ hrow, rfl, rfl⟩

omit [DecidableEq Value] in
theorem existing_ok {principal : Actor} {id : JsString} {stored : StoredVersion Value}
    (h : existing db principal id = .ok stored) :
    ∃ row tenantId versionId, uuidValue principal.tenantId = some tenantId ∧
      uuidValue id = some versionId ∧ row.key = (tenantId, versionId) ∧
      ReadFrom db row stored.toVersionRecord := by
  simp only [existing, castUuid, then_ok, orRefuse_ok] at h
  obtain ⟨tenantId, htenant, versionId, hid, hget⟩ := h
  obtain ⟨row, hkey, hread⟩ := get_readFrom hget
  exact ⟨row, tenantId, versionId, htenant, hid, hkey, hread⟩

/-- `UPDATE` of the one row `old`. -/
def Database.rewrite (db : Database Value) (old new : VersionRow Value) : Database Value :=
  { db with versions := Table.updateWhere (·.key = old.key) (fun _ => new) db.versions }

theorem updateRecord_ok {record : VersionRecord Value}
    (h : updateRecord host db record = .ok out) :
    ∃ old, db.version? record.key = some old ∧ out.db = db.rewrite old (old.assign record) := by
  simp only [updateRecord, then_ok, orRefuse_ok, return_ok] at h
  obtain ⟨old, hold, db', hupdate, stored, -, rfl⟩ := h
  exact ⟨old, hold, updateVersion_ok hupdate⟩

omit [DecidableEq Value] in
/-- The rows after a rewrite of `old`: the new row and the rows with other keys. -/
theorem mem_rewrite {old new row : VersionRow Value} (hkey : new.key = old.key)
    (h : row ∈ (db.rewrite old new).versions) :
    row = new ∨ (row ∈ db.versions ∧ row.key ≠ new.key) := by
  rcases Table.mem_updateWhere.mp h with ⟨_, _, _, rfl⟩ | ⟨hrow, hne⟩
  · exact .inl rfl
  · exact .inr ⟨hrow, hkey ▸ hne⟩

end Workflow
