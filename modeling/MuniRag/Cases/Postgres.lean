import MuniRag.Cases.Database

/-!
# The PostgreSQL case repository

`PostgresProcedureCaseRepository`: `create`, `sealCreation`, `get` and
`applyAction`, statement by statement.  Each function reads and writes the
tables as its transaction sees them; a refusal rolls the transaction back.
-/

namespace Cases

open Results Table

/-- A `ProcedureCaseError` thrown by a check. -/
def throughCase {α : Type} : Except CaseError α → Except Refusal α
  | .ok a => .ok a
  | .error error => .error (.case error)

theorem throughCase_ok {α : Type} {answer : Except CaseError α} {a : α} :
    throughCase answer = .ok a ↔ answer = .ok a := by
  cases answer <;> simp [throughCase]

variable (host : SqlHost) (catalog : Catalog)

/-! ## Reading a case -/

def Tables.case? (tables : Tables) (key : CaseKey) : Option CaseRow :=
  tables.cases.find? (·.key = key)

def StepRow.record (row : StepRow) : StepRecord where
  stepId := row.stepId
  title := row.title
  ordinal := row.ordinal
  state := row.state
  updatedByPrincipalId := uuidText row.updatedByPrincipalId
  updatedAt := row.updatedAt

def DocumentRow.record (row : DocumentRow) : DocumentRecord where
  documentReferenceId := uuidText row.id
  requirementId := row.requirementId
  documentVersionId := row.documentVersionId.map uuidText
  state := row.state
  note := row.note
  updatedByPrincipalId := uuidText row.updatedByPrincipalId
  createdAt := row.createdAt
  updatedAt := row.updatedAt

def BlockerRow.record (row : BlockerRow) : BlockerRecord where
  blockerId := uuidText row.id
  blockerCode := row.blockerCode
  description := row.description
  resolvedAt := row.resolvedAt
  resolvedByPrincipalId := row.resolvedByPrincipalId.map uuidText
  createdByPrincipalId := uuidText row.createdByPrincipalId
  createdAt := row.createdAt

def EventRow.record (row : EventRow) : EventRecord where
  eventId := uuidText row.id
  actorPrincipalId := uuidText row.actorPrincipalId
  eventType := row.eventType
  revision := row.revision
  details := row.details
  createdAt := row.createdAt

/-- `mapCase` with its `relations`. -/
def mapCase (tables : Tables) (row : CaseRow) : StoredCase where
  caseId := uuidText row.id
  tenantId := uuidText row.tenantId
  caseKey := row.caseKey
  workflowVersionId := uuidText row.workflowVersionId
  workflowVersionNumber := row.workflowVersionNumber
  jurisdiction := row.jurisdiction
  subjectReference := row.subjectReference
  communityReference := row.communityReference
  status := row.status
  validationState := row.validationState
  currentStepId := row.currentStepId
  followUpAt := row.followUpAt.map host.isoText
  operationalNote := row.operationalNote
  revision := row.revision
  createdByPrincipalId := uuidText row.createdByPrincipalId
  updatedByPrincipalId := uuidText row.updatedByPrincipalId
  createdAt := row.createdAt
  updatedAt := row.updatedAt
  steps := (orderedBy StepRow.ordinal (tables.steps.filter (·.case = row.key))).map StepRow.record
  documents := (orderedBy (fun row => toLex (row.createdAt, row.id))
    (tables.documents.filter (·.case = row.key))).map DocumentRow.record
  blockers := (orderedBy (fun row => toLex (row.createdAt, row.id))
    (tables.blockers.filter (·.case = row.key))).map BlockerRow.record
  events := (orderedBy (fun row => toLex (row.createdAt, row.id))
    (tables.events.filter (·.case = row.key))).map EventRow.record

def get (tables : Tables) (key : CaseKey) : Option StoredCase :=
  (tables.case? key).map (mapCase host tables)

/-! ## Creating a case -/

/-- The step id and title that `create` gives the step at a position. -/
def RawStep.named (index : Nat) (step : RawStep) : JsString × JsString :=
  ((step.stepId.or step.id).getD (js "step-" ++ js (toString (index + 1))),
    (step.title.or step.action).getD (js "Paso " ++ js (toString (index + 1))))

/-- The `catch` of `create`: a violated unique constraint is a case conflict. -/
def mapDuplicate {α : Type} : Except Refusal α → Except Refusal α
  | .error (.duplicate _) =>
      .error (.case { code := "case_conflict", message := "Case key already exists" })
  | other => other

theorem mapDuplicate_ok {α : Type} {answer : Except Refusal α} {a : α} :
    mapDuplicate answer = .ok a ↔ answer = .ok a := by
  cases answer with
  | ok b => rfl
  | error refusal => cases refusal <;> simp [mapDuplicate]

def castTime (text : Option JsString) : Except Refusal (Option Time) :=
  match text with
  | none => pure none
  | some text => do
      let time ← orRefuse (host.parseTime text)
        (Refusal.database "invalid input syntax for type timestamp with time zone")
      pure (some time)

def castOptionalUuid (text : Option JsString) : Except Refusal (Option Uuid) :=
  match text with
  | none => pure none
  | some text => do
      let id ← castUuid text
      pure (some id)

/-- The tables a call leaves and the record it returns. -/
structure Outcome where
  tables : Tables
  record : StoredCase

/-- `insertStep` for each step of a list, the first with ordinal `index + 1`. -/
def insertSteps (key : CaseKey) (principalId : Uuid) (now : Time) :
    Tables → Nat → List (JsString × JsString) → Except Refusal Tables
  | tables, _, [] => pure tables
  | tables, index, step :: steps => do
      let tables ← insertStep host catalog tables {
        caseId := key.2, tenantId := key.1, stepId := step.1, title := step.2
        ordinal := index + 1, state := .notStarted, updatedByPrincipalId := principalId
        updatedAt := now }
      insertSteps key principalId now tables (index + 1) steps

/-- The `try` block of `create`. -/
def insertCreation (tables : Tables) (input : CreateInput) (tenantId : Uuid)
    (workflow : WorkflowRow) (steps : List (JsString × JsString)) : Except Refusal Outcome := do
  let caseId ← castUuid input.caseId
  let principalId ← castUuid input.principalId
  let eventId ← castUuid input.eventId
  let followUpAt ← castTime host input.followUpAt
  let row : CaseRow := {
    id := caseId, tenantId, caseKey := input.caseKey, workflowVersionId := workflow.id
    workflowVersionNumber := workflow.versionNumber, jurisdiction := workflow.jurisdiction
    subjectReference := input.subjectReference, communityReference := input.communityReference
    status := .active, validationState := .unreviewed
    currentStepId := steps.head?.map Prod.fst, followUpAt, operationalNote := none, revision := 1
    createdByPrincipalId := principalId, updatedByPrincipalId := principalId
    createRequestSha256 := input.requestSha256, initialResponseBody := none
    initialAuditId := none, createdAt := input.now, updatedAt := input.now }
  let tables ← insertCase host catalog tables row
  let tables ← insertSteps host catalog row.key principalId input.now tables 0 steps
  let tables ← insertEvent host catalog tables {
    id := eventId, tenantId, caseId, actorPrincipalId := principalId
    eventType := "procedure_case.created", revision := 1
    details := .created input.workflowVersionId workflow.versionNumber, createdAt := input.now }
  pure { tables, record := mapCase host tables row }

def create (tables : Tables) (input : CreateInput) : Except Refusal Outcome := do
  let tenantId ← castUuid input.tenantId
  let workflowVersionId ← castUuid input.workflowVersionId
  let workflow ← orRefuse
    ((catalog.workflows.find? fun row =>
      row.tenantId = tenantId ∧ row.id = workflowVersionId).filter (·.isApproved))
    (.case { code := "workflow_not_approved", message := "Approved workflow version required" })
  require (workflow.jurisdiction = input.jurisdiction)
    (.case { code := "workflow_not_approved", message := "Workflow jurisdiction mismatch" })
  let steps := workflow.steps.mapIdx RawStep.named
  require (1 ≤ steps.length ∧ steps.length ≤ 100)
    (.case { code := "workflow_not_approved", message := "Approved workflow has invalid steps" })
  mapDuplicate (insertCreation host catalog tables input tenantId workflow steps)

/-- The one `UPDATE` that stores the response of a creation; it only matches
the case of this request while no response is stored. -/
def sealCreation (tables : Tables) (input : SealInput) : Except Refusal Tables := do
  let tenantId ← castUuid input.tenantId
  let caseId ← castUuid input.caseId
  let principalId ← castUuid input.principalId
  let auditId ← castUuid input.auditId
  let row ← orRefuse
    ((tables.case? (tenantId, caseId)).filter fun row =>
      row.createdByPrincipalId = principalId ∧ row.createRequestSha256 = input.requestSha256 ∧
        row.initialResponseBody = none)
    (.failure "procedure case creation seal mismatch")
  updateCase host catalog tables row { row with
    initialResponseBody := some input.responseBody, initialAuditId := some auditId }

/-! ## Applying an action -/

/-- The columns of the case that an action decides on. -/
structure Decided where
  status : CaseStatus
  validationState : ValidationState
  currentStepId : Option JsString
  followUpAt : Option JsString
  operationalNote : Option JsString

def StoredCase.decided (record : StoredCase) : Decided where
  status := record.status
  validationState := record.validationState
  currentStepId := record.currentStepId
  followUpAt := record.followUpAt
  operationalNote := record.operationalNote

/-- The columns that the `UPDATE` of `applyAction` assigns. -/
def CaseRow.assign (row : CaseRow) (decided : Decided) (followUpAt : Option Time)
    (principalId : Uuid) (now : Time) : CaseRow :=
  { row with
    status := decided.status
    validationState := decided.validationState
    currentStepId := decided.currentStepId
    followUpAt
    operationalNote := decided.operationalNote
    revision := row.revision + 1
    updatedByPrincipalId := principalId
    updatedAt := now }

/-- The statements of the action itself, before the case row is updated. -/
def act (tables : Tables) (key : CaseKey) (record : StoredCase) (input : ActionInput) :
    Except Refusal (Tables × Decided) :=
  let decided := record.decided
  match input.action with
  | .setStepState stepId state => do
      let principalId ← castUuid input.principalId
      let tables ← updateStep catalog tables key stepId state principalId input.now
      pure (tables, { decided with
        currentStepId := some stepId, status := statusAfterStep record.status state })
  | .recordDocument requirementId state documentVersionId note => do
      require (state.needsVersion → documentVersionId.any (· ≠ []))
        (.case { code := "document_not_found", message := "Document version not found" })
      let version ← castOptionalUuid documentVersionId
      require (state.needsVersion → version.any fun version =>
          (key.1, version) ∈ catalog.documentVersions)
        (.case { code := "document_not_found", message := "Document version not found" })
      let id ← castUuid input.entityId
      let principalId ← castUuid input.principalId
      let tables ← upsertDocument host catalog tables {
        id, tenantId := key.1, caseId := key.2, requirementId, documentVersionId := version
        state, note, updatedByPrincipalId := principalId, createdAt := input.now
        updatedAt := input.now }
      pure (tables, decided)
  | .addBlocker blockerCode description => do
      let id ← castUuid input.entityId
      let principalId ← castUuid input.principalId
      let tables ← insertBlocker host catalog tables {
        id, tenantId := key.1, caseId := key.2, blockerCode, description, resolvedAt := none
        resolvedByPrincipalId := none, createdByPrincipalId := principalId
        createdAt := input.now }
      pure (tables, { decided with status := .blocked })
  | .resolveBlocker blockerId => do
      let id ← castUuid blockerId
      let principalId ← castUuid input.principalId
      let tables ← resolveBlocker catalog tables key id principalId input.now
      pure (tables, { decided with
        status :=
          if tables.blockers.any (fun row => row.case = key ∧ row.isOpen) then record.status
          else .active })
  | .setFollowUp followUpAt => pure (tables, { decided with followUpAt })
  | .setValidationState validationState =>
      pure (tables, { decided with
        validationState, status := statusAfterValidation record.status validationState })
  | .appendNote note => pure (tables, { decided with operationalNote := some note })
  | .closeCase note =>
      pure (tables, { decided with operationalNote := some note, status := .closed })

def applyAction (tables : Tables) (record : StoredCase) (input : ActionInput) :
    Except Refusal Outcome := do
  throughCase (requireCurrent record input.expectedRevision)
  let tenantId ← castUuid record.tenantId
  let caseId ← castUuid record.caseId
  let acted ← act host catalog tables (tenantId, caseId) record input
  let followUpAt ← castTime host acted.2.followUpAt
  let principalId ← castUuid input.principalId
  let old ← orRefuse
    ((acted.1.case? (tenantId, caseId)).filter (·.revision = record.revision))
    (.case { code := "revision_conflict", message := "Procedure case revision conflict" })
  let new := old.assign acted.2 followUpAt principalId input.now
  let tables ← updateCase host catalog acted.1 old new
  let eventId ← castUuid input.eventId
  let tables ← insertEvent host catalog tables {
    id := eventId, tenantId, caseId, actorPrincipalId := principalId
    eventType := "procedure_case." ++ input.action.type, revision := new.revision
    details := eventDetails input.action, createdAt := input.now }
  pure { tables, record := mapCase host tables new }

end Cases
