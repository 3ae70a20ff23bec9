import MuniRag.Cases.Record
import MuniRag.Lib.JsMap
import MuniRag.Lib.Table

/-!
# The in-memory case repository

`InMemoryProcedureCaseRepository`: the maps it keeps, and `create`,
`sealCreation`, `get` and `applyAction` on them.
-/

namespace Cases

open Results

/-- `WorkflowSeed`. -/
structure WorkflowSeed where
  tenantId : JsString
  workflowVersionId : JsString
  versionNumber : Int
  jurisdiction : JsString
  isApproved : Bool
  steps : List (JsString × JsString)
  deriving DecidableEq, Repr

structure CreationAck where
  caseId : JsString
  responseBody : JsString
  auditId : JsString
  deriving DecidableEq, Repr

/-- The maps of the repository that cases live in.  `documentVersions` holds
`tenant:version` texts. -/
structure InMemory where
  cases : JsMap JsString StoredCase
  workflows : JsMap JsString WorkflowSeed
  documentVersions : List JsString
  creationAcks : JsMap JsString CreationAck
  creationIndex : JsMap JsString JsString

inductive CreateResult
  | created (record : StoredCase)
  | replay (responseBody auditId : JsString)

/-- The parts of a composed key, with `:` between them. -/
def joined : List JsString → JsString
  | [] => []
  | [part] => part
  | part :: parts => part ++ [0x3a] ++ joined parts

namespace InMemory

def key (tenantId caseId : JsString) : JsString :=
  joined [tenantId.map lowerUnit, caseId.map lowerUnit]

def creationKey (tenantId principalId requestSha256 : JsString) : JsString :=
  joined [tenantId, principalId, requestSha256]

/-- The record that `create` builds from an approved workflow. -/
def newCase (workflow : WorkflowSeed) (input : CreateInput) : StoredCase where
  caseId := input.caseId
  tenantId := input.tenantId
  caseKey := input.caseKey
  workflowVersionId := input.workflowVersionId
  workflowVersionNumber := workflow.versionNumber
  jurisdiction := workflow.jurisdiction
  subjectReference := input.subjectReference
  communityReference := input.communityReference
  status := .active
  validationState := .unreviewed
  currentStepId := workflow.steps.head?.map Prod.fst
  followUpAt := input.followUpAt
  operationalNote := none
  revision := 1
  createdByPrincipalId := input.principalId
  updatedByPrincipalId := input.principalId
  createdAt := input.now
  updatedAt := input.now
  steps := workflow.steps.mapIdx fun index step => {
    stepId := step.1, title := step.2, ordinal := index + 1, state := .notStarted
    updatedByPrincipalId := input.principalId, updatedAt := input.now }
  documents := []
  blockers := []
  events := [{
    eventId := input.eventId, actorPrincipalId := input.principalId
    eventType := "procedure_case.created", revision := 1
    details := .created input.workflowVersionId workflow.versionNumber
    createdAt := input.now }]

def create (repository : InMemory) (input : CreateInput) :
    Except CaseError (InMemory × CreateResult) := do
  let creation := creationKey input.tenantId input.principalId input.requestSha256
  match repository.creationAcks.get creation with
  | some ack => pure (repository, .replay ack.responseBody ack.auditId)
  | none => do
    require ((repository.creationIndex.get creation).isNone)
      { code := "case_conflict", message := "Procedure case creation is in progress" }
    let workflow ← orRefuse
      ((repository.workflows.get (joined [input.tenantId, input.workflowVersionId])).filter
        (·.isApproved))
      { code := "workflow_not_approved", message := "Approved workflow version required" }
    require (1 ≤ workflow.steps.length ∧ workflow.steps.length ≤ 100)
      { code := "workflow_not_approved", message := "Approved workflow has invalid steps" }
    require (workflow.jurisdiction = input.jurisdiction)
      { code := "workflow_not_approved", message := "Workflow jurisdiction mismatch" }
    require (∀ item ∈ repository.cases.values,
        ¬ (item.tenantId = input.tenantId ∧ item.caseKey = input.caseKey))
      { code := "case_conflict", message := "Case key already exists" }
    let record := newCase workflow input
    pure ({ repository with
      cases := repository.cases.set (key record.tenantId record.caseId) record
      creationIndex := repository.creationIndex.set creation record.caseId }, .created record)

def sealCreation (repository : InMemory) (input : SealInput) : Except String InMemory := do
  let creation := creationKey input.tenantId input.principalId input.requestSha256
  require (repository.creationIndex.get creation = some input.caseId)
    "procedure case creation seal mismatch"
  pure { repository with
    creationAcks := repository.creationAcks.set creation {
      caseId := input.caseId, responseBody := input.responseBody, auditId := input.auditId } }

def get (repository : InMemory) (tenantId caseId : JsString) : Option StoredCase :=
  repository.cases.get (key tenantId caseId)

/-- What the action itself changes; the revision and the event come after. -/
def act (documentVersions : List JsString) (record : StoredCase) (input : ActionInput) :
    Except CaseError StoredCase :=
  match input.action with
  | .setStepState stepId state => do
      require (record.steps.any (·.stepId = stepId))
        { code := "step_not_found", message := "Procedure case step not found" }
      pure { record with
        steps := Table.updateFirst (·.stepId = stepId)
          (fun step => { step with
            state, updatedByPrincipalId := input.principalId, updatedAt := input.now })
          record.steps
        currentStepId := some stepId
        status := statusAfterStep record.status state }
  | .recordDocument requirementId state documentVersionId note => do
      require (state.needsVersion → (documentVersionId.filter (· ≠ [])).any fun version =>
          joined [record.tenantId, version] ∈ documentVersions)
        { code := "document_not_found", message := "Document version not found" }
      match record.documents.find? (·.requirementId = requirementId) with
      | some existing =>
          pure { record with
            documents := Table.updateFirst (·.requirementId = requirementId)
              (fun _ => { existing with
                requirementId, documentVersionId, state, note
                updatedByPrincipalId := input.principalId, updatedAt := input.now })
              record.documents }
      | none =>
          pure { record with
            documents := record.documents ++ [{
              documentReferenceId := input.entityId, requirementId, documentVersionId, state
              note, updatedByPrincipalId := input.principalId, createdAt := input.now
              updatedAt := input.now }] }
  | .addBlocker blockerCode description =>
      pure { record with
        blockers := record.blockers ++ [{
          blockerId := input.entityId, blockerCode, description, resolvedAt := none
          resolvedByPrincipalId := none, createdByPrincipalId := input.principalId
          createdAt := input.now }]
        status := .blocked }
  | .resolveBlocker blockerId => do
      let _ ← orRefuse
        ((record.blockers.find? (·.blockerId = blockerId)).filter (·.isOpen))
        { code := "blocker_not_found", message := "Open blocker not found" }
      let blockers := Table.updateFirst (·.blockerId = blockerId)
        (fun blocker => { blocker with
          resolvedAt := some input.now, resolvedByPrincipalId := some input.principalId })
        record.blockers
      pure { record with
        blockers
        status := if blockers.any (·.isOpen) then record.status else .active }
  | .setFollowUp followUpAt => pure { record with followUpAt }
  | .setValidationState validationState =>
      pure { record with
        validationState, status := statusAfterValidation record.status validationState }
  | .appendNote note => pure { record with operationalNote := some note }
  | .closeCase note => pure { record with operationalNote := some note, status := .closed }

def applyAction (repository : InMemory) (record : StoredCase) (input : ActionInput) :
    Except CaseError (InMemory × StoredCase) := do
  requireCurrent record input.expectedRevision
  let acted ← act repository.documentVersions record input
  let next := { acted with
    revision := acted.revision + 1
    updatedByPrincipalId := input.principalId
    updatedAt := input.now
    events := acted.events ++ [{
      eventId := input.eventId, actorPrincipalId := input.principalId
      eventType := "procedure_case." ++ input.action.type, revision := acted.revision + 1
      details := eventDetails input.action, createdAt := input.now }] }
  pure ({ repository with cases := repository.cases.set (key next.tenantId next.caseId) next },
    next)

end InMemory

end Cases
