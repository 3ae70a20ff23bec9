import MuniRag.Text
import MuniRag.Lib.Results

/-!
# Procedure cases

The records of a procedure case and the eight actions that change it, as
`procedureCaseTypes.ts` declares them.  Identifiers are texts here, because the
in-memory repository compares them as texts.
-/

namespace Cases

inductive CaseStatus
  | active
  | blocked
  | readyForReview
  | closed
  deriving DecidableEq, Repr

inductive ValidationState
  | unreviewed
  | inReview
  | validated
  | changesRequired
  deriving DecidableEq, Repr

inductive StepState
  | notStarted
  | inProgress
  | blocked
  | readyForReview
  | completed
  deriving DecidableEq, Repr

inductive DocumentState
  | missing
  | requested
  | received
  | reviewed
  deriving DecidableEq, Repr

/-- `ProcedureCaseActionV1`. -/
inductive Action
  | setStepState (stepId : JsString) (state : StepState)
  | recordDocument (requirementId : JsString) (state : DocumentState)
      (documentVersionId note : Option JsString)
  | addBlocker (blockerCode description : JsString)
  | resolveBlocker (blockerId : JsString)
  | setFollowUp (followUpAt : Option JsString)
  | setValidationState (validationState : ValidationState)
  | appendNote (note : JsString)
  | closeCase (note : JsString)
  deriving DecidableEq, Repr

def Action.type : Action → String
  | .setStepState .. => "set_step_state"
  | .recordDocument .. => "record_document"
  | .addBlocker .. => "add_blocker"
  | .resolveBlocker .. => "resolve_blocker"
  | .setFollowUp .. => "set_follow_up"
  | .setValidationState .. => "set_validation_state"
  | .appendNote .. => "append_note"
  | .closeCase .. => "close_case"

/-- `ProcedureCaseError`. -/
structure CaseError where
  code : String
  message : String
  deriving DecidableEq, Repr

structure StepRecord where
  stepId : JsString
  title : JsString
  ordinal : Nat
  state : StepState
  updatedByPrincipalId : JsString
  updatedAt : Time
  deriving DecidableEq, Repr

structure DocumentRecord where
  documentReferenceId : JsString
  requirementId : JsString
  documentVersionId : Option JsString
  state : DocumentState
  note : Option JsString
  updatedByPrincipalId : JsString
  createdAt : Time
  updatedAt : Time
  deriving DecidableEq, Repr

structure BlockerRecord where
  blockerId : JsString
  blockerCode : JsString
  description : JsString
  resolvedAt : Option Time
  resolvedByPrincipalId : Option JsString
  createdByPrincipalId : JsString
  createdAt : Time
  deriving DecidableEq, Repr

/-- The JSON object stored with an event. -/
inductive EventDetails
  | created (workflowVersionId : JsString) (workflowVersionNumber : Int)
  | noteLength (action : String) (noteLength : Nat)
  | blockerCode (action : String) (blockerCode : JsString)
  | document (action : String) (requirementId : JsString) (state : DocumentState)
      (documentVersionId : Option JsString)
  | verbatim (action : Action)
  deriving DecidableEq, Repr

structure EventRecord where
  eventId : JsString
  actorPrincipalId : JsString
  eventType : String
  revision : Nat
  details : EventDetails
  createdAt : Time
  deriving DecidableEq, Repr

/-- `StoredProcedureCase`. -/
structure StoredCase where
  caseId : JsString
  tenantId : JsString
  caseKey : JsString
  workflowVersionId : JsString
  workflowVersionNumber : Int
  jurisdiction : JsString
  subjectReference : Option JsString
  communityReference : Option JsString
  status : CaseStatus
  validationState : ValidationState
  currentStepId : Option JsString
  followUpAt : Option JsString
  operationalNote : Option JsString
  revision : Nat
  createdByPrincipalId : JsString
  updatedByPrincipalId : JsString
  createdAt : Time
  updatedAt : Time
  steps : List StepRecord
  documents : List DocumentRecord
  blockers : List BlockerRecord
  events : List EventRecord
  deriving DecidableEq, Repr

def eventDetails (action : Action) : EventDetails :=
  match action with
  | .appendNote note => .noteLength action.type note.length
  | .closeCase note => .noteLength action.type note.length
  | .addBlocker blockerCode _ => .blockerCode action.type blockerCode
  | .recordDocument requirementId state documentVersionId _ =>
      .document action.type requirementId state documentVersionId
  | other => .verbatim other

/-- A create request, the fresh identifiers and the digest of the request. -/
structure CreateInput where
  caseId : JsString
  eventId : JsString
  tenantId : JsString
  caseKey : JsString
  workflowVersionId : JsString
  jurisdiction : JsString
  subjectReference : Option JsString
  communityReference : Option JsString
  followUpAt : Option JsString
  principalId : JsString
  now : Time
  requestSha256 : JsString
  deriving DecidableEq, Repr

/-- What `applyAction` gets besides the record it changes. -/
structure ActionInput where
  expectedRevision : Nat
  action : Action
  principalId : JsString
  eventId : JsString
  entityId : JsString
  now : Time
  deriving DecidableEq, Repr

structure SealInput where
  tenantId : JsString
  caseId : JsString
  principalId : JsString
  requestSha256 : JsString
  responseBody : JsString
  auditId : JsString
  deriving DecidableEq, Repr

/-- The two checks that both repositories make before any action. -/
def requireCurrent (record : StoredCase) (expectedRevision : Nat) : Except CaseError Unit := do
  Results.require (record.revision = expectedRevision)
    { code := "revision_conflict", message := "Procedure case revision conflict" }
  Results.require (record.status ≠ .closed)
    { code := "invalid_transition", message := "Closed procedure case cannot change" }

theorem requireCurrent_ok {record : StoredCase} {expectedRevision : Nat} {done : Unit} :
    requireCurrent record expectedRevision = .ok done ↔
      record.revision = expectedRevision ∧ record.status ≠ .closed := by
  simp [requireCurrent, Results.then_ok, Results.require_ok]

/-- `received` and `reviewed` documents must name a document version. -/
def DocumentState.needsVersion (state : DocumentState) : Bool :=
  state == .received || state == .reviewed

/-- The status after a step was set to a state. -/
def statusAfterStep (status : CaseStatus) : StepState → CaseStatus
  | .blocked => .blocked
  | .readyForReview => .readyForReview
  | .inProgress => if status = .blocked then status else .active
  | _ => status

/-- The status after a validation state was set. -/
def statusAfterValidation (status : CaseStatus) : ValidationState → CaseStatus
  | .inReview => .readyForReview
  | _ => status

/-- A blocker that is not resolved. -/
def BlockerRecord.isOpen (blocker : BlockerRecord) : Bool := blocker.resolvedAt.isNone

def StoredCase.hasOpenBlocker (record : StoredCase) : Bool := record.blockers.any (·.isOpen)

end Cases
