import MuniRag.Text
import MuniRag.Lib.Results

/-!
# The governed workflow state machine

The pure operations of `workflowLifecycle/stateMachine.ts` on one workflow
version.  Each is a chain of checks in the order of the source followed by one
record update, and refuses with the code and message the source throws.

After each operation stands its inversion lemma: everything a successful call
says about the record it was given and the record it returns.  The results on
runs use these lemmas and never open an operation again.
-/

namespace Workflow

open Results

inductive LifecycleStatus
  | draft
  | inReview
  | approved
  | superseded
  | archived
  deriving DecidableEq, Repr

/-- The status text that the source compares and prints. -/
def LifecycleStatus.text : LifecycleStatus → String
  | .draft => "draft"
  | .inReview => "in_review"
  | .approved => "approved"
  | .superseded => "superseded"
  | .archived => "archived"

inductive GenerationSource
  | ai
  | human
  | importer
  deriving DecidableEq, Repr

def generationSource? (text : String) : Option GenerationSource :=
  if text = "ai" then some .ai
  else if text = "human" then some .human
  else if text = "import" then some .importer
  else none

inductive ReviewDecision
  | changesRequested
  | recommendedForApproval
  deriving DecidableEq, Repr

def reviewDecision? (text : String) : Option ReviewDecision :=
  if text = "changes_requested" then some .changesRequested
  else if text = "recommended_for_approval" then some .recommendedForApproval
  else none

inductive SecurityRole
  | platformAdmin
  | tenantAdmin
  | procedureAuthor
  | procedureReviewer
  | procedureApprover
  | other
  deriving DecidableEq, Repr

def authorRoles : List SecurityRole := [.platformAdmin, .tenantAdmin, .procedureAuthor]
def reviewerRoles : List SecurityRole := [.platformAdmin, .tenantAdmin, .procedureReviewer]
def approverRoles : List SecurityRole := [.platformAdmin, .tenantAdmin, .procedureApprover]

/-- `WorkflowLifecycleError`. -/
structure LifecycleError where
  code : String
  message : String
  deriving DecidableEq, Repr

structure Actor where
  principalId : JsString
  tenantId : JsString
  roles : List SecurityRole
  deriving DecidableEq, Repr

structure ReviewRecord where
  reviewId : Uuid
  reviewerPrincipalId : Uuid
  decision : ReviewDecision
  notes : JsString
  createdAt : Time
  deriving DecidableEq, Repr

/-- The decision of an approval is always `approved`, so it is not a field. -/
structure ApprovalRecord where
  approvalId : Uuid
  approverPrincipalId : Uuid
  notes : JsString
  createdAt : Time
  deriving DecidableEq, Repr

/-- `WorkflowVersionRecord`, over the type `Value` of JSON definitions. -/
structure VersionRecord (Value : Type) where
  workflowVersionId : Uuid
  tenantId : Uuid
  procedureId : Uuid
  versionNumber : Int
  lifecycleStatus : LifecycleStatus
  generationSource : GenerationSource
  createdByPrincipalId : Uuid
  jurisdiction : JsString
  title : JsString
  workflowDefinition : Value
  evidenceBundleId : Option Uuid
  revision : Nat
  submittedByPrincipalId : Option Uuid
  submittedAt : Option Time
  latestReview : Option ReviewRecord
  approval : Option ApprovalRecord
  supersededByWorkflowVersionId : Option Uuid
  archivedByPrincipalId : Option Uuid
  archivedAt : Option Time
  createdAt : Time
  deriving DecidableEq, Repr

/-- What the operations use of the JavaScript runtime: Unicode normalisation
and the JSON codec on the definitions. -/
structure Host (Value : Type) where
  nfc : JsString → JsString
  isObject : Value → Bool
  stringify : Value → Option JsString
  byteLength : JsString → Nat
  parse : JsString → Value

def maxTitleLength : Nat := 300
def maxJurisdictionLength : Nat := 500
def maxReviewNotesLength : Nat := 4000
def maxDefinitionBytes : Nat := 2 * 1024 * 1024

variable {Value : Type} (host : Host Value)

/-- The control characters that no normalised text may contain. -/
def isForbiddenControl (u : UInt16) : Bool :=
  u ≤ 0x08 || u == 0x0b || u == 0x0c || (0x0e ≤ u && u ≤ 0x1f) || u == 0x7f

def normalizedText (value : JsString) (field : String) (maxLength : Nat) :
    Except LifecycleError JsString := do
  let normalized := trim (host.nfc value)
  require (normalized ≠ [] ∧ normalized.length ≤ maxLength ∧
      normalized.all (fun u => !isForbiddenControl u))
    { code := "workflow_input_invalid", message := field ++ " is outside policy" }
  pure normalized

/-- `UUID_PATTERN`: a UUID text of versions 1 to 5 in the standard variant. -/
def canonicalUuid (value : JsString) (field : String) : Except LifecycleError Uuid :=
  orRefuse
    ((uuidDigits value).bind fun digits =>
      if digits.getD 12 0 ∈ [1, 2, 3, 4, 5] ∧ digits.getD 16 0 ∈ [8, 9, 10, 11] then
        some (ofDigits digits)
      else none)
    { code := "workflow_identity_invalid", message := field ++ " must be a UUID" }

def canonicalTime (value : DateText) (field : String) : Except LifecycleError Time :=
  orRefuse value
    { code := "workflow_time_invalid", message := field ++ " must be an ISO timestamp" }

def clonedDefinition (value : Value) : Except LifecycleError Value := do
  require (host.isObject value = true)
    { code := "workflow_definition_invalid",
      message := "workflowDefinition must be a JSON object" }
  let serialized ← orRefuse (host.stringify value)
    { code := "workflow_definition_invalid",
      message := "workflowDefinition must be serializable JSON" }
  require (2 ≤ host.byteLength serialized ∧ host.byteLength serialized ≤ maxDefinitionBytes)
    { code := "workflow_definition_invalid",
      message := "workflowDefinition is outside the 2 MB policy" }
  pure (host.parse serialized)

/-- An optional identifier; the empty text counts as absent. -/
def optionalUuid (value : Option JsString) (field : String) :
    Except LifecycleError (Option Uuid) :=
  match value with
  | none => pure none
  | some [] => pure none
  | some text => do
      let id ← canonicalUuid text field
      pure (some id)

def hasRole (actor : Actor) (allowed : List SecurityRole) : Bool :=
  actor.roles.any (· ∈ allowed)

def requireRole (actor : Actor) (allowed : List SecurityRole) (code : String) :
    Except LifecycleError Unit :=
  require (hasRole actor allowed = true)
    { code := code, message := "The actor is not authorized for this transition" }

def requireTenant (record : VersionRecord Value) (actor : Actor) :
    Except LifecycleError Unit := do
  let tenant ← canonicalUuid actor.tenantId "actor.tenantId"
  require (tenant = record.tenantId)
    { code := "workflow_tenant_denied", message := "Workflow tenant access denied" }
  let _ ← canonicalUuid actor.principalId "actor.principalId"
  pure ()

def requireStatus (record : VersionRecord Value) (expected : LifecycleStatus) :
    Except LifecycleError Unit :=
  require (record.lifecycleStatus = expected)
    { code := "workflow_transition_invalid",
      message := "Workflow must be " ++ expected.text ++ " for this transition" }

/-! ## Creating and editing a draft -/

structure InitializeInput (Value : Type) where
  workflowVersionId : JsString
  tenantId : JsString
  procedureId : JsString
  versionNumber : Int
  generationSource : String
  createdByPrincipalId : JsString
  jurisdiction : JsString
  title : JsString
  workflowDefinition : Value
  evidenceBundleId : Option JsString
  now : DateText

/-- `Number.isSafeInteger` of an integer. -/
def isSafeInteger (n : Int) : Bool := -9007199254740991 ≤ n && n ≤ 9007199254740991

def initializeWorkflowVersion (input : InitializeInput Value) :
    Except LifecycleError (VersionRecord Value) := do
  let createdAt ← canonicalTime input.now "now"
  require (isSafeInteger input.versionNumber = true ∧ 1 ≤ input.versionNumber)
    { code := "workflow_version_invalid",
      message := "versionNumber must be a positive integer" }
  let generationSource ← orRefuse (generationSource? input.generationSource)
    { code := "workflow_generation_source_invalid",
      message := "generationSource is unsupported" }
  let workflowVersionId ← canonicalUuid input.workflowVersionId "workflowVersionId"
  let tenantId ← canonicalUuid input.tenantId "tenantId"
  let procedureId ← canonicalUuid input.procedureId "procedureId"
  let createdByPrincipalId ← canonicalUuid input.createdByPrincipalId "createdByPrincipalId"
  let jurisdiction ← normalizedText host input.jurisdiction "jurisdiction" maxJurisdictionLength
  let title ← normalizedText host input.title "title" maxTitleLength
  let workflowDefinition ← clonedDefinition host input.workflowDefinition
  let evidenceBundleId ← optionalUuid input.evidenceBundleId "evidenceBundleId"
  pure {
    workflowVersionId, tenantId, procedureId
    versionNumber := input.versionNumber
    lifecycleStatus := .draft
    generationSource, createdByPrincipalId, jurisdiction, title
    workflowDefinition, evidenceBundleId
    revision := 1
    submittedByPrincipalId := none
    submittedAt := none
    latestReview := none
    approval := none
    supersededByWorkflowVersionId := none
    archivedByPrincipalId := none
    archivedAt := none
    createdAt }

/-- What a new version looks like, whatever the inputs were. -/
theorem initializeWorkflowVersion_ok {input : InitializeInput Value}
    {record : VersionRecord Value} (h : initializeWorkflowVersion host input = .ok record) :
    record.lifecycleStatus = .draft ∧ record.submittedByPrincipalId = none ∧
      record.submittedAt = none ∧ record.latestReview = none ∧ record.approval = none ∧
      record.supersededByWorkflowVersionId = none := by
  simp only [initializeWorkflowVersion, then_ok, return_ok] at h
  obtain ⟨_, _, _, _, _, _, _, _, _, _, _, _, _, _, _, _, _, _, _, _, _, _, rfl⟩ := h
  exact ⟨rfl, rfl, rfl, rfl, rfl, rfl⟩

/-- `none` is an absent key; a present `evidenceBundleId` may itself be null. -/
structure ReviseInput (Value : Type) where
  workflowDefinition : Value
  title : Option JsString
  jurisdiction : Option JsString
  evidenceBundleId : Option (Option JsString)
  now : DateText

/-- A field that a revision reads only when the input defines it. -/
def whenDefined {α β : Type} (input : Option α) (kept : β)
    (read : α → Except LifecycleError β) : Except LifecycleError β :=
  match input with
  | some value => read value
  | none => pure kept

def reviseWorkflowDraft (record : VersionRecord Value) (actor : Actor)
    (input : ReviseInput Value) : Except LifecycleError (VersionRecord Value) := do
  requireTenant record actor
  requireRole actor authorRoles "workflow_authorization_denied"
  requireStatus record .draft
  let workflowDefinition ← clonedDefinition host input.workflowDefinition
  let title ← whenDefined input.title record.title
    (normalizedText host · "title" maxTitleLength)
  let jurisdiction ← whenDefined input.jurisdiction record.jurisdiction
    (normalizedText host · "jurisdiction" maxJurisdictionLength)
  let evidenceBundleId ← whenDefined input.evidenceBundleId record.evidenceBundleId
    (optionalUuid · "evidenceBundleId")
  let _ ← canonicalTime input.now "now"
  pure { record with
    workflowDefinition, title, jurisdiction, evidenceBundleId
    revision := record.revision + 1
    latestReview := none
    approval := none }

/-- Revising needs a draft, touches its content only and forgets its review. -/
theorem reviseWorkflowDraft_ok {record record' : VersionRecord Value} {actor : Actor}
    {input : ReviseInput Value} (h : reviseWorkflowDraft host record actor input = .ok record') :
    record.lifecycleStatus = .draft ∧
      ∃ definition title jurisdiction bundle, record' = { record with
        workflowDefinition := definition, title := title, jurisdiction := jurisdiction
        evidenceBundleId := bundle, revision := record.revision + 1
        latestReview := none, approval := none } := by
  simp only [reviseWorkflowDraft, requireStatus, then_ok, require_ok, return_ok] at h
  obtain ⟨_, _, _, _, _, hstatus, definition, _, title, _, jurisdiction, _, bundle, _, _, _, rfl⟩ := h
  exact ⟨hstatus, definition, title, jurisdiction, bundle, rfl⟩

def submitWorkflowForReview (record : VersionRecord Value) (actor : Actor) (now : DateText) :
    Except LifecycleError (VersionRecord Value) := do
  requireTenant record actor
  requireRole actor authorRoles "workflow_authorization_denied"
  requireStatus record .draft
  let submittedBy ← canonicalUuid actor.principalId "actor.principalId"
  let submittedAt ← canonicalTime now "now"
  pure { record with
    lifecycleStatus := .inReview
    submittedByPrincipalId := some submittedBy
    submittedAt := some submittedAt
    latestReview := none
    approval := none }

theorem submitWorkflowForReview_ok {record record' : VersionRecord Value} {actor : Actor}
    {now : DateText} (h : submitWorkflowForReview record actor now = .ok record') :
    record.lifecycleStatus = .draft ∧
      ∃ submitter at', record' = { record with
        lifecycleStatus := .inReview, submittedByPrincipalId := some submitter
        submittedAt := some at', latestReview := none, approval := none } := by
  simp only [submitWorkflowForReview, requireStatus, then_ok, require_ok, return_ok] at h
  obtain ⟨_, _, _, _, _, hstatus, submitter, _, at', _, rfl⟩ := h
  exact ⟨hstatus, submitter, at', rfl⟩

/-! ## Review and approval -/

structure ReviewInput where
  reviewId : JsString
  decision : String
  notes : JsString
  now : DateText

def recordWorkflowReview (record : VersionRecord Value) (actor : Actor) (input : ReviewInput) :
    Except LifecycleError (VersionRecord Value) := do
  requireTenant record actor
  requireRole actor reviewerRoles "workflow_review_denied"
  requireStatus record .inReview
  let reviewerPrincipalId ← canonicalUuid actor.principalId "actor.principalId"
  require (reviewerPrincipalId ≠ record.createdByPrincipalId)
    { code := "workflow_separation_of_duties",
      message := "The workflow creator cannot review the same version" }
  let createdAt ← canonicalTime input.now "now"
  let reviewId ← canonicalUuid input.reviewId "reviewId"
  let notes ← normalizedText host input.notes "notes" maxReviewNotesLength
  let decision ← orRefuse (reviewDecision? input.decision)
    { code := "workflow_review_invalid", message := "Review decision is unsupported" }
  let updated : VersionRecord Value := { record with
    latestReview := some { reviewId, reviewerPrincipalId, decision, notes, createdAt } }
  match decision with
  | .changesRequested =>
      pure { updated with
        lifecycleStatus := .draft
        submittedByPrincipalId := none
        submittedAt := none
        approval := none }
  | .recommendedForApproval => pure updated

/-- The record a review leaves: in review when the review recommends approval,
back in draft with no submission when it requests changes. -/
def VersionRecord.reviewed (record : VersionRecord Value) (review : ReviewRecord) :
    VersionRecord Value :=
  match review.decision with
  | .changesRequested => { record with
      latestReview := some review, lifecycleStatus := .draft
      submittedByPrincipalId := none, submittedAt := none, approval := none }
  | .recommendedForApproval => { record with latestReview := some review }

theorem recordWorkflowReview_ok {record record' : VersionRecord Value} {actor : Actor}
    {input : ReviewInput} (h : recordWorkflowReview host record actor input = .ok record') :
    record.lifecycleStatus = .inReview ∧
      ∃ review : ReviewRecord,
        canonicalUuid actor.principalId "actor.principalId" = .ok review.reviewerPrincipalId ∧
        canonicalUuid input.reviewId "reviewId" = .ok review.reviewId ∧
        reviewDecision? input.decision = some review.decision ∧
        input.now = some review.createdAt ∧
        review.reviewerPrincipalId ≠ record.createdByPrincipalId ∧
        record' = record.reviewed review := by
  simp only [recordWorkflowReview, requireStatus, canonicalTime, then_ok, require_ok,
    orRefuse_ok] at h
  obtain ⟨_, _, _, _, _, hstatus, reviewer, hreviewer, _, hcreator, createdAt, hnow, id, hid,
    notes, _, decision, hdecision, h⟩ := h
  refine ⟨hstatus, ⟨id, reviewer, decision, notes, createdAt⟩, hreviewer, hid, hdecision, hnow,
    hcreator, ?_⟩
  cases decision with
  | changesRequested => exact (return_ok.mp h).symm
  | recommendedForApproval => exact (return_ok.mp h).symm

structure ApprovalInput where
  approvalId : JsString
  notes : JsString
  now : DateText

/-- The latest review, when it recommends approval. -/
def recommendation (record : VersionRecord Value) : Option ReviewRecord :=
  record.latestReview.filter (·.decision = .recommendedForApproval)

def approveWorkflowVersion (record : VersionRecord Value) (actor : Actor)
    (input : ApprovalInput) : Except LifecycleError (VersionRecord Value) := do
  requireTenant record actor
  requireRole actor approverRoles "workflow_approval_denied"
  requireStatus record .inReview
  let approverPrincipalId ← canonicalUuid actor.principalId "actor.principalId"
  let review ← orRefuse (recommendation record)
    { code := "workflow_review_required",
      message := "A recommended human review is required before approval" }
  require (approverPrincipalId ≠ record.createdByPrincipalId ∧
      approverPrincipalId ≠ review.reviewerPrincipalId)
    { code := "workflow_separation_of_duties",
      message := "Creator, reviewer, and approver must be distinct principals" }
  let createdAt ← canonicalTime input.now "now"
  let approvalId ← canonicalUuid input.approvalId "approvalId"
  let notes ← normalizedText host input.notes "notes" maxReviewNotesLength
  pure { record with
    lifecycleStatus := .approved
    approval := some { approvalId, approverPrincipalId, notes, createdAt } }

/-- **What an approval has in front of it.**  The record is in review, its
latest review recommends approval, and the approver is neither its creator nor
the reviewer. -/
theorem approveWorkflowVersion_ok {record record' : VersionRecord Value} {actor : Actor}
    {input : ApprovalInput} (h : approveWorkflowVersion host record actor input = .ok record') :
    record.lifecycleStatus = .inReview ∧
      ∃ (review : ReviewRecord) (approval : ApprovalRecord),
        record.latestReview = some review ∧ review.decision = .recommendedForApproval ∧
        canonicalUuid actor.principalId "actor.principalId" = .ok approval.approverPrincipalId ∧
        canonicalUuid input.approvalId "approvalId" = .ok approval.approvalId ∧
        input.now = some approval.createdAt ∧
        approval.approverPrincipalId ≠ record.createdByPrincipalId ∧
        approval.approverPrincipalId ≠ review.reviewerPrincipalId ∧
        record' = { record with lifecycleStatus := .approved, approval := some approval } := by
  simp only [approveWorkflowVersion, requireStatus, canonicalTime, recommendation, then_ok,
    require_ok, orRefuse_ok, return_ok, Option.filter_eq_some_iff, decide_eq_true_eq] at h
  obtain ⟨_, _, _, _, _, hstatus, approver, happrover, review, ⟨hreview, hdecision⟩, _,
    ⟨hcreator, hreviewer⟩, createdAt, hnow, id, hid, notes, _, rfl⟩ := h
  exact ⟨hstatus, review, ⟨id, approver, notes, createdAt⟩, hreview, hdecision, happrover, hid,
    hnow, hcreator, hreviewer, rfl⟩

/-! ## Supersession and archival -/

structure SupersessionInput where
  replacementWorkflowVersionId : JsString
  now : DateText

def supersedeWorkflowVersion (record : VersionRecord Value) (actor : Actor)
    (input : SupersessionInput) : Except LifecycleError (VersionRecord Value) := do
  requireTenant record actor
  requireRole actor approverRoles "workflow_approval_denied"
  requireStatus record .approved
  let replacement ← canonicalUuid input.replacementWorkflowVersionId
    "replacementWorkflowVersionId"
  require (replacement ≠ record.workflowVersionId)
    { code := "workflow_supersession_invalid",
      message := "A workflow version cannot supersede itself" }
  let _ ← canonicalTime input.now "now"
  pure { record with
    lifecycleStatus := .superseded
    supersededByWorkflowVersionId := some replacement }

theorem supersedeWorkflowVersion_ok {record record' : VersionRecord Value} {actor : Actor}
    {input : SupersessionInput} (h : supersedeWorkflowVersion record actor input = .ok record') :
    record.lifecycleStatus = .approved ∧
      ∃ replacement, replacement ≠ record.workflowVersionId ∧
        canonicalUuid input.replacementWorkflowVersionId "replacementWorkflowVersionId" =
          .ok replacement ∧
        record' = { record with
          lifecycleStatus := .superseded
          supersededByWorkflowVersionId := some replacement } := by
  simp only [supersedeWorkflowVersion, requireStatus, then_ok, require_ok, return_ok] at h
  obtain ⟨_, _, _, _, _, hstatus, replacement, hid, _, hne, _, _, rfl⟩ := h
  exact ⟨hstatus, replacement, hne, hid, rfl⟩

structure SupersessionApprovalInput extends SupersessionInput where
  approvalId : JsString
  notes : JsString

structure SupersessionResult (Value : Type) where
  superseded : VersionRecord Value
  replacement : VersionRecord Value

def approveReplacementAndSupersede (current replacement : VersionRecord Value) (actor : Actor)
    (input : SupersessionApprovalInput) : Except LifecycleError (SupersessionResult Value) := do
  requireTenant current actor
  requireTenant replacement actor
  -- `||` of the source: the replacement id is only parsed when the procedures agree.
  require (current.procedureId = replacement.procedureId)
    { code := "workflow_supersession_invalid",
      message := "Replacement workflow must be the requested version of the same procedure" }
  let requested ← canonicalUuid input.replacementWorkflowVersionId
    "replacementWorkflowVersionId"
  require (replacement.workflowVersionId = requested)
    { code := "workflow_supersession_invalid",
      message := "Replacement workflow must be the requested version of the same procedure" }
  let approvedReplacement ← approveWorkflowVersion host replacement actor
    { approvalId := input.approvalId, notes := input.notes, now := input.now }
  let superseded ← supersedeWorkflowVersion current actor input.toSupersessionInput
  pure { superseded, replacement := approvedReplacement }

/-- A supersession is an approval of the replacement followed by the
supersession of the current version by it. -/
theorem approveReplacementAndSupersede_ok {current replacement : VersionRecord Value}
    {actor : Actor} {input : SupersessionApprovalInput} {result : SupersessionResult Value}
    (h : approveReplacementAndSupersede host current replacement actor input = .ok result) :
    current.procedureId = replacement.procedureId ∧
      canonicalUuid input.replacementWorkflowVersionId "replacementWorkflowVersionId" =
        .ok replacement.workflowVersionId ∧
      approveWorkflowVersion host replacement actor
        { approvalId := input.approvalId, notes := input.notes, now := input.now } =
        .ok result.replacement ∧
      supersedeWorkflowVersion current actor input.toSupersessionInput =
        .ok result.superseded := by
  simp only [approveReplacementAndSupersede, then_ok, require_ok, return_ok] at h
  obtain ⟨_, _, _, _, _, hprocedure, _, hid, _, rfl, _, happrove, _, hsupersede, rfl⟩ := h
  exact ⟨hprocedure, hid, happrove, hsupersede⟩

def archiveWorkflowVersion (record : VersionRecord Value) (actor : Actor) (now : DateText) :
    Except LifecycleError (VersionRecord Value) := do
  requireTenant record actor
  requireRole actor approverRoles "workflow_archive_denied"
  require (record.lifecycleStatus ≠ .archived)
    { code := "workflow_transition_invalid",
      message := "Archived workflow versions are terminal" }
  let archivedAt ← canonicalTime now "now"
  let archivedBy ← canonicalUuid actor.principalId "actor.principalId"
  pure { record with
    lifecycleStatus := .archived
    archivedByPrincipalId := some archivedBy
    archivedAt := some archivedAt }

theorem archiveWorkflowVersion_ok {record record' : VersionRecord Value} {actor : Actor}
    {now : DateText} (h : archiveWorkflowVersion record actor now = .ok record') :
    record.lifecycleStatus ≠ .archived ∧
      ∃ archivedBy at', record' = { record with
        lifecycleStatus := .archived
        archivedByPrincipalId := some archivedBy
        archivedAt := some at' } := by
  simp only [archiveWorkflowVersion, then_ok, require_ok, return_ok] at h
  obtain ⟨_, _, _, _, _, hstatus, at', _, archivedBy, _, rfl⟩ := h
  exact ⟨hstatus, archivedBy, at', rfl⟩

end Workflow
