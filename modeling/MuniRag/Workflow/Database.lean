import MuniRag.Workflow.StateMachine
import MuniRag.Lib.Table

/-!
# The workflow tables and their guards

The tables of `009_workflow_lifecycle.sql` with the four statements that write
them.  Each statement is its trigger function, its table constraints and the
change of the table, in this order; a statement that raises refuses the whole
transaction.

The latest review of a version is the one with the greatest `(created_at, id)`.
The repository and two of the triggers read it in the same way, and none of
them looks at the submission the review was made for.
-/

namespace Workflow

open Results

/-- Why a repository call was refused: the state machine, a raised exception,
a violated constraint or a failed cast of the database, or a plain `Error`. -/
inductive Refusal
  | lifecycle (error : LifecycleError)
  | database (message : String)
  | failure (message : String)
  deriving DecidableEq, Repr

structure ProcedureRow where
  id : Uuid
  tenantId : Uuid
  procedureKey : JsString
  title : JsString
  jurisdiction : JsString
  createdByPrincipalId : Uuid
  deriving DecidableEq, Repr

/-- A row of `rag.procedure_versions`. -/
structure VersionRow (Value : Type) where
  id : Uuid
  tenantId : Uuid
  procedureId : Uuid
  versionNumber : Int
  lifecycleStatus : LifecycleStatus
  generationSource : GenerationSource
  createdByPrincipalId : Uuid
  title : JsString
  jurisdiction : JsString
  workflowDefinition : Value
  evidenceBundleId : Option Uuid
  revision : Nat
  submittedByPrincipalId : Option Uuid
  submittedAt : Option Time
  approvedByPrincipalId : Option Uuid
  approvedAt : Option Time
  supersededByWorkflowVersionId : Option Uuid
  archivedByPrincipalId : Option Uuid
  archivedAt : Option Time
  createdAt : Time
  deriving DecidableEq, Repr

/-- A row of `rag.workflow_reviews`. -/
structure ReviewRow where
  id : Uuid
  tenantId : Uuid
  workflowVersionId : Uuid
  reviewerPrincipalId : Uuid
  decision : ReviewDecision
  notes : JsString
  createdAt : Time
  deriving DecidableEq, Repr

/-- A row of `rag.workflow_approvals`; its decision column is always `approved`. -/
structure ApprovalRow where
  id : Uuid
  tenantId : Uuid
  workflowVersionId : Uuid
  approverPrincipalId : Uuid
  notes : JsString
  createdAt : Time
  deriving DecidableEq, Repr

/-- The tables, with the tenants and the `(principal, tenant)` pairs of
`identity` that the foreign keys refer to. -/
structure Database (Value : Type) where
  tenants : List Uuid
  principals : List (Uuid × Uuid)
  procedures : List ProcedureRow
  versions : List (VersionRow Value)
  reviews : List ReviewRow
  approvals : List ApprovalRow

/-- What PostgreSQL computes on texts and JSON documents. -/
structure SqlHost (Value : Type) extends Host Value where
  charLength : JsString → Nat
  hasControl : JsString → Bool
  octetLength : Value → Nat

/-- A version is addressed by `(tenant_id, id)` everywhere. -/
abbrev VersionKey := Uuid × Uuid

variable {Value : Type}

def VersionRow.key (row : VersionRow Value) : VersionKey := (row.tenantId, row.id)

def ReviewRow.version (review : ReviewRow) : VersionKey :=
  (review.tenantId, review.workflowVersionId)

def ApprovalRow.version (approval : ApprovalRow) : VersionKey :=
  (approval.tenantId, approval.workflowVersionId)

/-- `RAISE EXCEPTION message` unless the condition holds. -/
def raiseUnless (c : Prop) [Decidable c] (message : String) : Except Refusal Unit :=
  require c (.database message)

theorem raiseUnless_ok {c : Prop} [Decidable c] {message : String} {done : Unit} :
    raiseUnless c message = .ok done ↔ c := require_ok

namespace Database

variable (db : Database Value)

def reviewsOf (key : VersionKey) : List ReviewRow := db.reviews.filter (·.version = key)

/-- The order of `ORDER BY created_at DESC, id DESC`. -/
def reviewRank (review : ReviewRow) : Time ×ₗ Uuid := toLex (review.createdAt, review.id)

/-- `ORDER BY created_at DESC, id DESC LIMIT 1` over the reviews of a version. -/
def latestReview (key : VersionKey) : Option ReviewRow :=
  Table.greatest reviewRank (db.reviewsOf key)

def approvalOf (key : VersionKey) : Option ApprovalRow := db.approvals.find? (·.version = key)

def version? (key : VersionKey) : Option (VersionRow Value) := db.versions.find? (·.key = key)

variable {db}
variable {key : VersionKey} {review : ReviewRow}

theorem mem_reviewsOf : review ∈ db.reviewsOf key ↔ review ∈ db.reviews ∧ review.version = key := by
  simp [reviewsOf]

/-- The latest review is stored, belongs to the version and ranks at least as
high as every other review of it. -/
theorem latestReview_spec (h : db.latestReview key = some review) :
    review ∈ db.reviews ∧ review.version = key ∧
      ∀ other ∈ db.reviews, other.version = key → reviewRank other ≤ reviewRank review := by
  obtain ⟨hmem, hgreatest⟩ := Table.greatest_spec h
  obtain ⟨hstored, hversion⟩ := mem_reviewsOf.mp hmem
  exact ⟨hstored, hversion, fun other hother hof =>
    hgreatest other (mem_reviewsOf.mpr ⟨hother, hof⟩)⟩

end Database

theorem Database.version?_some {db : Database Value} {key : VersionKey} {row : VersionRow Value}
    (h : db.version? key = some row) : row ∈ db.versions ∧ row.key = key :=
  ⟨List.mem_of_find?_eq_some h, by simpa using List.find?_some h⟩

/-! ## `rag.procedure_versions` -/

/-- The statuses that the trigger lets a version go to.  An archived version
has no branch of its own: the check before it keeps it archived. -/
def LifecycleStatus.allowedNext : LifecycleStatus → List LifecycleStatus
  | .draft => [.draft, .inReview, .archived]
  | .inReview => [.inReview, .draft, .approved, .archived]
  | .approved => [.approved, .superseded, .archived]
  | .superseded => [.superseded, .archived]
  | .archived => [.archived]

def LifecycleStatus.invalidTransition : LifecycleStatus → String
  | .draft => "invalid draft workflow transition"
  | .inReview => "invalid review workflow transition"
  | .approved => "invalid approved workflow transition"
  | .superseded => "invalid superseded workflow transition"
  | .archived => "archived workflow versions are terminal"

/-- The `INSERT` branch of `rag.enforce_workflow_version_lifecycle`. -/
def enforceInsert (new : VersionRow Value) : Except Refusal Unit := do
  raiseUnless (new.lifecycleStatus = .draft) "new workflow versions must start as draft"
  raiseUnless (new.submittedAt = none ∧ new.approvedAt = none ∧
      new.supersededByWorkflowVersionId = none ∧ new.archivedAt = none)
    "new workflow drafts cannot include lifecycle decisions"

def enforceApproval (db : Database Value) (new : VersionRow Value) : Except Refusal Unit := do
  let review ← orRefuse
    ((db.latestReview new.key).filter (·.decision = .recommendedForApproval))
    (Refusal.database "approval requires a recommended human review")
  raiseUnless (new.approvedByPrincipalId ≠ none ∧ new.approvedAt ≠ none)
    "approval requires an approver and timestamp"
  raiseUnless (new.approvedByPrincipalId ≠ some new.createdByPrincipalId ∧
      new.approvedByPrincipalId ≠ some review.reviewerPrincipalId ∧
      review.reviewerPrincipalId ≠ new.createdByPrincipalId)
    "creator, reviewer, and approver must be distinct"

def enforceSupersession (db : Database Value) (new : VersionRow Value) : Except Refusal Unit := do
  let replacement ← orRefuse new.supersededByWorkflowVersionId
    (Refusal.database "supersession requires a replacement workflow version")
  raiseUnless
    ((db.version? (new.tenantId, replacement)).any fun row =>
      row.procedureId = new.procedureId ∧ row.lifecycleStatus = .inReview)
    "replacement workflow must be an in_review version of the same procedure"

/-- The `UPDATE` branch of `rag.enforce_workflow_version_lifecycle`. -/
def enforceUpdate [DecidableEq Value] (db : Database Value) (old new : VersionRow Value) :
    Except Refusal Unit := do
  raiseUnless (new.tenantId = old.tenantId ∧ new.procedureId = old.procedureId ∧
      new.versionNumber = old.versionNumber ∧ new.generationSource = old.generationSource ∧
      new.createdByPrincipalId = old.createdByPrincipalId ∧ new.createdAt = old.createdAt)
    "workflow version identity is immutable"
  raiseUnless (old.lifecycleStatus ∈ [.approved, .superseded, .archived] →
      new.title = old.title ∧ new.jurisdiction = old.jurisdiction ∧
      new.workflowDefinition = old.workflowDefinition ∧
      new.evidenceBundleId = old.evidenceBundleId ∧ new.revision = old.revision)
    "approved, superseded, and archived workflow content is immutable"
  raiseUnless (new.lifecycleStatus ∈ old.lifecycleStatus.allowedNext)
    old.lifecycleStatus.invalidTransition
  raiseUnless (new.lifecycleStatus = .inReview →
      new.submittedByPrincipalId ≠ none ∧ new.submittedAt ≠ none)
    "review submission requires a human principal and timestamp"
  if new.lifecycleStatus = .approved ∧ old.lifecycleStatus ≠ .approved then
    enforceApproval db new
  if new.lifecycleStatus = .superseded ∧ old.lifecycleStatus ≠ .superseded then
    enforceSupersession db new
  raiseUnless (new.lifecycleStatus = .archived →
      new.archivedByPrincipalId ≠ none ∧ new.archivedAt ≠ none)
    "archival requires a human principal and timestamp"

variable (host : SqlHost Value)

/-- A text of `1` to `maxLength` characters, none of them a control character. -/
def SqlHost.plainText (text : JsString) (maxLength : Nat) : Prop :=
  1 ≤ host.charLength text ∧ host.charLength text ≤ maxLength ∧ host.hasControl text = false

instance (text : JsString) (maxLength : Nat) : Decidable (host.plainText text maxLength) := by
  unfold SqlHost.plainText
  infer_instance

/-- The `CHECK` constraints of `rag.procedure_versions`. -/
def VersionRow.meetsChecks (row : VersionRow Value) : Prop :=
  0 < row.versionNumber ∧ 0 < row.revision ∧
  host.plainText row.title 300 ∧ host.plainText row.jurisdiction 500 ∧
  host.isObject row.workflowDefinition = true ∧
  2 ≤ host.octetLength row.workflowDefinition ∧
  host.octetLength row.workflowDefinition ≤ 2097152 ∧
  row.submittedByPrincipalId.isSome = row.submittedAt.isSome ∧
  row.approvedByPrincipalId.isSome = row.approvedAt.isSome ∧
  row.archivedByPrincipalId.isSome = row.archivedAt.isSome ∧
  row.supersededByWorkflowVersionId ≠ some row.id ∧
  (row.lifecycleStatus = .inReview → row.submittedAt ≠ none) ∧
  (row.lifecycleStatus = .approved ∨ row.lifecycleStatus = .superseded → row.approvedAt ≠ none) ∧
  (row.lifecycleStatus = .superseded → row.supersededByWorkflowVersionId ≠ none) ∧
  (row.lifecycleStatus = .archived → row.archivedAt ≠ none)

instance (row : VersionRow Value) : Decidable (row.meetsChecks host) := by
  unfold VersionRow.meetsChecks
  infer_instance

/-- The foreign keys of `rag.procedure_versions`. -/
def VersionRow.refersWithin (row : VersionRow Value) (db : Database Value) : Prop :=
  row.tenantId ∈ db.tenants ∧
  (∃ procedure ∈ db.procedures,
    procedure.id = row.procedureId ∧ procedure.tenantId = row.tenantId) ∧
  (row.createdByPrincipalId, row.tenantId) ∈ db.principals ∧
  (∀ id ∈ row.submittedByPrincipalId, (id, row.tenantId) ∈ db.principals) ∧
  (∀ id ∈ row.approvedByPrincipalId, (id, row.tenantId) ∈ db.principals) ∧
  (∀ id ∈ row.archivedByPrincipalId, (id, row.tenantId) ∈ db.principals) ∧
  (∀ id ∈ row.supersededByWorkflowVersionId, (row.tenantId, id) ∈ db.versions.map VersionRow.key)

instance (row : VersionRow Value) (db : Database Value) : Decidable (row.refersWithin db) := by
  unfold VersionRow.refersWithin
  infer_instance

/-- `procedure_versions_one_approved_idx`: no other version of the procedure is
approved. -/
def VersionRow.soleApproved (row : VersionRow Value) (db : Database Value) : Prop :=
  row.lifecycleStatus = .approved → ∀ other ∈ db.versions,
    other.key ≠ row.key → other.tenantId = row.tenantId → other.procedureId = row.procedureId →
      other.lifecycleStatus ≠ .approved

instance (row : VersionRow Value) (db : Database Value) : Decidable (row.soleApproved db) := by
  unfold VersionRow.soleApproved
  infer_instance

def insertVersion (db : Database Value) (new : VersionRow Value) :
    Except Refusal (Database Value) := do
  enforceInsert new
  raiseUnless (new.meetsChecks host) "procedure_versions check"
  raiseUnless (∀ row ∈ db.versions, row.id ≠ new.id) "procedure_versions_pkey"
  raiseUnless (∀ row ∈ db.versions, row.tenantId = new.tenantId →
      row.procedureId = new.procedureId → row.versionNumber ≠ new.versionNumber)
    "procedure_versions_tenant_id_procedure_id_version_number_key"
  raiseUnless (new.refersWithin db) "procedure_versions foreign key"
  pure { db with versions := db.versions ++ [new] }

/-- The `UPDATE` of `updateRecord`, on the one row with the key of `new`. -/
def updateVersion [DecidableEq Value] (db : Database Value) (old new : VersionRow Value) :
    Except Refusal (Database Value) := do
  enforceUpdate db old new
  raiseUnless (new.meetsChecks host) "procedure_versions check"
  raiseUnless (new.soleApproved db) "procedure_versions_one_approved_idx"
  raiseUnless (new.refersWithin db) "procedure_versions foreign key"
  pure { db with versions := Table.updateWhere (·.key = new.key) (fun _ => new) db.versions }

/-! ## Reviews and approvals -/

/-- `rag.validate_workflow_review_insert`. -/
def validateReviewInsert (db : Database Value) (new : ReviewRow) : Except Refusal Unit := do
  let version ← orRefuse
    ((db.version? new.version).filter (·.lifecycleStatus = .inReview))
    (Refusal.database "workflow review requires in_review status")
  raiseUnless (new.reviewerPrincipalId ≠ version.createdByPrincipalId)
    "workflow creator cannot review the same version"

def insertReview (db : Database Value) (new : ReviewRow) : Except Refusal (Database Value) := do
  validateReviewInsert db new
  raiseUnless (host.plainText new.notes 4000) "workflow_reviews check"
  raiseUnless (∀ row ∈ db.reviews, row.id ≠ new.id) "workflow_reviews_pkey"
  raiseUnless (new.tenantId ∈ db.tenants ∧ new.version ∈ db.versions.map VersionRow.key ∧
      (new.reviewerPrincipalId, new.tenantId) ∈ db.principals)
    "workflow_reviews foreign key"
  pure { db with reviews := db.reviews ++ [new] }

/-- `rag.validate_workflow_approval_insert`. -/
def validateApprovalInsert (db : Database Value) (new : ApprovalRow) : Except Refusal Unit := do
  let version ← orRefuse
    ((db.version? new.version).filter (·.lifecycleStatus = .inReview))
    (Refusal.database "workflow approval requires a recommended in_review version")
  let review ← orRefuse
    ((db.latestReview new.version).filter (·.decision = .recommendedForApproval))
    (Refusal.database "workflow approval requires a recommended in_review version")
  raiseUnless (new.approverPrincipalId ≠ version.createdByPrincipalId ∧
      new.approverPrincipalId ≠ review.reviewerPrincipalId ∧
      version.createdByPrincipalId ≠ review.reviewerPrincipalId)
    "creator, reviewer, and approver must be distinct"

def insertApproval (db : Database Value) (new : ApprovalRow) :
    Except Refusal (Database Value) := do
  validateApprovalInsert db new
  raiseUnless (host.plainText new.notes 4000) "workflow_approvals check"
  raiseUnless (∀ row ∈ db.approvals, row.id ≠ new.id) "workflow_approvals_pkey"
  raiseUnless (∀ row ∈ db.approvals, row.version ≠ new.version)
    "workflow_approvals_tenant_id_workflow_version_id_key"
  raiseUnless (new.tenantId ∈ db.tenants ∧ new.version ∈ db.versions.map VersionRow.key ∧
      (new.approverPrincipalId, new.tenantId) ∈ db.principals)
    "workflow_approvals foreign key"
  pure { db with approvals := db.approvals ++ [new] }

/-! ## What a statement changes -/

variable {host}
variable {db db' : Database Value}

theorem insertVersion_ok {new : VersionRow Value} (h : insertVersion host db new = .ok db') :
    new.lifecycleStatus = .draft ∧ (∀ row ∈ db.versions, row.id ≠ new.id) ∧
      db' = { db with versions := db.versions ++ [new] } := by
  simp only [insertVersion, enforceInsert, then_ok, raiseUnless_ok, return_ok] at h
  obtain ⟨_, ⟨_, hstatus, _⟩, _, _, _, hfresh, _, _, _, _, rfl⟩ := h
  exact ⟨hstatus, hfresh, rfl⟩

theorem updateVersion_ok [DecidableEq Value] {old new : VersionRow Value}
    (h : updateVersion host db old new = .ok db') :
    db' = { db with
      versions := Table.updateWhere (·.key = new.key) (fun _ => new) db.versions } := by
  simp only [updateVersion, then_ok, raiseUnless_ok, return_ok] at h
  obtain ⟨_, _, _, _, _, _, _, _, rfl⟩ := h
  rfl

theorem insertReview_ok {new : ReviewRow} (h : insertReview host db new = .ok db') :
    db' = { db with reviews := db.reviews ++ [new] } := by
  simp only [insertReview, then_ok, raiseUnless_ok, return_ok] at h
  obtain ⟨_, _, _, _, _, _, _, _, rfl⟩ := h
  rfl

theorem insertApproval_ok {new : ApprovalRow} (h : insertApproval host db new = .ok db') :
    db' = { db with approvals := db.approvals ++ [new] } := by
  simp only [insertApproval, then_ok, raiseUnless_ok, return_ok] at h
  obtain ⟨_, _, _, _, _, _, _, _, _, _, rfl⟩ := h
  rfl

end Workflow
