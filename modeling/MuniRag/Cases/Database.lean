import MuniRag.Cases.Record
import MuniRag.Lib.Table
import Mathlib.Data.List.Sort

/-!
# The case tables and their guards

The tables of `013_procedure_cases.sql` and the statements that the PostgreSQL
repository issues on them.  Every statement is about a case that the same
transaction read or inserted, so the foreign keys to the case row always hold
and are not checked again; the status and the digest of the stored initial
response follow from its body and are not columns of their own.  What a statement only reads (workflow versions,
document versions, tenants and principals) is the `Catalog`, which other
components may change from one transaction to the next.
-/

namespace Cases

open Results

/-- Why a repository call throws: a `ProcedureCaseError`, a violated unique
constraint, another database error, or a plain `Error`. -/
inductive Refusal
  | case (error : CaseError)
  | duplicate (constraint : String)
  | database (message : String)
  | failure (message : String)
  deriving DecidableEq, Repr

structure CaseRow where
  id : Uuid
  tenantId : Uuid
  caseKey : JsString
  workflowVersionId : Uuid
  workflowVersionNumber : Int
  jurisdiction : JsString
  subjectReference : Option JsString
  communityReference : Option JsString
  status : CaseStatus
  validationState : ValidationState
  currentStepId : Option JsString
  followUpAt : Option Time
  operationalNote : Option JsString
  revision : Nat
  createdByPrincipalId : Uuid
  updatedByPrincipalId : Uuid
  createRequestSha256 : JsString
  initialResponseBody : Option JsString
  initialAuditId : Option Uuid
  createdAt : Time
  updatedAt : Time
  deriving DecidableEq, Repr

structure StepRow where
  caseId : Uuid
  tenantId : Uuid
  stepId : JsString
  title : JsString
  ordinal : Nat
  state : StepState
  updatedByPrincipalId : Uuid
  updatedAt : Time
  deriving DecidableEq, Repr

structure DocumentRow where
  id : Uuid
  tenantId : Uuid
  caseId : Uuid
  requirementId : JsString
  documentVersionId : Option Uuid
  state : DocumentState
  note : Option JsString
  updatedByPrincipalId : Uuid
  createdAt : Time
  updatedAt : Time
  deriving DecidableEq, Repr

structure BlockerRow where
  id : Uuid
  tenantId : Uuid
  caseId : Uuid
  blockerCode : JsString
  description : JsString
  resolvedAt : Option Time
  resolvedByPrincipalId : Option Uuid
  createdByPrincipalId : Uuid
  createdAt : Time
  deriving DecidableEq, Repr

structure EventRow where
  id : Uuid
  tenantId : Uuid
  caseId : Uuid
  actorPrincipalId : Uuid
  eventType : String
  revision : Nat
  details : EventDetails
  createdAt : Time
  deriving DecidableEq, Repr

structure Tables where
  cases : List CaseRow
  steps : List StepRow
  documents : List DocumentRow
  blockers : List BlockerRow
  events : List EventRow

/-- The entries of `definition.steps` as far as `create` reads them, each field
after `String(…)`; `none` where the field is null, undefined or no object. -/
structure RawStep where
  stepId : Option JsString
  id : Option JsString
  title : Option JsString
  action : Option JsString
  deriving DecidableEq, Repr

structure WorkflowRow where
  id : Uuid
  tenantId : Uuid
  versionNumber : Int
  isApproved : Bool
  jurisdiction : JsString
  steps : List RawStep
  deriving DecidableEq, Repr

/-- The tables that the case statements only read. -/
structure Catalog where
  tenants : List Uuid
  principals : List (Uuid × Uuid)
  workflows : List WorkflowRow
  documentVersions : List (Uuid × Uuid)

/-- What PostgreSQL and its driver compute on texts and instants. -/
structure SqlHost where
  charLength : JsString → Nat
  hasControl : JsString → Bool
  bodyLength : JsString → Nat
  detailsLength : EventDetails → Nat
  parseTime : JsString → Option Time
  isoText : Time → JsString

/-- A case is addressed by `(tenant_id, id)` everywhere. -/
abbrev CaseKey := Uuid × Uuid

def CaseRow.key (row : CaseRow) : CaseKey := (row.tenantId, row.id)
def StepRow.case (row : StepRow) : CaseKey := (row.tenantId, row.caseId)
def DocumentRow.case (row : DocumentRow) : CaseKey := (row.tenantId, row.caseId)
def BlockerRow.case (row : BlockerRow) : CaseKey := (row.tenantId, row.caseId)
def EventRow.case (row : EventRow) : CaseKey := (row.tenantId, row.caseId)

def BlockerRow.isOpen (row : BlockerRow) : Bool := row.resolvedAt.isNone

def raiseUnless (c : Prop) [Decidable c] (message : String) : Except Refusal Unit :=
  require c (.database message)

theorem raiseUnless_ok {c : Prop} [Decidable c] {message : String} {done : Unit} :
    raiseUnless c message = .ok done ↔ c := require_ok

/-- A unique constraint. -/
def distinct (c : Prop) [Decidable c] (constraint : String) : Except Refusal Unit :=
  require c (.duplicate constraint)

theorem distinct_ok {c : Prop} [Decidable c] {constraint : String} {done : Unit} :
    distinct c constraint = .ok done ↔ c := require_ok

def castUuid (text : JsString) : Except Refusal Uuid :=
  orRefuse (uuidValue text) (.database "invalid input syntax for type uuid")

variable (host : SqlHost) (catalog : Catalog)

def SqlHost.plainText (text : JsString) (maxLength : Nat) : Bool :=
  1 ≤ host.charLength text && host.charLength text ≤ maxLength && !host.hasControl text

/-- The `CHECK` constraints of `rag.procedure_cases`. -/
def CaseRow.meetsChecks (row : CaseRow) : Bool :=
  decide (0 < row.workflowVersionNumber) && decide (0 < row.revision) && isKeyText row.caseKey &&
    host.plainText row.jurisdiction 500 &&
    row.subjectReference.all (host.plainText · 200) &&
    row.communityReference.all (host.plainText · 200) &&
    row.currentStepId.all isOpaqueId && row.operationalNote.all (host.plainText · 4000) &&
    row.initialResponseBody.isSome == row.initialAuditId.isSome &&
    row.initialResponseBody.all fun body => 2 ≤ host.bodyLength body && host.bodyLength body ≤ 1048576

/-- The `UPDATE` branch of `rag.enforce_procedure_case_binding`: either the one
sealing of the initial response, or a change of the mutable columns that
advances the revision by one. -/
def enforceBinding (old new : CaseRow) : Except Refusal Unit :=
  if old.initialResponseBody = none ∧ new.initialResponseBody ≠ none ∧
      new.initialAuditId ≠ none ∧
      new = { old with
        initialResponseBody := new.initialResponseBody, initialAuditId := new.initialAuditId } then
    pure ()
  else do
    raiseUnless (new.tenantId = old.tenantId ∧ new.id = old.id ∧ new.caseKey = old.caseKey ∧
        new.workflowVersionId = old.workflowVersionId ∧
        new.workflowVersionNumber = old.workflowVersionNumber ∧
        new.jurisdiction = old.jurisdiction ∧ new.subjectReference = old.subjectReference ∧
        new.communityReference = old.communityReference ∧
        new.createdByPrincipalId = old.createdByPrincipalId ∧
        new.createRequestSha256 = old.createRequestSha256 ∧
        new.initialResponseBody = old.initialResponseBody ∧
        new.initialAuditId = old.initialAuditId ∧ new.createdAt = old.createdAt)
      "procedure case identity and workflow binding are immutable"
    raiseUnless (new.revision = old.revision + 1)
      "procedure case revision must advance exactly once"
    raiseUnless (old.status = .closed → new.status = .closed)
      "closed procedure cases cannot be reopened in v1"

def insertCase (tables : Tables) (new : CaseRow) : Except Refusal Tables := do
  let workflow ← orRefuse
    ((catalog.workflows.find? fun row =>
      row.tenantId = new.tenantId ∧ row.id = new.workflowVersionId).filter (·.isApproved))
    (.database "procedure case requires an approved workflow version")
  raiseUnless (new.workflowVersionNumber = workflow.versionNumber)
    "procedure case workflow version identity mismatch"
  raiseUnless (new.meetsChecks host = true) "procedure_cases check"
  distinct (∀ row ∈ tables.cases, row.id ≠ new.id) "procedure_cases_pkey"
  distinct (∀ row ∈ tables.cases,
      ¬ (row.tenantId = new.tenantId ∧ row.caseKey = new.caseKey))
    "procedure_cases_tenant_id_case_key_key"
  distinct (∀ row ∈ tables.cases, ¬ (row.tenantId = new.tenantId ∧
      row.createdByPrincipalId = new.createdByPrincipalId ∧
      row.createRequestSha256 = new.createRequestSha256))
    "procedure_cases_tenant_id_created_by_principal_id_create_re_key"
  raiseUnless (new.tenantId ∈ catalog.tenants ∧
      (new.createdByPrincipalId, new.tenantId) ∈ catalog.principals)
    "procedure_cases foreign key"
  pure { tables with cases := tables.cases ++ [new] }

/-- An `UPDATE` of the one case row `old`. -/
def updateCase (tables : Tables) (old new : CaseRow) : Except Refusal Tables := do
  enforceBinding old new
  raiseUnless (new.meetsChecks host = true) "procedure_cases check"
  raiseUnless ((new.updatedByPrincipalId, new.tenantId) ∈ catalog.principals)
    "procedure_cases foreign key"
  pure { tables with cases := Table.updateWhere (·.key = old.key) (fun _ => new) tables.cases }

def insertStep (tables : Tables) (new : StepRow) : Except Refusal Tables := do
  raiseUnless (0 < new.ordinal ∧ new.ordinal ≤ 100 ∧ isOpaqueId new.stepId = true ∧
      host.plainText new.title 300 = true) "procedure_case_steps check"
  distinct (∀ row ∈ tables.steps, ¬ (row.case = new.case ∧ row.stepId = new.stepId))
    "procedure_case_steps_pkey"
  raiseUnless ((new.updatedByPrincipalId, new.tenantId) ∈ catalog.principals)
    "procedure_case_steps foreign key"
  pure { tables with steps := tables.steps ++ [new] }

/-- `UPDATE rag.procedure_case_steps … RETURNING 1`, with the number of rows. -/
def updateStep (tables : Tables) (key : CaseKey) (stepId : JsString) (state : StepState)
    (principalId : Uuid) (now : Time) : Except Refusal Tables := do
  require ((tables.steps.filter fun row => row.case = key ∧ row.stepId = stepId).length = 1)
    (.case { code := "step_not_found", message := "Procedure case step not found" })
  raiseUnless ((principalId, key.1) ∈ catalog.principals) "procedure_case_steps foreign key"
  pure { tables with
    steps := Table.updateWhere (fun row => row.case = key ∧ row.stepId = stepId)
      (fun row => { row with state, updatedByPrincipalId := principalId, updatedAt := now })
      tables.steps }

/-- `INSERT … ON CONFLICT (tenant_id, case_id, requirement_id) DO UPDATE`. -/
def upsertDocument (tables : Tables) (new : DocumentRow) : Except Refusal Tables := do
  raiseUnless (isOpaqueId new.requirementId = true ∧ new.note.all (host.plainText · 1000) = true ∧
      (new.state.needsVersion = true → new.documentVersionId ≠ none))
    "procedure_case_documents check"
  raiseUnless ((new.updatedByPrincipalId, new.tenantId) ∈ catalog.principals ∧
      ∀ version ∈ new.documentVersionId, (new.tenantId, version) ∈ catalog.documentVersions)
    "procedure_case_documents foreign key"
  if ∃ row ∈ tables.documents, row.case = new.case ∧ row.requirementId = new.requirementId then
    pure { tables with
      documents := Table.updateWhere
        (fun row => row.case = new.case ∧ row.requirementId = new.requirementId)
        (fun row => { row with
          documentVersionId := new.documentVersionId, state := new.state, note := new.note
          updatedByPrincipalId := new.updatedByPrincipalId, updatedAt := new.updatedAt })
        tables.documents }
  else do
    distinct (∀ row ∈ tables.documents, row.id ≠ new.id) "procedure_case_documents_pkey"
    pure { tables with documents := tables.documents ++ [new] }

def insertBlocker (tables : Tables) (new : BlockerRow) : Except Refusal Tables := do
  raiseUnless (isCodeText new.blockerCode = true ∧ host.plainText new.description 1000 = true)
    "procedure_case_blockers check"
  distinct (∀ row ∈ tables.blockers, row.id ≠ new.id) "procedure_case_blockers_pkey"
  raiseUnless ((new.createdByPrincipalId, new.tenantId) ∈ catalog.principals)
    "procedure_case_blockers foreign key"
  pure { tables with blockers := tables.blockers ++ [new] }

/-- `UPDATE rag.procedure_case_blockers … AND resolved_at IS NULL RETURNING 1`. -/
def resolveBlocker (tables : Tables) (key : CaseKey) (blockerId principalId : Uuid) (now : Time) :
    Except Refusal Tables := do
  require ((tables.blockers.filter fun row =>
      row.case = key ∧ row.id = blockerId ∧ row.isOpen).length = 1)
    (.case { code := "blocker_not_found", message := "Open blocker not found" })
  raiseUnless ((principalId, key.1) ∈ catalog.principals) "procedure_case_blockers foreign key"
  pure { tables with
    blockers := Table.updateWhere
      (fun row => row.case = key ∧ row.id = blockerId ∧ row.isOpen)
      (fun row => { row with resolvedAt := some now, resolvedByPrincipalId := some principalId })
      tables.blockers }

/-- The row constraints of `rag.procedure_case_events`.  The event types of the
program all have the shape that the pattern of the table asks for. -/
def EventRow.meetsChecks (row : EventRow) : Prop :=
  0 < row.revision ∧ host.detailsLength row.details ≤ 8192

instance (row : EventRow) : Decidable (row.meetsChecks host) := by
  unfold EventRow.meetsChecks
  infer_instance

def insertEvent (tables : Tables) (new : EventRow) : Except Refusal Tables := do
  raiseUnless (new.meetsChecks host) "procedure_case_events check"
  distinct (∀ row ∈ tables.events, row.id ≠ new.id) "procedure_case_events_pkey"
  raiseUnless ((new.actorPrincipalId, new.tenantId) ∈ catalog.principals)
    "procedure_case_events foreign key"
  pure { tables with events := tables.events ++ [new] }

end Cases
