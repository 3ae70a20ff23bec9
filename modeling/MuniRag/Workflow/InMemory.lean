import MuniRag.Lib.JsMap
import MuniRag.Lib.Runs
import MuniRag.Workflow.Governance
import MuniRag.Workflow.Repository

/-!
# The in-memory workflow repository

`InMemoryWorkflowLifecycleRepository`: the map of the versions, the map of the
procedure identifiers, and the six operations on them.  A key of the first map
is the text `tenant:version` of two lower-case UUIDs, here the pair of their
values; a text that is no UUID is the key of no version.  The keys and values
of the second map are the texts of the requests as they come.

No operation checks more than the record that it is given and, in `supersede`,
the replacement; in particular no operation looks at the other versions of the
procedure.
-/

namespace Workflow

open Results

variable {Value : Type}

structure InMemory (Value : Type) where
  workflows : JsMap VersionKey (StoredVersion Value)
  procedureIds : JsMap JsString JsString

namespace InMemory

variable (host : Host Value) (repository : InMemory Value)

def opening : InMemory Value where
  workflows := []
  procedureIds := []

def get (key : VersionKey) : Option (StoredVersion Value) := repository.workflows.get key

/-- The version of a tenant that a text names. -/
def lookup (tenantId : Uuid) (workflowVersionId : JsString) : Option (StoredVersion Value) := do
  let id ← uuidValue workflowVersionId
  repository.get (tenantId, id)

def save (record : StoredVersion Value) : InMemory Value :=
  { repository with workflows := repository.workflows.set record.key record }

/-- The record of a draft, once the identifier of its procedure is settled. -/
def draft (principal : Actor) (input : DraftInput Value) (procedureId : JsString) :
    Except LifecycleError (StoredVersion Value) := do
  let versionNumber := (repository.workflows.values.filter fun record =>
    uuidText record.tenantId = input.tenantId ∧ uuidText record.procedureId = procedureId).length + 1
  let record ← initializeWorkflowVersion host {
    workflowVersionId := input.workflowVersionId, tenantId := input.tenantId, procedureId
    versionNumber := versionNumber, generationSource := input.generationSource
    createdByPrincipalId := principal.principalId, jurisdiction := input.jurisdiction
    title := input.title, workflowDefinition := input.workflowDefinition
    evidenceBundleId := input.evidenceBundleId, now := input.now }
  pure { record with procedureKey := input.procedureKey }

/-- `createDraft`.  The identifier of the procedure is kept even when the
record is refused. -/
def createDraft (principal : Actor) (input : DraftInput Value) :
    InMemory Value × Except LifecycleError (StoredVersion Value) :=
  let procedureKey := input.tenantId ++ [0x3a] ++ input.procedureKey
  let procedureId := (repository.procedureIds.get procedureKey).getD input.procedureId
  let repository := { repository with
    procedureIds := repository.procedureIds.set procedureKey procedureId }
  match repository.draft host principal input procedureId with
  | .ok record => (repository.save record, .ok record)
  | .error error => (repository, .error error)

def submitForReview (record : StoredVersion Value) (principal : Actor) (now : DateText) :
    Except LifecycleError (InMemory Value) := do
  let updated ← submitWorkflowForReview record.toVersionRecord principal now
  pure (repository.save { updated with procedureKey := record.procedureKey })

def recordReview (record : StoredVersion Value) (principal : Actor) (input : ReviewInput) :
    Except LifecycleError (InMemory Value) := do
  let updated ← recordWorkflowReview host record.toVersionRecord principal input
  pure (repository.save { updated with procedureKey := record.procedureKey })

def approve (record : StoredVersion Value) (principal : Actor) (input : ApprovalInput) :
    Except LifecycleError (InMemory Value) := do
  let updated ← approveWorkflowVersion host record.toVersionRecord principal input
  pure (repository.save { updated with procedureKey := record.procedureKey })

def supersede (record : StoredVersion Value) (principal : Actor)
    (input : SupersessionApprovalInput) : Except LifecycleError (InMemory Value) := do
  let replacement ← orRefuse (repository.lookup record.tenantId input.replacementWorkflowVersionId)
    { code := "workflow_supersession_invalid"
      message := "Replacement workflow version is unavailable" }
  let result ← approveReplacementAndSupersede host record.toVersionRecord
    replacement.toVersionRecord principal input
  let repository := repository.save
    { result.replacement with procedureKey := replacement.procedureKey }
  pure (repository.save { result.superseded with procedureKey := record.procedureKey })

def archive (record : StoredVersion Value) (principal : Actor) (now : DateText) :
    Except LifecycleError (InMemory Value) := do
  let updated ← archiveWorkflowVersion record.toVersionRecord principal now
  pure (repository.save { updated with procedureKey := record.procedureKey })

/-- A call of the repository.  An operation gets the record that is stored
under the key, whoever the principal is. -/
inductive Call (Value : Type)
  | createDraft (principal : Actor) (input : DraftInput Value)
  | submitForReview (key : VersionKey) (principal : Actor) (now : DateText)
  | recordReview (key : VersionKey) (principal : Actor) (input : ReviewInput)
  | approve (key : VersionKey) (principal : Actor) (input : ApprovalInput)
  | supersede (key : VersionKey) (principal : Actor) (input : SupersessionApprovalInput)
  | archive (key : VersionKey) (principal : Actor) (now : DateText)

/-- An operation on the record stored under a key; one that throws, or that
finds no record, leaves the repository alone. -/
def withStored (key : VersionKey)
    (operation : StoredVersion Value → Except LifecycleError (InMemory Value)) : InMemory Value :=
  match repository.get key with
  | some record => settle repository (operation record)
  | none => repository

def step : Call Value → InMemory Value
  | .createDraft principal input => (repository.createDraft host principal input).1
  | .submitForReview key principal now =>
      repository.withStored key (repository.submitForReview · principal now)
  | .recordReview key principal input =>
      repository.withStored key (repository.recordReview host · principal input)
  | .approve key principal input =>
      repository.withStored key (repository.approve host · principal input)
  | .supersede key principal input =>
      repository.withStored key (repository.supersede host · principal input)
  | .archive key principal now =>
      repository.withStored key (repository.archive · principal now)

/-! ## What a call can do -/

/-- What is stored after a call: what was stored, or the records that the state
machine returned. -/
inductive Change : Call Value → InMemory Value → Prop
  | refused (call : Call Value) (procedureIds : JsMap JsString JsString) :
      Change call { repository with procedureIds }
  | drafted {principal : Actor} {input : DraftInput Value} {record : StoredVersion Value}
      (procedureIds : JsMap JsString JsString) (procedureId : JsString)
      (hmachine : draft host { repository with procedureIds } principal input procedureId =
        .ok record) :
      Change (.createDraft principal input) (save { repository with procedureIds } record)
  | submitted {key : VersionKey} {principal : Actor} {now : DateText}
      {record : StoredVersion Value} {updated : VersionRecord Value}
      (hget : repository.get key = some record)
      (hmachine : submitWorkflowForReview record.toVersionRecord principal now = .ok updated) :
      Change (.submitForReview key principal now)
        (repository.save { updated with procedureKey := record.procedureKey })
  | reviewed {key : VersionKey} {principal : Actor} {input : ReviewInput}
      {record : StoredVersion Value} {updated : VersionRecord Value}
      (hget : repository.get key = some record)
      (hmachine : recordWorkflowReview host record.toVersionRecord principal input =
        .ok updated) :
      Change (.recordReview key principal input)
        (repository.save { updated with procedureKey := record.procedureKey })
  | approved {key : VersionKey} {principal : Actor} {input : ApprovalInput}
      {record : StoredVersion Value} {updated : VersionRecord Value}
      (hget : repository.get key = some record)
      (hmachine : approveWorkflowVersion host record.toVersionRecord principal input =
        .ok updated) :
      Change (.approve key principal input)
        (repository.save { updated with procedureKey := record.procedureKey })
  | superseded {key : VersionKey} {principal : Actor} {input : SupersessionApprovalInput}
      {record replacement : StoredVersion Value} {result : SupersessionResult Value}
      (hget : repository.get key = some record)
      (hreplacement : repository.lookup record.tenantId input.replacementWorkflowVersionId =
        some replacement)
      (hmachine : approveReplacementAndSupersede host record.toVersionRecord
        replacement.toVersionRecord principal input = .ok result) :
      Change (.supersede key principal input)
        ((repository.save { result.replacement with procedureKey := replacement.procedureKey }).save
          { result.superseded with procedureKey := record.procedureKey })
  | archived {key : VersionKey} {principal : Actor} {now : DateText}
      {record : StoredVersion Value} {updated : VersionRecord Value}
      (hget : repository.get key = some record)
      (hmachine : archiveWorkflowVersion record.toVersionRecord principal now = .ok updated) :
      Change (.archive key principal now)
        (repository.save { updated with procedureKey := record.procedureKey })

variable {host : Host Value} {repository : InMemory Value}

/-- An operation on a stored record was refused or went through. -/
theorem withStored_cases (repository : InMemory Value) (key : VersionKey)
    (operation : StoredVersion Value → Except LifecycleError (InMemory Value)) :
    repository.withStored key operation = repository ∨
      ∃ record after, repository.get key = some record ∧ operation record = .ok after ∧
        repository.withStored key operation = after := by
  rw [withStored]
  cases hget : repository.get key with
  | none => exact .inl rfl
  | some record =>
      rcases settle_cases repository (operation record) with hsame | hok
      · exact .inl hsame
      · exact .inr ⟨record, _, rfl, hok, rfl⟩

theorem step_change (host : Host Value) (repository : InMemory Value) (call : Call Value) :
    Change host repository call (repository.step host call) := by
  have hrefused : Change host repository call repository := .refused call repository.procedureIds
  cases call with
  | createDraft principal input =>
      rw [step, createDraft]
      split
      · next record hmachine => exact .drafted _ _ hmachine
      · exact .refused _ _
  | submitForReview key principal now =>
      rw [step]
      rcases withStored_cases repository key
        (repository.submitForReview · principal now) with hsame | ⟨record, after, hget, hok, hafter⟩
      · rwa [hsame]
      · rw [hafter]
        simp only [submitForReview, then_ok, return_ok] at hok
        obtain ⟨updated, hmachine, rfl⟩ := hok
        exact .submitted hget hmachine
  | recordReview key principal input =>
      rw [step]
      rcases withStored_cases repository key
        (repository.recordReview host · principal input) with hsame | ⟨record, after, hget, hok, hafter⟩
      · rwa [hsame]
      · rw [hafter]
        simp only [recordReview, then_ok, return_ok] at hok
        obtain ⟨updated, hmachine, rfl⟩ := hok
        exact .reviewed hget hmachine
  | approve key principal input =>
      rw [step]
      rcases withStored_cases repository key
        (repository.approve host · principal input) with hsame | ⟨record, after, hget, hok, hafter⟩
      · rwa [hsame]
      · rw [hafter]
        simp only [approve, then_ok, return_ok] at hok
        obtain ⟨updated, hmachine, rfl⟩ := hok
        exact .approved hget hmachine
  | supersede key principal input =>
      rw [step]
      rcases withStored_cases repository key
        (repository.supersede host · principal input) with hsame | ⟨record, after, hget, hok, hafter⟩
      · rwa [hsame]
      · rw [hafter]
        simp only [supersede, then_ok, orRefuse_ok, return_ok] at hok
        obtain ⟨replacement, hreplacement, result, hmachine, rfl⟩ := hok
        exact .superseded hget hreplacement hmachine
  | archive key principal now =>
      rw [step]
      rcases withStored_cases repository key
        (repository.archive · principal now) with hsame | ⟨record, after, hget, hok, hafter⟩
      · rwa [hsame]
      · rw [hafter]
        simp only [archive, then_ok, return_ok] at hok
        obtain ⟨updated, hmachine, rfl⟩ := hok
        exact .archived hget hmachine

theorem get_save (repository : InMemory Value) (record : StoredVersion Value) (key : VersionKey) :
    (repository.save record).get key =
      if key = record.key then some record else repository.get key :=
  JsMap.get_set _ _ _ _

end InMemory

end Workflow
