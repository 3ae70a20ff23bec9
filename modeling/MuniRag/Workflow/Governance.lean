import MuniRag.Workflow.StateMachine
import MuniRag.Lib.Runs

/-!
# Separation of duties over all runs of the state machine

A run takes one workflow version from its creation through any sequence of
operations.  The actor, the inputs and, for a supersession, the other record
taking part are free at every step; an operation that throws leaves the record
alone.

`Governed` is the invariant that ties the status to the governance fields.
Everything else follows from it: an approval is never on a record that could
still be edited, submitted, reviewed or approved, so what was approved is what
stays approved.
-/

namespace Workflow

open Results Runs

variable {Value : Type}

/-- One operation on a version.  `approveReplacementAndSupersede` is two of
them: the same call changes the current version and the replacement. -/
inductive Operation (Value : Type)
  | revise (actor : Actor) (input : ReviseInput Value)
  | submit (actor : Actor) (now : DateText)
  | review (actor : Actor) (input : ReviewInput)
  | approve (actor : Actor) (input : ApprovalInput)
  | supersede (actor : Actor) (input : SupersessionInput)
  | supersedeBy (replacement : VersionRecord Value) (actor : Actor)
      (input : SupersessionApprovalInput)
  | approveInPlaceOf (current : VersionRecord Value) (actor : Actor)
      (input : SupersessionApprovalInput)
  | archive (actor : Actor) (now : DateText)

variable (host : Host Value)

def Operation.apply (record : VersionRecord Value) :
    Operation Value → Except LifecycleError (VersionRecord Value)
  | .revise actor input => reviseWorkflowDraft host record actor input
  | .submit actor now => submitWorkflowForReview record actor now
  | .review actor input => recordWorkflowReview host record actor input
  | .approve actor input => approveWorkflowVersion host record actor input
  | .supersede actor input => supersedeWorkflowVersion record actor input
  | .supersedeBy replacement actor input => do
      let result ← approveReplacementAndSupersede host record replacement actor input
      pure result.superseded
  | .approveInPlaceOf current actor input => do
      let result ← approveReplacementAndSupersede host current record actor input
      pure result.replacement
  | .archive actor now => archiveWorkflowVersion record actor now

/-- One step of a run: an operation that throws leaves the record as it was. -/
def step (record : VersionRecord Value) (op : Operation Value) : VersionRecord Value :=
  settle record (op.apply host record)

/-- The records of all runs from all initial versions. -/
def Reachable (record : VersionRecord Value) : Prop :=
  ∃ (input : InitializeInput Value) (start : VersionRecord Value),
    initializeWorkflowVersion host input = .ok start ∧ Reached (step host) start record

/-! ## What one operation can do -/

variable {host}
variable {record record' : VersionRecord Value}

/-- A successful approval of either kind, as it changes the record. -/
def Approves (record record' : VersionRecord Value) : Prop :=
  record.lifecycleStatus = .inReview ∧
    ∃ (review : ReviewRecord) (approval : ApprovalRecord),
      record.latestReview = some review ∧ review.decision = .recommendedForApproval ∧
      approval.approverPrincipalId ≠ record.createdByPrincipalId ∧
      approval.approverPrincipalId ≠ review.reviewerPrincipalId ∧
      record' = { record with lifecycleStatus := .approved, approval := some approval }

/-- A successful supersession of either kind, as it changes the record. -/
def Supersedes (record record' : VersionRecord Value) : Prop :=
  record.lifecycleStatus = .approved ∧
    ∃ replacement, replacement ≠ record.workflowVersionId ∧
      record' = { record with
        lifecycleStatus := .superseded
        supersededByWorkflowVersionId := some replacement }

theorem approves_of_ok {actor : Actor} {input : ApprovalInput}
    (h : approveWorkflowVersion host record actor input = .ok record') :
    Approves record record' := by
  obtain ⟨hstatus, review, approval, hreview, hdecision, -, -, -, hcreator, hreviewer, hrecord⟩ :=
    approveWorkflowVersion_ok host h
  exact ⟨hstatus, review, approval, hreview, hdecision, hcreator, hreviewer, hrecord⟩

theorem supersedes_of_ok {actor : Actor} {input : SupersessionInput}
    (h : supersedeWorkflowVersion record actor input = .ok record') :
    Supersedes record record' := by
  obtain ⟨hstatus, replacement, hne, -, hrecord⟩ := supersedeWorkflowVersion_ok h
  exact ⟨hstatus, replacement, hne, hrecord⟩

/-- **The six ways an operation changes a record.**  Both halves of
`approveReplacementAndSupersede` are an approval or a supersession like any
other. -/
theorem Operation.apply_cases {op : Operation Value} (h : op.apply host record = .ok record') :
    (record.lifecycleStatus = .draft ∧
      ∃ definition title jurisdiction bundle, record' = { record with
        workflowDefinition := definition, title := title, jurisdiction := jurisdiction
        evidenceBundleId := bundle, revision := record.revision + 1
        latestReview := none, approval := none }) ∨
    (record.lifecycleStatus = .draft ∧
      ∃ submitter at', record' = { record with
        lifecycleStatus := .inReview, submittedByPrincipalId := some submitter
        submittedAt := some at', latestReview := none, approval := none }) ∨
    (record.lifecycleStatus = .inReview ∧
      ∃ review : ReviewRecord, review.reviewerPrincipalId ≠ record.createdByPrincipalId ∧
        record' = record.reviewed review) ∨
    Approves record record' ∨
    Supersedes record record' ∨
    (record.lifecycleStatus ≠ .archived ∧
      ∃ archivedBy at', record' = { record with
        lifecycleStatus := .archived
        archivedByPrincipalId := some archivedBy
        archivedAt := some at' }) := by
  cases op with
  | revise actor input => exact .inl (reviseWorkflowDraft_ok host h)
  | submit actor now => exact .inr (.inl (submitWorkflowForReview_ok h))
  | review actor input =>
      obtain ⟨hstatus, review, -, -, -, -, hcreator, hrecord⟩ := recordWorkflowReview_ok host h
      exact .inr (.inr (.inl ⟨hstatus, review, hcreator, hrecord⟩))
  | approve actor input => exact .inr (.inr (.inr (.inl (approves_of_ok h))))
  | supersede actor input => exact .inr (.inr (.inr (.inr (.inl (supersedes_of_ok h)))))
  | supersedeBy replacement actor input =>
      simp only [apply, then_ok, return_ok] at h
      obtain ⟨result, hresult, rfl⟩ := h
      obtain ⟨-, -, -, hsupersede⟩ := approveReplacementAndSupersede_ok host hresult
      exact .inr (.inr (.inr (.inr (.inl (supersedes_of_ok hsupersede)))))
  | approveInPlaceOf current actor input =>
      simp only [apply, then_ok, return_ok] at h
      obtain ⟨result, hresult, rfl⟩ := h
      obtain ⟨-, -, happrove, -⟩ := approveReplacementAndSupersede_ok host hresult
      exact .inr (.inr (.inr (.inl (approves_of_ok happrove))))
  | archive actor now => exact .inr (.inr (.inr (.inr (.inr (archiveWorkflowVersion_ok h)))))

/-! ## The invariant -/

/-- A recommending review and an approval by three different principals. -/
def Endorsed (record : VersionRecord Value) : Prop :=
  ∃ (review : ReviewRecord) (approval : ApprovalRecord),
    record.latestReview = some review ∧ review.decision = .recommendedForApproval ∧
    record.approval = some approval ∧
    record.createdByPrincipalId ≠ review.reviewerPrincipalId ∧
    record.createdByPrincipalId ≠ approval.approverPrincipalId ∧
    review.reviewerPrincipalId ≠ approval.approverPrincipalId

/-- How the status and the governance fields of a version go together. -/
structure Governed (record : VersionRecord Value) : Prop where
  reviewer_ne_creator : ∀ review, record.latestReview = some review →
    review.reviewerPrincipalId ≠ record.createdByPrincipalId
  endorsed : record.approval ≠ none → Endorsed record
  draft : record.lifecycleStatus = .draft →
    record.submittedByPrincipalId = none ∧ record.submittedAt = none ∧ record.approval = none
  inReview : record.lifecycleStatus = .inReview →
    record.submittedByPrincipalId ≠ none ∧ record.submittedAt ≠ none ∧ record.approval = none
  approved : record.lifecycleStatus = .approved → record.approval ≠ none
  superseded : record.lifecycleStatus = .superseded → record.approval ≠ none
  supersededBy : ∀ other, record.supersededByWorkflowVersionId = some other →
    (record.lifecycleStatus = .superseded ∨ record.lifecycleStatus = .archived) ∧
      other ≠ record.workflowVersionId

/-- An approval stands only on versions past review. -/
theorem Governed.past_review (h : Governed record) (happroval : record.approval ≠ none) :
    record.lifecycleStatus ≠ .draft ∧ record.lifecycleStatus ≠ .inReview :=
  ⟨fun hdraft => happroval (h.draft hdraft).2.2,
    fun hreview => happroval (h.inReview hreview).2.2⟩

theorem governed_initial {input : InitializeInput Value}
    (h : initializeWorkflowVersion host input = .ok record) : Governed record := by
  obtain ⟨hstatus, hsubmitter, hat, hreview, happroval, hsuperseded⟩ :=
    initializeWorkflowVersion_ok host h
  constructor <;> simp [hstatus, hsubmitter, hat, hreview, happroval, hsuperseded]

/-- Nothing points to a successor before supersession. -/
theorem Governed.no_successor (h : Governed record)
    (hstatus : record.lifecycleStatus ≠ .superseded ∧ record.lifecycleStatus ≠ .archived) :
    record.supersededByWorkflowVersionId = none := by
  cases hother : record.supersededByWorkflowVersionId with
  | none => rfl
  | some other =>
      rcases (h.supersededBy other hother).1 with hs | ha
      · exact absurd hs hstatus.1
      · exact absurd ha hstatus.2

theorem governed_reviewed (h : Governed record) (hstatus : record.lifecycleStatus = .inReview)
    {review : ReviewRecord} (hcreator : review.reviewerPrincipalId ≠ record.createdByPrincipalId) :
    Governed (record.reviewed review) := by
  have hsuccessor := h.no_successor (by simp [hstatus])
  obtain ⟨hsubmitter, hat, happroval⟩ := h.inReview hstatus
  cases hdecision : review.decision with
  | changesRequested =>
      constructor <;> simp [VersionRecord.reviewed, hdecision, hcreator, hsuccessor]
  | recommendedForApproval =>
      constructor <;>
        simp [VersionRecord.reviewed, hdecision, hcreator, hsuccessor, hstatus, hsubmitter, hat,
          happroval]

theorem governed_approves (h : Governed record) (happroves : Approves record record') :
    Governed record' := by
  obtain ⟨hstatus, review, approval, hreview, hdecision, hcreator, hreviewer, rfl⟩ := happroves
  have hsuccessor := h.no_successor (by simp [hstatus])
  have hne := h.reviewer_ne_creator review hreview
  exact {
    reviewer_ne_creator := h.reviewer_ne_creator
    endorsed := fun _ =>
      ⟨review, approval, hreview, hdecision, rfl, hne.symm, hcreator.symm, hreviewer.symm⟩
    draft := by simp
    inReview := by simp
    approved := by simp
    superseded := by simp
    supersededBy := by simp [hsuccessor] }

theorem governed_supersedes (h : Governed record) (hsupersedes : Supersedes record record') :
    Governed record' := by
  obtain ⟨hstatus, replacement, hne, rfl⟩ := hsupersedes
  have happroval := h.approved hstatus
  exact {
    reviewer_ne_creator := h.reviewer_ne_creator
    endorsed := h.endorsed
    draft := by simp
    inReview := by simp
    approved := by simp
    superseded := fun _ => happroval
    supersededBy := by simpa using hne }

/-- **Step lemma.**  Every operation keeps a governed version governed. -/
theorem governed_apply {op : Operation Value} (h : Governed record)
    (hop : op.apply host record = .ok record') : Governed record' := by
  rcases op.apply_cases hop with ⟨hstatus, _, _, _, _, rfl⟩ | ⟨hstatus, _, _, rfl⟩ |
    ⟨hstatus, review, hcreator, rfl⟩ | happroves | hsupersedes | ⟨hstatus, _, _, rfl⟩
  · have hsuccessor := h.no_successor (by simp [hstatus])
    obtain ⟨hsubmitter, hat, -⟩ := h.draft hstatus
    constructor <;> simp [hstatus, hsubmitter, hat, hsuccessor]
  · have hsuccessor := h.no_successor (by simp [hstatus])
    constructor <;> simp [hsuccessor]
  · exact governed_reviewed h hstatus hcreator
  · exact governed_approves h happroves
  · exact governed_supersedes h hsupersedes
  · exact {
      reviewer_ne_creator := h.reviewer_ne_creator
      endorsed := h.endorsed
      draft := by simp
      inReview := by simp
      approved := by simp
      superseded := by simp
      supersededBy := fun other hother => ⟨.inr rfl, (h.supersededBy other hother).2⟩ }

theorem governed_step (h : Governed record) (op : Operation Value) :
    Governed (step host record op) :=
  settle_keeps h fun _ hop => governed_apply h hop

/-- **Run lemma.**  Every reachable version is governed. -/
theorem governed_reachable (h : Reachable host record) : Governed record := by
  obtain ⟨input, start, hstart, hreached⟩ := h
  exact reached_invariant Governed (fun _ op h => governed_step h op) (governed_initial hstart)
    hreached

/-! ## What was approved stays as approved -/

/-- The fields that an approval seals. -/
structure Sealed (Value : Type) where
  workflowDefinition : Value
  title : JsString
  jurisdiction : JsString
  evidenceBundleId : Option Uuid
  revision : Nat
  latestReview : Option ReviewRecord
  approval : Option ApprovalRecord

def VersionRecord.sealed (record : VersionRecord Value) : Sealed Value where
  workflowDefinition := record.workflowDefinition
  title := record.title
  jurisdiction := record.jurisdiction
  evidenceBundleId := record.evidenceBundleId
  revision := record.revision
  latestReview := record.latestReview
  approval := record.approval

/-- Once there is an approval only supersession and archival are left, and
neither touches a sealed field. -/
theorem sealed_apply {op : Operation Value} (h : Governed record)
    (happroval : record.approval ≠ none) (hop : op.apply host record = .ok record') :
    record'.sealed = record.sealed := by
  obtain ⟨hnotDraft, hnotReview⟩ := h.past_review happroval
  rcases op.apply_cases hop with ⟨hstatus, -⟩ | ⟨hstatus, -⟩ | ⟨hstatus, -⟩ | ⟨hstatus, -⟩ |
    ⟨-, _, -, rfl⟩ | ⟨-, _, _, rfl⟩
  · exact absurd hstatus hnotDraft
  · exact absurd hstatus hnotDraft
  · exact absurd hstatus hnotReview
  · exact absurd hstatus hnotReview
  · rfl
  · rfl

theorem sealed_run (h : Governed record) (happroval : record.approval ≠ none)
    (ops : List (Operation Value)) : (run (step host) record ops).sealed = record.sealed := by
  refine (run_invariant (fun later => Governed later ∧ later.sealed = record.sealed) ?_
    ⟨h, rfl⟩ ops).2
  intro later op ⟨hlater, hsealed⟩
  have hstill : later.approval ≠ none := by
    rw [show later.approval = record.approval from congrArg Sealed.approval hsealed]
    exact happroval
  refine ⟨governed_step hlater op, ?_⟩
  rcases settle_cases later (op.apply host later) with hsame | hop
  · rw [step, hsame, hsealed]
  · exact (sealed_apply hlater hstill hop).trans hsealed

/-- An archived version refuses every operation. -/
theorem archived_refuses (harchived : record.lifecycleStatus = .archived)
    (op : Operation Value) : ∃ error, op.apply host record = .error error := by
  cases hop : op.apply host record with
  | error error => exact ⟨error, rfl⟩
  | ok record' =>
      exfalso
      rcases op.apply_cases hop with ⟨hstatus, -⟩ | ⟨hstatus, -⟩ | ⟨hstatus, -⟩ | ⟨hstatus, -⟩ |
        ⟨hstatus, -⟩ | ⟨hstatus, -⟩ <;> simp [harchived] at hstatus

/-- **Separation of duties and immutability.**  On every reachable version:
an approved or superseded version, and an archived one with an approval, is
endorsed by three different principals; whatever is done after the approval,
the sealed fields keep their values; drafts and versions in review have
exactly the submission fields of their status and no approval; a successor is
named only by superseded and archived versions and is never the version
itself; and an archived version refuses every operation. -/
theorem separation_of_duties (record : VersionRecord Value) (h : Reachable host record) :
    ((record.lifecycleStatus = .approved ∨ record.lifecycleStatus = .superseded ∨
        (record.lifecycleStatus = .archived ∧ record.approval ≠ none)) → Endorsed record) ∧
    (record.approval ≠ none → ∀ ops, (run (step host) record ops).sealed = record.sealed) ∧
    (record.lifecycleStatus = .draft →
      record.submittedByPrincipalId = none ∧ record.submittedAt = none ∧
        record.approval = none) ∧
    (record.lifecycleStatus = .inReview →
      record.submittedByPrincipalId ≠ none ∧ record.submittedAt ≠ none ∧
        record.approval = none) ∧
    (∀ other, record.supersededByWorkflowVersionId = some other →
      (record.lifecycleStatus = .superseded ∨ record.lifecycleStatus = .archived) ∧
        other ≠ record.workflowVersionId) ∧
    (record.lifecycleStatus = .archived →
      ∀ op : Operation Value, ∃ error, op.apply host record = .error error) := by
  have hgoverned := governed_reachable h
  refine ⟨?_, sealed_run hgoverned, hgoverned.draft, hgoverned.inReview, hgoverned.supersededBy,
    archived_refuses⟩
  rintro (hstatus | hstatus | ⟨-, happroval⟩)
  · exact hgoverned.endorsed (hgoverned.approved hstatus)
  · exact hgoverned.endorsed (hgoverned.superseded hstatus)
  · exact hgoverned.endorsed happroval

/-! ## A run to approval -/

/-- A runtime whose only JSON object is `{}`. -/
def emptyObjectHost : Host Unit where
  nfc := id
  isObject _ := true
  stringify _ := some [123, 125]
  byteLength text := text.length
  parse _ := ()

def samplePrincipal (d : Nat) (role : SecurityRole) : Actor where
  principalId := sampleUuid d
  tenantId := sampleUuid 1
  roles := [role]

def sampleInput : InitializeInput Unit where
  workflowVersionId := sampleUuid 2
  tenantId := sampleUuid 1
  procedureId := sampleUuid 3
  versionNumber := 1
  generationSource := "ai"
  createdByPrincipalId := sampleUuid 4
  jurisdiction := js "Guatemala"
  title := js "Licencia"
  workflowDefinition := ()
  evidenceBundleId := none
  now := some 0

/-- Submission by the creator, review and approval by two others. -/
def sampleOperations : List (Operation Unit) :=
  [.submit (samplePrincipal 4 .procedureAuthor) (some 1),
    .review (samplePrincipal 5 .procedureReviewer)
      { reviewId := sampleUuid 6, decision := "recommended_for_approval", notes := js "bien"
        now := some 2 },
    .approve (samplePrincipal 7 .procedureApprover)
      { approvalId := sampleUuid 8, notes := js "bien", now := some 3 }]

theorem separation_of_duties_sample :
    ∃ start, initializeWorkflowVersion emptyObjectHost sampleInput = .ok start ∧
      (run (step emptyObjectHost) start sampleOperations).lifecycleStatus = .approved ∧
      Endorsed (run (step emptyObjectHost) start sampleOperations) := by
  refine ⟨_, rfl, rfl, ?_⟩
  exact (separation_of_duties _ ⟨sampleInput, _, rfl, sampleOperations, rfl⟩).1 (.inl rfl)

end Workflow
