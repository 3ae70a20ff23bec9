import MuniRag.Workflow.InMemory
import MuniRag.Workflow.ReviewRounds

/-!
# One approved version of a procedure

The tables allow one approved version of each procedure through a unique index.
The map has no such guard: `approve` looks at the version it approves and at no
other.  So the law holds in memory exactly as long as no version is approved
while another version of its procedure is approved; `supersede`, which takes the
approval from one version as it gives it to the other, never breaks it.
-/

namespace Workflow

open Results Runs

variable {Value : Type}

namespace InMemory

variable {host : Host Value} {repository after : InMemory Value}
variable {record updated : VersionRecord Value} {call : Call Value}

/-! ## The stored records -/

/-- The record is stored under its own key and is governed. -/
def Kept (repository : InMemory Value) : Prop :=
  ∀ key record, repository.get key = some record →
    record.key = key ∧ Governed record.toVersionRecord

/-- What no operation changes of a version. -/
def SameVersion (record updated : VersionRecord Value) : Prop :=
  updated.key = record.key ∧ updated.procedureId = record.procedureId

theorem sameVersion_apply {op : Operation Value} (h : op.apply host record = .ok updated) :
    SameVersion record updated := by
  rcases op.apply_cases h with ⟨_, _, _, _, _, rfl⟩ | ⟨_, _, _, rfl⟩ | ⟨_, review, _, rfl⟩ |
    ⟨_, _, _, _, _, _, _, rfl⟩ | ⟨_, _, _, rfl⟩ | ⟨_, _, _, rfl⟩
  · exact ⟨rfl, rfl⟩
  · exact ⟨rfl, rfl⟩
  · cases hdecision : review.decision <;>
      simp [SameVersion, VersionRecord.reviewed, hdecision, VersionRecord.key]
  · exact ⟨rfl, rfl⟩
  · exact ⟨rfl, rfl⟩
  · exact ⟨rfl, rfl⟩

theorem draft_ok {principal : Actor} {input : DraftInput Value} {procedureId : JsString}
    {record : StoredVersion Value}
    (h : draft host repository principal input procedureId = .ok record) :
    ∃ initial, initializeWorkflowVersion host initial = .ok record.toVersionRecord := by
  simp only [draft, then_ok, return_ok] at h
  obtain ⟨version, hmachine, rfl⟩ := h
  exact ⟨_, hmachine⟩

theorem get_lookup {tenantId : Uuid} {text : JsString} {record : StoredVersion Value}
    (h : repository.lookup tenantId text = some record) :
    ∃ id, repository.get (tenantId, id) = some record := by
  obtain ⟨id, _, hget⟩ := Option.bind_eq_some_iff.mp h
  exact ⟨id, hget⟩

theorem kept_save {stored : StoredVersion Value} (h : Kept repository)
    (hgoverned : Governed stored.toVersionRecord) : Kept (repository.save stored) := by
  intro key other hget
  rw [get_save] at hget
  split_ifs at hget with hkey
  · obtain rfl := Option.some.inj hget
    exact ⟨hkey.symm, hgoverned⟩
  · exact h key other hget

/-- Writing back what an operation made of a stored record. -/
theorem kept_apply {key : VersionKey} {stored : StoredVersion Value} {op : Operation Value}
    {procedureKey : JsString} (h : Kept repository) (hget : repository.get key = some stored)
    (hop : op.apply host stored.toVersionRecord = .ok updated) :
    Kept (repository.save { updated with procedureKey }) :=
  kept_save h (governed_apply (h key stored hget).2 hop)

/-- A supersession is the two operations of the state machine. -/
theorem supersession_apply {current replacement : VersionRecord Value} {actor : Actor}
    {input : SupersessionApprovalInput} {result : SupersessionResult Value}
    (h : approveReplacementAndSupersede host current replacement actor input = .ok result) :
    (Operation.approveInPlaceOf current actor input).apply host replacement =
        .ok result.replacement ∧
      (Operation.supersedeBy replacement actor input).apply host current =
        .ok result.superseded := by
  simp only [Operation.apply, then_ok, return_ok]
  exact ⟨⟨result, h, rfl⟩, result, h, rfl⟩

theorem kept_change (h : Kept repository) (hchange : Change host repository call after) :
    Kept after := by
  cases hchange with
  | refused call procedureIds => exact h
  | drafted procedureIds procedureId hmachine =>
      obtain ⟨initial, hinitial⟩ := draft_ok hmachine
      exact kept_save h (governed_initial hinitial)
  | @submitted key principal now stored updated hget hmachine =>
      have hop : (Operation.submit principal now).apply host stored.toVersionRecord =
        .ok updated := hmachine
      exact kept_apply h hget hop
  | @reviewed key principal input stored updated hget hmachine =>
      have hop : (Operation.review principal input).apply host stored.toVersionRecord =
        .ok updated := hmachine
      exact kept_apply h hget hop
  | @approved key principal input stored updated hget hmachine =>
      have hop : (Operation.approve principal input).apply host stored.toVersionRecord =
        .ok updated := hmachine
      exact kept_apply h hget hop
  | @superseded key principal input stored replacement result hget hreplacement hmachine =>
      obtain ⟨id, hstored⟩ := get_lookup hreplacement
      obtain ⟨happrove, hsupersede⟩ := supersession_apply hmachine
      refine kept_save (kept_apply h hstored happrove) ?_
      exact governed_apply (h key stored hget).2 hsupersede
  | @archived key principal now stored updated hget hmachine =>
      have hop : (Operation.archive principal now).apply host stored.toVersionRecord =
        .ok updated := hmachine
      exact kept_apply h hget hop

/-! ## The law -/

/-- At most one version of each procedure of a tenant is approved. -/
def OneApproved (repository : InMemory Value) : Prop :=
  ∀ key other record stored, repository.get key = some record →
    repository.get other = some stored → stored.tenantId = record.tenantId →
    stored.procedureId = record.procedureId → record.lifecycleStatus = .approved →
    stored.lifecycleStatus = .approved → key = other

/-- No version of the procedure of the record is approved, the ones under the
keys aside. -/
def FreeOfApproved (repository : InMemory Value) (record : VersionRecord Value)
    (keys : List VersionKey) : Prop :=
  ∀ other stored, repository.get other = some stored → other ∉ keys →
    stored.tenantId = record.tenantId → stored.procedureId = record.procedureId →
    stored.lifecycleStatus ≠ .approved

/-- **The condition.**  A version that the state machine approves is approved
while no version of its procedure is. -/
def ApprovesFirst (host : Host Value) (repository : InMemory Value) : Call Value → Prop
  | .approve key principal input =>
      ∀ record updated, repository.get key = some record →
        approveWorkflowVersion host record.toVersionRecord principal input = .ok updated →
        FreeOfApproved repository record.toVersionRecord []
  | _ => True

theorem oneApproved_save {stored : StoredVersion Value} (h : OneApproved repository)
    (hnew : stored.lifecycleStatus = .approved →
      FreeOfApproved repository stored.toVersionRecord [stored.key]) :
    OneApproved (repository.save stored) := by
  intro key other first second hfirst hsecond htenant hprocedure hfirstStatus hsecondStatus
  rw [get_save] at hfirst hsecond
  by_cases hkey : key = stored.key
  · by_cases hother : other = stored.key
    · rw [hkey, hother]
    · rw [if_pos hkey] at hfirst
      rw [if_neg hother] at hsecond
      obtain rfl := Option.some.inj hfirst
      exact absurd hsecondStatus (hnew hfirstStatus other second hsecond (by simpa using hother)
        htenant hprocedure)
  · rw [if_neg hkey] at hfirst
    by_cases hother : other = stored.key
    · rw [if_pos hother] at hsecond
      obtain rfl := Option.some.inj hsecond
      exact absurd hfirstStatus (hnew hsecondStatus key first hfirst (by simpa using hkey)
        htenant.symm hprocedure.symm)
    · rw [if_neg hother] at hsecond
      exact h key other first second hfirst hsecond htenant hprocedure hfirstStatus hsecondStatus

/-- A record that is saved under another status than `approved`. -/
theorem oneApproved_other {stored : StoredVersion Value} (h : OneApproved repository)
    (hstatus : stored.lifecycleStatus ≠ .approved) : OneApproved (repository.save stored) :=
  oneApproved_save h fun happroved => absurd happroved hstatus

/-- **Supersession hands the approval over.** -/
theorem oneApproved_superseded {key : VersionKey} {principal : Actor}
    {input : SupersessionApprovalInput} {current replacement : StoredVersion Value}
    {result : SupersessionResult Value} {first second : JsString} (hkept : Kept repository)
    (h : OneApproved repository) (hcurrent : repository.get key = some current)
    (htenant : replacement.tenantId = current.tenantId)
    (hmachine : approveReplacementAndSupersede host current.toVersionRecord
      replacement.toVersionRecord principal input = .ok result) :
    OneApproved ((repository.save { result.replacement with procedureKey := first }).save
      { result.superseded with procedureKey := second }) := by
  obtain ⟨hprocedure, _, happrove, hsupersede⟩ := approveReplacementAndSupersede_ok host hmachine
  obtain ⟨hfrom, successor, _, _, hsuperseded⟩ := supersedeWorkflowVersion_ok hsupersede
  obtain ⟨hreview, _, _, _, _, _, _, _, _, _, happroved⟩ := approveWorkflowVersion_ok host happrove
  have hkey : current.key = key := (hkept key current hcurrent).1
  have hsupersededKey : result.superseded.key = key := by
    rw [hsuperseded]
    exact hkey
  -- After both writes the two records stand under their keys, the rest as before.
  intro k l record stored hrecord hstored hsameTenant hsameProcedure hstatus hstoredStatus
  have hread : ∀ m found, ((repository.save { result.replacement with procedureKey := first }).save
      { result.superseded with procedureKey := second }).get m = some found →
      found.lifecycleStatus = .approved →
      (m = result.replacement.key ∧ found.toVersionRecord = result.replacement) ∨
        (m ≠ key ∧ repository.get m = some found) := by
    intro m found hfound hfoundStatus
    rw [get_save] at hfound
    split_ifs at hfound with hm
    · obtain rfl := Option.some.inj hfound
      rw [hsuperseded] at hfoundStatus
      cases hfoundStatus
    · rw [get_save] at hfound
      split_ifs at hfound with hm'
      · obtain rfl := Option.some.inj hfound
        exact .inl ⟨hm', rfl⟩
      · refine .inr ⟨fun hmk => hm ?_, hfound⟩
        rw [hmk, ← hsupersededKey]
  have hapart : ∀ m found, repository.get m = some found → m ≠ key →
      found.tenantId = result.replacement.tenantId →
      found.procedureId = result.replacement.procedureId → found.lifecycleStatus ≠ .approved := by
    intro m found hfound hm hfoundTenant hfoundProcedure hfoundStatus
    rw [happroved] at hfoundTenant hfoundProcedure
    refine hm (h key m current found hcurrent hfound ?_ ?_ hfrom hfoundStatus).symm
    · exact hfoundTenant.trans htenant
    · exact hfoundProcedure.trans hprocedure.symm
  rcases hread k record hrecord hstatus with ⟨hk, hsame⟩ | ⟨hk, hold⟩
  · rcases hread l stored hstored hstoredStatus with ⟨hl, _⟩ | ⟨hl, hold⟩
    · rw [hk, hl]
    · refine absurd hstoredStatus (hapart l stored hold hl ?_ ?_)
      · rw [← hsame]
        exact hsameTenant
      · rw [← hsame]
        exact hsameProcedure
  · rcases hread l stored hstored hstoredStatus with ⟨hl, hsame⟩ | ⟨hl, hold'⟩
    · refine absurd hstatus (hapart k record hold hk ?_ ?_)
      · rw [← hsame]
        exact hsameTenant.symm
      · rw [← hsame]
        exact hsameProcedure.symm
    · exact h k l record stored hold hold' hsameTenant hsameProcedure hstatus hstoredStatus

theorem oneApproved_change (hkept : Kept repository) (h : OneApproved repository)
    (hchange : Change host repository call after) (hgood : ApprovesFirst host repository call) :
    OneApproved after := by
  cases hchange with
  | refused call procedureIds => exact h
  | drafted procedureIds procedureId hmachine =>
      obtain ⟨initial, hinitial⟩ := draft_ok hmachine
      have hstatus := (initializeWorkflowVersion_ok host hinitial).1
      exact oneApproved_other h (by simp [hstatus])
  | @submitted key principal now stored updated hget hmachine =>
      obtain ⟨_, _, _, rfl⟩ := submitWorkflowForReview_ok hmachine
      exact oneApproved_other h (by simp)
  | @reviewed key principal input stored updated hget hmachine =>
      obtain ⟨hfrom, review, _, _, _, _, _, rfl⟩ := recordWorkflowReview_ok host hmachine
      refine oneApproved_other h ?_
      cases hdecision : review.decision <;> simp [VersionRecord.reviewed, hdecision, hfrom]
  | @approved key principal input stored updated hget hmachine =>
      have hfree := hgood stored updated hget hmachine
      obtain ⟨_, _, _, _, _, _, _, _, _, _, hupdated⟩ := approveWorkflowVersion_ok host hmachine
      refine oneApproved_save h fun _ other found hfound _ htenant hprocedure => ?_
      rw [hupdated] at htenant hprocedure
      exact hfree other found hfound List.not_mem_nil htenant hprocedure
  | @superseded key principal input stored replacement result hget hreplacement hmachine =>
      obtain ⟨id, hstored⟩ := get_lookup hreplacement
      have htenant : replacement.tenantId = stored.tenantId :=
        congrArg Prod.fst (hkept _ replacement hstored).1
      exact oneApproved_superseded hkept h hget htenant hmachine
  | @archived key principal now stored updated hget hmachine =>
      obtain ⟨_, _, _, rfl⟩ := archiveWorkflowVersion_ok hmachine
      exact oneApproved_other h (by simp)

/-- An approval beside another approved version leaves two of them. -/
theorem not_oneApproved_step (hkept : Kept repository)
    (hbad : ¬ ApprovesFirst host repository call) :
    ¬ OneApproved (repository.step host call) := by
  intro hone
  cases call with
  | approve key principal input =>
      apply hbad
      intro record updated hget hmachine other stored hstored _ htenant hprocedure hstatus
      have hstep : repository.step host (.approve key principal input) =
          repository.save { updated with procedureKey := record.procedureKey } := by
        simp [step, withStored, hget, approve, hmachine, Bind.bind, Except.bind, Pure.pure,
          Except.pure]
      obtain ⟨hreview, _, _, _, _, _, _, _, _, _, hupdated⟩ :=
        approveWorkflowVersion_ok host hmachine
      have hkey : updated.key = key := by
        rw [hupdated]
        exact (hkept key record hget).1
      have hother : other ≠ key := by
        rintro rfl
        obtain rfl : record = stored := Option.some.inj (hget.symm.trans hstored)
        rw [hreview] at hstatus
        cases hstatus
      rw [hstep] at hone
      have hfirst : (repository.save { updated with procedureKey := record.procedureKey }).get key =
          some { updated with procedureKey := record.procedureKey } := by
        rw [get_save, if_pos hkey.symm]
      have hsecond : (repository.save { updated with procedureKey := record.procedureKey }).get
          other = some stored := by
        rw [get_save, if_neg]
        · exact hstored
        · exact fun hsame => hother (hsame.trans hkey)
      refine hother (hone key other _ stored hfirst hsecond ?_ ?_ ?_ hstatus).symm
      · rw [hupdated]
        exact htenant
      · rw [hupdated]
        exact hprocedure
      · rw [hupdated]
  | createDraft | submitForReview | recordReview | supersede | archive => exact hbad trivial

end InMemory

/-- **One approved version of a procedure.**  In memory the law holds in every
state of a run exactly when no call of the run approves a version while another
version of its procedure is approved. -/
theorem one_approved_iff (host : Host Value) (calls : List (InMemory.Call Value)) :
    Throughout (InMemory.step host) InMemory.OneApproved InMemory.opening calls ↔
      EachStep (InMemory.step host) (InMemory.ApprovesFirst host) InMemory.opening calls := by
  have hopening : InMemory.Kept (InMemory.opening : InMemory Value) ∧
      InMemory.OneApproved (InMemory.opening : InMemory Value) :=
    ⟨fun _ _ hget => (nomatch hget), fun _ _ _ _ hget => (nomatch hget)⟩
  have hkeep : ∀ (repository : InMemory Value) call,
      repository.Kept ∧ repository.OneApproved → repository.ApprovesFirst host call →
        (repository.step host call).Kept ∧ (repository.step host call).OneApproved := by
    intro repository call h hgood
    have hchange := InMemory.step_change host repository call
    exact ⟨InMemory.kept_change h.1 hchange, InMemory.oneApproved_change h.1 h.2 hchange hgood⟩
  exact throughout_iff_eachStep hkeep (fun _ h => h.2)
    (fun _ _ h hbad => InMemory.not_oneApproved_step h.1 hbad) hopening calls

/-! ## Two approved versions -/

/-- Two drafts of one procedure, each submitted, reviewed and approved. -/
def sampleTwoApprovals : List (InMemory.Call Unit) :=
  let version (d : Nat) : List (InMemory.Call Unit) :=
    [.createDraft (samplePrincipal 4 .procedureAuthor) {
        procedureId := sampleUuid 3, workflowVersionId := sampleUuid d, tenantId := sampleUuid 1
        procedureKey := js "licencia", generationSource := "ai", evidenceBundleId := none
        workflowDefinition := (), title := js "Licencia", jurisdiction := js "Guatemala"
        now := some 0 },
      .submitForReview (sampleId 1, sampleId d) (samplePrincipal 4 .procedureAuthor) (some 1),
      .recordReview (sampleId 1, sampleId d) (samplePrincipal 5 .procedureReviewer)
        { reviewId := sampleUuid 6, decision := "recommended_for_approval", notes := js "bien"
          now := some 2 },
      .approve (sampleId 1, sampleId d) (samplePrincipal 7 .procedureApprover)
        { approvalId := sampleUuid 8, notes := js "bien", now := some 3 }]
  version 2 ++ version 9

/-- Both versions end approved. -/
theorem two_approved :
    ¬ Throughout (InMemory.step emptyObjectHost) InMemory.OneApproved InMemory.opening
      sampleTwoApprovals := by
  intro hlaw
  have hread : ∀ d ∈ [2, 9], ((run (InMemory.step emptyObjectHost) InMemory.opening
      sampleTwoApprovals).get (sampleId 1, sampleId d)).any (fun record =>
        record.tenantId = sampleId 1 ∧ record.procedureId = sampleId 3 ∧
          record.lifecycleStatus = .approved) = true := by
    decide +kernel
  obtain ⟨first, hfirst, hfirstRead⟩ := (Option.any_eq_true _ _).mp (hread 2 (by simp))
  obtain ⟨second, hsecond, hsecondRead⟩ := (Option.any_eq_true _ _).mp (hread 9 (by simp))
  obtain ⟨htenant, hprocedure, hstatus⟩ := of_decide_eq_true hfirstRead
  obtain ⟨htenant', hprocedure', hstatus'⟩ := of_decide_eq_true hsecondRead
  have hsame := throughout_end hlaw _ _ first second hfirst hsecond
    (htenant'.trans htenant.symm) (hprocedure'.trans hprocedure.symm) hstatus hstatus'
  exact absurd hsame (by decide)

end Workflow
