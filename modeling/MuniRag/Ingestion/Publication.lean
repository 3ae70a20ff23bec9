import MuniRag.Ingestion.LeaseFencing

/-!
# Published versions

The extraction status of a version is shared by all of its jobs, and search
reads it.  A version that some job has processed stays processed exactly as
long as no other job of the version is retried, failed or exhausted: those
calls write the status of the version without looking at its other jobs.
-/

namespace Ingestion

open Results Table Runs

/-- Some job of the version has been completed. -/
def Tables.HasProcessed (tables : Tables) (version : Key) : Prop :=
  ∃ job ∈ tables.jobs, job.status = .processed ∧ job.version = version

instance (tables : Tables) (version : Key) : Decidable (tables.HasProcessed version) := by
  unfold Tables.HasProcessed
  infer_instance

/-- A version stays published once one of its jobs was completed. -/
def Tables.StaysPublished (tables : Tables) : Prop :=
  ∀ version ∈ tables.versions, tables.HasProcessed version.key →
    version.extractionStatus = .processed

instance (tables : Tables) : Decidable tables.StaysPublished := by
  unfold Tables.StaysPublished
  infer_instance

/-- The call closes or puts back a job of the version: it is well formed and
holds the lease of such a job. -/
def FailInput.Reaches (input : FailInput) (platform : Platform) (tables : Tables) (now : Time)
    (job : JobRow) : Prop :=
  isCodeText input.errorCode = true ∧ isLeaseToken input.leaseToken = true ∧
    tables.held? (input.tenantId, input.jobId) (platform.sha256 input.leaseToken) now = some job ∧
    0 ≤ input.delay job ∧ input.delay job ≤ 900

/-- **The step that unpublishes.**  A retry, a failure or a lease exhaustion of
a job whose version another job has processed. -/
def Tables.Unpublishes (platform : Platform) (tables : Tables) : Command → Prop
  | .fail input now => ∃ job, input.Reaches platform tables now job ∧
      tables.HasProcessed job.version
  | .exhaustExpired tenantId skipped now =>
      ∃ job ∈ tables.exhausted tenantId skipped now, tables.HasProcessed job.version
  | _ => False

/-- What every step keeps that unpublishes nothing. -/
structure Lasting (tables : Tables) : Prop where
  ids : (tables.jobs.map (·.id)).Nodup
  versions : ∀ job ∈ tables.jobs, ∃ version ∈ tables.versions, version.key = job.version
  published : tables.StaysPublished

variable {platform : Platform} {tables tables' : Tables} {job : JobRow}

/-- A call that leaves the jobs and the versions alone. -/
theorem Lasting.same (h : Lasting tables) (hjobs : tables'.jobs = tables.jobs)
    (hversions : tables'.versions = tables.versions) : Lasting tables' := by
  refine ⟨hjobs ▸ h.ids, ?_, ?_⟩
  · rw [hjobs, hversions]
    exact h.versions
  · rw [Tables.StaysPublished, hversions]
    intro version hversion ⟨job, hjob, hprocessed⟩
    exact h.published version hversion ⟨job, hjobs ▸ hjob, hprocessed⟩

/-- The key of every row survives an update of the extraction status. -/
theorem assigned_of_mem {p : VersionRow → Prop} [DecidablePred p] {status : IngestionStatus}
    {now : Time} {key : Key} (h : ∃ version ∈ tables.versions, version.key = key) :
    ∃ version ∈ updateWhere p (·.assign status now) tables.versions, version.key = key := by
  obtain ⟨version, hversion, hkey⟩ := h
  by_cases hp : p version
  · exact ⟨version.assign status now, mem_updateWhere.mpr (.inl ⟨version, hversion, hp, rfl⟩), hkey⟩
  · exact ⟨version, mem_updateWhere.mpr (.inr ⟨hversion, hp⟩), hkey⟩

/-- A call that rewrites jobs of some versions and sets the status of these
versions: either to processed, or none of them had a processed job and none
has one now. -/
theorem Lasting.update {p : JobRow → Prop} [DecidablePred p] {f : JobRow → JobRow}
    {q : VersionRow → Prop} [DecidablePred q] {status : IngestionStatus} {now : Time}
    (h : Lasting tables) (hjobs : tables'.jobs = updateWhere p f tables.jobs)
    (hversions : tables'.versions = updateWhere q (·.assign status now) tables.versions)
    (hid : ∀ job ∈ tables.jobs, p job → (f job).id = job.id ∧ (f job).version = job.version)
    (hnew : ∀ job ∈ tables.jobs, p job → (f job).status = .processed →
      status = .processed ∧ ∀ version ∈ tables.versions, version.key = job.version → q version)
    (hold : ∀ version ∈ tables.versions, q version → tables.HasProcessed version.key →
      status = .processed) : Lasting tables' := by
  have hprocessed : ∀ version ∈ tables.versions, tables'.HasProcessed version.key →
      tables.HasProcessed version.key ∨ status = .processed ∧ q version := by
    intro version hversion ⟨job, hjob, hstatus, hkey⟩
    rw [hjobs] at hjob
    rcases mem_updateWhere.mp hjob with ⟨old, hmem, hp, rfl⟩ | ⟨hmem, -⟩
    · obtain ⟨hdone, hall⟩ := hnew old hmem hp hstatus
      exact .inr ⟨hdone, hall version hversion (hkey.symm.trans (hid old hmem hp).2)⟩
    · exact .inl ⟨job, hmem, hstatus, hkey⟩
  refine ⟨?_, ?_, ?_⟩
  · rw [hjobs, map_updateWhere fun job hjob hp => (hid job hjob hp).1]
    exact h.ids
  · rw [hjobs, hversions]
    intro job hjob
    rcases mem_updateWhere.mp hjob with ⟨old, hmem, hp, rfl⟩ | ⟨hmem, -⟩
    · rw [(hid old hmem hp).2]
      exact assigned_of_mem (h.versions old hmem)
    · exact assigned_of_mem (h.versions job hmem)
  · rw [Tables.StaysPublished, hversions]
    intro version hversion hhas
    rcases mem_updateWhere.mp hversion with ⟨old, hmem, hq, rfl⟩ | ⟨hmem, hq⟩
    · rcases hprocessed old hmem hhas with hbefore | ⟨hdone, -⟩
      · exact hold old hmem hq hbefore
      · exact hdone
    · rcases hprocessed version hmem hhas with hbefore | ⟨-, hq'⟩
      · exact h.published version hmem hbefore
      · exact absurd hq' hq

/-- A call that rewrites jobs without completing one, and no version. -/
theorem Lasting.updateJobs {p : JobRow → Prop} [DecidablePred p] {f : JobRow → JobRow}
    (h : Lasting tables) (hjobs : tables'.jobs = updateWhere p f tables.jobs)
    (hversions : tables'.versions = tables.versions)
    (hid : ∀ job ∈ tables.jobs, p job → (f job).id = job.id ∧ (f job).version = job.version)
    (hnew : ∀ job ∈ tables.jobs, p job → (f job).status ≠ .processed) : Lasting tables' := by
  have hnone : updateWhere (fun _ : VersionRow => False) (·.assign .queued 0) tables.versions =
      tables.versions := by simp [updateWhere]
  exact h.update hjobs (hversions.trans hnone.symm) hid
    (fun job hjob hp hstatus => absurd hstatus (hnew job hjob hp)) (fun _ _ hfalse => hfalse.elim)

/-- **Good steps.**  A call that unpublishes nothing keeps the published
versions published. -/
theorem lasting_effect {command : Command} {answer : Answer} (h : Lasting tables)
    (heffect : Effect platform tables command tables' answer)
    (hgood : ¬ tables.Unpublishes platform command) : Lasting tables' := by
  cases heffect with
  | registered input hfresh =>
      have hother : ∀ job ∈ tables.jobs, job.version ≠ input.row.key := by
        intro job hjob hsame
        obtain ⟨version, hversion, hkey⟩ := h.versions job hjob
        exact hfresh version hversion (congrArg Prod.snd (hkey.trans hsame))
      refine ⟨h.ids, fun job hjob => ?_, ?_⟩
      · obtain ⟨version, hversion, hkey⟩ := h.versions job hjob
        exact ⟨version, List.mem_append_left _ hversion, hkey⟩
      · intro version hversion hhas
        rcases List.mem_append.mp hversion with hmem | hlast
        · exact h.published version hmem hhas
        · obtain ⟨job, hjob, -, hkey⟩ := hhas
          rw [List.mem_singleton.mp hlast] at hkey
          exact absurd hkey (hother job hjob)
  | admitted identity version hidentity hversion hcontent hadmits =>
      obtain ⟨hmem, hkey, -⟩ := activeVersion?_some hversion
      refine ⟨?_, ?_, ?_⟩
      · rw [List.map_append, List.map_singleton, List.nodup_append_comm]
        refine List.nodup_cons.mpr ⟨fun hin => ?_, h.ids⟩
        obtain ⟨job, hjob, hid⟩ := List.mem_map.mp hin
        exact (hadmits job hjob).1 hid
      · intro job hjob
        rcases List.mem_append.mp hjob with hold | hlast
        · exact h.versions job hold
        · rw [List.mem_singleton.mp hlast]
          exact ⟨version.1, hmem, hkey⟩
      · intro row hrow ⟨job, hjob, hstatus, hsame⟩
        rcases List.mem_append.mp hjob with hold | hlast
        · exact h.published row hrow ⟨job, hold, hstatus, hsame⟩
        · rw [List.mem_singleton.mp hlast] at hstatus
          cases hstatus
  | @exhausted tenantId skipped now versions hfound hversions =>
      refine h.update rfl hversions (fun _ _ _ => ⟨rfl, rfl⟩) (fun _ _ _ hstatus => ?_) ?_
      · cases hstatus
      · intro version _ ⟨job, hjob, hkey⟩ hhas
        exact absurd ⟨job, hjob, hkey ▸ hhas⟩ hgood
  | leased job binding owner duration lease hleasable hfirst hlease =>
      have hrow : ∀ old ∈ tables.jobs, old.key = job.key →
          lease.job.id = old.id ∧ lease.job.version = old.version := by
        intro old hold hkey
        have hsame : old = job := eq_of_key h.ids hold (mem_leasable.mp hleasable).1 hkey
        rw [hsame, hlease.1]
        exact ⟨rfl, rfl⟩
      exact h.updateJobs rfl rfl hrow fun _ _ _ => by simp [hlease.1, JobRow.lease]
  | @extended input now job duration hheld =>
      obtain ⟨hjob, -, hfrom, -⟩ := held_some hheld
      refine h.updateJobs rfl rfl (fun old hold hkey => ?_) fun _ _ _ => ?_
      · rw [eq_of_key h.ids hold hjob hkey]
        exact ⟨rfl, rfl⟩
      · simp [JobRow.beat, hfrom]
  | @completed input now job version binding vectors hheld hversion =>
      obtain ⟨hjob, -, hfrom, -⟩ := held_some hheld
      refine h.update rfl rfl (fun old hold hkey => ?_) (fun old hold hkey _ => ⟨rfl, ?_⟩)
        fun _ _ _ _ => rfl
      · rw [eq_of_key h.ids hold hjob hkey]
        exact ⟨rfl, rfl⟩
      · rw [eq_of_key h.ids hold hjob hkey]
        exact fun _ _ hsame => hsame
  | @failed input now job hshape hdelay hheld hversion =>
      obtain ⟨hjob, -, hfrom, -⟩ := held_some hheld
      have hout : (input.outcome job now).id = job.id ∧
          (input.outcome job now).version = job.version ∧
          (input.outcome job now).status ≠ .processed := by
        rw [FailInput.outcome]
        split
        · exact ⟨rfl, rfl, by simp [JobRow.retry]⟩
        · exact ⟨rfl, rfl, by simp [JobRow.fail]⟩
      refine h.update rfl rfl (fun old hold hkey => ?_)
        (fun _ _ _ hstatus => absurd hstatus hout.2.2) ?_
      · rw [eq_of_key h.ids hold hjob hkey]
        exact ⟨hout.1, hout.2.1⟩
      · intro version _ hkey hhas
        rw [hkey] at hhas
        exact absurd ⟨job, ⟨hshape.1, hshape.2, hheld, hdelay⟩, hhas⟩ hgood
  | _ => exact h.same rfl rfl

/-! ## Steps that unpublish -/

/-- A well-formed failure of a held job returns. -/
theorem fail_returns {input : FailInput} {now : Time}
    (hreaches : input.Reaches platform tables now job)
    (hversion : ∃ version ∈ tables.versions, version.key = job.version) :
    ∃ out, call platform tables (.fail input now) = .ok out := by
  obtain ⟨hcode, htoken, hheld, hdelay⟩ := hreaches
  refine ⟨({ tables.rewriteJob job (input.outcome job now) with
    versions := updateWhere (·.key = job.version)
      (·.assign (input.outcome job now).status now) tables.versions },
    .failed (input.outcome job now)), ?_⟩
  simp only [call, fail, lockLease, updateDocumentVersion_ok, then_ok, orRefuse_ok, require_ok,
    return_ok]
  exact ⟨_, ⟨(), hcode, job, ⟨(), htoken, hheld⟩, (), hdelay, _, ⟨hversion, rfl⟩, rfl⟩, rfl⟩

theorem failVersions_returns (tables : Tables) (now : Time) {jobs : List JobRow}
    (h : ∀ job ∈ jobs, ∃ version ∈ tables.versions, version.key = job.version) :
    ∃ out, failVersions tables now jobs = .ok out := by
  induction jobs generalizing tables with
  | nil => exact ⟨tables, rfl⟩
  | cons job jobs ih =>
      obtain ⟨hfirst, hrest⟩ := List.forall_mem_cons.mp h
      obtain ⟨out, hout⟩ := ih { tables with
        versions := updateWhere (·.key = job.version) (·.assign .failed now) tables.versions }
        fun other hother => assigned_of_mem (hrest other hother)
      refine ⟨out, ?_⟩
      simp only [failVersions, then_ok, updateDocumentVersion_ok]
      exact ⟨_, ⟨hfirst, rfl⟩, hout⟩

theorem exhaustExpired_returns {tenantId : Uuid} {skipped : List Uuid} {now : Time}
    (h : Lasting tables) :
    ∃ out, call platform tables (.exhaustExpired tenantId skipped now) = .ok out := by
  have hversions : ∀ job ∈ tables.exhausted tenantId skipped now,
      ∃ version ∈ tables.versions, version.key = job.version :=
    fun job hjob => h.versions job (mem_exhausted hjob).1
  obtain ⟨out, hout⟩ := failVersions_returns
    { tables with
      jobs := updateWhere (· ∈ tables.exhausted tenantId skipped now) (·.exhaust now)
        tables.jobs } now hversions
  refine ⟨(out, .exhausted (tables.exhausted tenantId skipped now)), ?_⟩
  simp only [call, exhaustExpired, then_ok, return_ok]
  exact ⟨_, ⟨out, hout, rfl⟩, rfl⟩

/-- A row that is not rewritten is still there, and so is its processed job. -/
theorem hasProcessed_update {p : JobRow → Prop} [DecidablePred p] {f : JobRow → JobRow}
    {version : Key} (hjobs : tables'.jobs = updateWhere p f tables.jobs)
    (hp : ∀ job ∈ tables.jobs, p job → job.status = .processing)
    (h : tables.HasProcessed version) : tables'.HasProcessed version := by
  obtain ⟨job, hjob, hstatus, hkey⟩ := h
  refine ⟨job, ?_, hstatus, hkey⟩
  rw [hjobs]
  refine mem_updateWhere.mpr (.inr ⟨hjob, fun hpjob => ?_⟩)
  rw [hp job hjob hpjob] at hstatus
  cases hstatus

/-- **Bad steps.**  A step that unpublishes does so at once. -/
theorem unpublished_step {ledger : Ledger} (h : Lasting ledger.tables) {command : Command}
    (hbad : ledger.tables.Unpublishes platform command) :
    ¬ (ledger.step platform command).tables.StaysPublished := by
  have hbroken : ∀ tables' : Tables, ∀ key status now, tables'.HasProcessed key →
      status ≠ IngestionStatus.processed → (∃ version ∈ ledger.tables.versions, version.key = key) →
      ∀ q : VersionRow → Prop, ∀ _ : DecidablePred q,
        (∀ version ∈ ledger.tables.versions, version.key = key → q version) →
        tables'.versions = updateWhere q (·.assign status now) ledger.tables.versions →
        ¬ tables'.StaysPublished := by
    intro tables' key status now hhas hstatus ⟨version, hversion, hkey⟩ q _ hq hversions hlasts
    have hmem : version.assign status now ∈ tables'.versions := by
      rw [hversions]
      exact mem_updateWhere.mpr (.inl ⟨version, hversion, hq version hversion hkey, rfl⟩)
    exact hstatus (hlasts _ hmem (hkey ▸ hhas))
  cases command with
  | fail input now =>
      obtain ⟨job, hreaches, hhas⟩ := hbad
      obtain ⟨hjob, -, hfrom, -⟩ := held_some hreaches.2.2.1
      have hversion := h.versions job hjob
      obtain ⟨out, hcall⟩ := fail_returns hreaches hversion
      rw [Ledger.step_of_call hcall]
      obtain ⟨tables', answer⟩ := out
      cases call_effect hcall with
      | failed other hshape hdelay hheld hfound =>
          obtain rfl : other = job := Option.some.inj (hheld.symm.trans hreaches.2.2.1)
          refine hbroken _ other.version (input.outcome other now).status now ?_ ?_ hversion _ _
            (fun _ _ hkey => hkey) rfl
          · refine hasProcessed_update rfl (fun row hrow hkey => ?_) hhas
            rw [eq_of_key h.ids hrow hjob hkey]
            exact hfrom
          · rw [FailInput.outcome]
            split <;> simp [JobRow.retry, JobRow.fail]
  | exhaustExpired tenantId skipped now =>
      obtain ⟨job, hmem, hhas⟩ := hbad
      obtain ⟨⟨tables', answer⟩, hcall⟩ := exhaustExpired_returns h
      rw [Ledger.step_of_call hcall]
      cases call_effect hcall with
      | exhausted versions hfound hversions =>
          refine hbroken _ job.version .failed now ?_ (by simp)
            (h.versions job (mem_exhausted hmem).1) _ _ (fun _ _ hkey => ⟨job, hmem, hkey.symm⟩)
            hversions
          exact hasProcessed_update rfl
            (fun row _ hrow => row.hasExpired_processing (mem_exhausted hrow).2.2.1) hhas
  | _ => exact hbad.elim

theorem lasting_step {ledger : Ledger} {command : Command} (h : Lasting ledger.tables)
    (hgood : ¬ ledger.tables.Unpublishes platform command) :
    Lasting (ledger.step platform command).tables := by
  rcases ledger.step_cases platform command with hsame | ⟨_, _, heffect, hstep⟩
  · rwa [hsame]
  · rw [hstep]
    exact lasting_effect h heffect hgood

/-- **Published versions stay published** throughout a run exactly when no
call of the run retries, fails or exhausts a job whose version another job has
processed. -/
theorem stays_published_iff (platform : Platform) (commands : List Command) :
    Throughout (Ledger.step platform) (fun ledger => ledger.tables.StaysPublished) .opening
        commands ↔
      EachStep (Ledger.step platform)
        (fun ledger command => ¬ ledger.tables.Unpublishes platform command) .opening commands := by
  have hopening : Lasting Ledger.opening.tables :=
    ⟨List.nodup_nil, by simp [Ledger.opening, Tables.empty],
      by simp [Ledger.opening, Tables.empty, Tables.StaysPublished]⟩
  have hkeep : ∀ (ledger : Ledger) (command : Command), Lasting ledger.tables →
      ¬ ledger.tables.Unpublishes platform command →
        Lasting (ledger.step platform command).tables :=
    fun _ _ h hgood => lasting_step h hgood
  have hbreak : ∀ (ledger : Ledger) (command : Command), Lasting ledger.tables →
      ¬ ¬ ledger.tables.Unpublishes platform command →
        ¬ (ledger.step platform command).tables.StaysPublished :=
    fun _ _ h hbad => unpublished_step h (not_not.mp hbad)
  exact throughout_iff_eachStep hkeep (fun _ h => h.published) hbreak hopening commands

/-! ## A published version that a second job unpublishes -/

/-- The version is published by a job with one extractor; a second job with the
next extractor version then fails. -/
def sampleReprocessing : List Command := sampleAccepted ++ [
  .enqueue (sampleEnqueue "1.0.0" "clave-aaaa") (sampleId 7) 3000,
  .claimNext sampleLease (sampleToken 'a') [] 4000,
  .complete (sampleComplete (sampleId 7) (sampleId 6) (sampleToken 'a')) 5000,
  .enqueue (sampleEnqueue "2.0.0" "clave-bbbb") (sampleId 8) 6000,
  .claimNext sampleLease (sampleToken 'b') [] 7000,
  .fail (sampleFail (sampleId 8) (sampleToken 'b') false) 8000]

/-- A run that ends unpublished did not stay published throughout. -/
theorem unpublished_of_end {commands : List Command}
    (hend : ¬ (run (Ledger.step platform) .opening commands).tables.StaysPublished) :
    ¬ Throughout (Ledger.step platform) (fun ledger => ledger.tables.StaysPublished) .opening
      commands :=
  fun hlasts => hend (throughout_end hlasts)

theorem unpublished_by_failure :
    ¬ Throughout (Ledger.step samplePlatform) (fun ledger => ledger.tables.StaysPublished)
      .opening sampleReprocessing :=
  unpublished_of_end (by decide +kernel)

end Ingestion
