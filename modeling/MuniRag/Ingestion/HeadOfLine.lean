import MuniRag.Ingestion.Backlog
import MuniRag.Ingestion.Publication

/-!
# The head of the line

`leaseNext` fails the expired jobs that have used up their attempts, leases the first
candidate in line, and then reads the identity of its document.  The candidate query
looks at the job, its artifact and its scan; the identity query wants an active document
with a title, a key and a label within bounds.  When the first candidate has no such
document, the call throws, and rolls back all of it: jobs behind it stay where they
are, and so does the line at the next call.

A call moves on, whenever some job behind could be leased, exactly when the first
candidate is presentable and no more than a hundred jobs have to be failed
(`moves_on_iff`).
-/

namespace Ingestion

open Results Table Runs

/-- A call of `leaseNext` whose arguments pass its checks, with the clocks of its two
statements and the rows that they pass over. -/
structure LeaseCall where
  input : LeaseInput
  token : JsString
  exhaustSkipped : List Uuid
  skipped : List Uuid
  exhaustedAt : Time
  now : Time
  worker : isWorkerId input.workerId = true
  duration : 30 ≤ input.leaseDurationSeconds.getD 300 ∧ input.leaseDurationSeconds.getD 300 ≤ 900
  tokenShape : isLeaseToken token = true

/-- The document of a job is active, with title, key and version label within bounds. -/
def Tables.Presentable (tables : Tables) (job : JobRow) : Prop :=
  ∃ found, tables.activeVersion? job.version = some found ∧
    (documentIdentity found.1 found.2).isLeasable = true

instance (tables : Tables) (job : JobRow) : Decidable (tables.Presentable job) :=
  decidable_of_iff ((tables.activeVersion? job.version).any fun found =>
    (documentIdentity found.1 found.2).isLeasable) (Option.any_eq_true _ _)

/-- The unlocked candidates of a call: runnable jobs with an accepted artifact. -/
def Tables.candidates (tables : Tables) (lease : LeaseCall) : List (JobRow × ObjectRow × ScanRow) :=
  tables.leasable lease.input.tenantId lease.skipped lease.now

/-- The unlocked expired jobs that have used up their attempts. -/
def Tables.spent (tables : Tables) (lease : LeaseCall) : List JobRow :=
  tables.jobs.filter fun job =>
    job.tenantId = lease.input.tenantId ∧ job.hasExpired lease.exhaustedAt = true ∧
      job.maxAttempts ≤ job.attemptCount ∧ job.id ∉ lease.exhaustSkipped

/-- If some candidate has a presentable document, the call leases a job, and the jobs
that have used up their attempts are failed. -/
def Tables.MovesOn (platform : Platform) (tables : Tables) (lease : LeaseCall) : Prop :=
  (∃ candidate ∈ tables.candidates lease, tables.Presentable candidate.1) →
    ∃ tables' leased,
      leaseNext platform tables lease.input lease.token lease.exhaustSkipped lease.skipped
          lease.exhaustedAt lease.now = .ok (tables', some leased) ∧
        leased.job ∈ tables'.jobs ∧
        ∀ job ∈ tables.spent lease, ∃ row ∈ tables'.jobs, row.key = job.key ∧ row.status = .failed

/-- The first candidates in line, those of one job, are presentable. -/
def Tables.HeadPresentable (tables : Tables) (lease : LeaseCall) : Prop :=
  ∀ candidate ∈ tables.candidates lease,
    (∀ other ∈ tables.candidates lease, candidate.1.leaseRank ≤ other.1.leaseRank) →
      tables.Presentable candidate.1

variable {platform : Platform} {tables tables' : Tables} {job : JobRow} {lease : LeaseCall}

/-! ## Failing the spent jobs -/

theorem mem_spent : job ∈ tables.spent lease ↔
    job ∈ tables.jobs ∧ job.tenantId = lease.input.tenantId ∧
      job.hasExpired lease.exhaustedAt = true ∧ job.maxAttempts ≤ job.attemptCount ∧
      job.id ∉ lease.exhaustSkipped := by
  simp only [Tables.spent, List.mem_filter, decide_eq_true_eq]

/-- The rows that the first statement of a call updates. -/
def Tables.failing (tables : Tables) (lease : LeaseCall) : List JobRow :=
  tables.exhausted lease.input.tenantId lease.exhaustSkipped lease.exhaustedAt

theorem failing_subset (h : job ∈ tables.failing lease) : job ∈ tables.spent lease :=
  mem_spent.mpr (mem_exhausted h)

/-- Up to a hundred spent jobs are all updated. -/
theorem failing_all (hfew : (tables.spent lease).length ≤ 100) (h : job ∈ tables.spent lease) :
    job ∈ tables.failing lease := by
  rw [Tables.failing, Tables.exhausted, List.take_of_length_le]
  · exact mem_orderedBy.mpr h
  · rw [length_orderedBy]
    exact hfew

/-- Of more than a hundred spent jobs one is left out. -/
theorem exists_left_out (hids : (tables.jobs.map (·.id)).Nodup)
    (hmany : 100 < (tables.spent lease).length) :
    ∃ job ∈ tables.spent lease, job ∉ tables.failing lease := by
  by_contra hnone
  push Not at hnone
  have hnodup : (tables.spent lease).Nodup := (hids.of_map).filter _
  have hle := (List.subperm_of_subset hnodup hnone).length_le
  have htake : (tables.failing lease).length ≤ 100 := List.length_take_le _ _
  omega

/-- The tables between the two statements of a call. -/
def Tables.afterFailing (tables : Tables) (lease : LeaseCall) : Tables :=
  { tables with
    jobs := updateWhere (· ∈ tables.failing lease) (·.exhaust lease.exhaustedAt) tables.jobs
    versions := updateWhere
      (fun version => ∃ job ∈ tables.failing lease, job.version = version.key)
      (·.assign .failed lease.exhaustedAt) tables.versions }

/-- The first statement returns: every job has its version. -/
theorem failing_returns (h : Rooted platform tables) (lease : LeaseCall) :
    exhaustExpired tables lease.input.tenantId lease.exhaustSkipped lease.exhaustedAt =
      .ok (tables.afterFailing lease, tables.failing lease) := by
  have hversions : ∀ job ∈ tables.failing lease,
      ∃ version ∈ tables.versions, version.key = job.version := by
    intro job hjob
    obtain ⟨⟨version, hversion, hkey, _⟩, _⟩ := h.jobs job (mem_exhausted hjob).1
    exact ⟨version, hversion, hkey⟩
  obtain ⟨tables', htables'⟩ := failVersions_returns
    { tables with
      jobs := updateWhere (· ∈ tables.failing lease) (·.exhaust lease.exhaustedAt) tables.jobs }
    lease.exhaustedAt hversions
  obtain ⟨_, rfl⟩ := failVersions_ok htables'
  simp only [exhaustExpired, then_ok, return_ok]
  exact ⟨_, htables', rfl⟩

/-- Failed jobs were no candidates. -/
theorem candidates_afterFailing (lease : LeaseCall) :
    (tables.afterFailing lease).candidates lease = tables.candidates lease := by
  rw [Tables.candidates, Tables.candidates, Tables.leasable, Tables.leasable]
  have hfilter : ((tables.afterFailing lease).jobs.filter fun job =>
      job.tenantId = lease.input.tenantId ∧ job.attemptCount < job.maxAttempts ∧
        (job.status = .queued ∧ job.availableAt ≤ lease.now ∨ job.hasExpired lease.now = true) ∧
        job.id ∉ lease.skipped) =
      tables.jobs.filter fun job =>
        job.tenantId = lease.input.tenantId ∧ job.attemptCount < job.maxAttempts ∧
          (job.status = .queued ∧ job.availableAt ≤ lease.now ∨ job.hasExpired lease.now = true) ∧
          job.id ∉ lease.skipped := by
    refine filter_updateWhere_other fun row _ hfailing => ?_
    have hspent : row.maxAttempts ≤ row.attemptCount := (mem_exhausted hfailing).2.2.2.1
    constructor
    · rintro ⟨_, hattempts, _⟩
      exact absurd hattempts (not_lt.mpr hspent)
    · rintro ⟨_, hattempts, _⟩
      exact absurd hattempts (not_lt.mpr hspent)
  rw [hfilter]
  rfl

/-- An update of versions that keeps what identifies a document. -/
theorem presentable_updateWhere {q : VersionRow → Prop} [DecidablePred q] {f : VersionRow → VersionRow}
    (hversions : tables'.versions = updateWhere q f tables.versions)
    (hdocuments : tables'.documents = tables.documents)
    (hf : ∀ row, (f row).key = row.key ∧ (f row).documentId = row.documentId ∧
      (f row).versionLabel = row.versionLabel) :
    tables'.Presentable job ↔ tables.Presentable job := by
  have hactive : tables'.activeVersion? job.version =
      (tables.activeVersion? job.version).map
        fun found => (if q found.1 then f found.1 else found.1, found.2) := by
    rw [Tables.activeVersion?, Tables.activeVersion?, hversions, updateWhere, List.findSome?_map,
      hdocuments]
    generalize tables.versions = versions
    induction versions with
    | nil => rfl
    | cons row rows ih =>
        have htenant : (f row).tenantId = row.tenantId := congrArg Prod.fst (hf row).1
        rw [List.findSome?_cons, List.findSome?_cons, ih]
        by_cases hq : q row
        · by_cases hkey : row.key = job.version
          · simp only [Function.comp, hq, if_true, (hf row).1, hkey, (hf row).2.1, htenant]
            cases tables.documents.find? fun document => decide (document.id = row.documentId ∧
              document.tenantId = row.tenantId ∧ document.status = .active) <;> simp [hq]
          · simp [Function.comp, hq, (hf row).1, hkey]
        · by_cases hkey : row.key = job.version
          · simp only [Function.comp, hq, if_false, hkey, if_true]
            cases tables.documents.find? fun document => decide (document.id = row.documentId ∧
              document.tenantId = row.tenantId ∧ document.status = .active) <;> simp [hq]
          · simp [Function.comp, hq, hkey]
  have hidentity : ∀ found : VersionRow × DocumentRow,
      documentIdentity (if q found.1 then f found.1 else found.1) found.2 =
        documentIdentity found.1 found.2 := by
    intro found
    by_cases hq : q found.1
    · simp only [hq, if_true, documentIdentity, (hf found.1).2.2]
    · simp only [hq, if_false]
  constructor
  · rintro ⟨found, hfound, hleasable⟩
    rw [hactive] at hfound
    obtain ⟨old, hold, rfl⟩ := Option.map_eq_some_iff.mp hfound
    rw [hidentity] at hleasable
    exact ⟨old, hold, hleasable⟩
  · rintro ⟨old, hold, hleasable⟩
    refine ⟨_, by rw [hactive, hold]; rfl, ?_⟩
    rw [hidentity]
    exact hleasable

theorem presentable_afterFailing (lease : LeaseCall) :
    (tables.afterFailing lease).Presentable job ↔ tables.Presentable job :=
  presentable_updateWhere rfl rfl fun _ => ⟨rfl, rfl, rfl⟩

/-! ## Leasing the first candidate -/

/-- The row of the job that a call leases. -/
def LeaseCall.leases (lease : LeaseCall) (platform : Platform) (job : JobRow)
    (binding : ObjectRow × ScanRow) : JobRow :=
  job.lease binding (platform.sha256 lease.input.workerId) (platform.sha256 lease.token)
    (lease.now + seconds (lease.input.leaseDurationSeconds.getD 300)) lease.now

def Tables.first? (tables : Tables) (lease : LeaseCall) : Option (JobRow × ObjectRow × ScanRow) :=
  least (fun candidate => candidate.1.leaseRank) (tables.candidates lease)

theorem leaseNext_eq (h : Rooted platform tables) (lease : LeaseCall) :
    leaseNext platform tables lease.input lease.token lease.exhaustSkipped lease.skipped
        lease.exhaustedAt lease.now =
      (tables.afterFailing lease).claim (platform.sha256 lease.input.workerId) lease.token
        (platform.sha256 lease.token) (lease.input.leaseDurationSeconds.getD 300) lease.now
        (tables.first? lease) := by
  have hduration : boundedLeaseSeconds lease.input.leaseDurationSeconds =
      .ok (lease.input.leaseDurationSeconds.getD 300) := by
    rw [boundedLeaseSeconds, require, if_pos lease.duration]
    rfl
  have hfirst : least (fun candidate => candidate.1.leaseRank)
      ((tables.afterFailing lease).leasable lease.input.tenantId lease.skipped lease.now) =
      tables.first? lease := by
    rw [Tables.first?, ← candidates_afterFailing lease]
    rfl
  simp only [leaseNext, failing_returns h lease, claimNext, require, if_pos lease.worker,
    if_pos lease.tokenShape, hduration, hfirst, Bind.bind, Except.bind]

/-- A call that leases has a presentable candidate in front. -/
theorem leased_first (h : Rooted platform tables) {leased : LeasedJob}
    (hleased : leaseNext platform tables lease.input lease.token lease.exhaustSkipped lease.skipped
      lease.exhaustedAt lease.now = .ok (tables', some leased)) :
    ∃ job binding, tables.first? lease = some (job, binding) ∧ tables.Presentable job ∧
      tables' = (tables.afterFailing lease).rewriteJob job (lease.leases platform job binding) := by
  rw [leaseNext_eq h] at hleased
  cases hfirst : tables.first? lease with
  | none =>
      rw [hfirst, Tables.claim, return_ok] at hleased
      cases (Prod.mk.inj hleased).2
  | some candidate =>
      obtain ⟨job, binding⟩ := candidate
      simp only [hfirst, Tables.claim, Tables.handOut, then_ok, orRefuse_ok, require_ok,
        return_ok] at hleased
      obtain ⟨_, ⟨found, hfound, _, hleasable, _⟩, hout⟩ := hleased
      exact ⟨job, binding, rfl, (presentable_afterFailing lease).mp ⟨found, hfound, hleasable⟩,
        (Prod.mk.inj hout).1.symm⟩

/-- A presentable candidate in front is leased. -/
theorem first_leased (h : Rooted platform tables) {binding : ObjectRow × ScanRow}
    (hfirst : tables.first? lease = some (job, binding)) (hpresentable : tables.Presentable job) :
    ∃ leased, leased.job = lease.leases platform job binding ∧
      leaseNext platform tables lease.input lease.token lease.exhaustSkipped lease.skipped
          lease.exhaustedAt lease.now =
        .ok ((tables.afterFailing lease).rewriteJob job (lease.leases platform job binding),
          some leased) := by
  obtain ⟨found, hfound, hleasable⟩ := (presentable_afterFailing lease).mpr hpresentable
  refine ⟨⟨lease.leases platform job binding, lease.token, documentIdentity found.1 found.2⟩,
    rfl, ?_⟩
  rw [leaseNext_eq h, hfirst]
  simp only [Tables.claim, Tables.handOut, then_ok, orRefuse_ok, require_ok, return_ok]
  exact ⟨_, ⟨found, hfound, (), hleasable, rfl⟩, rfl⟩

theorem first_mem {candidate : JobRow × ObjectRow × ScanRow}
    (h : tables.first? lease = some candidate) :
    candidate ∈ tables.candidates lease ∧
      ∀ other ∈ tables.candidates lease, candidate.1.leaseRank ≤ other.1.leaseRank :=
  least_spec h

/-- First candidates are candidates of one job. -/
theorem eq_of_first (hids : (tables.jobs.map (·.id)).Nodup)
    {candidate other : JobRow × ObjectRow × ScanRow} (hcandidate : candidate ∈ tables.candidates lease)
    (hother : other ∈ tables.candidates lease)
    (hle : candidate.1.leaseRank ≤ other.1.leaseRank)
    (hge : other.1.leaseRank ≤ candidate.1.leaseRank) : candidate.1 = other.1 := by
  have hrank := toLex.injective (le_antisymm hle hge)
  have hid : candidate.1.id = other.1.id :=
    (Prod.mk.inj (toLex.injective (Prod.mk.inj hrank).2)).2
  exact List.inj_on_of_nodup_map hids (mem_leasable.mp hcandidate).1 (mem_leasable.mp hother).1 hid

/-! ## What becomes of the spent jobs -/

/-- The job that is leased is not one of the spent ones. -/
theorem spent_ne {candidate : JobRow × ObjectRow × ScanRow}
    (hids : (tables.jobs.map (·.id)).Nodup) (hcandidate : candidate ∈ tables.candidates lease)
    {spent : JobRow} (hspent : spent ∈ tables.spent lease) : spent.key ≠ candidate.1.key := by
  intro hkey
  obtain ⟨hjob, ⟨_, hattempts, _⟩, _⟩ := mem_leasable.mp hcandidate
  obtain ⟨hmem, _, _, hused, _⟩ := mem_spent.mp hspent
  rw [eq_of_key hids hmem hjob hkey] at hused
  exact absurd hattempts (not_lt.mpr hused)

/-- A job that the first statement updates is failed after the call. -/
theorem failing_failed (hids : (tables.jobs.map (·.id)).Nodup)
    {candidate : JobRow × ObjectRow × ScanRow} (hcandidate : candidate ∈ tables.candidates lease)
    {new spent : JobRow} (hfailing : spent ∈ tables.failing lease) :
    ∃ row ∈ ((tables.afterFailing lease).rewriteJob candidate.1 new).jobs,
      row.key = spent.key ∧ row.status = .failed := by
  refine ⟨spent.exhaust lease.exhaustedAt, ?_, rfl, rfl⟩
  have hmem : spent.exhaust lease.exhaustedAt ∈ (tables.afterFailing lease).jobs :=
    mem_updateWhere.mpr (.inl ⟨spent, (mem_exhausted hfailing).1, hfailing, rfl⟩)
  have hother : spent.key ≠ candidate.1.key :=
    spent_ne hids hcandidate (failing_subset hfailing)
  exact mem_updateWhere.mpr (.inr ⟨hmem, hother⟩)

/-- A spent job that the first statement leaves out is not failed after the call. -/
theorem left_out_not_failed (hids : (tables.jobs.map (·.id)).Nodup)
    {candidate : JobRow × ObjectRow × ScanRow} (hcandidate : candidate ∈ tables.candidates lease)
    {new spent row : JobRow} (hspent : spent ∈ tables.spent lease)
    (hleft : spent ∉ tables.failing lease)
    (hrow : row ∈ ((tables.afterFailing lease).rewriteJob candidate.1 new).jobs)
    (hnew : new.key = candidate.1.key) (hkey : row.key = spent.key) : row.status ≠ .failed := by
  obtain ⟨hmem, _, hexpired, _⟩ := mem_spent.mp hspent
  rcases mem_updateWhere.mp hrow with ⟨_, _, _, rfl⟩ | ⟨hkept, _⟩
  · exact absurd (hkey.symm.trans hnew) (spent_ne hids hcandidate hspent)
  · rcases mem_updateWhere.mp hkept with ⟨old, hold, hfailing, rfl⟩ | ⟨hold, _⟩
    · rw [eq_of_key hids hold hmem hkey] at hfailing
      exact absurd hfailing hleft
    · rw [eq_of_key hids hold hmem hkey, spent.hasExpired_processing hexpired]
      exact nofun

/-- **The line moves exactly when its head does.**  In every reachable state, and for
every call: a job is leased and the spent jobs are failed whenever some candidate has a
presentable document, if and only if the first candidate has one, and no more than a
hundred jobs are spent. -/
theorem moves_on_iff (platform : Platform) (commands : List Command) (lease : LeaseCall) :
    (run (Ledger.step platform) .opening commands).tables.MovesOn platform lease ↔
      ((∃ candidate ∈ (run (Ledger.step platform) .opening commands).tables.candidates lease,
          (run (Ledger.step platform) .opening commands).tables.Presentable candidate.1) →
        (run (Ledger.step platform) .opening commands).tables.HeadPresentable lease ∧
          ((run (Ledger.step platform) .opening commands).tables.spent lease).length ≤ 100) := by
  have hrooted : Rooted platform (run (Ledger.step platform) .opening commands).tables :=
    rooted_run commands
  have hids : ((run (Ledger.step platform) .opening commands).tables.jobs.map (·.id)).Nodup :=
    (recorded_run commands).fenced.ids
  generalize (run (Ledger.step platform) .opening commands).tables = tables at hrooted hids ⊢
  refine forall_congr' fun hsome => ?_
  constructor
  · rintro ⟨tables', leased, hleased, _, hfailed⟩
    obtain ⟨job, binding, hfirst, hpresentable, rfl⟩ := leased_first hrooted hleased
    obtain ⟨hmem, hleast⟩ := first_mem hfirst
    refine ⟨?_, ?_⟩
    · intro candidate hcandidate hhead
      rwa [← eq_of_first hids hmem hcandidate (hleast candidate hcandidate) (hhead _ hmem)]
    · by_contra hmany
      obtain ⟨spent, hspent, hleft⟩ := exists_left_out hids (not_le.mp hmany)
      obtain ⟨row, hrow, hkey, hstatus⟩ := hfailed spent hspent
      exact left_out_not_failed hids hmem hspent hleft hrow rfl hkey hstatus
  · rintro ⟨hhead, hfew⟩
    obtain ⟨candidate, hcandidate, _⟩ := hsome
    cases hfirst : tables.first? lease with
    | none =>
        rw [least_eq_none.mp hfirst] at hcandidate
        cases hcandidate
    | some first =>
        obtain ⟨job, binding⟩ := first
        obtain ⟨hmem, hleast⟩ := first_mem hfirst
        obtain ⟨leased, hjob, hleased⟩ := first_leased hrooted hfirst (hhead _ hmem hleast)
        refine ⟨_, leased, hleased, ?_, ?_⟩
        · rw [hjob]
          have hnot : job ∉ tables.failing lease := fun hfailing =>
            spent_ne hids hmem (failing_subset hfailing) rfl
          have hkept : job ∈ (tables.afterFailing lease).jobs :=
            mem_updateWhere.mpr (.inr ⟨(mem_leasable.mp hmem).1, hnot⟩)
          exact mem_updateWhere.mpr (.inl ⟨job, hkept, rfl, rfl⟩)
        · intro spent hspent
          exact failing_failed hids hmem (failing_all hfew hspent)

/-! ## An archived document in front -/

def secondArtifact : Sha256 :=
  js "9834876dcfb05cb167a5c24953eba58c4ac89b1adf57f28f2f9d09af107ee8f0"

def secondObject : ArtifactObjectReference := { sampleObject with objectKey := js "norma.pdf" }

/-- A second document with its artifact accepted and a job behind that of the first one,
whose document is then archived. -/
def sampleArchived : List Command := sampleAccepted ++ [
  .enqueue (sampleEnqueue "1.0.0" "clave-aaaa") (sampleId 7) 3000,
  .catalogue { sampleDocument with id := sampleId 14, title := js "Norma" },
  .registerVersion { sampleVersion with
    id := sampleId 13, documentId := sampleId 14, contentSha256 := secondArtifact },
  .beginInspection { sampleBegin with
    documentVersionId := sampleId 13, artifactSha256 := secondArtifact
    object := secondObject } (sampleId 15) 3100,
  .completeInspection { sampleInspection 1 with
    artifactObjectId := sampleId 15, documentVersionId := sampleId 13
    artifactSha256 := secondArtifact, object := secondObject }
    { sampleClean 3150 with contentSha256 := some secondArtifact } (sampleId 16) 3200,
  .enqueue { sampleEnqueue "1.0.0" "clave-bbbb" with
    documentVersionId := sampleUuid 13, artifactSha256 := secondArtifact } (sampleId 17) 3300,
  .catalogue { sampleDocument with status := .archived }]

def sampleCall : LeaseCall where
  input := sampleLease
  token := sampleToken 'a'
  exhaustSkipped := []
  skipped := []
  exhaustedAt := 4000
  now := 4000
  worker := by decide
  duration := by decide
  tokenShape := by decide

/-- The job of the second document could be leased, but the call throws. -/
theorem blocked_by_archived :
    ¬ (run (Ledger.step samplePlatform) .opening sampleArchived).tables.MovesOn samplePlatform
      sampleCall := by
  intro hmoves
  have hwaiting : ∃ candidate ∈
      (run (Ledger.step samplePlatform) .opening sampleArchived).tables.candidates sampleCall,
      (run (Ledger.step samplePlatform) .opening sampleArchived).tables.Presentable
        candidate.1 := by
    decide +kernel
  obtain ⟨tables', leased, hleased, _⟩ := hmoves hwaiting
  have hthrows : (leaseNext samplePlatform
      (run (Ledger.step samplePlatform) .opening sampleArchived).tables sampleCall.input
      sampleCall.token sampleCall.exhaustSkipped sampleCall.skipped sampleCall.exhaustedAt
      sampleCall.now).isOk = false := by
    decide +kernel
  rw [hleased] at hthrows
  cases hthrows

end Ingestion
