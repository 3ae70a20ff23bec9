import MuniRag.Ingestion.Deduplication

/-!
# Working off the backlog

After an `enqueue` a worker leases and completes jobs until `leaseNext` returns
nothing.  The requested work is what search finds afterwards when its job is
the last of its version to be leased, or when it is processed, current, and no
other job of the version comes up any more.
-/

namespace Ingestion

open Results Table Runs

/-! ## What search finds -/

/-- The vectors of a version that the joins of the search let through at
`now`. -/
def Tables.searchHits (tables : Tables) (version : Key) (now : Time) : List VectorRow :=
  (published tables.vectors version).filter fun vector =>
    ∃ row ∈ tables.versions, row.key = version ∧ row.extractionStatus = .processed ∧
      (∃ document ∈ tables.documents, document.id = row.documentId ∧
        document.tenantId = row.tenantId ∧ document.status = .active) ∧
      ∃ job ∈ tables.jobs, job.key = (vector.tenantId, vector.ingestionJobId) ∧
        job.version = version ∧ job.status = .processed ∧
        ∃ binding ∈ tables.acceptances version row.contentSha256 now,
          job.artifactObjectId = some binding.1.id ∧ job.artifactScanId = some binding.2.id

/-- A version row of the job whose content is the artifact of the job and whose
document is active. -/
def Tables.Catalogues (tables : Tables) (job : JobRow) (row : VersionRow) : Prop :=
  row ∈ tables.versions ∧ row.key = job.version ∧ row.contentSha256 = job.artifactSha256 ∧
    ∃ document ∈ tables.documents, document.id = row.documentId ∧
      document.tenantId = row.tenantId ∧ document.status = .active

/-- What search needs in order to find the vectors of a job. -/
structure Tables.Shows (tables : Tables) (job : JobRow) (now : Time) : Prop where
  processed : job ∈ tables.jobs ∧ job.status = .processed
  serves : tables.Serves job now
  extracted : ∃ row, tables.Catalogues job row ∧ row.extractionStatus = .processed

variable {tables tables' : Tables} {job other : JobRow} {now later deadline : Time}

/-- Search finds all vectors of a version whose job it shows. -/
theorem Tables.Shows.searchHits (h : tables.Shows job now) :
    tables.searchHits job.version now = published tables.vectors job.version := by
  obtain ⟨⟨hjob, hdone⟩, ⟨⟨-, hmine⟩, hbinds⟩, row, ⟨hrow, hkey, hcontent, hactive⟩, hextracted⟩ := h
  refine List.filter_eq_self.mpr fun vector hvector => decide_eq_true ?_
  have htenant : vector.tenantId = job.tenantId := congrArg Prod.fst (mem_published.mp hvector).2
  refine ⟨row, hrow, hkey, hextracted, hactive, job, hjob, ?_, rfl, hdone, ?_⟩
  · rw [htenant, hmine vector hvector, JobRow.key]
  · rw [hcontent]
    exact hbinds

/-! ## The line of runnable jobs -/

/-- `LEASE_NEXT_SQL` may lease the job once its artifact is accepted. -/
def JobRow.Runnable (job : JobRow) (now : Time) : Prop :=
  job.attemptCount < job.maxAttempts ∧
    (job.status = .queued ∧ job.availableAt ≤ now ∨ job.hasExpired now = true)

/-- Until the deadline no call of `leaseNext` touches the job. -/
def JobRow.IdleUntil (job : JobRow) (deadline : Time) : Prop :=
  ¬ (job.status = .queued ∧ job.availableAt ≤ deadline) ∧ job.hasExpired deadline = false

/-- The job is runnable, and every other job of its version that comes up
before the deadline is runnable already and leased before it. -/
def Tables.LastInLine (tables : Tables) (job : JobRow) (now deadline : Time) : Prop :=
  job.Runnable now ∧ ∀ other ∈ tables.jobs, other.version = job.version → other.key ≠ job.key →
    other.IdleUntil deadline ∨ other.Runnable now ∧ other.leaseRank < job.leaseRank

/-- The job is processed and current, its version is extracted, and no other
job of the version comes up before the deadline. -/
def Ledger.Stands (ledger : Ledger) (job : JobRow) (deadline : Time) : Prop :=
  job ∈ ledger.tables.jobs ∧ job.status = .processed ∧ ledger.IsCurrent job deadline ∧
    (∃ row, ledger.tables.Catalogues job row ∧ row.extractionStatus = .processed) ∧
    ∀ other ∈ ledger.tables.jobs, other.version = job.version → other.IdleUntil deadline

theorem JobRow.hasExpired_mono (hle : now ≤ later) (h : job.hasExpired now = true) :
    job.hasExpired later = true := by
  rw [JobRow.hasExpired, Bool.and_eq_true, Option.any_eq_true] at h ⊢
  obtain ⟨hstatus, expiry, hexpiry, hpassed⟩ := h
  refine ⟨hstatus, expiry, hexpiry, decide_eq_true ?_⟩
  exact (of_decide_eq_true hpassed).trans hle

theorem JobRow.Runnable.mono (h : job.Runnable now) (hle : now ≤ later) : job.Runnable later := by
  obtain ⟨hroom, ⟨hqueued, havailable⟩ | hexpired⟩ := h
  · exact ⟨hroom, .inl ⟨hqueued, havailable.trans hle⟩⟩
  · exact ⟨hroom, .inr (job.hasExpired_mono hle hexpired)⟩

theorem JobRow.IdleUntil.not_runnable (h : job.IdleUntil deadline) (hle : now ≤ deadline) :
    ¬ job.Runnable now := by
  intro hrunnable
  obtain ⟨-, hqueued | hexpired⟩ := hrunnable.mono hle
  · exact h.1 hqueued
  · exact absurd hexpired (by simp [h.2])

/-- A processed job is not touched any more. -/
theorem JobRow.idle_of_processed (h : job.status = .processed) : job.IdleUntil deadline := by
  simp [JobRow.IdleUntil, JobRow.hasExpired, h]

/-- Neither an idle nor a runnable job is exhausted. -/
theorem not_exhausted {tenantId : Uuid} (hle : now ≤ deadline)
    (h : job.IdleUntil deadline ∨ job.attemptCount < job.maxAttempts) :
    job ∉ tables.exhausted tenantId [] now := by
  intro hmem
  obtain ⟨-, -, hexpired, hfull, -⟩ := mem_exhausted hmem
  rcases h with hidle | hroom
  · exact absurd (job.hasExpired_mono hle hexpired) (by simp [hidle.2])
  · omega

theorem acceptedAt_mono {object : ObjectRow} (hle : now ≤ later)
    (h : object.acceptedAt later = true) : object.acceptedAt now = true := by
  rw [ObjectRow.acceptedAt, Bool.and_eq_true, Option.any_eq_true] at h ⊢
  obtain ⟨hstatus, expiry, hexpiry, hlive⟩ := h
  exact ⟨hstatus, expiry, hexpiry, decide_eq_true (hle.trans_lt (of_decide_eq_true hlive))⟩

/-- What is accepted at an instant was accepted before, since its scan. -/
theorem acceptances_mono {version : Key} {sha : Sha256} {binding : ObjectRow × ScanRow}
    (hle : now ≤ later) (h : binding ∈ tables.acceptances version sha later) :
    binding ∈ tables.acceptances version sha now := by
  obtain ⟨hobject, hversion, hsha, haccepted, hproof⟩ := mem_acceptances.mp h
  exact mem_acceptances.mpr ⟨hobject, hversion, hsha, acceptedAt_mono hle haccepted, hproof⟩

/-- A version has one accepted object, and that object one scan. -/
theorem Guarded.acceptance_unique (h : Guarded tables) {version : Key} {sha : Sha256}
    {a b : ObjectRow × ScanRow} (ha : a ∈ tables.acceptances version sha now)
    (hb : b ∈ tables.acceptances version sha later) : a.1.id = b.1.id ∧ a.2.id = b.2.id := by
  obtain ⟨haObject, haVersion, -, haAccepted, -, haProven⟩ := mem_acceptances.mp ha
  obtain ⟨hbObject, hbVersion, -, hbAccepted, -, hbProven⟩ := mem_acceptances.mp hb
  simp only [ObjectRow.acceptedAt, Bool.and_eq_true, decide_eq_true_eq] at haAccepted hbAccepted
  have hid : a.1.id = b.1.id := h.exclusive a.1 haObject b.1 hbObject haAccepted.1 hbAccepted.1
    (haVersion.trans hbVersion.symm)
  have hobject : a.1 = b.1 := eq_of_object_id h.ids haObject hbObject hid
  have hscan : some a.2.id = some b.2.id := by
    rw [← haProven.reference, ← hbProven.reference, hobject]
  exact ⟨hid, Option.some.inj hscan⟩

/-! ## Leasing and completing -/

/-- **A worker on its own.**  It leases a job and completes it, again and again
until `leaseNext` returns nothing, no earlier than `since` and no later than
the deadline. -/
inductive Drains (platform : Platform) (tenantId : Uuid) (deadline : Time) :
    Time → Tables → Tables → Prop
  | idle {since exhaustedAt now : Time} {tables final : Tables} {input : LeaseInput}
      {token : JsString} (htenant : input.tenantId = tenantId)
      (htimes : since ≤ exhaustedAt ∧ exhaustedAt ≤ now ∧ now ≤ deadline)
      (hlease : leaseNext platform tables input token [] [] exhaustedAt now = .ok (final, none)) :
      Drains platform tenantId deadline since tables final
  | work {since exhaustedAt now completedAt : Time} {tables leasing completed final : Tables}
      {input : LeaseInput} {token : JsString} {lease : LeasedJob} {completion : CompleteInput}
      {job : JobRow} (htenant : input.tenantId = tenantId)
      (htimes : since ≤ exhaustedAt ∧ exhaustedAt ≤ now ∧ now ≤ completedAt ∧
        completedAt ≤ deadline)
      (hlease : leaseNext platform tables input token [] [] exhaustedAt now =
        .ok (leasing, some lease))
      (hkey : (completion.tenantId, completion.jobId) = lease.job.key)
      (hcomplete : complete platform leasing completion completedAt = .ok (completed, job))
      (hrest : Drains platform tenantId deadline completedAt completed final) :
      Drains platform tenantId deadline since tables final

/-- What the requests for a job have asked for. -/
def JobRow.work (job : JobRow) : Key × Sha256 × Sha256 × Sha256 :=
  (job.version, job.artifactSha256, job.pipelineConfigSha256, job.workSha256)

/-- Everything about one version is as it was. -/
structure Tables.Untouched (version : Key) (tables tables' : Tables) : Prop where
  ids : (tables'.jobs.map (·.id)).Nodup
  documents : tables'.documents = tables.documents
  objects : tables'.objects = tables.objects
  scans : tables'.scans = tables.scans
  jobs : ∀ job : JobRow, job.version = version → (job ∈ tables'.jobs ↔ job ∈ tables.jobs)
  versions : ∀ row : VersionRow, row.key = version → (row ∈ tables'.versions ↔ row ∈ tables.versions)
  vectors : ∀ row, row ∈ published tables'.vectors version ↔ row ∈ published tables.vectors version

/-- What a lease and its completion make of the tables: one runnable job, none
of them ranking below it, is processed. -/
structure Turn (tenantId : Uuid) (leasedAt now : Time) (tables tables' : Tables)
    (job done : JobRow) (binding : ObjectRow × ScanRow) : Prop where
  leasable : (job, binding) ∈ tables.leasable tenantId [] leasedAt
  first : ∀ other ∈ tables.leasable tenantId [] leasedAt, job.leaseRank ≤ other.1.leaseRank
  key : done.key = job.key
  work : done.work = job.work
  processed : done.status = .processed
  bound : done.artifactObjectId = some binding.1.id ∧ done.artifactScanId = some binding.2.id
  documents : tables'.documents = tables.documents
  objects : tables'.objects = tables.objects
  scans : tables'.scans = tables.scans
  jobs : tables'.jobs = updateWhere (·.key = job.key) (fun _ => done) tables.jobs
  versions : tables'.versions =
    updateWhere (·.key = job.version) (·.assign .processed now) tables.versions
  publishes : tables'.Publishes done
  others : ∀ version, version ≠ job.version → ∀ row,
    row ∈ published tables'.vectors version ↔ row ∈ published tables.vectors version

variable {platform : Platform}

/-- The two halves of a `leaseNext` that returns. -/
theorem leaseNext_parts {input : LeaseInput} {token : JsString} {exhaustedAt : Time}
    {lease : Option LeasedJob}
    (h : leaseNext platform tables input token [] [] exhaustedAt now = .ok (tables', lease)) :
    ∃ middle jobs,
      Effect platform tables (.exhaustExpired input.tenantId [] exhaustedAt) middle
        (.exhausted jobs) ∧
      Effect platform middle (.claimNext input token [] now) tables' (.leased lease) := by
  simp only [leaseNext, then_ok] at h
  obtain ⟨⟨middle, jobs⟩, hexhausted, hclaimed⟩ := h
  exact ⟨middle, jobs, exhaustExpired_effect hexhausted, claimNext_effect hclaimed⟩

/-- An update that writes no id keeps the ids distinct. -/
theorem ids_updateWhere {jobs : List JobRow} {p : JobRow → Prop} [DecidablePred p]
    {f : JobRow → JobRow} (h : (jobs.map (·.id)).Nodup)
    (hid : ∀ job ∈ jobs, p job → (f job).id = job.id) :
    ((updateWhere p f jobs).map (·.id)).Nodup := by
  rw [map_updateWhere hid]
  exact h

/-- An exhaustion of none of the jobs of a version does not touch it. -/
theorem untouched_of_exhaust {tenantId : Uuid} {version : Key} {answer : Answer}
    (hids : (tables.jobs.map (·.id)).Nodup)
    (heffect : Effect platform tables (.exhaustExpired tenantId [] now) tables' answer)
    (hsafe : ∀ job ∈ tables.jobs, job.version = version → job ∉ tables.exhausted tenantId [] now) :
    Tables.Untouched version tables tables' := by
  cases heffect with
  | exhausted versions hfound hversions =>
      have hnone : ∀ job ∈ tables.exhausted tenantId [] now, job.version ≠ version :=
        fun job hjob hsame => hsafe job (mem_exhausted hjob).1 hsame hjob
      refine ⟨ids_updateWhere hids fun _ _ _ => rfl, rfl, rfl, rfl, ?_, ?_, fun _ => Iff.rfl⟩
      · intro job hversion
        constructor
        · intro hjob
          rcases mem_updateWhere.mp hjob with ⟨old, _, hexhausted, rfl⟩ | ⟨hkept, _⟩
          · exact absurd hversion (hnone old hexhausted)
          · exact hkept
        · intro hjob
          exact mem_updateWhere.mpr (.inr ⟨hjob, hsafe job hjob hversion⟩)
      · intro row hversion
        have hother : ¬ ∃ job ∈ tables.exhausted tenantId [] now, job.version = row.key := by
          rintro ⟨job, hjob, hsame⟩
          exact hnone job hjob (hsame.trans hversion)
        rw [hversions]
        constructor
        · intro hrow
          rcases mem_updateWhere.mp hrow with ⟨old, _, ⟨job, hjob, hsame⟩, rfl⟩ | ⟨hkept, _⟩
          · exact absurd (hsame.trans hversion) (hnone job hjob)
          · exact hkept
        · intro hrow
          exact mem_updateWhere.mpr (.inr ⟨hrow, hother⟩)

/-- A lease that is completed is a turn. -/
theorem turn_of_complete {input : LeaseInput} {token : JsString} {leasing completed : Tables}
    {lease : LeasedJob} {completion : CompleteInput} {out : JobRow}
    (hids : (tables.jobs.map (·.id)).Nodup)
    (hlease : Effect platform tables (.claimNext input token [] now) leasing (.leased (some lease)))
    (hkey : (completion.tenantId, completion.jobId) = lease.job.key)
    (hcomplete : complete platform leasing completion later = .ok (completed, out)) :
    ∃ job done binding, Turn input.tenantId now later tables completed job done binding := by
  cases hlease with
  | leased job binding owner duration _ hleasable hfirst hrow =>
      obtain ⟨hjob, -⟩ := mem_leasable.mp hleasable
      obtain ⟨hrow, -⟩ := hrow
      have hsameKey : lease.job.key = job.key := by
        rw [hrow]
        rfl
      have hids' : ((tables.rewriteJob job lease.job).jobs.map (·.id)).Nodup :=
        ids_updateWhere hids fun old _ hold => congrArg Prod.snd (hsameKey.trans hold.symm)
      have hmem : lease.job ∈ (tables.rewriteJob job lease.job).jobs :=
        mem_updateWhere.mpr (.inl ⟨job, hjob, rfl, rfl⟩)
      cases complete_effect hcomplete with
      | completed held version bound vectors hheld hversion hbinding hbound hvectors =>
          obtain ⟨hheldMem, hheldKey, -⟩ := held_some hheld
          obtain rfl : held = lease.job :=
            eq_of_key hids' hheldMem hmem (hheldKey.trans hkey)
          obtain ⟨hsome, hmine, hothers⟩ := replaceDocumentVersion_ok hvectors
          have hversions : lease.job.version = job.version := by
            rw [hrow]
            rfl
          refine ⟨job, lease.job.complete later, binding, ?_⟩
          exact {
            leasable := hleasable
            first := hfirst
            key := hsameKey
            work := by rw [hrow]; rfl
            processed := rfl
            bound := by rw [hrow]; exact ⟨rfl, rfl⟩
            documents := rfl
            objects := rfl
            scans := rfl
            jobs := by
              show updateWhere (·.key = lease.job.key) (fun _ => lease.job.complete later)
                (updateWhere (·.key = job.key) (fun _ => lease.job) tables.jobs) = _
              rw [hsameKey]
              exact updateWhere_twice hsameKey
            versions := by
              show updateWhere (·.key = lease.job.version) (·.assign .processed later)
                tables.versions = _
              rw [hversions]
            publishes := ⟨hsome, hmine⟩
            others := fun version hother row => hothers version (hversions ▸ hother) row }

theorem Turn.ids {tenantId : Uuid} {done : JobRow} {binding : ObjectRow × ScanRow}
    (h : Turn tenantId now later tables tables' job done binding)
    (hids : (tables.jobs.map (·.id)).Nodup) : (tables'.jobs.map (·.id)).Nodup := by
  rw [h.jobs]
  exact ids_updateWhere hids fun old _ hold => congrArg Prod.snd (h.key.trans hold.symm)

/-- A job after a turn is the processed one or another one. -/
theorem Turn.mem_jobs {tenantId : Uuid} {done row : JobRow} {binding : ObjectRow × ScanRow}
    (h : Turn tenantId now later tables tables' job done binding) :
    row ∈ tables'.jobs ↔ row = done ∨ row ∈ tables.jobs ∧ row.key ≠ job.key := by
  rw [h.jobs, mem_updateWhere]
  constructor
  · rintro (⟨_, _, _, rfl⟩ | hkept)
    · exact .inl rfl
    · exact .inr hkept
  · rintro (rfl | hkept)
    · exact .inl ⟨job, (mem_leasable.mp h.leasable).1, rfl, rfl⟩
    · exact .inr hkept

/-- A turn of a job of another version leaves a version alone. -/
theorem Turn.untouched {tenantId : Uuid} {done : JobRow} {binding : ObjectRow × ScanRow}
    {version : Key} (h : Turn tenantId now later tables tables' job done binding)
    (hids : (tables.jobs.map (·.id)).Nodup) (hother : job.version ≠ version) :
    Tables.Untouched version tables tables' := by
  have hdone : done.version = job.version := congrArg Prod.fst h.work
  refine ⟨h.ids hids, h.documents, h.objects, h.scans, ?_, ?_, h.others version (Ne.symm hother)⟩
  · intro row hversion
    rw [h.mem_jobs]
    constructor
    · rintro (rfl | ⟨hrow, -⟩)
      · exact absurd (hdone.symm.trans hversion) hother
      · exact hrow
    · intro hrow
      refine .inr ⟨hrow, fun hkey => hother ?_⟩
      rw [← eq_of_key hids hrow (mem_leasable.mp h.leasable).1 hkey]
      exact hversion
  · intro row hversion
    have hkept : ¬ row.key = job.version := fun hsame => hother (hsame.symm.trans hversion)
    rw [h.versions]
    constructor
    · intro hrow
      rcases mem_updateWhere.mp hrow with ⟨old, _, hold, rfl⟩ | ⟨hrow, -⟩
      · exact absurd (hold.symm.trans hversion) hother
      · exact hrow
    · intro hrow
      exact mem_updateWhere.mpr (.inr ⟨hrow, hkept⟩)

/-! ## A job in line -/

/-- The job waits for its turn, the last one of its version. -/
structure Waiting (job : JobRow) (now deadline : Time) (tables : Tables) : Prop where
  ids : (tables.jobs.map (·.id)).Nodup
  guarded : Guarded tables
  accepted : ∃ binding, binding ∈ tables.acceptances job.version job.artifactSha256 deadline
  catalogued : ∃ row, tables.Catalogues job row
  artifact : ∀ other ∈ tables.jobs, other.version = job.version →
    other.artifactSha256 = job.artifactSha256
  present : job ∈ tables.jobs
  line : tables.LastInLine job now deadline

/-- Search shows the job, and no other job of its version comes up. -/
structure Settled (job : JobRow) (deadline : Time) (tables : Tables) : Prop where
  ids : (tables.jobs.map (·.id)).Nodup
  shows : tables.Shows job deadline
  idle : ∀ other ∈ tables.jobs, other.version = job.version → other.IdleUntil deadline

theorem acceptances_congr (hobjects : tables'.objects = tables.objects)
    (hscans : tables'.scans = tables.scans) (version : Key) (sha : Sha256) (now : Time) :
    tables'.acceptances version sha now = tables.acceptances version sha now := by
  rw [Tables.acceptances, Tables.acceptances, hobjects, hscans]

theorem Tables.Catalogues.untouched {row : VersionRow} (h : tables.Catalogues job row)
    (huntouched : Tables.Untouched job.version tables tables') : tables'.Catalogues job row := by
  obtain ⟨hrow, hkey, hcontent, hactive⟩ := h
  refine ⟨(huntouched.versions row hkey).mpr hrow, hkey, hcontent, ?_⟩
  rw [huntouched.documents]
  exact hactive

theorem Waiting.untouched (h : Waiting job now deadline tables)
    (huntouched : Tables.Untouched job.version tables tables') :
    Waiting job now deadline tables' := by
  have hsubset : tables.scans ⊆ tables'.scans := by
    rw [huntouched.scans]
    exact List.Subset.refl _
  refine ⟨huntouched.ids, h.guarded.same huntouched.objects hsubset, ?_, ?_, ?_, ?_, h.line.1, ?_⟩
  · rw [acceptances_congr huntouched.objects huntouched.scans]
    exact h.accepted
  · obtain ⟨row, hrow⟩ := h.catalogued
    exact ⟨row, hrow.untouched huntouched⟩
  · intro other hother hversion
    exact h.artifact other ((huntouched.jobs other hversion).mp hother) hversion
  · exact (huntouched.jobs job rfl).mpr h.present
  · intro other hother hversion hkey
    exact h.line.2 other ((huntouched.jobs other hversion).mp hother) hversion hkey

theorem Settled.untouched (h : Settled job deadline tables)
    (huntouched : Tables.Untouched job.version tables tables') : Settled job deadline tables' := by
  obtain ⟨hids, ⟨⟨hjob, hdone⟩, ⟨⟨hsome, hmine⟩, hbinds⟩, row, hrow, hextracted⟩, hidle⟩ := h
  refine ⟨huntouched.ids, ⟨⟨(huntouched.jobs job rfl).mpr hjob, hdone⟩, ⟨⟨?_, ?_⟩, ?_⟩,
    row, hrow.untouched huntouched, hextracted⟩, ?_⟩
  · obtain ⟨vector, hvector⟩ := List.exists_mem_of_ne_nil _ hsome
    exact List.ne_nil_of_mem ((huntouched.vectors vector).mpr hvector)
  · intro vector hvector
    exact hmine vector ((huntouched.vectors vector).mp hvector)
  · rw [Tables.BindsAccepted, acceptances_congr huntouched.objects huntouched.scans]
    exact hbinds
  · intro other hother hversion
    exact hidle other ((huntouched.jobs other hversion).mp hother) hversion

/-- No job of the version of a waiting job is exhausted. -/
theorem Waiting.exhaust {tenantId : Uuid} {answer : Answer} (h : Waiting job now deadline tables)
    (heffect : Effect platform tables (.exhaustExpired tenantId [] later) tables' answer)
    (hdeadline : later ≤ deadline) : Tables.Untouched job.version tables tables' := by
  refine untouched_of_exhaust h.ids heffect fun other hother hversion =>
    not_exhausted hdeadline ?_
  by_cases hkey : other.key = job.key
  · rw [eq_of_key h.ids hother h.present hkey]
    exact .inr h.line.1.1
  · exact (h.line.2 other hother hversion hkey).imp id fun hrunnable => hrunnable.1.1

theorem Settled.exhaust {tenantId : Uuid} {answer : Answer} (h : Settled job deadline tables)
    (heffect : Effect platform tables (.exhaustExpired tenantId [] later) tables' answer)
    (hdeadline : later ≤ deadline) : Tables.Untouched job.version tables tables' :=
  untouched_of_exhaust h.ids heffect fun other hother hversion =>
    not_exhausted hdeadline (.inl (h.idle other hother hversion))

/-- A runnable job of an accepted artifact can be leased. -/
theorem Waiting.leasable (h : Waiting job now deadline tables) (hother : other ∈ tables.jobs)
    (hversion : other.version = job.version) (hrunnable : other.Runnable now) (hlater : now ≤ later)
    (hdeadline : later ≤ deadline) :
    ∃ binding, (other, binding) ∈ tables.leasable job.tenantId [] later := by
  obtain ⟨binding, hbinding⟩ := h.accepted
  obtain ⟨hroom, hfree⟩ := hrunnable.mono hlater
  refine ⟨binding, mem_leasable.mpr ⟨hother, ⟨congrArg Prod.fst hversion, hroom, hfree, ?_⟩, ?_⟩⟩
  · exact List.not_mem_nil
  · rw [hversion, h.artifact other hother hversion]
    exact acceptances_mono hdeadline hbinding

/-- A turn assigns the version rows of its job their new status. -/
theorem Turn.catalogues {tenantId : Uuid} {leasedAt : Time} {done row : JobRow}
    {binding : ObjectRow × ScanRow} {version : VersionRow}
    (h : Turn tenantId leasedAt now tables tables' job done binding)
    (hversion : row.version = job.version) (hrow : tables.Catalogues row version) :
    tables'.Catalogues row (version.assign .processed now) := by
  obtain ⟨hmem, hkey, hcontent, hactive⟩ := hrow
  refine ⟨?_, hkey, hcontent, ?_⟩
  · rw [h.versions]
    exact mem_updateWhere.mpr (.inl ⟨version, hmem, hkey.trans hversion, rfl⟩)
  · rw [h.documents]
    exact hactive

theorem Turn.guarded {tenantId : Uuid} {done : JobRow} {binding : ObjectRow × ScanRow}
    (h : Turn tenantId now later tables tables' job done binding) (hguarded : Guarded tables) :
    Guarded tables' := by
  refine hguarded.same h.objects ?_
  rw [h.scans]
  exact List.Subset.refl _

/-- The turn of the job itself settles it: the others of its version that are
not idle would have been leased before it. -/
theorem Waiting.turn_self {leasedAt : Time} {done : JobRow} {binding : ObjectRow × ScanRow}
    (h : Waiting job now deadline tables)
    (hturn : Turn job.tenantId leasedAt later tables tables' job done binding)
    (hlater : now ≤ leasedAt) (hdeadline : leasedAt ≤ deadline) : Settled done deadline tables' := by
  have hversion : done.version = job.version := congrArg Prod.fst hturn.work
  have hsha : done.artifactSha256 = job.artifactSha256 := congrArg (·.2.1) hturn.work
  have hbinds : tables'.BindsAccepted done deadline := by
    obtain ⟨accepted, haccepted⟩ := h.accepted
    obtain ⟨hobject, hscan⟩ := h.guarded.acceptance_unique haccepted
      (mem_leasable.mp hturn.leasable).2.2
    refine ⟨accepted, ?_, ?_, ?_⟩
    · rw [acceptances_congr hturn.objects hturn.scans, hversion, hsha]
      exact haccepted
    · rw [hobject]
      exact hturn.bound.1
    · rw [hscan]
      exact hturn.bound.2
  refine ⟨hturn.ids h.ids, ⟨⟨hturn.mem_jobs.mpr (.inl rfl), hturn.processed⟩,
    ⟨hturn.publishes, hbinds⟩, ?_⟩, ?_⟩
  · obtain ⟨row, hrow⟩ := h.catalogued
    obtain ⟨hmem, hkey, hcontent, hactive⟩ := hturn.catalogues rfl hrow
    exact ⟨_, ⟨hmem, hkey.trans hversion.symm, hcontent.trans hsha.symm, hactive⟩, rfl⟩
  · intro other hother hsame
    rcases hturn.mem_jobs.mp hother with rfl | ⟨hmem, hkey⟩
    · exact JobRow.idle_of_processed hturn.processed
    · have hmate : other.version = job.version := hsame.trans hversion
      rcases h.line.2 other hmem hmate hkey with hidle | ⟨hrunnable, hbefore⟩
      · exact hidle
      · obtain ⟨free, hfree⟩ := h.leasable hmem hmate hrunnable hlater hdeadline
        exact absurd hbefore (not_lt.mpr (hturn.first _ hfree))

/-- The turn of another job of the version leaves the job waiting. -/
theorem Waiting.turn_mate {leasedAt : Time} {done : JobRow} {binding : ObjectRow × ScanRow}
    (h : Waiting job now deadline tables)
    (hturn : Turn job.tenantId leasedAt later tables tables' other done binding)
    (hmate : other.version = job.version) (hkey : other.key ≠ job.key) :
    Waiting job now deadline tables' := by
  have hwork : done.work = other.work := hturn.work
  refine ⟨hturn.ids h.ids, hturn.guarded h.guarded, ?_, ?_, ?_, ?_, h.line.1, ?_⟩
  · rw [acceptances_congr hturn.objects hturn.scans]
    exact h.accepted
  · obtain ⟨row, hrow⟩ := h.catalogued
    exact ⟨_, hturn.catalogues hmate.symm hrow⟩
  · intro row hrow hversion
    rcases hturn.mem_jobs.mp hrow with rfl | ⟨hmem, -⟩
    · rw [show row.artifactSha256 = other.artifactSha256 from congrArg (·.2.1) hwork]
      exact h.artifact other (mem_leasable.mp hturn.leasable).1 hmate
    · exact h.artifact row hmem hversion
  · exact hturn.mem_jobs.mpr (.inr ⟨h.present, Ne.symm hkey⟩)
  · intro row hrow hversion hrowKey
    rcases hturn.mem_jobs.mp hrow with rfl | ⟨hmem, -⟩
    · exact .inl (JobRow.idle_of_processed hturn.processed)
    · exact h.line.2 row hmem hversion hrowKey

/-- One round of a worker, for a job that waits: it still waits, or it is
settled. -/
theorem Waiting.round {tenantId : Uuid} {exhaustedAt leasedAt : Time} {middle : Tables}
    {answer : Answer} {turned done : JobRow} {binding : ObjectRow × ScanRow}
    (h : Waiting job now deadline tables) (htenant : tenantId = job.tenantId)
    (hexhaust : Effect platform tables (.exhaustExpired tenantId [] exhaustedAt) middle answer)
    (hturn : Turn tenantId leasedAt later middle tables' turned done binding)
    (htimes : now ≤ exhaustedAt ∧ exhaustedAt ≤ leasedAt ∧ leasedAt ≤ deadline) :
    Waiting job now deadline tables' ∨
      ∃ settled, settled.work = job.work ∧ Settled settled deadline tables' := by
  subst htenant
  obtain ⟨hnow, horder, hend⟩ := htimes
  have hmiddle : Waiting job now deadline middle := h.untouched (h.exhaust hexhaust (horder.trans hend))
  by_cases hversion : turned.version = job.version
  · by_cases hkey : turned.key = job.key
    · obtain rfl : turned = job :=
        eq_of_key hmiddle.ids (mem_leasable.mp hturn.leasable).1 hmiddle.present hkey
      exact .inr ⟨done, hturn.work, hmiddle.turn_self hturn (hnow.trans horder) hend⟩
    · exact .inl (hmiddle.turn_mate hturn hversion hkey)
  · exact .inl (hmiddle.untouched (hturn.untouched hmiddle.ids hversion))

/-- A settled job stays settled, whatever else is leased and completed. -/
theorem Settled.drains {tenantId : Uuid} {since : Time} {final : Tables}
    (h : Settled job deadline tables) (hdrains : Drains platform tenantId deadline since tables final) :
    Settled job deadline final := by
  induction hdrains with
  | idle htenant htimes hlease =>
      obtain ⟨middle, _, hexhaust, hclaim⟩ := leaseNext_parts hlease
      cases hclaim with
      | idle hnone => exact h.untouched (h.exhaust hexhaust (htimes.2.1.trans htimes.2.2))
  | work htenant htimes hlease hkey hcomplete hrest ih =>
      obtain ⟨hsince, horder, hcompleted, hend⟩ := htimes
      obtain ⟨middle, _, hexhaust, hclaim⟩ := leaseNext_parts hlease
      have hleased := hcompleted.trans hend
      have hmiddle : Settled job deadline middle :=
        h.untouched (h.exhaust hexhaust (horder.trans hleased))
      obtain ⟨turned, done, binding, hturn⟩ := turn_of_complete hmiddle.ids hclaim hkey hcomplete
      have hother : turned.version ≠ job.version := by
        intro hversion
        obtain ⟨hmem, ⟨-, hroom, hfree, -⟩, -⟩ := mem_leasable.mp hturn.leasable
        exact (hmiddle.idle turned hmem hversion).not_runnable hleased ⟨hroom, hfree⟩
      exact ih (hmiddle.untouched (hturn.untouched hmiddle.ids hother))

/-- **In line.**  A worker that leases and completes whatever comes up settles
the job that waits. -/
theorem Waiting.drains {since : Time} {final : Tables} (h : Waiting job now deadline tables)
    (hsince : now ≤ since) (hdrains : Drains platform job.tenantId deadline since tables final) :
    ∃ settled, settled.work = job.work ∧ Settled settled deadline final := by
  induction hdrains with
  | idle htenant htimes hlease =>
      obtain ⟨hstart, horder, hend⟩ := htimes
      obtain ⟨middle, _, hexhaust, hclaim⟩ := leaseNext_parts hlease
      have hmiddle : Waiting job now deadline middle :=
        h.untouched (h.exhaust hexhaust (horder.trans hend))
      obtain ⟨binding, hfree⟩ := hmiddle.leasable hmiddle.present rfl hmiddle.line.1
        (hsince.trans (hstart.trans horder)) hend
      cases hclaim with
      | idle hnone =>
          rw [htenant] at hnone
          rw [hnone] at hfree
          exact absurd hfree List.not_mem_nil
  | work htenant htimes hlease hkey hcomplete hrest ih =>
      obtain ⟨hstart, horder, hcompleted, hend⟩ := htimes
      obtain ⟨middle, _, hexhaust, hclaim⟩ := leaseNext_parts hlease
      have hmiddle : Waiting job now deadline middle :=
        h.untouched (h.exhaust hexhaust (horder.trans (hcompleted.trans hend)))
      obtain ⟨turned, done, binding, hturn⟩ := turn_of_complete hmiddle.ids hclaim hkey hcomplete
      rcases h.round htenant hexhaust hturn
        ⟨hsince.trans hstart, horder, hcompleted.trans hend⟩ with hwaits | ⟨settled, hwork, hsettled⟩
      · exact ih hwaits (hsince.trans (hstart.trans (horder.trans hcompleted)))
      · exact ⟨settled, hwork, hsettled.drains hrest⟩

/-! ## The work of a job -/

/-- Every job belongs to a version with its artifact, and its work digest is
that of its own work. -/
structure Rooted (platform : Platform) (tables : Tables) : Prop where
  ids : (tables.versions.map (·.id)).Nodup
  jobs : ∀ job ∈ tables.jobs,
    (∃ row ∈ tables.versions, row.key = job.version ∧ row.contentSha256 = job.artifactSha256) ∧
      job.workSha256 = platform.sha256 (workText job.tenantId job.documentVersionId
        job.artifactSha256 job.pipelineConfigSha256) ∧
      job.documentVersionId < 16 ^ 32 ∧ job.artifactSha256.length = 64

/-- A call that brings in no work. -/
theorem Rooted.mono (h : Rooted platform tables) (hids : (tables'.versions.map (·.id)).Nodup)
    (hversions : ∀ row ∈ tables.versions, ∃ kept ∈ tables'.versions, kept.key = row.key ∧
      kept.contentSha256 = row.contentSha256)
    (hjobs : ∀ job ∈ tables'.jobs, ∃ old ∈ tables.jobs, job.work = old.work) :
    Rooted platform tables' := by
  refine ⟨hids, fun job hjob => ?_⟩
  obtain ⟨old, hold, hwork⟩ := hjobs job hjob
  obtain ⟨⟨row, hrow, hkey, hcontent⟩, hdigest, hbound, hlength⟩ := h.jobs old hold
  obtain ⟨kept, hkept, hsameKey, hsameContent⟩ := hversions row hrow
  simp only [JobRow.work, JobRow.version, Prod.mk.injEq] at hwork
  obtain ⟨⟨htenant, hversion⟩, hartifact, hpipeline, hsha⟩ := hwork
  refine ⟨⟨kept, hkept, ?_, ?_⟩, ?_, hversion ▸ hbound, hartifact ▸ hlength⟩
  · rw [hsameKey, hkey, JobRow.version, JobRow.version, htenant, hversion]
  · rw [hsameContent, hcontent, hartifact]
  · rw [hsha, hdigest, htenant, hversion, hartifact, hpipeline]

theorem Rooted.same (h : Rooted platform tables) (hversions : tables'.versions = tables.versions)
    (hjobs : ∀ job ∈ tables'.jobs, ∃ old ∈ tables.jobs, job.work = old.work) :
    Rooted platform tables' := by
  refine h.mono (hversions ▸ h.ids) (fun row hrow => ⟨row, ?_, rfl, rfl⟩) hjobs
  rw [hversions]
  exact hrow

theorem Rooted.assign {q : VersionRow → Prop} [DecidablePred q] {status : IngestionStatus}
    (h : Rooted platform tables)
    (hversions : tables'.versions = updateWhere q (·.assign status now) tables.versions)
    (hjobs : ∀ job ∈ tables'.jobs, ∃ old ∈ tables.jobs, job.work = old.work) :
    Rooted platform tables' := by
  have hids : (updateWhere q (·.assign status now) tables.versions).map (·.id) =
      tables.versions.map (·.id) := map_updateWhere fun _ _ _ => rfl
  refine h.mono ?_ (fun row hrow => ?_) hjobs
  · rw [hversions, hids]
    exact h.ids
  · rw [hversions]
    by_cases hq : q row
    · exact ⟨_, mem_updateWhere.mpr (.inl ⟨row, hrow, hq, rfl⟩), rfl, rfl⟩
    · exact ⟨row, mem_updateWhere.mpr (.inr ⟨hrow, hq⟩), rfl, rfl⟩

/-- Rewriting a job keeps all works when it keeps that of the job. -/
theorem work_rewriteJob {old new : JobRow} (hold : old ∈ tables.jobs) (hwork : new.work = old.work) :
    ∀ job ∈ (tables.rewriteJob old new).jobs, ∃ row ∈ tables.jobs, job.work = row.work := by
  intro job hjob
  rcases mem_updateWhere.mp hjob with ⟨_, _, _, rfl⟩ | ⟨hkept, -⟩
  · exact ⟨old, hold, hwork⟩
  · exact ⟨job, hkept, rfl⟩

theorem rooted_effect {command : Command} {answer : Answer} (h : Rooted platform tables)
    (heffect : Effect platform tables command tables' answer) : Rooted platform tables' := by
  cases heffect with
  | registered input hfresh =>
      refine h.mono ?_ (fun row hrow => ⟨row, List.mem_append_left _ hrow, rfl, rfl⟩)
        fun job hjob => ⟨job, hjob, rfl⟩
      rw [List.map_append, List.map_singleton, List.nodup_append_comm]
      refine List.nodup_cons.mpr ⟨fun hmem => ?_, h.ids⟩
      obtain ⟨row, hrow, hid⟩ := List.mem_map.mp hmem
      exact hfresh row hrow hid
  | admitted identity version hidentity hversion hcontent hadmits =>
      obtain ⟨hmem, hkey, -⟩ := activeVersion?_some hversion
      refine ⟨h.ids, fun job hjob => ?_⟩
      rcases List.mem_append.mp hjob with hold | hlast
      · exact h.jobs job hold
      · rw [List.mem_singleton.mp hlast]
        exact ⟨⟨version.1, hmem, hkey, hcontent⟩, workSha256_build hidentity⟩
  | @exhausted tenantId skipped now versions hfound hversions =>
      refine h.assign hversions fun job hjob => ?_
      rcases mem_updateWhere.mp hjob with ⟨old, hold, -, rfl⟩ | ⟨hkept, -⟩
      · exact ⟨old, hold, rfl⟩
      · exact ⟨job, hkept, rfl⟩
  | leased old binding owner duration lease hleasable hfirst hlease =>
      refine h.same rfl (work_rewriteJob (mem_leasable.mp hleasable).1 ?_)
      rw [hlease.1]
      rfl
  | extended old duration hheld => exact h.same rfl (work_rewriteJob (held_some hheld).1 rfl)
  | completed old version binding vectors hheld =>
      exact h.assign rfl (work_rewriteJob (held_some hheld).1 rfl)
  | @failed input now old hshape hdelay hheld hversion =>
      refine h.assign rfl (work_rewriteJob (held_some hheld).1 ?_)
      rw [FailInput.outcome]
      split <;> rfl
  | _ => exact h.same rfl fun job hjob => ⟨job, hjob, rfl⟩

theorem rooted_run (commands : List Command) :
    Rooted platform (run (Ledger.step platform) .opening commands).tables := by
  have hopening : Rooted platform Ledger.opening.tables :=
    ⟨List.nodup_nil, by simp [Ledger.opening, Tables.empty]⟩
  refine run_invariant (fun ledger : Ledger => Rooted platform ledger.tables)
    (fun ledger command h => ?_) hopening commands
  rcases ledger.step_cases platform command with hsame | ⟨_, _, heffect, hstep⟩
  · rwa [hsame]
  · rw [hstep]
    exact rooted_effect h heffect

/-- Jobs of one version have its artifact. -/
theorem Rooted.artifact (h : Rooted platform tables) (hjob : job ∈ tables.jobs)
    {version : VersionRow} (hversion : version ∈ tables.versions) (hkey : version.key = job.version) :
    job.artifactSha256 = version.contentSha256 := by
  obtain ⟨⟨row, hrow, hrowKey, hcontent⟩, -⟩ := h.jobs job hjob
  have hsame : row = version :=
    List.inj_on_of_nodup_map h.ids hrow hversion (congrArg Prod.snd (hrowKey.trans hkey.symm))
  rw [← hcontent, hsame]

/-- A job whose digest is that of a requested work does this work. -/
theorem Rooted.work_of_digest (h : Rooted platform tables)
    (hsha : Function.Injective platform.sha256) {input : EnqueueInput} {identity : JobIdentity}
    (hidentity : buildIngestionJobIdentity platform input = .ok identity) (hjob : job ∈ tables.jobs)
    (hdigest : job.workSha256 = identity.workSha256) :
    job.documentVersionId = identity.documentVersionId ∧
      job.artifactSha256 = identity.artifactSha256 ∧
      job.pipelineConfigSha256 = identity.pipelineConfigSha256 := by
  obtain ⟨-, hwork, hbound, hlength⟩ := h.jobs job hjob
  obtain ⟨hbuild, hbound', hlength'⟩ := workSha256_build hidentity
  have htext : platform.sha256 (workText job.tenantId job.documentVersionId job.artifactSha256
      job.pipelineConfigSha256) = platform.sha256 (workText identity.tenantId
        identity.documentVersionId identity.artifactSha256 identity.pipelineConfigSha256) := by
    rw [← hwork, hdigest, hbuild]
  exact workText_inj hbound hbound' (hlength.trans hlength'.symm) (hsha htext)

/-! ## An enqueue and what becomes of it -/

def JobIdentity.version (identity : JobIdentity) : Key :=
  (identity.tenantId, identity.documentVersionId)

/-- **When an enqueue ends in a search.**  The requested work has a job, one of
the tables or the new one where it is admitted, that is the last of its version
in line, or that stands processed. -/
def Ledger.Unobstructed (ledger : Ledger) (identity : JobIdentity) (new : JobRow)
    (now deadline : Time) : Prop :=
  ∃ job, job.tenantId = identity.tenantId ∧ job.workSha256 = identity.workSha256 ∧
    ((job ∈ ledger.tables.jobs ∨ job = new ∧ ledger.tables.admits new) ∧
      ledger.tables.LastInLine job now deadline ∨ ledger.Stands job deadline)

/-- The requested work is published by a processed job and search finds it. -/
def Tables.Finds (tables : Tables) (identity : JobIdentity) (now : Time) : Prop :=
  ∃ job ∈ tables.jobs, job.version = identity.version ∧
    job.pipelineConfigSha256 = identity.pipelineConfigSha256 ∧ job.status = .processed ∧
    tables.Publishes job ∧
    tables.searchHits identity.version now = published tables.vectors identity.version

theorem Settled.finds {identity : JobIdentity} (h : Settled job deadline tables)
    (hversion : job.version = identity.version)
    (hpipeline : job.pipelineConfigSha256 = identity.pipelineConfigSha256) :
    tables.Finds identity deadline := by
  refine ⟨job, h.shows.processed.1, hversion, hpipeline, h.shows.processed.2, h.shows.serves.1, ?_⟩
  rw [← hversion]
  exact h.shows.searchHits

theorem JobRow.Runnable.isLive (h : job.Runnable now) : job.status.isLive = true := by
  obtain ⟨-, ⟨hqueued, -⟩ | hexpired⟩ := h
  · rw [hqueued]
    rfl
  · rw [job.hasExpired_processing hexpired]
    rfl

/-- The tables after an enqueue that returns, and the version it has read. -/
theorem enqueue_tables {input : EnqueueInput} {identity : JobIdentity} {jobId : Uuid}
    {answer : EnqueueAnswer} (hidentity : buildIngestionJobIdentity platform input = .ok identity)
    (h : enqueue platform tables input jobId now = .ok (tables', answer)) :
    (∃ version, tables.activeVersion? identity.version = some version ∧
        version.1.contentSha256 = identity.artifactSha256) ∧
      (tables.admits (identity.job input.pipelineConfig jobId now) ∧
          tables' = { tables with
            jobs := tables.jobs ++ [identity.job input.pipelineConfig jobId now] } ∨
        ¬ tables.admits (identity.job input.pipelineConfig jobId now) ∧ tables' = tables) := by
  cases enqueue_effect h with
  | admitted other version hother hversion hcontent hadmits =>
      obtain rfl := Except.ok.inj (hidentity.symm.trans hother)
      exact ⟨⟨version, hversion, hcontent⟩, .inl ⟨hadmits, rfl⟩⟩
  | resolved other version hother hversion hcontent hconflict hanswer =>
      obtain rfl := Except.ok.inj (hidentity.symm.trans hother)
      exact ⟨⟨version, hversion, hcontent⟩, .inr ⟨hconflict, rfl⟩⟩

/-- A job of the tables that does the requested work, after the enqueue. -/
theorem Rooted.catalogues (h : Rooted platform tables) {version : VersionRow × DocumentRow}
    {identity : JobIdentity} (hversion : tables.activeVersion? identity.version = some version)
    (hcontent : version.1.contentSha256 = identity.artifactSha256)
    (hjobVersion : job.version = identity.version)
    (hartifact : job.artifactSha256 = identity.artifactSha256) :
    tables.Catalogues job version.1 ∧
      ∀ other ∈ tables.jobs, other.version = job.version →
        other.artifactSha256 = job.artifactSha256 := by
  obtain ⟨hmem, hkey, hdocument, hid, htenant, hactive⟩ := activeVersion?_some hversion
  refine ⟨⟨hmem, hkey.trans hjobVersion.symm, hcontent.trans hartifact.symm, version.2, hdocument,
    hid, htenant, hactive⟩, fun other hother hsame => ?_⟩
  have hsameKey : version.1.key = other.version := by rw [hkey, hsame, hjobVersion]
  rw [h.artifact hother hmem hsameKey, hcontent, hartifact]

/-- **An enqueue and a worker.**  From a recorded state with an accepted
artifact, an unobstructed request ends with its work found by search once a
worker has leased and completed what was runnable. -/
theorem Recorded.finds {ledger : Ledger} (h : Recorded platform ledger)
    (hrooted : Rooted platform ledger.tables) (hsha : Function.Injective platform.sha256)
    {input : EnqueueInput} {identity : JobIdentity} {jobId : Uuid} {answer : EnqueueAnswer}
    {final : Tables} (hidentity : buildIngestionJobIdentity platform input = .ok identity)
    (henqueue : enqueue platform ledger.tables input jobId now = .ok (tables', answer))
    (haccepted : ∃ binding, binding ∈
      ledger.tables.acceptances identity.version identity.artifactSha256 deadline)
    (hfree : ledger.Unobstructed identity (identity.job input.pipelineConfig jobId now) now deadline)
    (hdrains : Drains platform identity.tenantId deadline now tables' final) :
    final.Finds identity deadline := by
  obtain ⟨⟨version, hversion, hcontent⟩, htables⟩ := enqueue_tables hidentity henqueue
  have hids : (ledger.tables.jobs.map (·.id)).Nodup := h.fenced.ids
  -- a live job of the requested work keeps the request from being admitted
  have hlive : ∀ job ∈ ledger.tables.jobs, job.tenantId = identity.tenantId →
      job.workSha256 = identity.workSha256 → job.status.isLive = true →
      tables' = ledger.tables := by
    intro job hjob htenant hdigest hlive
    rcases htables with ⟨hadmits, -⟩ | ⟨-, hsame⟩
    · exact absurd ⟨htenant, hdigest, hlive⟩ (hadmits job hjob).2.2
    · exact hsame
  obtain ⟨job, htenant, hdigest, ⟨hjob | ⟨rfl, hadmits⟩, hline⟩ | hstands⟩ := hfree
  · obtain rfl := hlive job hjob htenant hdigest hline.1.isLive
    obtain ⟨hid, hartifact, hpipeline⟩ := hrooted.work_of_digest hsha hidentity hjob hdigest
    have hjobVersion : job.version = identity.version := Prod.ext htenant hid
    obtain ⟨hcatalogues, hmates⟩ := hrooted.catalogues hversion hcontent hjobVersion hartifact
    have hwaits : Waiting job now deadline ledger.tables :=
      ⟨hids, h.guarded, by rwa [hjobVersion, hartifact], ⟨_, hcatalogues⟩, hmates, hjob, hline⟩
    obtain ⟨settled, hwork, hsettled⟩ := hwaits.drains (le_refl now) (htenant ▸ hdrains)
    exact hsettled.finds ((congrArg Prod.fst hwork).trans hjobVersion)
      ((congrArg (·.2.2.1) hwork).trans hpipeline)
  · obtain ⟨-, rfl⟩ | ⟨hconflict, -⟩ := htables
    · have hnew : ∀ other ∈ ledger.tables.jobs ++ [identity.job input.pipelineConfig jobId now],
          other ∈ ledger.tables.jobs ∨ other = identity.job input.pipelineConfig jobId now := by
        simp
      obtain ⟨hcatalogues, hmates⟩ := @Rooted.catalogues _
        (identity.job input.pipelineConfig jobId now) _ hrooted _ _ hversion hcontent rfl rfl
      have hwaits : Waiting (identity.job input.pipelineConfig jobId now) now deadline
          { ledger.tables with
            jobs := ledger.tables.jobs ++ [identity.job input.pipelineConfig jobId now] } := by
        refine ⟨nodup_map_append hids fun job hjob => (hadmits job hjob).1,
          h.guarded.same rfl (List.Subset.refl _), haccepted, ⟨_, hcatalogues⟩, ?_,
          List.mem_append_right _ (List.mem_singleton_self _), hline.1, ?_⟩
        · intro other hother hsame
          rcases hnew other hother with hmem | rfl
          · exact hmates other hmem hsame
          · rfl
        · intro other hother hsame hkey
          rcases hnew other hother with hmem | rfl
          · exact hline.2 other hmem hsame hkey
          · exact absurd rfl hkey
      obtain ⟨settled, hwork, hsettled⟩ := hwaits.drains (le_refl now) hdrains
      exact hsettled.finds (congrArg Prod.fst hwork) (congrArg (·.2.2.1) hwork)
    · exact absurd hadmits hconflict
  · obtain ⟨hjob, hdone, hcurrent, hextracted, hidle⟩ := hstands
    obtain rfl := hlive job hjob htenant hdigest (by rw [hdone]; rfl)
    obtain ⟨hid, -, hpipeline⟩ := hrooted.work_of_digest hsha hidentity hjob hdigest
    have hsettled : Settled job deadline ledger.tables :=
      ⟨hids, ⟨⟨hjob, hdone⟩, (h.serves_iff hjob hdone).mpr hcurrent, hextracted⟩, hidle⟩
    exact (hsettled.drains hdrains).finds (Prod.ext htenant hid) hpipeline

/-- **Duplicates are true** in a run exactly when none of its enqueues names a
work whose live job is processed and no longer current.  And from every
reachable state with an accepted artifact, an unobstructed enqueue and a worker
that leases and completes what is runnable end with the requested work
published and found by search. -/
theorem duplicates_truthful (platform : Platform) (hsha : Function.Injective platform.sha256) :
    (∀ commands : List Command,
      EachStep (Ledger.step platform) (Ledger.AnswersTruly platform) .opening commands ↔
        EachStep (Ledger.step platform)
          (fun ledger command => ¬ ledger.Misleads platform command) .opening commands) ∧
    ∀ (commands : List Command) (input : EnqueueInput) (identity : JobIdentity) (jobId : Uuid)
      (now deadline : Time) (tables' final : Tables) (answer : EnqueueAnswer),
      let ledger := run (Ledger.step platform) .opening commands
      buildIngestionJobIdentity platform input = .ok identity →
      enqueue platform ledger.tables input jobId now = .ok (tables', answer) →
      (∃ binding, binding ∈
        ledger.tables.acceptances identity.version identity.artifactSha256 deadline) →
      ledger.Unobstructed identity (identity.job input.pipelineConfig jobId now) now deadline →
      Drains platform identity.tenantId deadline now tables' final →
      final.Finds identity deadline := by
  have hkeep : ∀ (ledger : Ledger) (command : Command), Recorded platform ledger →
      ¬ ledger.Misleads platform command → Recorded platform (ledger.step platform command) :=
    fun _ command h _ => recorded_step h command
  refine ⟨fun commands => ?_, ?_⟩
  · exact eachStep_iff_eachStep hkeep (fun _ command h => h.answersTruly_iff command)
      recorded_opening commands
  · intro commands input identity jobId now deadline tables' final answer ledger hidentity henqueue
      haccepted hfree hdrains
    exact (recorded_run commands).finds (rooted_run commands) hsha hidentity henqueue haccepted
      hfree hdrains

/-! ## A work that is enqueued, completed and found -/

/-- A worker that completes the one job of the sample version. -/
def sampleDrain (tables : Tables) : Option Tables := do
  let (leasing, lease) ←
    (leaseNext samplePlatform tables sampleLease (sampleToken 'a') [] [] 4000 4000).toOption
  let lease ← lease
  guard (lease.job.key = (sampleId 1, sampleId 7))
  let (completed, _) ← (complete samplePlatform leasing
    (sampleComplete (sampleId 7) (sampleId 6) (sampleToken 'a')) 5000).toOption
  let (final, rest) ←
    (leaseNext samplePlatform completed sampleLease (sampleToken 'b') [] [] 6000 6000).toOption
  guard (rest = none)
  pure final

theorem toOption_eq_some {ε α : Type} {x : Except ε α} {a : α} :
    x.toOption = some a ↔ x = .ok a := by
  cases x <;> simp [Except.toOption]

theorem sampleDrain_drains {final : Tables} (h : sampleDrain tables = some final) :
    Drains samplePlatform (sampleId 1) 6000 3000 tables final := by
  simp only [sampleDrain, Option.bind_eq_bind, Option.bind_eq_some_iff, toOption_eq_some,
    Option.guard_eq_some', Option.pure_def, Option.some.injEq] at h
  obtain ⟨⟨leasing, _⟩, hlease, lease, rfl, _, hkey, ⟨completed, _⟩, hcomplete, ⟨last, _⟩, hlast, _,
    rfl, rfl⟩ := h
  refine .work rfl ⟨?_, ?_, ?_, ?_⟩ hlease hkey.symm hcomplete
    (.idle rfl ⟨?_, ?_, ?_⟩ hlast) <;> decide

/-- The sample request is admitted, worked off and found. -/
theorem duplicates_truthful_sample :
    let ledger := run (Ledger.step samplePlatform) .opening sampleAccepted
    EachStep (Ledger.step samplePlatform) (Ledger.AnswersTruly samplePlatform) .opening
        sampleAccepted ∧
      ∃ identity final,
        buildIngestionJobIdentity samplePlatform (sampleEnqueue "1.0.0" "clave-aaaa") =
          .ok identity ∧
        ((enqueue samplePlatform ledger.tables (sampleEnqueue "1.0.0" "clave-aaaa") (sampleId 7)
          3000).toOption.bind fun out => sampleDrain out.1) = some final ∧
        final.Finds identity 6000 := by
  intro ledger
  have htruthful := duplicates_truthful samplePlatform samplePlatform_injective
  refine ⟨(htruthful.1 sampleAccepted).mpr ⟨id, id, id, id, trivial⟩, ?_⟩
  cases hidentity : buildIngestionJobIdentity samplePlatform (sampleEnqueue "1.0.0" "clave-aaaa") with
  | error refusal =>
      have hreturns : (buildIngestionJobIdentity samplePlatform
        (sampleEnqueue "1.0.0" "clave-aaaa")).isOk = true := by decide +kernel
      simp [hidentity, Except.isOk, Except.toBool] at hreturns
  | ok identity =>
      obtain ⟨final, hfinal⟩ : ∃ final, ((enqueue samplePlatform ledger.tables
          (sampleEnqueue "1.0.0" "clave-aaaa") (sampleId 7) 3000).toOption.bind
            fun out => sampleDrain out.1) = some final :=
        Option.isSome_iff_exists.mp (by decide +kernel)
      obtain ⟨⟨tables', answer⟩, henqueue, hdrain⟩ := Option.bind_eq_some_iff.mp hfinal
      have hmine : identity.tenantId = sampleId 1 ∧ identity.documentVersionId = sampleId 3 ∧
          identity.artifactSha256 = sampleArtifact ∧ 0 < identity.maxAttempts := by
        have hfields : ((buildIngestionJobIdentity samplePlatform
            (sampleEnqueue "1.0.0" "clave-aaaa")).toOption.map fun identity =>
              (identity.tenantId, identity.documentVersionId, identity.artifactSha256)) =
            some (sampleId 1, sampleId 3, sampleArtifact) := by decide +kernel
        rw [hidentity] at hfields
        obtain ⟨htenant, hversion, hartifact⟩ := by simpa [Except.toOption] using hfields
        exact ⟨htenant, hversion, hartifact, maxAttempts_pos hidentity⟩
      obtain ⟨htenant, hversion, hartifact, hmax⟩ := hmine
      have hnone : ledger.tables.jobs = [] := by decide +kernel
      have hadmits : ledger.tables.admits
          (identity.job (sampleConfig "1.0.0") (sampleId 7) 3000) := by
        simp [Tables.admits, hnone]
      refine ⟨identity, final, rfl, hfinal, htruthful.2 sampleAccepted _ identity (sampleId 7) 3000 6000
        tables' final answer hidentity (toOption_eq_some.mp henqueue) ?_ ?_ ?_⟩
      · rw [JobIdentity.version, htenant, hversion, hartifact]
        exact List.exists_mem_of_ne_nil _ (by decide +kernel)
      · refine ⟨_, rfl, rfl, .inl ⟨.inr ⟨rfl, hadmits⟩, ⟨hmax, .inl ⟨rfl, le_refl _⟩⟩, ?_⟩⟩
        intro other hother
        rw [hnone] at hother
        exact absurd hother List.not_mem_nil
      · rw [htenant]
        exact sampleDrain_drains hdrain

/-! ## Two pipelines in turn -/

/-- The pipelines 1.0.0 and 2.0.0 are completed one after the other, and then
the first one is asked for again. -/
def sampleAlternation : List Command := sampleAccepted ++ [
  .enqueue (sampleEnqueue "1.0.0" "clave-aaaa") (sampleId 7) 3000,
  .claimNext sampleLease (sampleToken 'a') [] 4000,
  .complete (sampleComplete (sampleId 7) (sampleId 6) (sampleToken 'a')) 5000,
  .enqueue (sampleEnqueue "2.0.0" "clave-bbbb") (sampleId 8) 6000,
  .claimNext sampleLease (sampleToken 'b') [] 7000,
  .complete (sampleComplete (sampleId 8) (sampleId 6) (sampleToken 'b')) 8000]

/-- A duplicate that is answered for a processed job that serves nothing. -/
theorem not_answersTruly {ledger : Ledger} {input : EnqueueInput} {jobId : Uuid}
    (h : ∃ out ∈ (enqueue platform ledger.tables input jobId now).toOption,
      ∃ job ∈ ledger.tables.jobs, out.2 = .duplicateWork job ∧ job.status = .processed ∧
        ¬ ledger.tables.Serves job now) :
    ¬ ledger.AnswersTruly platform (.enqueue input jobId now) := by
  obtain ⟨⟨tables', answer⟩, hout, job, -, hanswer, hdone, hserves⟩ := h
  intro htrue
  refine hserves (htrue tables' job ?_ hdone)
  rw [call, toOption_eq_some.mp hout, ← hanswer]
  rfl

theorem duplicate_of_replaced_pipeline :
    ¬ EachStep (Ledger.step samplePlatform) (Ledger.AnswersTruly samplePlatform) .opening
      (sampleAlternation ++ [.enqueue (sampleEnqueue "1.0.0" "clave-cccc") (sampleId 9) 9000]) := by
  rw [eachStep_append]
  rintro ⟨-, htrue, -⟩
  exact not_answersTruly (by decide +kernel) htrue

end Ingestion
