import MuniRag.Ingestion.System

/-!
# Lease fencing

What the answers of the service say about a job, its latest lease, the number
of its leases and of its completions, agrees with the row of the job after
every run of the system.  A worker that holds an old token, or comes too late,
therefore changes nothing, and no job is completed twice.
-/

namespace Ingestion

open Results Table Runs

/-! ## What the answers say about a job -/

/-- A lease as the service answered it: the token, and the expiry of the lease
or of its last heartbeat. -/
structure Lease where
  token : JsString
  expiresAt : Option Time
  deriving DecidableEq, Repr

/-- The latest lease of a job in the answers given so far. -/
def latestLease (key : Key) : List Answer → Option Lease
  | [] => none
  | .leased (some lease) :: rest =>
      if lease.job.key = key then
        some { token := lease.leaseToken, expiresAt := lease.job.leaseExpiresAt }
      else latestLease key rest
  | .extended job :: rest =>
      if job.key = key then
        (latestLease key rest).map fun lease => { lease with expiresAt := job.leaseExpiresAt }
      else latestLease key rest
  | _ :: rest => latestLease key rest

def Answer.isLeaseOf (key : Key) : Answer → Bool
  | .leased (some lease) => decide (lease.job.key = key)
  | _ => false

def Answer.isCompletionOf (key : Key) : Answer → Bool
  | .completed job => decide (job.key = key)
  | _ => false

/-- The leases handed out for a job. -/
def leaseCount (key : Key) (history : List Answer) : Nat := history.countP (·.isLeaseOf key)

/-- The successful completions of a job. -/
def completionCount (key : Key) (history : List Answer) : Nat :=
  history.countP (·.isCompletionOf key)

/-- The job that an answer is a lease, a heartbeat or a completion of. -/
def Answer.subject : Answer → Option Key
  | .leased (some lease) => some lease.job.key
  | .extended job => some job.key
  | .completed job => some job.key
  | _ => none

variable {answer : Answer} {key : Key} {history : List Answer}

theorem latestLease_other (h : answer.subject ≠ some key) :
    latestLease key (answer :: history) = latestLease key history := by
  cases answer with
  | leased lease =>
      cases lease with
      | none => rfl
      | some lease => exact if_neg (by simpa [Answer.subject] using h)
  | extended job => exact if_neg (by simpa [Answer.subject] using h)
  | _ => rfl

theorem leaseCount_other (h : answer.subject ≠ some key) :
    leaseCount key (answer :: history) = leaseCount key history := by
  refine List.countP_cons_of_neg ?_
  cases answer with
  | leased lease =>
      cases lease with
      | none => simp [Answer.isLeaseOf]
      | some lease => simpa [Answer.subject, Answer.isLeaseOf] using h
  | _ => simp [Answer.isLeaseOf]

theorem completionCount_other (h : answer.subject ≠ some key) :
    completionCount key (answer :: history) = completionCount key history := by
  refine List.countP_cons_of_neg ?_
  cases answer with
  | completed job => simpa [Answer.subject, Answer.isCompletionOf] using h
  | _ => simp [Answer.isCompletionOf]

/-- A job that no answer is about was never leased and never completed. -/
theorem counts_of_unknown (h : ∀ answer ∈ history, answer.subject ≠ some key) :
    leaseCount key history = 0 ∧ completionCount key history = 0 := by
  induction history with
  | nil => exact ⟨rfl, rfl⟩
  | cons answer history ih =>
      obtain ⟨hanswer, hrest⟩ := List.forall_mem_cons.mp h
      rw [leaseCount_other hanswer, completionCount_other hanswer]
      exact ih hrest

/-! ## A job row and the answers -/

/-- The lease columns are set exactly while the job is being processed. -/
def JobRow.LeaseColumns (job : JobRow) : Prop :=
  (job.leaseOwnerSha256 ≠ none ↔ job.status = .processing) ∧
    (job.leaseTokenSha256 ≠ none ↔ job.status = .processing) ∧
    (job.leaseExpiresAt ≠ none ↔ job.status = .processing) ∧
    (job.heartbeatAt ≠ none ↔ job.status = .processing)

/-- The row of a job agrees with the answers given so far. -/
structure JobTraced (platform : Platform) (history : List Answer) (job : JobRow) : Prop where
  attempts : job.attemptCount = leaseCount job.key history
  bounded : job.attemptCount ≤ job.maxAttempts
  queued : job.status = .queued → job.attemptCount < job.maxAttempts
  columns : job.LeaseColumns
  held : job.status = .processing → ∃ lease, latestLease job.key history = some lease ∧
    job.leaseTokenSha256 = some (platform.sha256 lease.token) ∧
    job.leaseExpiresAt = lease.expiresAt
  completions : completionCount job.key history = if job.status = .processed then 1 else 0

variable {platform : Platform} {job : JobRow}

/-- An answer about no job or another job keeps the agreement. -/
theorem JobTraced.other (h : JobTraced platform history job)
    (hother : answer.subject ≠ some job.key) : JobTraced platform (answer :: history) job where
  attempts := by rw [leaseCount_other hother]; exact h.attempts
  bounded := h.bounded
  queued := h.queued
  columns := h.columns
  held := by rw [latestLease_other hother]; exact h.held
  completions := by rw [completionCount_other hother]; exact h.completions

theorem JobTraced.uncompleted (h : JobTraced platform history job)
    (hstatus : job.status ≠ .processed) : completionCount job.key history = 0 := by
  rw [h.completions, if_neg hstatus]

theorem JobRow.release_columns (job : JobRow) :
    job.release.leaseOwnerSha256 = none ∧ job.release.leaseTokenSha256 = none ∧
      job.release.leaseExpiresAt = none ∧ job.release.heartbeatAt = none :=
  ⟨rfl, rfl, rfl, rfl⟩

/-- A row that an answer about no job or another job leaves out of processing
and uncompleted. -/
theorem JobTraced.released {new : JobRow} (h : JobTraced platform history job)
    (hother : answer.subject ≠ some job.key) (hkey : new.key = job.key)
    (hattempts : new.attemptCount = job.attemptCount) (hmax : new.maxAttempts = job.maxAttempts)
    (hcolumns : new.leaseOwnerSha256 = none ∧ new.leaseTokenSha256 = none ∧
      new.leaseExpiresAt = none ∧ new.heartbeatAt = none)
    (hfrom : job.status = .processing)
    (hstatus : new.status = .failed ∨ new.status = .queued ∧ job.attemptCount < job.maxAttempts) :
    JobTraced platform (answer :: history) new := by
  have hnot : new.status ≠ .processing ∧ new.status ≠ .processed := by
    rcases hstatus with hfailed | ⟨hqueued, -⟩
    · simp [hfailed]
    · simp [hqueued]
  obtain ⟨howner, htoken, hexpires, hheartbeat⟩ := hcolumns
  refine ⟨?_, ?_, ?_, ?_, ?_, ?_⟩
  · rw [hattempts, hkey, leaseCount_other hother]
    exact h.attempts
  · rw [hattempts, hmax]
    exact h.bounded
  · intro hqueued
    rcases hstatus with hfailed | ⟨-, hroom⟩
    · simp [hfailed] at hqueued
    · rw [hattempts, hmax]
      exact hroom
  · simp [JobRow.LeaseColumns, howner, htoken, hexpires, hheartbeat, hnot.1]
  · intro hprocessing
    exact absurd hprocessing hnot.1
  · rw [hkey, completionCount_other hother, if_neg hnot.2]
    exact h.uncompleted (by simp [hfrom])

/-- A job that is leased: one more lease, and its token is the latest. -/
theorem JobTraced.leased {lease : LeasedJob} {binding : ObjectRow × ScanRow} {owner : Sha256}
    {expiresAt now : Time} (h : JobTraced platform history job)
    (hroom : job.attemptCount < job.maxAttempts)
    (hfrom : job.status ≠ .processed)
    (hlease : lease.job = job.lease binding owner (platform.sha256 lease.leaseToken)
      expiresAt now) :
    JobTraced platform (.leased (some lease) :: history) lease.job := by
  have hkey : lease.job.key = job.key := by rw [hlease]; rfl
  have hcount : leaseCount job.key (.leased (some lease) :: history) =
      leaseCount job.key history + 1 :=
    List.countP_cons_of_pos (by simp [Answer.isLeaseOf, hkey])
  have hcompletions : completionCount job.key (.leased (some lease) :: history) = 0 := by
    rw [← h.uncompleted hfrom]
    exact List.countP_cons_of_neg (by simp [Answer.isCompletionOf])
  refine ⟨?_, ?_, ?_, ?_, ?_, ?_⟩
  · rw [hkey, hcount, ← h.attempts, hlease]
    rfl
  · rw [hlease]
    exact hroom
  · rw [hlease]
    intro hqueued
    cases hqueued
  · rw [hlease]
    simp [JobRow.LeaseColumns, JobRow.lease]
  · intro _
    refine ⟨{ token := lease.leaseToken, expiresAt := lease.job.leaseExpiresAt }, if_pos rfl, ?_,
      rfl⟩
    rw [hlease]
    rfl
  · rw [hkey, hcompletions, if_neg (by simp [hlease, JobRow.lease])]

/-- A heartbeat moves the expiry of the latest lease. -/
theorem JobTraced.extended {expiresAt now : Time} (h : JobTraced platform history job)
    (hfrom : job.status = .processing) :
    JobTraced platform (.extended (job.beat expiresAt now) :: history)
      (job.beat expiresAt now) := by
  obtain ⟨lease, hlatest, htoken, -⟩ := h.held hfrom
  refine ⟨?_, h.bounded, h.queued, ?_, ?_, ?_⟩
  · refine h.attempts.trans (Eq.symm (List.countP_cons_of_neg ?_))
    simp [Answer.isLeaseOf]
  · obtain ⟨howner, htokens, -, -⟩ := h.columns
    exact ⟨howner, htokens, by simp [JobRow.beat, hfrom], by simp [JobRow.beat, hfrom]⟩
  · intro _
    refine ⟨{ lease with expiresAt := some expiresAt }, ?_, htoken, rfl⟩
    have hrest : latestLease (job.beat expiresAt now).key history = some lease := hlatest
    simp only [latestLease, if_true, hrest, Option.map_some]
    rfl
  · refine (List.countP_cons_of_neg ?_).trans h.completions
    simp [Answer.isCompletionOf]

/-- A completion is the first of its job. -/
theorem JobTraced.completed {now : Time} (h : JobTraced platform history job)
    (hfrom : job.status = .processing) :
    JobTraced platform (.completed (job.complete now) :: history) (job.complete now) := by
  have hnone : completionCount job.key history = 0 := h.uncompleted (by simp [hfrom])
  refine ⟨?_, h.bounded, ?_, ?_, ?_, ?_⟩
  · refine h.attempts.trans (Eq.symm (List.countP_cons_of_neg ?_))
    simp [Answer.isLeaseOf]
  · intro hqueued
    cases hqueued
  · simp [JobRow.LeaseColumns, JobRow.complete, JobRow.release]
  · intro hprocessing
    cases hprocessing
  · have hcount : completionCount job.key (.completed (job.complete now) :: history) =
        completionCount job.key history + 1 :=
      List.countP_cons_of_pos (decide_eq_true rfl)
    exact hcount.trans (by rw [hnone]; rfl)

/-- A job that `fail` closes, or puts back while it has attempts left. -/
theorem JobTraced.failed (h : JobTraced platform history job) (input : FailInput) (now : Time)
    (hfrom : job.status = .processing) :
    (input.outcome job now).key = job.key ∧
      JobTraced platform (.failed (input.outcome job now) :: history) (input.outcome job now) := by
  have hsubject : (Answer.failed (input.outcome job now)).subject ≠ some job.key := by
    simp [Answer.subject]
  cases hretries : input.retries job with
  | true =>
      have hout : input.outcome job now =
          job.retry input.errorCode (now + seconds (input.delay job)) now := if_pos hretries
      have hroom : job.attemptCount < job.maxAttempts := by
        simpa using (Bool.and_eq_true_iff.mp hretries).2
      rw [hout] at hsubject ⊢
      exact ⟨rfl, h.released hsubject rfl rfl rfl job.release_columns hfrom (.inr ⟨rfl, hroom⟩)⟩
  | false =>
      have hout : input.outcome job now = job.fail input.errorCode input.retryable now :=
        if_neg (by simp [hretries])
      rw [hout] at hsubject ⊢
      exact ⟨rfl, h.released hsubject rfl rfl rfl job.release_columns hfrom (.inl rfl)⟩

/-! ## All rows and the answers -/

/-- Every row of the job table agrees with the answers given so far. -/
structure Fenced (platform : Platform) (ledger : Ledger) : Prop where
  ids : (ledger.tables.jobs.map (·.id)).Nodup
  rows : ∀ job ∈ ledger.tables.jobs, JobTraced platform ledger.history job
  known : ∀ answer ∈ ledger.history, ∀ key ∈ answer.subject,
    ∃ job ∈ ledger.tables.jobs, job.key = key

variable {ledger : Ledger} {tables' : Tables}

/-- The key of a job determines its row. -/
theorem eq_of_key {jobs : List JobRow} (hids : (jobs.map (·.id)).Nodup) {a b : JobRow}
    (ha : a ∈ jobs) (hb : b ∈ jobs) (hkey : a.key = b.key) : a = b :=
  List.inj_on_of_nodup_map hids ha hb (congrArg Prod.snd hkey)

/-- A call that leaves the jobs alone and is about no job. -/
theorem Fenced.same (h : Fenced platform ledger) (hjobs : tables'.jobs = ledger.tables.jobs)
    (hsubject : answer.subject = none) :
    Fenced platform { tables := tables', history := answer :: ledger.history } := by
  refine ⟨?_, ?_, ?_⟩
  · rw [hjobs]
    exact h.ids
  · intro job hjob
    rw [hjobs] at hjob
    exact (h.rows job hjob).other (by simp [hsubject])
  · rw [hjobs]
    refine List.forall_mem_cons.mpr ⟨?_, h.known⟩
    simp [hsubject]

/-- A call that rewrites the jobs that meet a condition, and is about no other
job. -/
theorem Fenced.update {p : JobRow → Prop} [DecidablePred p] {f : JobRow → JobRow}
    (h : Fenced platform ledger) (hjobs : tables'.jobs = updateWhere p f ledger.tables.jobs)
    (hkey : ∀ job ∈ ledger.tables.jobs, p job → (f job).key = job.key)
    (hnew : ∀ job ∈ ledger.tables.jobs, p job →
      JobTraced platform (answer :: ledger.history) (f job))
    (hsubject : ∀ key ∈ answer.subject, ∃ job ∈ ledger.tables.jobs, p job ∧ job.key = key) :
    Fenced platform { tables := tables', history := answer :: ledger.history } := by
  have hids : (updateWhere p f ledger.tables.jobs).map (·.id) =
      ledger.tables.jobs.map (·.id) :=
    map_updateWhere fun job hjob hp => congrArg Prod.snd (hkey job hjob hp)
  have hkept : ∀ job ∈ ledger.tables.jobs, ∃ row ∈ updateWhere p f ledger.tables.jobs,
      row.key = job.key := by
    intro job hjob
    by_cases hp : p job
    · exact ⟨f job, mem_updateWhere.mpr (.inl ⟨job, hjob, hp, rfl⟩), hkey job hjob hp⟩
    · exact ⟨job, mem_updateWhere.mpr (.inr ⟨hjob, hp⟩), rfl⟩
  refine ⟨?_, ?_, ?_⟩
  · rw [hjobs, hids]
    exact h.ids
  · intro row hrow
    rw [hjobs] at hrow
    rcases mem_updateWhere.mp hrow with ⟨old, hold, hp, rfl⟩ | ⟨hrow, hp⟩
    · exact hnew old hold hp
    · refine (h.rows row hrow).other fun hrowKey => hp ?_
      obtain ⟨old, hold, hpold, hkeys⟩ := hsubject row.key hrowKey
      rwa [← eq_of_key h.ids hold hrow hkeys]
  · rw [hjobs]
    refine List.forall_mem_cons.mpr ⟨?_, ?_⟩
    · intro key hanswer
      obtain ⟨old, hold, -, rfl⟩ := hsubject key hanswer
      exact hkept old hold
    · intro other hother key hotherKey
      obtain ⟨old, hold, rfl⟩ := h.known other hother key hotherKey
      exact hkept old hold

/-- A call that rewrites the one row `old`. -/
theorem Fenced.rewrite {old new : JobRow} (h : Fenced platform ledger)
    (hjobs : tables'.jobs = (ledger.tables.rewriteJob old new).jobs)
    (hold : old ∈ ledger.tables.jobs) (hkey : new.key = old.key)
    (hnew : JobTraced platform (answer :: ledger.history) new)
    (hsubject : ∀ key ∈ answer.subject, old.key = key) :
    Fenced platform { tables := tables', history := answer :: ledger.history } :=
  h.update hjobs (fun _ _ hsame => hkey.trans hsame.symm) (fun _ _ _ => hnew)
    fun key hanswer => ⟨old, hold, rfl, hsubject key hanswer⟩

/-- An enqueued job has neither leases nor completions. -/
theorem Fenced.admit {new : JobRow} (h : Fenced platform ledger)
    (hjobs : tables'.jobs = ledger.tables.jobs ++ [new]) (hsubject : answer.subject = none)
    (hfresh : ∀ job ∈ ledger.tables.jobs, job.id ≠ new.id) (hattempts : new.attemptCount = 0)
    (hmax : 0 < new.maxAttempts) (hstatus : new.status = .queued)
    (hcolumns : new.LeaseColumns) :
    Fenced platform { tables := tables', history := answer :: ledger.history } := by
  have hunknown : ∀ other ∈ ledger.history, other.subject ≠ some new.key := by
    intro other hother hsame
    obtain ⟨job, hjob, hkey⟩ := h.known other hother new.key hsame
    exact hfresh job hjob (congrArg Prod.snd hkey)
  obtain ⟨hleases, hcompletions⟩ := counts_of_unknown hunknown
  have hnew : JobTraced platform ledger.history new := by
    refine ⟨?_, ?_, ?_, hcolumns, ?_, ?_⟩
    · rw [hattempts, hleases]
    · omega
    · omega
    · simp [hstatus]
    · simp [hcompletions, hstatus]
  refine ⟨?_, ?_, ?_⟩
  · rw [hjobs, List.map_append, List.map_singleton, List.nodup_append_comm]
    refine List.nodup_cons.mpr ⟨fun hmem => ?_, h.ids⟩
    obtain ⟨job, hjob, hid⟩ := List.mem_map.mp hmem
    exact hfresh job hjob hid
  · rw [hjobs]
    intro job hjob
    rcases List.mem_append.mp hjob with hold | hlast
    · exact (h.rows job hold).other (by simp [hsubject])
    · rw [List.mem_singleton.mp hlast]
      exact hnew.other (by simp [hsubject])
  · rw [hjobs]
    refine List.forall_mem_cons.mpr ⟨by simp [hsubject], fun other hother key hkey => ?_⟩
    obtain ⟨job, hjob, hsame⟩ := h.known other hother key hkey
    exact ⟨job, List.mem_append_left _ hjob, hsame⟩

theorem held_some {tables : Tables} {tokenSha256 : Sha256} {now : Time}
    (h : tables.held? key tokenSha256 now = some job) :
    job ∈ tables.jobs ∧ job.key = key ∧ job.status = .processing ∧
      job.leaseTokenSha256 = some tokenSha256 ∧ job.leaseExpiresAt.any (now < ·) = true := by
  have hmatches := List.find?_some h
  simp only [JobRow.heldBy, Bool.and_eq_true, decide_eq_true_eq] at hmatches
  obtain ⟨hkey, ⟨hstatus, htoken⟩, hexpiry⟩ := hmatches
  exact ⟨List.mem_of_find?_eq_some h, hkey, hstatus, htoken, hexpiry⟩

theorem JobRow.hasExpired_processing {now : Time} (h : job.hasExpired now = true) :
    job.status = .processing := by
  simp only [JobRow.hasExpired, Bool.and_eq_true, decide_eq_true_eq] at h
  exact h.1

theorem mem_exhausted {tables : Tables} {tenantId : Uuid} {skipped : List Uuid} {now : Time}
    (h : job ∈ tables.exhausted tenantId skipped now) :
    job ∈ tables.jobs ∧ job.tenantId = tenantId ∧ job.hasExpired now = true ∧
      job.maxAttempts ≤ job.attemptCount ∧ job.id ∉ skipped := by
  have hmem := mem_orderedBy.mp (List.mem_of_mem_take h)
  simpa only [List.mem_filter, decide_eq_true_eq] using hmem

theorem mem_leasable {tables : Tables} {tenantId : Uuid} {skipped : List Uuid} {now : Time}
    {binding : ObjectRow × ScanRow} :
    (job, binding) ∈ tables.leasable tenantId skipped now ↔
      job ∈ tables.jobs ∧ (job.tenantId = tenantId ∧ job.attemptCount < job.maxAttempts ∧
        (job.status = .queued ∧ job.availableAt ≤ now ∨ job.hasExpired now = true) ∧
        job.id ∉ skipped) ∧ binding ∈ tables.acceptances job.version job.artifactSha256 now := by
  simp only [Tables.leasable, List.mem_flatMap, List.mem_map, List.mem_filter, decide_eq_true_eq,
    Prod.mk.injEq]
  constructor
  · rintro ⟨_, ⟨hjob, hfree⟩, _, hbinding, rfl, rfl⟩
    exact ⟨hjob, hfree, hbinding⟩
  · rintro ⟨hjob, hfree, hbinding⟩
    exact ⟨job, ⟨hjob, hfree⟩, binding, hbinding, rfl, rfl⟩

/-- **One step.**  Every call keeps the rows and the answers in agreement. -/
theorem fenced_step (h : Fenced platform ledger) (command : Command) :
    Fenced platform (ledger.step platform command) := by
  rcases ledger.step_cases platform command with hsame | ⟨_, _, heffect, hstep⟩
  · rwa [hsame]
  rw [hstep]
  cases heffect with
  | catalogued document => exact h.same rfl rfl
  | registered input hfresh => exact h.same rfl rfl
  | begun mediaType hfresh hunbound hid => exact h.same rfl rfl
  | restarted object hobject hreference hversion hid => exact h.same rfl rfl
  | inspected object scan => exact h.same rfl rfl
  | admitted identity version hidentity hversion hcontent hadmits =>
      refine h.admit rfl rfl (fun job hjob => (hadmits job hjob).1) rfl
        (maxAttempts_pos hidentity) rfl ?_
      simp [JobRow.LeaseColumns, JobIdentity.job]
  | resolved identity version hidentity hversion hcontent hconflict hanswer => exact h.same rfl rfl
  | @exhausted tenantId skipped now versions hfound hversions =>
      refine h.update rfl (fun _ _ _ => rfl) ?_ (by simp [Answer.subject])
      intro job hjob hmem
      obtain ⟨-, -, hexpired, -⟩ := mem_exhausted hmem
      exact (h.rows job hjob).released (by simp [Answer.subject]) rfl rfl rfl
        job.release_columns (job.hasExpired_processing hexpired) (.inl rfl)
  | idle hnone => exact h.same rfl rfl
  | leased job binding owner duration lease hleasable hfirst hlease =>
      obtain ⟨hjob, ⟨-, hroom, hfree, -⟩, -⟩ := mem_leasable.mp hleasable
      obtain ⟨hrow, rfl⟩ := hlease
      have hfrom : job.status ≠ .processed := by
        rcases hfree with ⟨hqueued, -⟩ | hexpired
        · simp [hqueued]
        · simp [job.hasExpired_processing hexpired]
      have hkey : lease.job.key = job.key := by rw [hrow]; rfl
      refine h.rewrite rfl hjob hkey ((h.rows job hjob).leased hroom hfrom hrow) ?_
      intro key hsubject
      rw [← hkey]
      exact Option.some.inj hsubject
  | extended job duration hheld =>
      obtain ⟨hjob, -, hfrom, -⟩ := held_some hheld
      exact h.rewrite rfl hjob rfl ((h.rows job hjob).extended hfrom)
        fun key hsubject => Option.some.inj hsubject
  | completed job version binding vectors hheld =>
      obtain ⟨hjob, -, hfrom, -⟩ := held_some hheld
      exact h.rewrite rfl hjob rfl ((h.rows job hjob).completed hfrom)
        fun key hsubject => Option.some.inj hsubject
  | @failed input now job hshape hdelay hheld hversion =>
      obtain ⟨hjob, -, hfrom, -⟩ := held_some hheld
      obtain ⟨hkey, hnew⟩ := (h.rows job hjob).failed input now hfrom
      exact h.rewrite rfl hjob hkey hnew (by simp [Answer.subject])

theorem fenced_opening : Fenced platform .opening where
  ids := List.nodup_nil
  rows := by simp [Ledger.opening, Tables.empty]
  known := by simp [Ledger.opening]

/-! ## The law -/

/-- The job, token and instant that a heartbeat, a completion or a failure
presents. -/
def Command.presents : Command → Option (Key × JsString × Time)
  | .heartbeat input now => some ((input.tenantId, input.jobId), input.leaseToken, now)
  | .complete input now => some ((input.tenantId, input.jobId), input.leaseToken, now)
  | .fail input now => some ((input.tenantId, input.jobId), input.leaseToken, now)
  | _ => none

/-- A call with a token other than that of the latest lease of its job, or at
or after the expiry of that lease. -/
def Command.IsStale (command : Command) (history : List Answer) : Prop :=
  ∃ key token now, command.presents = some (key, token, now) ∧
    ∀ lease, latestLease key history = some lease →
      token ≠ lease.token ∨ ∀ expiry ∈ lease.expiresAt, expiry ≤ now

/-- **Lease fencing**, as a law on one state of the system: jobs are completed
at most once and closed for good, stale calls change nothing, attempts are
leases and stay within their bound, queued jobs can still be leased, and the
lease columns are those of the jobs being processed. -/
structure LeaseFenced (platform : Platform) (ledger : Ledger) : Prop where
  completedOnce : ∀ key, completionCount key ledger.history ≤ 1
  terminal : ∀ job ∈ ledger.tables.jobs, job.status = .processed ∨ job.status = .failed →
    ∀ command, job ∈ (ledger.step platform command).tables.jobs
  stale : ∀ command : Command, command.IsStale ledger.history →
    ledger.step platform command = ledger
  attempts : ∀ job ∈ ledger.tables.jobs,
    job.attemptCount = leaseCount job.key ledger.history ∧ job.attemptCount ≤ job.maxAttempts
  queued : ∀ job ∈ ledger.tables.jobs, job.status = .queued → job.attemptCount < job.maxAttempts
  columns : ∀ job ∈ ledger.tables.jobs, job.LeaseColumns

theorem Fenced.completedOnce (h : Fenced platform ledger) (key : Key) :
    completionCount key ledger.history ≤ 1 := by
  by_cases hknown : ∃ job ∈ ledger.tables.jobs, job.key = key
  · obtain ⟨job, hjob, rfl⟩ := hknown
    rw [(h.rows job hjob).completions]
    split <;> omega
  · have hnone : completionCount key ledger.history = 0 :=
      (counts_of_unknown fun answer hanswer hsubject =>
        hknown (h.known answer hanswer key hsubject)).2
    omega

/-- A row that a call rewrites was queued or being processed. -/
theorem Fenced.terminal (h : Fenced platform ledger) (hjob : job ∈ ledger.tables.jobs)
    (hclosed : job.status = .processed ∨ job.status = .failed) (command : Command) :
    job ∈ (ledger.step platform command).tables.jobs := by
  have hnot : job.status ≠ .queued ∧ job.status ≠ .processing := by
    rcases hclosed with hstatus | hstatus <;> simp [hstatus]
  have hkept : ∀ old new : JobRow, old ∈ ledger.tables.jobs → old.status ≠ job.status →
      job ∈ (ledger.tables.rewriteJob old new).jobs := by
    intro old new hold hstatus
    refine mem_updateWhere.mpr (.inr ⟨hjob, fun hkey => hstatus ?_⟩)
    rw [eq_of_key h.ids hjob hold hkey]
  rcases ledger.step_cases platform command with hsame | ⟨_, _, heffect, hstep⟩
  · rwa [hsame]
  rw [hstep]
  cases heffect with
  | admitted => exact List.mem_append_left _ hjob
  | exhausted versions hfound hversions =>
      refine mem_updateWhere.mpr (.inr ⟨hjob, fun hmem => ?_⟩)
      obtain ⟨-, -, hexpired, -⟩ := mem_exhausted hmem
      exact hnot.2 (job.hasExpired_processing hexpired)
  | leased old binding owner duration lease hleasable hfirst hlease =>
      obtain ⟨hold, ⟨-, -, hfree, -⟩, -⟩ := mem_leasable.mp hleasable
      refine hkept old _ hold fun hstatus => ?_
      rcases hfree with ⟨hqueued, -⟩ | hexpired
      · exact hnot.1 (hstatus ▸ hqueued)
      · exact hnot.2 (hstatus ▸ old.hasExpired_processing hexpired)
  | extended old duration hheld =>
      obtain ⟨hold, -, hfrom, -⟩ := held_some hheld
      exact hkept old _ hold fun hstatus => hnot.2 (hstatus ▸ hfrom)
  | completed old version binding vectors hheld =>
      obtain ⟨hold, -, hfrom, -⟩ := held_some hheld
      exact hkept old _ hold fun hstatus => hnot.2 (hstatus ▸ hfrom)
  | failed old hshape hdelay hheld hversion =>
      obtain ⟨hold, -, hfrom, -⟩ := held_some hheld
      exact hkept old _ hold fun hstatus => hnot.2 (hstatus ▸ hfrom)
  | _ => exact hjob

/-- No row is held by a stale token. -/
theorem Fenced.not_held (h : Fenced platform ledger)
    (hsha : Function.Injective platform.sha256) {token : JsString} {now : Time}
    (hstale : ∀ lease, latestLease key ledger.history = some lease →
      token ≠ lease.token ∨ ∀ expiry ∈ lease.expiresAt, expiry ≤ now) :
    ledger.tables.held? key (platform.sha256 token) now ≠ some job := by
  intro hheld
  obtain ⟨hjob, rfl, hfrom, htoken, hlive⟩ := held_some hheld
  obtain ⟨lease, hlatest, hleaseToken, hexpiry⟩ := (h.rows job hjob).held hfrom
  rcases hstale lease hlatest with hother | hexpired
  · rw [htoken] at hleaseToken
    exact hother (hsha (Option.some.inj hleaseToken))
  · obtain ⟨expiry, hsome, hlater⟩ := (Option.any_eq_true _ _).mp hlive
    have hearlier : expiry ≤ now := hexpired expiry (hexpiry ▸ hsome)
    exact absurd (of_decide_eq_true hlater) (not_lt.mpr hearlier)

theorem Fenced.stale (h : Fenced platform ledger) (hsha : Function.Injective platform.sha256)
    {command : Command} (hcommand : command.IsStale ledger.history) :
    ledger.step platform command = ledger := by
  obtain ⟨key, token, now, hpresents, hstale⟩ := hcommand
  rcases ledger.step_cases platform command with hsame | ⟨_, _, heffect, hstep⟩
  · exact hsame
  cases heffect with
  | extended job duration hheld =>
      obtain ⟨rfl, rfl, rfl⟩ := by simpa [Command.presents] using hpresents
      exact absurd hheld (h.not_held hsha hstale)
  | completed job version binding vectors hheld =>
      obtain ⟨rfl, rfl, rfl⟩ := by simpa [Command.presents] using hpresents
      exact absurd hheld (h.not_held hsha hstale)
  | failed job hshape hdelay hheld hversion =>
      obtain ⟨rfl, rfl, rfl⟩ := by simpa [Command.presents] using hpresents
      exact absurd hheld (h.not_held hsha hstale)
  | _ => cases hpresents

/-- **Lease fencing.**  After every run of the system, with any interleaving of
workers, clients, inspectors and lease expiries, the ingestion jobs are fenced
by their leases. -/
theorem leases_fenced (platform : Platform) (hsha : Function.Injective platform.sha256)
    (commands : List Command) :
    LeaseFenced platform (run (Ledger.step platform) .opening commands) := by
  have h : Fenced platform (run (Ledger.step platform) .opening commands) :=
    run_invariant (Fenced platform) (fun _ command h => fenced_step h command) fenced_opening
      commands
  exact {
    completedOnce := h.completedOnce
    terminal := fun _ hjob hclosed command => h.terminal hjob hclosed command
    stale := fun _ hcommand => h.stale hsha hcommand
    attempts := fun job hjob => ⟨(h.rows job hjob).attempts, (h.rows job hjob).bounded⟩
    queued := fun job hjob => (h.rows job hjob).queued
    columns := fun job hjob => (h.rows job hjob).columns }

/-- A job that is leased, kept alive, put back, leased again and completed, the
last time in vain under the first token. -/
def sampleWork : List Command := sampleAccepted ++ [
  .enqueue (sampleEnqueue "1.0.0" "clave-aaaa") (sampleId 7) 3000,
  .claimNext sampleLease (sampleToken 'a') [] 4000,
  .heartbeat ⟨sampleId 1, sampleId 7, sampleToken 'a', none⟩ 5000,
  .fail (sampleFail (sampleId 7) (sampleToken 'a') true) 6000,
  .claimNext sampleLease (sampleToken 'b') [] 40000,
  .complete (sampleComplete (sampleId 7) (sampleId 6) (sampleToken 'b')) 42000,
  .complete (sampleComplete (sampleId 7) (sampleId 6) (sampleToken 'a')) 43000]

theorem leases_fenced_sample :
    LeaseFenced samplePlatform (run (Ledger.step samplePlatform) .opening sampleWork) ∧
      leaseCount (sampleId 1, sampleId 7)
        (run (Ledger.step samplePlatform) .opening sampleWork).history = 2 ∧
      completionCount (sampleId 1, sampleId 7)
        (run (Ledger.step samplePlatform) .opening sampleWork).history = 1 :=
  ⟨leases_fenced samplePlatform samplePlatform_injective sampleWork, by decide +kernel, by decide +kernel⟩

end Ingestion
