import MuniRag.Ingestion.Deduplication
import MuniRag.Ingestion.Enqueueing

/-!
# What an enqueue may answer

Every classification of a request is true when it is read: a job is created
when no row of its key and no live job of its work is committed or about to be,
a key that is bound decides the answer, and a work that disappears was live at
the insert and is not at the lookup.  The columns that bind a key to a request
are never written again, so the answers stay true.
-/

namespace Ingestion

open Results Table Runs

/-! ## The law -/

/-- The job is the one that the idempotency key of the request is bound to. -/
def JobRow.BoundTo (job : JobRow) (identity : JobIdentity) : Prop :=
  job.tenantId = identity.tenantId ∧ job.requestedByPrincipalId = identity.principalId ∧
    job.idempotencyKeySha256 = identity.idempotencyKeySha256

def JobRow.DoesWorkOf (job : JobRow) (identity : JobIdentity) : Prop :=
  job.tenantId = identity.tenantId ∧ job.workSha256 = identity.workSha256

/-- The job is stored, as far as no statement writes it again. -/
def Tables.Keeps (tables : Tables) (job : JobRow) : Prop :=
  ∃ row ∈ tables.jobs, row.origin = job.origin

/-- The job is stored and was closed. -/
def Tables.HasClosed (tables : Tables) (job : JobRow) : Prop :=
  ∃ row ∈ tables.jobs, row.origin = job.origin ∧ row.status.isLive = false

/-- The job that a request creates. -/
def JobRow.CreatedFor (job : JobRow) (identity : JobIdentity) (jobId : Uuid) : Prop :=
  job.id = jobId ∧ job.BoundTo identity ∧ job.requestSha256 = identity.requestSha256 ∧
    job.DoesWorkOf identity

/-- **What an answer says.**  `met` is what the insert has met: a key that was
bound then is replayed or in conflict, by the digest it is bound to. -/
def Tables.Answers (tables : Tables) (identity : JobIdentity) (jobId : Uuid)
    (met : Option JobRow) : EnqueueAnswer → Prop
  | .new job => tables.Keeps job ∧ job.CreatedFor identity jobId ∧ met = none
  | .replay job => tables.Keeps job ∧ job.BoundTo identity ∧
      job.requestSha256 = identity.requestSha256 ∧
      ∀ first ∈ met, first.BoundTo identity → first.origin = job.origin
  | .conflict => ∃ job, tables.Keeps job ∧ job.BoundTo identity ∧
      job.requestSha256 ≠ identity.requestSha256 ∧
      ∀ first ∈ met, first.BoundTo identity → first.origin = job.origin
  | .duplicateWork job => tables.Keeps job ∧ job.DoesWorkOf identity ∧ job.status.isLive = true ∧
      ∀ first ∈ met, ¬ first.BoundTo identity

/-- **What a disappeared claim says**: the insert met a live job of the work,
which was closed before the lookup. -/
def Tables.Disappeared (tables : Tables) (identity : JobIdentity) (met : Option JobRow) : Prop :=
  ∃ first ∈ met, ¬ first.BoundTo identity ∧ first.DoesWorkOf identity ∧
    first.status.isLive = true ∧ tables.HasClosed first

variable {ι : Type} [DecidableEq ι] [Fintype ι] (platform : Platform)
variable (requests : ι → EnqueueRequest)

namespace EnqueueWorld

/-- The law of a state. -/
structure Lawful (world : EnqueueWorld ι) : Prop where
  unique : world.tables.Unique
  answers : ∀ i answer, (world.sessions i).stage = .done answer → ∃ identity,
    buildIngestionJobIdentity platform (requests i).input = .ok identity ∧
      world.tables.Answers identity (requests i).jobId (world.sessions i).met answer
  disappeared : ∀ i, (world.sessions i).stage = .failed claimDisappeared → ∃ identity,
    buildIngestionJobIdentity platform (requests i).input = .ok identity ∧
      world.tables.Disappeared identity (world.sessions i).met
  inserted : ∀ i, ∀ row ∈ world.tables.jobs, row.id = (requests i).jobId →
    ∃ job, (world.sessions i).stage = .done (.new job)

/-- The law of the step of one request: past its checks it ends with an answer
or a disappeared claim; its insert meets the row of a bound key; and it comes
closer to its end unless another has inserted and can commit. -/
structure Advances (world next : EnqueueWorld ι) (i : ι) : Prop where
  ends : (world.sessions i).stage.reachedInsert = true → (next.sessions i).stage.ended = true →
    (∃ answer, (next.sessions i).stage = .done answer) ∨
      (next.sessions i).stage = .failed claimDisappeared
  meets : ∀ identity, (world.sessions i).stage = .inserting identity →
    (∃ row ∈ world.tables.jobs, row.BoundTo identity) →
      ∃ first ∈ world.tables.jobs, first.BoundTo identity ∧ (next.sessions i).met = some first
  nears : (world.sessions i).stage.ended = false →
    (next.sessions i).stage.remaining < (world.sessions i).stage.remaining ∨
      ∃ j, j ≠ i ∧ ∃ job, (world.sessions j).stage = .committing (.new job)

/-- The law of a step: no job loses what binds it. -/
def StepsLawfully (world : EnqueueWorld ι) (event : EnqueueEvent ι) : Prop :=
  (∀ job ∈ world.tables.jobs, (world.step platform requests event).tables.Keeps job) ∧
    match event with
    | .proceed i now => world.Advances (world.step platform requests (.proceed i now)) i
    | .fault .. | .call _ => True

end EnqueueWorld

/-! ## The course of a request -/

/-- What holds of a request at each of its stages. -/
def EnqueueSession.Conforms (request : EnqueueRequest) (tables : Tables)
    (session : EnqueueSession) : Prop :=
  let named := fun identity => buildIngestionJobIdentity platform request.input = .ok identity
  match session.stage with
  | .start => session.met = none
  | .checking identity | .inserting identity => named identity ∧ session.met = none
  | .resolving identity => named identity ∧ ∃ first ∈ session.met, tables.Keeps first ∧
      (first.BoundTo identity ∨ first.DoesWorkOf identity ∧ first.status.isLive = true)
  | .lookingUp identity => named identity ∧ ∃ first ∈ session.met, tables.Keeps first ∧
      ¬ first.BoundTo identity ∧ first.DoesWorkOf identity ∧ first.status.isLive = true
  | .committing (.new job) => session.pending = some job ∧ session.met = none ∧
      ∃ identity, named identity ∧ job.CreatedFor identity request.jobId
  | .committing answer | .done answer => ∃ identity, named identity ∧
      tables.Answers identity request.jobId session.met answer
  | .failed refusal => refusal = EnqueueWorld.claimDisappeared → ∃ identity, named identity ∧
      tables.Disappeared identity session.met

/-- **Invariant of the runs.** -/
structure EnqueueWorld.Sound (world : EnqueueWorld ι) : Prop where
  unique : world.tables.Unique
  inserted : ∀ i, ∀ row ∈ world.tables.jobs, row.id = (requests i).jobId →
    ∃ job, (world.sessions i).stage = .done (.new job)
  pending : ∀ i row, (world.sessions i).pending = some row →
    (world.sessions i).stage = .committing (.new row) ∧ row.status = .queued ∧
      row.id = (requests i).jobId ∧ world.tables.admits row
  apart : ∀ i j a b, i ≠ j → (world.sessions i).pending = some a →
    (world.sessions j).pending = some b → ¬ a.Clashes b
  conforms : ∀ i, (world.sessions i).Conforms platform (requests i) world.tables

variable {platform requests} {tables tables' : Tables} {a b job first : JobRow}
variable {identity : JobIdentity} {world : EnqueueWorld ι} {i : ι}

/-! ## What stays -/

theorem origin_boundTo (h : a.origin = b.origin) : a.BoundTo identity ↔ b.BoundTo identity := by
  simp only [JobRow.origin, Origin.mk.injEq, JobRow.key, Prod.mk.injEq] at h
  obtain ⟨⟨htenant, _⟩, hprincipal, hkey, _, _⟩ := h
  rw [JobRow.BoundTo, JobRow.BoundTo, htenant, hprincipal, hkey]

theorem origin_request (h : a.origin = b.origin) : a.requestSha256 = b.requestSha256 :=
  congrArg Origin.requestSha256 h

/-- The jobs of one table are kept in another, and closed jobs stay closed. -/
structure Lasts (tables tables' : Tables) : Prop where
  keeps : ∀ job ∈ tables.jobs, tables'.Keeps job
  closed : ∀ job ∈ tables.jobs, job.status.isLive = false → tables'.HasClosed job

theorem Lasts.keepsOf (h : Lasts tables tables') (hkept : tables.Keeps job) : tables'.Keeps job := by
  obtain ⟨row, hrow, horigin⟩ := hkept
  obtain ⟨row', hrow', hsame⟩ := h.keeps row hrow
  exact ⟨row', hrow', hsame.trans horigin⟩

theorem Lasts.hasClosed (h : Lasts tables tables') (hclosed : tables.HasClosed job) :
    tables'.HasClosed job := by
  obtain ⟨row, hrow, horigin, hdead⟩ := hclosed
  obtain ⟨row', hrow', hsame, hdead'⟩ := h.closed row hrow hdead
  exact ⟨row', hrow', hsame.trans horigin, hdead'⟩

theorem Lasts.of_evolves (h : Evolves tables.jobs tables'.jobs) : Lasts tables tables' := by
  obtain ⟨f, hmap, hf⟩ := h
  constructor
  · intro job hjob
    exact ⟨f job, hmap ▸ List.mem_map_of_mem hjob, (hf job hjob).1⟩
  · intro job hjob hdead
    refine ⟨f job, hmap ▸ List.mem_map_of_mem hjob, (hf job hjob).1, ?_⟩
    by_contra hlive
    have halive := (hf job hjob).2 (by simpa using hlive)
    rw [hdead] at halive
    cases halive

theorem Lasts.of_append {rows : List JobRow} (h : tables'.jobs = tables.jobs ++ rows) :
    Lasts tables tables' := by
  have hmem : ∀ job ∈ tables.jobs, job ∈ tables'.jobs := by
    intro job hjob
    rw [h]
    exact List.mem_append_left _ hjob
  exact ⟨fun job hjob => ⟨job, hmem job hjob, rfl⟩,
    fun job hjob hdead => ⟨job, hmem job hjob, rfl, hdead⟩⟩

theorem Lasts.answers (h : Lasts tables tables') {jobId : Uuid} {met : Option JobRow}
    {answer : EnqueueAnswer} (hanswer : tables.Answers identity jobId met answer) :
    tables'.Answers identity jobId met answer := by
  cases answer with
  | new job => exact ⟨h.keepsOf hanswer.1, hanswer.2⟩
  | replay job => exact ⟨h.keepsOf hanswer.1, hanswer.2⟩
  | duplicateWork job => exact ⟨h.keepsOf hanswer.1, hanswer.2⟩
  | conflict =>
      obtain ⟨job, hkept, hrest⟩ := hanswer
      exact ⟨job, h.keepsOf hkept, hrest⟩

theorem Lasts.disappeared (h : Lasts tables tables') {met : Option JobRow}
    (hgone : tables.Disappeared identity met) : tables'.Disappeared identity met := by
  obtain ⟨first, hmet, hunbound, hwork, hlive, hclosed⟩ := hgone
  exact ⟨first, hmet, hunbound, hwork, hlive, h.hasClosed hclosed⟩

/-- **Frame.**  What another does to the tables leaves a request on its course. -/
theorem conforms_lasts {request : EnqueueRequest} {session : EnqueueSession}
    (h : Lasts tables tables') (hconforms : session.Conforms platform request tables) :
    session.Conforms platform request tables' := by
  cases hstage : session.stage with
  | resolving identity =>
      simp only [EnqueueSession.Conforms, hstage] at hconforms ⊢
      obtain ⟨hnamed, first, hmet, hkept, hwhy⟩ := hconforms
      exact ⟨hnamed, first, hmet, h.keepsOf hkept, hwhy⟩
  | lookingUp identity =>
      simp only [EnqueueSession.Conforms, hstage] at hconforms ⊢
      obtain ⟨hnamed, first, hmet, hkept, hwhy⟩ := hconforms
      exact ⟨hnamed, first, hmet, h.keepsOf hkept, hwhy⟩
  | committing answer =>
      cases answer with
      | new job =>
          simp only [EnqueueSession.Conforms, hstage] at hconforms ⊢
          exact hconforms
      | _ =>
          simp only [EnqueueSession.Conforms, hstage] at hconforms ⊢
          obtain ⟨identity, hnamed, hanswer⟩ := hconforms
          exact ⟨identity, hnamed, h.answers hanswer⟩
  | done answer =>
      simp only [EnqueueSession.Conforms, hstage] at hconforms ⊢
      obtain ⟨identity, hnamed, hanswer⟩ := hconforms
      exact ⟨identity, hnamed, h.answers hanswer⟩
  | failed refusal =>
      simp only [EnqueueSession.Conforms, hstage] at hconforms ⊢
      intro hrefusal
      obtain ⟨identity, hnamed, hgone⟩ := hconforms hrefusal
      exact ⟨identity, hnamed, h.disappeared hgone⟩
  | _ =>
      simp only [EnqueueSession.Conforms, hstage] at hconforms ⊢
      exact hconforms

/-! ## What the statements find -/

theorem byIdempotency?_some (h : tables.byIdempotency? identity = some job) :
    job ∈ tables.jobs ∧ job.BoundTo identity := by
  have hmatches := List.find?_some h
  simp only [decide_eq_true_eq] at hmatches
  exact ⟨List.mem_of_find?_eq_some h, hmatches⟩

theorem byIdempotency?_none (h : tables.byIdempotency? identity = none) (hjob : job ∈ tables.jobs) :
    ¬ job.BoundTo identity := by
  intro hbound
  exact List.find?_eq_none.mp h job hjob (decide_eq_true hbound)

theorem byWork?_none (h : tables.byWork? identity = none) (hjob : job ∈ tables.jobs)
    (hwork : job.DoesWorkOf identity) : job.status.isLive = false := by
  by_contra hlive
  refine List.find?_eq_none.mp h job hjob (decide_eq_true ⟨hwork.1, hwork.2, ?_⟩)
  simpa using hlive

/-- A bound key is found by its lookup. -/
theorem byIdempotency?_of_bound (hjob : job ∈ tables.jobs) (hbound : job.BoundTo identity) :
    ∃ found, tables.byIdempotency? identity = some found := by
  cases hfound : tables.byIdempotency? identity with
  | none => exact absurd hbound (byIdempotency?_none hfound hjob)
  | some found => exact ⟨found, rfl⟩

theorem bound_unique (h : tables.Unique) (ha : a ∈ tables.jobs) (hb : b ∈ tables.jobs)
    (hbound : a.BoundTo identity) (hbound' : b.BoundTo identity) : a = b :=
  h.eq ha hb (.inr (.inl ⟨hbound.1.trans hbound'.1.symm, hbound.2.1.trans hbound'.2.1.symm,
    hbound.2.2.trans hbound'.2.2.symm⟩))

/-- An insert that does nothing has met the row of its key or a live job of its
work. -/
theorem met_of_conflict {config : PipelineConfig} {jobId : Uuid} {now : Time}
    (hfresh : ∀ row ∈ tables.jobs, row.id ≠ jobId)
    (hconflict : ¬ tables.admits (identity.job config jobId now)) :
    ∃ first ∈ (tables.byIdempotency? identity).or (tables.byWork? identity),
      first ∈ tables.jobs ∧
        (first.BoundTo identity ∨ first.DoesWorkOf identity ∧ first.status.isLive = true) := by
  cases hkey : tables.byIdempotency? identity with
  | some found =>
      obtain ⟨hfound, hbound⟩ := byIdempotency?_some hkey
      exact ⟨found, rfl, hfound, .inl hbound⟩
  | none =>
      cases hwork : tables.byWork? identity with
      | some found =>
          obtain ⟨hfound, htenant, hsame, hlive⟩ := byWork?_some hwork
          exact ⟨found, rfl, hfound, .inr ⟨⟨htenant, hsame⟩, hlive⟩⟩
      | none =>
          refine absurd (fun row hrow => ⟨hfresh row hrow, byIdempotency?_none hkey hrow, ?_⟩)
            hconflict
          rintro ⟨htenant, hsame, hlive⟩
          have hdead := byWork?_none hwork hrow ⟨htenant, hsame⟩
          rw [hdead] at hlive
          cases hlive

theorem createdFor_job {config : PipelineConfig} {jobId : Uuid} {now : Time} :
    (identity.job config jobId now).CreatedFor identity jobId :=
  ⟨rfl, ⟨rfl, rfl, rfl⟩, rfl, rfl, rfl⟩

theorem jobError_ne (code message : String) :
    jobError code message ≠ EnqueueWorld.claimDisappeared := by
  simp [jobError, EnqueueWorld.claimDisappeared]

/-- A refusal of the checks is not a claim that has disappeared. -/
theorem build_refusal (platform : Platform) (input : EnqueueInput) :
    RefusesOnly (· ≠ EnqueueWorld.claimDisappeared) (buildIngestionJobIdentity platform input) := by
  have hcheck : ∀ (c : Prop) (_ : Decidable c) code message,
      RefusesOnly (· ≠ EnqueueWorld.claimDisappeared) (require c (jobError code message)) :=
    fun c _ code message => .of_require (jobError_ne code message)
  have hlookup : ∀ (x : Option Uuid) code message,
      RefusesOnly (· ≠ EnqueueWorld.claimDisappeared) (orRefuse x (jobError code message)) :=
    fun x code message => .of_orRefuse (jobError_ne code message)
  have hconfig : RefusesOnly (· ≠ EnqueueWorld.claimDisappeared)
      (canonicalPipelineConfig input.pipelineConfig) :=
    .bind (hcheck _ _ _ _) fun _ => .bind (hcheck _ _ _ _) fun _ =>
      .bind (hcheck _ _ _ _) fun _ => .bind (hcheck _ _ _ _) fun _ => .of_pure _
  exact .bind (hlookup _ _ _) fun _ => .bind (hlookup _ _ _) fun _ => .bind (hlookup _ _ _) fun _ =>
    .bind (hcheck _ _ _ _) fun _ => .bind (hcheck _ _ _ _) fun _ => .bind (hcheck _ _ _ _) fun _ =>
      .bind hconfig fun _ => .of_pure _

theorem checkVersion_refusal (tables : Tables) (identity : JobIdentity) :
    RefusesOnly (· ≠ EnqueueWorld.claimDisappeared)
      (EnqueueWorld.checkVersion tables identity) :=
  .bind (.of_orRefuse (jobError_ne _ _)) fun _ => .of_require (jobError_ne _ _)

/-! ## Steps -/

namespace EnqueueWorld

variable {session : EnqueueSession}

omit [Fintype ι] in
/-- **Frame.**  A request that has not ended takes a step that commits nothing. -/
theorem sound_put (h : world.Sound platform requests)
    (hopen : (world.sessions i).stage.ended = false)
    (hpending : ∀ row, session.pending = some row → session.stage = .committing (.new row) ∧
      row.status = .queued ∧ row.id = (requests i).jobId ∧ world.tables.admits row ∧
        ∀ j, j ≠ i → ∀ other, (world.sessions j).pending = some other → ¬ other.Clashes row)
    (hconforms : session.Conforms platform (requests i) world.tables) :
    (world.put i session).Sound platform requests where
  unique := h.unique
  inserted := by
    intro j row hrow hid
    obtain ⟨job, hdone⟩ := h.inserted j row hrow hid
    have hji : j ≠ i := by
      intro hsame
      rw [← hsame, hdone] at hopen
      cases hopen
    exact ⟨job, by rw [put_other _ _ hji, hdone]⟩
  pending := by
    intro j row hrow
    by_cases hji : j = i
    · subst hji
      rw [put_self] at hrow ⊢
      obtain ⟨hstage, hstatus, hid, hadmits, _⟩ := hpending row hrow
      exact ⟨hstage, hstatus, hid, hadmits⟩
    · rw [put_other _ _ hji] at hrow ⊢
      exact h.pending j row hrow
  apart := by
    intro j k a b hjk ha hb
    by_cases hji : j = i
    · subst hji
      rw [put_self] at ha
      rw [put_other _ _ hjk.symm] at hb
      exact fun hclash => (hpending a ha).2.2.2.2 k hjk.symm b hb hclash.symm
    · rw [put_other _ _ hji] at ha
      by_cases hki : k = i
      · subst hki
        rw [put_self] at hb
        exact (hpending b hb).2.2.2.2 j hji a ha
      · rw [put_other _ _ hki] at hb
        exact h.apart j k a b hjk ha hb
  conforms := by
    intro j
    by_cases hji : j = i
    · subst hji
      rw [put_self]
      exact hconforms
    · rw [put_other _ _ hji]
      exact h.conforms j

omit [DecidableEq ι] [Fintype ι] in
/-- A request that is not about to commit a new job has inserted nothing. -/
theorem pending_none (h : world.Sound platform requests)
    (hstage : ∀ row, (world.sessions i).stage ≠ .committing (.new row)) :
    (world.sessions i).pending = none := by
  cases hpending : (world.sessions i).pending with
  | none => rfl
  | some row => exact absurd (h.pending i row hpending).1 (hstage row)

omit [DecidableEq ι] [Fintype ι] in
theorem fresh_of_open (h : world.Sound platform requests)
    (hopen : (world.sessions i).stage.ended = false) :
    ∀ row ∈ world.tables.jobs, row.id ≠ (requests i).jobId := by
  intro row hrow hid
  obtain ⟨job, hdone⟩ := h.inserted i row hrow hid
  rw [hdone] at hopen
  cases hopen

omit [DecidableEq ι] [Fintype ι] in
/-- The tables change under the requests, and no job becomes live. -/
theorem sound_evolves {tables : Tables} (h : world.Sound platform requests)
    (hjobs : Evolves world.tables.jobs tables.jobs) :
    { world with tables }.Sound platform requests where
  unique := h.unique.evolves hjobs
  inserted := by
    obtain ⟨f, hmap, hf⟩ := hjobs
    intro j row hrow hid
    rw [hmap] at hrow
    obtain ⟨old, hold, rfl⟩ := List.mem_map.mp hrow
    have hkey : (f old).key = old.key := congrArg Origin.key (hf old hold).1
    exact h.inserted j old hold ((congrArg Prod.snd hkey).symm.trans hid)
  pending := by
    intro j row hrow
    obtain ⟨hstage, hstatus, hid, hadmits⟩ := h.pending j row hrow
    have hlive : row.status.isLive = true := by rw [hstatus]; rfl
    refine ⟨hstage, hstatus, hid, (admits_iff hlive).mpr ?_⟩
    obtain ⟨f, hmap, hf⟩ := hjobs
    intro job hjob hclash
    rw [hmap] at hjob
    obtain ⟨old, hold, rfl⟩ := List.mem_map.mp hjob
    exact (admits_iff hlive).mp hadmits old hold
      (clashes_of_origin (hf old hold).1 rfl (hf old hold).2 id hclash)
  apart := h.apart
  conforms j := conforms_lasts (Lasts.of_evolves hjobs) (h.conforms j)

omit [DecidableEq ι] [Fintype ι] in
theorem sound_call (h : world.Sound platform requests) (command : Command) :
    (world.call platform command).Sound platform requests := by
  have hother : ∀ command : Command,
      (∀ input jobId now, command ≠ .enqueue input jobId now) →
      { world with tables := settle world.tables (do
        let out ← Ingestion.call platform world.tables command
        pure out.1) }.Sound platform requests := by
    intro command hnot
    cases hcall : Ingestion.call platform world.tables command with
    | error refusal => exact h
    | ok out =>
        obtain ⟨tables, answer⟩ := out
        exact sound_evolves h (evolves_effect h.unique (call_effect hcall) hnot)
  cases command with
  | enqueue => exact h
  | _ => exact hother _ nofun

omit [Fintype ι] in
theorem sound_fault (h : world.Sound platform requests)
    (hopen : (world.sessions i).stage.ended = false) {refusal : Refusal}
    (hrefusal : refusal ≠ claimDisappeared) :
    (world.put i ((world.sessions i).refuse refusal)).Sound platform requests := by
  have hnone : ((world.sessions i).refuse refusal).pending = none := rfl
  refine sound_put h hopen (fun row hrow => ?_) ?_
  · rw [hnone] at hrow
    cases hrow
  · simp only [EnqueueSession.Conforms, EnqueueSession.refuse]
    exact fun hsame => absurd hsame hrefusal

/-- The insert of a job that nothing conflicts with, or what it has met. -/
theorem sound_insert (h : world.Sound platform requests) {now : Time}
    (hstage : (world.sessions i).stage = .inserting identity) :
    (world.insertJob i (world.sessions i) identity
      (identity.job (requests i).input.pipelineConfig (requests i).jobId now)).Sound platform
        requests := by
  have hopen : (world.sessions i).stage.ended = false := by rw [hstage]; rfl
  have hconforms := h.conforms i
  simp only [EnqueueSession.Conforms, hstage] at hconforms
  obtain ⟨hnamed, hmet⟩ := hconforms
  have hpending : (world.sessions i).pending = none := pending_none h (by simp [hstage])
  rw [insertJob]
  split
  next hadmits =>
    split
    · exact h
    next hfree =>
      refine sound_put h hopen (fun row hrow => ?_) ?_
      · obtain rfl := Option.some.inj hrow
        refine ⟨rfl, rfl, rfl, hadmits, fun j hj other hother hclash => hfree ⟨j, hj, other, hother, ?_⟩⟩
        rw [admits_iff rfl]
        exact fun hnone => hnone other (List.mem_singleton.mpr rfl) hclash
      · simp only [EnqueueSession.Conforms]
        exact ⟨trivial, hmet, identity, hnamed, createdFor_job⟩
  next hconflict =>
    refine sound_put h hopen (fun row hrow => ?_) ?_
    · rw [hpending] at hrow
      cases hrow
    · simp only [EnqueueSession.Conforms]
      obtain ⟨first, hfirst, hstored, hwhy⟩ := met_of_conflict (fresh_of_open h hopen) hconflict
      exact ⟨hnamed, first, hfirst, ⟨first, hstored, rfl⟩, hwhy⟩

omit [Fintype ι] in
/-- The lookup of the key. -/
theorem sound_resolve (h : world.Sound platform requests)
    (hstage : (world.sessions i).stage = .resolving identity) :
    (world.put i { world.sessions i with
      stage := resolveKey world.tables identity }).Sound platform requests := by
  have hopen : (world.sessions i).stage.ended = false := by rw [hstage]; rfl
  have hconforms := h.conforms i
  simp only [EnqueueSession.Conforms, hstage] at hconforms
  obtain ⟨hnamed, first, hmet, ⟨row, hrow, horigin⟩, hwhy⟩ := hconforms
  have hpending : (world.sessions i).pending = none := pending_none h (by simp [hstage])
  refine sound_put h hopen (fun row hrow => ?_) ?_
  · rw [hpending] at hrow
    cases hrow
  rw [resolveKey]
  split
  next job hfound =>
    obtain ⟨hjob, hbound⟩ := byIdempotency?_some hfound
    have hsame : ∀ other ∈ (world.sessions i).met, other.BoundTo identity →
        other.origin = job.origin := by
      intro other hother hotherBound
      obtain rfl : first = other := Option.mem_unique hmet hother
      rw [← horigin, bound_unique h.unique hrow hjob ((origin_boundTo horigin).mpr hotherBound) hbound]
    split
    next hrequest =>
      simp only [EnqueueSession.Conforms]
      exact ⟨identity, hnamed, ⟨job, hjob, rfl⟩, hbound, hrequest, hsame⟩
    next hrequest =>
      simp only [EnqueueSession.Conforms]
      exact ⟨identity, hnamed, job, ⟨job, hjob, rfl⟩, hbound, hrequest, hsame⟩
  next hnone =>
    simp only [EnqueueSession.Conforms]
    have hunbound : ¬ first.BoundTo identity := by
      intro hbound
      exact byIdempotency?_none hnone hrow ((origin_boundTo horigin).mpr hbound)
    obtain ⟨hwork, hlive⟩ := hwhy.resolve_left hunbound
    exact ⟨hnamed, first, hmet, ⟨row, hrow, horigin⟩, hunbound, hwork, hlive⟩

omit [Fintype ι] in
/-- The lookup of the work. -/
theorem sound_lookUp (h : world.Sound platform requests)
    (hstage : (world.sessions i).stage = .lookingUp identity) :
    (world.put i { world.sessions i with
      stage := resolveWork world.tables identity }).Sound platform requests := by
  have hopen : (world.sessions i).stage.ended = false := by rw [hstage]; rfl
  have hconforms := h.conforms i
  simp only [EnqueueSession.Conforms, hstage] at hconforms
  obtain ⟨hnamed, first, hmet, ⟨row, hrow, horigin⟩, hunbound, hwork, hlive⟩ := hconforms
  have hpending : (world.sessions i).pending = none := pending_none h (by simp [hstage])
  refine sound_put h hopen (fun row hrow => ?_) ?_
  · rw [hpending] at hrow
    cases hrow
  rw [resolveWork]
  split
  next job hfound =>
    obtain ⟨hjob, htenant, hsame, hjobLive⟩ := byWork?_some hfound
    simp only [EnqueueSession.Conforms]
    refine ⟨identity, hnamed, ⟨job, hjob, rfl⟩, ⟨htenant, hsame⟩, hjobLive, fun other hother => ?_⟩
    obtain rfl : first = other := Option.mem_unique hmet hother
    exact hunbound
  next hnone =>
    simp only [EnqueueSession.Conforms]
    have hrowWork : row.DoesWorkOf identity := by
      have htenant : row.tenantId = first.tenantId := congrArg (fun origin => origin.key.1) horigin
      have hsame : row.workSha256 = first.workSha256 := congrArg Origin.workSha256 horigin
      exact ⟨htenant.trans hwork.1, hsame.trans hwork.2⟩
    exact fun _ => ⟨identity, hnamed, first, hmet, hunbound, hwork, hlive, row, hrow, horigin,
      byWork?_none hnone hrow hrowWork⟩

omit [DecidableEq ι] [Fintype ι] in
/-- The jobs with the row of a request that commits are still unique. -/
theorem unique_append (h : world.Sound platform requests) {row : JobRow}
    (hpending : (world.sessions i).pending = some row) :
    { world.tables with jobs := world.tables.jobs ++ [row] }.Unique := by
  obtain ⟨_, hstatus, _, hadmits⟩ := h.pending i row hpending
  have hlive : row.status.isLive = true := by rw [hstatus]; rfl
  exact h.unique.append hlive hadmits

omit [Fintype ι] in
/-- The commit of a new job. -/
theorem sound_commit_new (hids : Function.Injective fun i => (requests i).jobId)
    (h : world.Sound platform requests) {row : JobRow}
    (hstage : (world.sessions i).stage = .committing (.new row))
    (hpending : (world.sessions i).pending = some row) :
    (({ world with
      tables := { world.tables with jobs := world.tables.jobs ++ [row] } }).put i
      { world.sessions i with pending := none, stage := .done (.new row) }).Sound platform
        requests := by
  have hconforms := h.conforms i
  simp only [EnqueueSession.Conforms, hstage] at hconforms
  obtain ⟨_, hmet, identity, hnamed, hcreated⟩ := hconforms
  obtain ⟨_, hstatus, hid, _⟩ := h.pending i row hpending
  have hlasts : Lasts world.tables { world.tables with jobs := world.tables.jobs ++ [row] } :=
    Lasts.of_append rfl
  refine ⟨unique_append h hpending, ?_, ?_, ?_, ?_⟩
  · intro j other hother hotherId
    by_cases hji : j = i
    · subst hji
      exact ⟨row, by rw [put_self]⟩
    · rw [put_other _ _ hji]
      rcases List.mem_append.mp hother with hold | hlast
      · exact h.inserted j other hold hotherId
      · rw [List.mem_singleton.mp hlast, hid] at hotherId
        exact absurd (hids hotherId).symm hji
  · intro j other hother
    by_cases hji : j = i
    · subst hji
      rw [put_self] at hother
      cases hother
    · rw [put_other _ _ hji] at hother ⊢
      obtain ⟨hotherStage, hotherStatus, hotherId, hadmits⟩ := h.pending j other hother
      have hlive : other.status.isLive = true := by rw [hotherStatus]; rfl
      refine ⟨hotherStage, hotherStatus, hotherId, (admits_iff hlive).mpr fun job hjob => ?_⟩
      rcases List.mem_append.mp hjob with hold | hlast
      · exact (admits_iff hlive).mp hadmits job hold
      · rw [List.mem_singleton.mp hlast]
        exact h.apart i j row other (fun hsame => hji hsame.symm) hpending hother
  · intro j k a b hjk ha hb
    by_cases hji : j = i
    · subst hji
      rw [put_self] at ha
      cases ha
    · by_cases hki : k = i
      · subst hki
        rw [put_self] at hb
        cases hb
      · rw [put_other _ _ hji] at ha
        rw [put_other _ _ hki] at hb
        exact h.apart j k a b hjk ha hb
  · intro j
    by_cases hji : j = i
    · subst hji
      rw [put_self]
      simp only [EnqueueSession.Conforms]
      refine ⟨identity, hnamed, ⟨row, ?_, rfl⟩, hcreated, hmet⟩
      exact List.mem_append_right _ (List.mem_singleton.mpr rfl)
    · rw [put_other _ _ hji]
      exact conforms_lasts hlasts (h.conforms j)

omit [Fintype ι] in
/-- The commit of an answer. -/
theorem sound_commit (hids : Function.Injective fun i => (requests i).jobId)
    (h : world.Sound platform requests) {answer : EnqueueAnswer}
    (hstage : (world.sessions i).stage = .committing answer) :
    (({ world with
      tables := { world.tables with
        jobs := world.tables.jobs ++ (world.sessions i).pending.toList } }).put i
      { world.sessions i with pending := none, stage := .done answer }).Sound platform requests := by
  have hconforms := h.conforms i
  cases answer with
  | new row =>
      simp only [EnqueueSession.Conforms, hstage] at hconforms
      rw [hconforms.1]
      exact sound_commit_new hids h hstage hconforms.1
  | _ =>
      have hpending : (world.sessions i).pending = none := pending_none h (by simp [hstage])
      have hopen : (world.sessions i).stage.ended = false := by rw [hstage]; rfl
      rw [hpending, Option.toList_none, List.append_nil]
      refine sound_put h hopen (fun row hrow => nomatch hrow) ?_
      simp only [EnqueueSession.Conforms, hstage] at hconforms ⊢
      exact hconforms

/-- **Step lemma.** -/
theorem sound_step (hids : Function.Injective fun i => (requests i).jobId)
    (h : world.Sound platform requests) (event : EnqueueEvent ι) :
    (world.step platform requests event).Sound platform requests := by
  cases event with
  | call command => exact sound_call h command
  | fault i message =>
      rw [step]
      split
      · exact h
      next hopen => exact sound_fault h (by simpa using hopen) nofun
  | proceed i now =>
      have hconforms := h.conforms i
      rw [step, proceed]
      cases hstage : (world.sessions i).stage with
      | start =>
          have hopen : (world.sessions i).stage.ended = false := by rw [hstage]; rfl
          have hpending : (world.sessions i).pending = none := pending_none h (by simp [hstage])
          simp only [EnqueueSession.Conforms, hstage] at hconforms
          simp only
          split
          next identity hidentity =>
            refine sound_put h hopen (fun row hrow => ?_) ?_
            · rw [hpending] at hrow
              cases hrow
            · simp only [EnqueueSession.Conforms]
              exact ⟨hidentity, hconforms⟩
          next refusal hrefused => exact sound_fault h hopen (build_refusal _ _ _ hrefused)
      | checking identity =>
          have hopen : (world.sessions i).stage.ended = false := by rw [hstage]; rfl
          have hpending : (world.sessions i).pending = none := pending_none h (by simp [hstage])
          simp only [EnqueueSession.Conforms, hstage] at hconforms
          simp only
          split
          next hchecked =>
            refine sound_put h hopen (fun row hrow => ?_) ?_
            · rw [hpending] at hrow
              cases hrow
            · simp only [EnqueueSession.Conforms]
              exact hconforms
          next refusal hrefused => exact sound_fault h hopen (checkVersion_refusal _ _ _ hrefused)
      | inserting identity => exact sound_insert h hstage
      | resolving identity => exact sound_resolve h hstage
      | lookingUp identity => exact sound_lookUp h hstage
      | committing answer => exact sound_commit hids h hstage
      | done | failed => exact h

/-! ## The law holds -/

omit [DecidableEq ι] [Fintype ι] in
theorem lawful_of_sound (h : world.Sound platform requests) : world.Lawful platform requests where
  unique := h.unique
  inserted := h.inserted
  answers := by
    intro i answer hstage
    have hconforms := h.conforms i
    simp only [EnqueueSession.Conforms, hstage] at hconforms
    exact hconforms
  disappeared := by
    intro i hstage
    have hconforms := h.conforms i
    simp only [EnqueueSession.Conforms, hstage] at hconforms
    exact hconforms trivial

theorem Lasts.refl (tables : Tables) : Lasts tables tables := Lasts.of_evolves (Evolves.refl _)

/-- The step of one request adds a job or leaves the tables. -/
theorem proceed_tables (request : EnqueueRequest) (now : Time) :
    ∃ rows, (world.proceed platform request i now).tables =
      { world.tables with jobs := world.tables.jobs ++ rows } := by
  have hsame : world.tables = { world.tables with jobs := world.tables.jobs ++ [] } := by
    rw [List.append_nil]
  simp only [proceed]
  split
  · split <;> exact ⟨[], hsame⟩
  · split <;> exact ⟨[], hsame⟩
  · rw [insertJob]
    split
    · split <;> exact ⟨[], hsame⟩
    · exact ⟨[], hsame⟩
  · exact ⟨[], hsame⟩
  · exact ⟨[], hsame⟩
  · exact ⟨_, rfl⟩
  · exact ⟨[], hsame⟩
  · exact ⟨[], hsame⟩

theorem lasts_step (h : world.Sound platform requests) (event : EnqueueEvent ι) :
    Lasts world.tables (world.step platform requests event).tables := by
  cases event with
  | proceed i now =>
      obtain ⟨rows, htables⟩ : ∃ rows, (world.proceed platform (requests i) i now).tables =
        { world.tables with jobs := world.tables.jobs ++ rows } := proceed_tables _ _
      rw [step, htables]
      exact Lasts.of_append rfl
  | fault i message =>
      rw [step]
      split <;> exact Lasts.refl _
  | call command =>
      have hother : ∀ command : Command,
          (∀ input jobId now, command ≠ .enqueue input jobId now) →
          Lasts world.tables (settle world.tables (do
            let out ← Ingestion.call platform world.tables command
            pure out.1)) := by
        intro command hnot
        cases hcall : Ingestion.call platform world.tables command with
        | error refusal => exact Lasts.refl _
        | ok out => exact Lasts.of_evolves (evolves_effect h.unique (call_effect hcall) hnot)
      cases command with
      | enqueue => exact Lasts.refl _
      | catalogue document => exact hother (.catalogue document) nofun
      | registerVersion input => exact hother (.registerVersion input) nofun
      | beginInspection input objectId now => exact hother (.beginInspection input objectId now) nofun
      | completeInspection inspection outcome scanId now =>
          exact hother (.completeInspection inspection outcome scanId now) nofun
      | exhaustExpired tenantId skipped now =>
          exact hother (.exhaustExpired tenantId skipped now) nofun
      | claimNext input token skipped now => exact hother (.claimNext input token skipped now) nofun
      | heartbeat input now => exact hother (.heartbeat input now) nofun
      | complete input now => exact hother (.complete input now) nofun
      | fail input now => exact hother (.fail input now) nofun

omit [DecidableEq ι] [Fintype ι] in
theorem advances_of_stage {next : EnqueueWorld ι} {stage : EnqueueStage}
    (hother : ∀ identity, (world.sessions i).stage ≠ .inserting identity)
    (hnext : (next.sessions i).stage = stage)
    (hless : stage.remaining < (world.sessions i).stage.remaining)
    (hends : (world.sessions i).stage.reachedInsert = true → stage.ended = true →
      (∃ answer, stage = .done answer) ∨ stage = .failed claimDisappeared) :
    world.Advances next i where
  ends hreached hended := hnext ▸ hends hreached (hnext ▸ hended)
  meets identity hstage := absurd hstage (hother identity)
  nears _ := .inl (hnext ▸ hless)

/-- The row of a bound key is what the insert meets. -/
theorem advances_insert (h : world.Sound platform requests) {now : Time}
    (hstage : (world.sessions i).stage = .inserting identity) :
    world.Advances (world.insertJob i (world.sessions i) identity
      (identity.job (requests i).input.pipelineConfig (requests i).jobId now)) i := by
  rw [insertJob]
  split
  next hadmits =>
    have hunbound : ∀ other, (world.sessions i).stage = .inserting other →
        ¬ ∃ row ∈ world.tables.jobs, row.BoundTo other := by
      rintro other hother ⟨row, hrow, hbound⟩
      obtain rfl : identity = other := EnqueueStage.inserting.inj (hstage.symm.trans hother)
      exact (hadmits row hrow).2.1 hbound
    split
    next hwait =>
      refine ⟨fun _ hended => ?_, fun other hother hbound => absurd hbound (hunbound other hother),
        fun _ => .inr ?_⟩
      · rw [hstage] at hended
        cases hended
      · obtain ⟨j, hj, row, hrow, _⟩ := hwait
        exact ⟨j, hj, row, (h.pending j row hrow).1⟩
    next hfree =>
      refine ⟨fun _ hended => ?_, fun other hother hbound => absurd hbound (hunbound other hother),
        fun _ => .inl ?_⟩
      · rw [put_self] at hended
        cases hended
      · rw [put_self, hstage]
        simp [EnqueueStage.remaining]
  next hconflict =>
    refine ⟨fun _ hended => ?_, fun other hother hbound => ?_, fun _ => .inl ?_⟩
    · rw [put_self] at hended
      cases hended
    · obtain rfl : identity = other := EnqueueStage.inserting.inj (hstage.symm.trans hother)
      obtain ⟨row, hrow, hrowBound⟩ := hbound
      obtain ⟨found, hfound⟩ := byIdempotency?_of_bound hrow hrowBound
      obtain ⟨hmem, hfoundBound⟩ := byIdempotency?_some hfound
      refine ⟨found, hmem, hfoundBound, ?_⟩
      rw [put_self, hfound]
      rfl
    · rw [put_self, hstage]
      simp [EnqueueStage.remaining]

theorem advances_proceed (h : world.Sound platform requests) (now : Time) :
    world.Advances (world.proceed platform (requests i) i now) i := by
  rw [proceed]
  cases hstage : (world.sessions i).stage with
  | inserting identity => exact advances_insert h hstage
  | start =>
      simp only
      split
      all_goals
        refine advances_of_stage (by simp [hstage]) (by rw [put_self]) ?_ (by simp [hstage,
          EnqueueStage.reachedInsert])
        rw [hstage]
        simp [EnqueueStage.remaining, EnqueueSession.refuse]
  | checking identity =>
      simp only
      split
      all_goals
        refine advances_of_stage (by simp [hstage]) (by rw [put_self]) ?_ (by simp [hstage,
          EnqueueStage.reachedInsert])
        rw [hstage]
        simp [EnqueueStage.remaining, EnqueueSession.refuse]
  | resolving identity =>
      refine advances_of_stage (by simp [hstage]) (by rw [put_self]) ?_ ?_
      · rw [hstage, resolveKey]
        split
        · split <;> simp [EnqueueStage.remaining]
        · simp [EnqueueStage.remaining]
      · rw [resolveKey]
        split
        · split <;> exact fun _ => nofun
        · exact fun _ => nofun
  | lookingUp identity =>
      refine advances_of_stage (by simp [hstage]) (by rw [put_self]) ?_ ?_
      · rw [hstage, resolveWork]
        split <;> simp [EnqueueStage.remaining]
      · rw [resolveWork]
        split
        · exact fun _ => nofun
        · exact fun _ _ => .inr rfl
  | committing answer =>
      refine advances_of_stage (by simp [hstage]) (by rw [put_self]) ?_ ?_
      · rw [hstage]
        simp [EnqueueStage.remaining]
      · exact fun _ _ => .inl ⟨answer, rfl⟩
  | done | failed =>
      refine ⟨fun hreached => ?_, fun other hother => ?_, fun hopen => ?_⟩
      · rw [hstage] at hreached
        cases hreached
      · rw [hstage] at hother
        cases hother
      · rw [hstage] at hopen
        cases hopen

theorem stepsLawfully (h : world.Sound platform requests) (event : EnqueueEvent ι) :
    world.StepsLawfully platform requests event := by
  refine ⟨(lasts_step h event).keeps, ?_⟩
  cases event with
  | proceed i now => exact advances_proceed h now
  | fault | call => trivial

/-- **Enqueue law.**  In every interleaving of the statements of any requests,
of failing statements and of the other calls of the runtime, the answers are
true and no statement unbinds a key.  The identifiers drawn are fresh. -/
theorem enqueues_lawful (platform : Platform) (requests : ι → EnqueueRequest) (tables : Tables)
    (hunique : tables.Unique) (hids : Function.Injective fun i => (requests i).jobId)
    (hfresh : ∀ i, ∀ row ∈ tables.jobs, row.id ≠ (requests i).jobId)
    (events : List (EnqueueEvent ι)) :
    Throughout (step platform requests) (Lawful platform requests) (opening ι tables) events ∧
      EachStep (step platform requests) (StepsLawfully platform requests) (opening ι tables)
        events := by
  have hopening : (opening ι tables).Sound platform requests := by
    refine ⟨hunique, fun i row hrow hid => absurd hid (hfresh i row hrow), ?_, ?_, fun i => rfl⟩
    · exact fun i row hrow => nomatch hrow
    · exact fun i j a b hij ha => nomatch ha
  have hkeep : ∀ (world : EnqueueWorld ι) event, world.Sound platform requests →
      (world.step platform requests event).Sound platform requests :=
    fun _ event h => sound_step hids h event
  exact laws_of_invariant hkeep (fun _ h => lawful_of_sound h)
    (fun _ event h => stepsLawfully h event) hopening events

/-- Two requests for one work, the second of which waits for the first. -/
def sampleRequests (second : Bool) : EnqueueRequest where
  input := sampleEnqueue "1.0.0" (if second then "clave-bbbb" else "clave-aaaa")
  jobId := sampleId (if second then 8 else 7)

def sampleInterleaving : List (EnqueueEvent Bool) :=
  List.replicate 3 (.proceed false 5000) ++ List.replicate 3 (.proceed true 5001) ++
    [.proceed false 5002] ++ List.replicate 4 (.proceed true 5003)

theorem enqueues_lawful_sample :
    let tables := { Tables.empty with
      documents := [sampleDocument], versions := [sampleVersion.row] }
    let world := run (step samplePlatform sampleRequests) (opening Bool tables) sampleInterleaving
    (Throughout (step samplePlatform sampleRequests) (Lawful samplePlatform sampleRequests)
        (opening Bool tables) sampleInterleaving ∧
      EachStep (step samplePlatform sampleRequests) (StepsLawfully samplePlatform sampleRequests)
        (opening Bool tables) sampleInterleaving) ∧
      ∃ job ∈ world.tables.jobs, (world.sessions false).stage = .done (.new job) ∧
        (world.sessions true).stage = .done (.duplicateWork job) := by
  refine ⟨enqueues_lawful samplePlatform sampleRequests _ ?_ ?_ ?_ sampleInterleaving, ?_⟩
  · exact List.Pairwise.nil
  · decide
  · exact fun i row hrow => nomatch hrow
  · decide +kernel

/-! ## A request alone -/

section Alone

variable (requests) (world) (i) (now : Time)

/-- `n` steps of one request, all at one instant. -/
def alone (platform : Platform) (n : Nat) : EnqueueWorld ι :=
  run (step platform requests) world (List.replicate n (.proceed i now))

end Alone

variable {now : Time}

theorem alone_succ (n : Nat) : world.alone requests i now platform (n + 1) =
    (world.proceed platform (requests i) i now).alone requests i now platform n := rfl

/-- A request that has ended stays as it is. -/
theorem alone_ended (hended : (world.sessions i).stage.ended = true) (n : Nat) :
    world.alone requests i now platform n = world := by
  have hstay : world.proceed platform (requests i) i now = world := by
    rw [proceed]
    cases hstage : (world.sessions i).stage with
    | done | failed => rfl
    | _ => simp [hstage, EnqueueStage.ended] at hended
  induction n with
  | zero => rfl
  | succ n ih => rw [alone_succ, hstay, ih]

/-- What a world is worth to the caller of one request: the tables, and the
answer or the refusal. -/
def outcome? (world : EnqueueWorld ι) (i : ι) : Option (Tables × Except Refusal EnqueueAnswer) :=
  match (world.sessions i).stage with
  | .done answer => some (world.tables, .ok answer)
  | .failed refusal => some (world.tables, .error refusal)
  | _ => none

theorem outcome_failed {session : EnqueueSession} {refusal : Refusal}
    (hstage : session.stage = .failed refusal) (n : Nat) :
    ((world.put i session).alone requests i now platform n).outcome? i =
      some (world.tables, .error refusal) := by
  rw [alone_ended (by rw [put_self, hstage]; rfl), outcome?, put_self, hstage]
  rfl

theorem outcome_committing {answer : EnqueueAnswer}
    (hstage : (world.sessions i).stage = .committing answer) (n : Nat) :
    (world.alone requests i now platform (n + 1)).outcome? i =
      some ({ world.tables with
        jobs := world.tables.jobs ++ (world.sessions i).pending.toList }, .ok answer) := by
  rw [alone_succ, proceed]
  simp only [hstage]
  rw [alone_ended (by rw [put_self]; rfl), outcome?, put_self]
  rfl

/-- From the lookups on a request answers what `resolveConflict` answers. -/
theorem outcome_resolving (hstage : (world.sessions i).stage = .resolving identity)
    (hpending : (world.sessions i).pending = none) :
    (world.alone requests i now platform 3).outcome? i =
      some (world.tables, world.tables.resolveConflict identity) := by
  have hsame : { world.tables with jobs := world.tables.jobs ++ [] } = world.tables := by
    rw [List.append_nil]
  rw [alone_succ, proceed]
  simp only [hstage, resolveKey, Tables.resolveConflict]
  cases hkey : world.tables.byIdempotency? identity with
  | some job =>
      by_cases hrequest : job.requestSha256 = identity.requestSha256
      · simp only [if_pos hrequest]
        rw [outcome_committing (by rw [put_self])]
        simp only [put_self, hpending, Option.toList_none]
        exact congrArg (fun tables => some (tables, _)) hsame
      · simp only [if_neg hrequest]
        rw [outcome_committing (by rw [put_self])]
        simp only [put_self, hpending, Option.toList_none]
        exact congrArg (fun tables => some (tables, _)) hsame
  | none =>
      rw [alone_succ, proceed]
      simp only [put_self]
      have htables : ∀ session, (world.put i session).tables = world.tables := fun _ => rfl
      rw [htables, resolveWork]
      cases hwork : world.tables.byWork? identity with
      | some job =>
          rw [outcome_committing (by rw [put_self])]
          simp only [put_self, hpending, Option.toList_none]
          exact congrArg (fun tables => some (tables, _)) hsame
      | none => exact outcome_failed rfl 1

theorem enqueue_eq (platform : Platform) (tables : Tables) (input : EnqueueInput) (jobId : Uuid)
    (now : Time) :
    enqueue platform tables input jobId now =
      buildIngestionJobIdentity platform input >>= fun identity =>
        checkVersion tables identity >>= fun _ =>
          tables.admitOrResolve identity (identity.job input.pipelineConfig jobId now) := by
  simp only [enqueue, checkVersion, bind_assoc]

/-- What the caller of the one transaction gets. -/
def settled (tables : Tables) :
    Except Refusal (Tables × EnqueueAnswer) → Tables × Except Refusal EnqueueAnswer
  | .ok (tables, answer) => (tables, .ok answer)
  | .error refusal => (tables, .error refusal)

/-- **A request alone is one transaction**: its statements, with none of another
request between them, leave and answer what `enqueue` does. -/
theorem enqueue_alone (world : EnqueueWorld ι) (i : ι) (now : Time)
    (hstage : world.sessions i = .opening)
    (hothers : ∀ j, j ≠ i → (world.sessions j).pending = none) :
    (world.alone requests i now platform 6).outcome? i =
      some (settled world.tables
        (enqueue platform world.tables (requests i).input (requests i).jobId now)) := by
  have htables : ∀ session, (world.put i session).tables = world.tables := fun _ => rfl
  have htwice : ∀ first second, (world.put i first).put i second = world.put i second := by
    intro first second
    simp [put]
  rw [enqueue_eq, alone_succ, proceed, hstage]
  simp only [EnqueueSession.opening]
  cases hidentity : buildIngestionJobIdentity platform (requests i).input with
  | error refusal => exact outcome_failed rfl 5
  | ok identity =>
      simp only
      rw [alone_succ, proceed]
      simp only [put_self, htables, htwice]
      have hrest : ∀ rest : JobIdentity → Except Refusal (Tables × EnqueueAnswer),
          (Except.ok identity >>= rest) = rest identity := fun _ => rfl
      rw [hrest]
      cases hchecked : checkVersion world.tables identity with
      | error refusal => exact outcome_failed rfl 4
      | ok done =>
          have hlast : ∀ rest : Unit → Except Refusal (Tables × EnqueueAnswer),
              (Except.ok done >>= rest) = rest done := fun _ => rfl
          rw [hlast]
          simp only
          rw [alone_succ, proceed]
          simp only [put_self, insertJob, htables, htwice, Tables.admitOrResolve]
          by_cases hadmits : world.tables.admits
              (identity.job (requests i).input.pipelineConfig (requests i).jobId now)
          · have hfree : ¬ (world.put i
                { stage := .inserting identity, pending := none, met := none }).Awaits i
                (identity.job (requests i).input.pipelineConfig (requests i).jobId now) := by
              rintro ⟨j, hj, row, hrow, _⟩
              rw [put_other _ _ hj, hothers j hj] at hrow
              cases hrow
            rw [if_pos hadmits, if_neg hfree, if_pos hadmits, outcome_committing (by rw [put_self])]
            simp only [put_self, htables]
            rfl
          · rw [if_neg hadmits, if_neg hadmits, outcome_resolving (by rw [put_self]) (by rw [put_self])]
            simp only [htables]
            cases world.tables.resolveConflict identity <;> rfl

end EnqueueWorld

end Ingestion
