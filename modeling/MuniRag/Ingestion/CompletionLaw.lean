import MuniRag.Ingestion.Completing

/-!
# Vectors are published all or nothing

In every committed state the vectors of a version are none, or exactly the
records of the last completion of one of its jobs.  The version row that a
completion has locked keeps every other completion away from the vectors of
its version, and a chunk of another version is a conflict that ends it.
-/

namespace Ingestion

open Results Table Runs

/-! ## The law -/

/-- The vectors of the records that a completion was given. -/
def Completion.rows (completion : Completion) : List VectorRow :=
  completion.records.map fun record => completion.job.vector record.columns

/-- What the last completion of a version has published. -/
def lastPublished (version : Key) (history : List Completion) : List VectorRow :=
  match history.find? (·.job.version = version) with
  | some completion => completion.rows
  | none => []

/-- **What the counts of an answer say** about the vectors before it. -/
structure CompleteAnswer.Reports (answer : CompleteAnswer) (before : List VectorRow)
    (records : List VectorRecord) : Prop where
  written : answer.vectors.insertedCount + answer.vectors.updatedCount +
    answer.vectors.unchangedCount = records.length
  deleted : answer.vectors.deletedCount =
    ((published before answer.job.version).filter fun row =>
      row.values.chunkId ∉ records.map (·.chunkId)).length

variable {ι : Type} [DecidableEq ι] [Fintype ι] (platform : Platform)
variable (requests : ι → CompleteInput)

namespace CompleteWorld

/-- **All or nothing**: every version has the vectors of its last completion. -/
def AllOrNothing (world : CompleteWorld ι) : Prop :=
  ∀ version, published world.tables.vectors version = lastPublished version world.history

/-- A step that commits nothing. -/
def CommitsNothing (world next : CompleteWorld ι) : Prop :=
  next.tables = world.tables ∧ next.history = world.history

/-- The step in which a completion returns an answer. -/
structure Completes (world next : CompleteWorld ι) (input : CompleteInput)
    (answer : CompleteAnswer) : Prop where
  job : answer.job.key = (input.tenantId, input.jobId)
  history : next.history =
    { job := answer.job, records := input.records, vectors := answer.vectors } :: world.history
  others : ∀ version, version ≠ answer.job.version →
    published next.tables.vectors version = published world.tables.vectors version
  reports : answer.Reports world.tables.vectors input.records

/-- The law of a statement of a completion: one that returns commits everything,
and one that does not return commits nothing. -/
def ProceedsLawfully (world next : CompleteWorld ι) (i : ι) (input : CompleteInput) : Prop :=
  (world.CommitsNothing next ∧ ((world.sessions i).stage.ended = false →
    ∀ answer, (next.sessions i).stage ≠ .done answer)) ∨
  ∃ answer, (next.sessions i).stage = .done answer ∧ world.Completes next input answer

/-- The law of a step; no call but a completion writes vectors. -/
def StepsLawfully (world : CompleteWorld ι) (event : CompleteEvent ι) : Prop :=
  let next := world.step platform requests event
  match event with
  | .proceed i _ => world.ProceedsLawfully next i (requests i)
  | .fault .. => world.CommitsNothing next
  | .call _ => next.tables.vectors = world.tables.vectors ∧ next.history = world.history

end CompleteWorld

/-! ## What holds on the way -/

/-- The row of the leased job stays locked. -/
structure Leased (input : CompleteInput) (tables : Tables) (job : JobRow) : Prop where
  mem : job ∈ tables.jobs
  processing : job.status = .processing
  key : job.key = (input.tenantId, input.jobId)

/-- A replacement on its way: the transaction has written exactly the values
handled so far, over no chunk of another version. -/
structure Replacing (input : CompleteInput) (tables : Tables) (delta : VectorDelta) (job : JobRow)
    (handled rest : List VectorValues) (result : ReplaceResult) : Prop where
  leased : Leased input tables job
  values : handled ++ rest = input.records.map (·.columns)
  distinct : ((handled ++ rest).map (·.chunkId)).Nodup
  written : delta.written = handled.map job.vector
  deleted : delta.deleted = []
  own : ∀ row ∈ tables.vectors, row.key ∈ delta.written.map (·.key) → row.version = job.version
  counted : result.insertedCount + result.updatedCount + result.unchangedCount = handled.length

/-- A replacement with its stale vectors deleted. -/
structure Replaced (input : CompleteInput) (tables : Tables) (delta : VectorDelta) (job : JobRow)
    (result : ReplaceResult) : Prop where
  leased : Leased input tables job
  distinct : ((input.records.map (·.columns)).map (·.chunkId)).Nodup
  written : delta.written = (input.records.map (·.columns)).map job.vector
  deleted : delta.deleted = (published tables.vectors job.version).filter fun row =>
    row.key ∉ delta.written.map (·.key)
  own : ∀ row ∈ tables.vectors, row.key ∈ delta.written.map (·.key) → row.version = job.version
  counted : result.insertedCount + result.updatedCount + result.unchangedCount =
    input.records.length
  deletedCount : result.deletedCount = delta.deleted.length

/-- A vector of the version has the chunk. -/
def HasChunk (tables : Tables) (job : JobRow) (chunkId : JsString) : Prop :=
  ∃ row ∈ tables.vectors, row.key = (job.tenantId, chunkId) ∧ row.version = job.version

/-- What holds of a completion at each of its stages. -/
def CompleteSession.Conforms (input : CompleteInput) (tables : Tables)
    (session : CompleteSession) : Prop :=
  match session.stage with
  | .start | .done _ | .failed _ => session.delta = .empty
  | .lockingVersion job | .lockingAcceptance job _ =>
      Leased input tables job ∧ session.delta = .empty
  | .selecting job rest result =>
      ∃ handled, Replacing input tables session.delta job handled rest result
  | .upserting job rest result existingIds =>
      (∃ handled, Replacing input tables session.delta job handled rest result) ∧
        ∀ chunkId ∈ existingIds, HasChunk tables job chunkId
  | .deletingStale job result =>
      ∃ handled, Replacing input tables session.delta job handled [] result
  | .completing job result => Replaced input tables session.delta job result
  | .updatingVersion job answer | .committing job answer _ =>
      Replaced input tables session.delta job answer.vectors ∧
        ∃ completedAt, answer.job = job.complete completedAt

/-- What holds of the committed tables. -/
structure Tables.Coherent (tables : Tables) : Prop where
  unique : tables.Unique
  keys : (tables.vectors.map (·.key)).Nodup
  processed : ∀ row ∈ tables.vectors, ∃ job ∈ tables.jobs, job.id = row.ingestionJobId ∧
    job.status = .processed

/-- **Invariant of the runs.** -/
structure CompleteWorld.Sound (world : CompleteWorld ι) : Prop where
  coherent : world.tables.Coherent
  published : world.AllOrNothing
  conforms : ∀ i, (world.sessions i).Conforms (requests i) world.tables
  jobsApart : ∀ i j a b, i ≠ j → (world.sessions i).stage.lockedJob = some a →
    (world.sessions j).stage.lockedJob = some b → a.key ≠ b.key
  versionsApart : ∀ i j a b, i ≠ j → (world.sessions i).stage.lockedVersion = some a →
    (world.sessions j).stage.lockedVersion = some b → a.version ≠ b.version
  keysApart : ∀ i j, i ≠ j → ∀ row ∈ (world.sessions i).delta.written,
    row.key ∉ (world.sessions j).delta.written.map (·.key)

variable {platform requests} {tables tables' : Tables} {job : JobRow} {input : CompleteInput}
variable {delta : VectorDelta} {handled rest : List VectorValues} {result : ReplaceResult}
variable {session : CompleteSession} {world : CompleteWorld ι} {i : ι}

/-! ## What others leave -/

/-- What another transaction leaves to a completion: its job, the vectors of
its version, and no new vector with a chunk it has written. -/
structure LeavesTo (session : CompleteSession) (tables tables' : Tables) : Prop where
  job : ∀ job, session.stage.lockedJob = some job → job ∈ tables.jobs → job ∈ tables'.jobs
  version : ∀ job, session.stage.lockedVersion = some job →
    published tables'.vectors job.version = published tables.vectors job.version
  chunks : ∀ row ∈ tables'.vectors, row ∈ tables.vectors ∨
    row.key ∉ session.delta.written.map (·.key)

theorem Leased.frame (h : Leased input tables job) (hjob : job ∈ tables.jobs → job ∈ tables'.jobs) :
    Leased input tables' job :=
  ⟨hjob h.mem, h.processing, h.key⟩

theorem own_frame (hframe : LeavesTo session tables tables')
    (hown : ∀ row ∈ tables.vectors, row.key ∈ session.delta.written.map (·.key) →
      row.version = job.version) :
    ∀ row ∈ tables'.vectors, row.key ∈ session.delta.written.map (·.key) →
      row.version = job.version := by
  intro row hrow hkey
  rcases hframe.chunks row hrow with hold | hnew
  · exact hown row hold hkey
  · exact absurd hkey hnew

theorem Replacing.frame (h : Replacing input tables session.delta job handled rest result)
    (hlocked : session.stage.lockedJob = some job) (hframe : LeavesTo session tables tables') :
    Replacing input tables' session.delta job handled rest result :=
  { h with
    leased := h.leased.frame (hframe.job job hlocked)
    own := own_frame hframe h.own }

theorem Replaced.frame (h : Replaced input tables session.delta job result)
    (hlocked : session.stage.lockedVersion = some job)
    (hjob : session.stage.lockedJob = some job) (hframe : LeavesTo session tables tables') :
    Replaced input tables' session.delta job result :=
  { h with
    leased := h.leased.frame (hframe.job job hjob)
    deleted := by
      rw [hframe.version job hlocked]
      exact h.deleted
    own := own_frame hframe h.own }

theorem HasChunk.frame {chunkId : JsString} (h : HasChunk tables job chunkId)
    (hsame : published tables'.vectors job.version = published tables.vectors job.version) :
    HasChunk tables' job chunkId := by
  obtain ⟨row, hrow, hkey, hversion⟩ := h
  have hmem : row ∈ published tables'.vectors job.version := by
    rw [hsame]
    exact mem_published.mpr ⟨hrow, hversion⟩
  exact ⟨row, (mem_published.mp hmem).1, hkey, hversion⟩

/-- **Frame.**  A completion stays on its course when others leave it what it
has locked. -/
theorem conforms_frame (h : session.Conforms input tables)
    (hframe : LeavesTo session tables tables') : session.Conforms input tables' := by
  cases hstage : session.stage with
  | start | done | failed =>
      simp only [CompleteSession.Conforms, hstage] at h ⊢
      exact h
  | lockingVersion | lockingAcceptance =>
      simp only [CompleteSession.Conforms, hstage] at h ⊢
      exact ⟨h.1.frame (hframe.job _ (by rw [hstage]; rfl)), h.2⟩
  | selecting | deletingStale =>
      simp only [CompleteSession.Conforms, hstage] at h ⊢
      obtain ⟨handled, hreplacing⟩ := h
      exact ⟨handled, hreplacing.frame (by rw [hstage]; rfl) hframe⟩
  | upserting =>
      simp only [CompleteSession.Conforms, hstage] at h ⊢
      obtain ⟨⟨handled, hreplacing⟩, hexisting⟩ := h
      refine ⟨⟨handled, hreplacing.frame (by rw [hstage]; rfl) hframe⟩, fun chunkId hchunk => ?_⟩
      exact (hexisting chunkId hchunk).frame (hframe.version _ (by rw [hstage]; rfl))
  | completing =>
      simp only [CompleteSession.Conforms, hstage] at h ⊢
      exact h.frame (by rw [hstage]; rfl) (by rw [hstage]; rfl) hframe
  | updatingVersion | committing =>
      simp only [CompleteSession.Conforms, hstage] at h ⊢
      exact ⟨h.1.frame (by rw [hstage]; rfl) (by rw [hstage]; rfl) hframe, h.2⟩

/-! ## A batch -/

theorem prepareVectors_ok {scope : VectorScope} {identity : DocumentIdentity}
    {records : List VectorRecord} {chunkIds : List JsString} {values : List VectorValues}
    (h : prepareVectors scope identity chunkIds records = .ok values) :
    values = records.map (·.columns) ∧ (∀ record ∈ records, record.chunkId ∉ chunkIds) ∧
      (records.map (·.chunkId)).Nodup := by
  induction records generalizing chunkIds values with
  | nil =>
      obtain rfl := return_ok.mp h
      refine ⟨rfl, by simp, List.nodup_nil⟩
  | cons record records ih =>
      simp only [prepareVectors, valuesFor, then_ok, require_ok, return_ok] at h
      obtain ⟨_, _, _, hfresh, _, ⟨_, _, _, _, _, _, _, _, _, _, _, _, _, _, rfl⟩, rest, hrest, rfl⟩ := h
      obtain ⟨rfl, hothers, hnodup⟩ := ih hrest
      refine ⟨rfl, ?_, ?_⟩
      · refine List.forall_mem_cons.mpr ⟨hfresh, fun other hother hmem => ?_⟩
        exact hothers other hother (List.mem_cons_of_mem _ hmem)
      · refine List.nodup_cons.mpr ⟨fun hmem => ?_, hnodup⟩
        obtain ⟨other, hother, hsame⟩ := List.mem_map.mp hmem
        exact hothers other hother (hsame ▸ List.mem_cons_self)

theorem prepareReplacement_ok {identity : DocumentIdentity} {records : List VectorRecord}
    {values : List VectorValues} (h : prepareReplacement job identity records = .ok values) :
    values = records.map (·.columns) ∧ (values.map (·.chunkId)).Nodup := by
  simp only [prepareReplacement, then_ok, require_ok] at h
  obtain ⟨_, _, _, _, _, _, _, _, hvalues⟩ := h
  obtain ⟨rfl, -, hnodup⟩ := prepareVectors_ok hvalues
  exact ⟨rfl, by simpa [VectorRecord.columns, Function.comp_def] using hnodup⟩

/-- Every chunk of a batch is counted once, and none is left out. -/
theorem countBatch_ok {existingIds writtenIds chunkIds : List JsString} {out : ReplaceResult}
    (h : countBatch existingIds writtenIds chunkIds result = .ok out) :
    out.insertedCount + out.updatedCount + out.unchangedCount =
        result.insertedCount + result.updatedCount + result.unchangedCount + chunkIds.length ∧
      ∀ chunkId ∈ chunkIds, chunkId ∈ writtenIds ∨ chunkId ∈ existingIds := by
  induction chunkIds generalizing result with
  | nil =>
      obtain rfl := return_ok.mp h
      exact ⟨rfl, fun _ hchunk => nomatch hchunk⟩
  | cons chunkId chunkIds ih =>
      rw [countBatch] at h
      split_ifs at h with hwritten hexisting hexisting
      · obtain ⟨hcount, hall⟩ := ih h
        simp only at hcount
        refine ⟨?_, List.forall_mem_cons.mpr ⟨.inl hwritten, hall⟩⟩
        rw [hcount, List.length_cons]
        omega
      · obtain ⟨hcount, hall⟩ := ih h
        simp only at hcount
        refine ⟨?_, List.forall_mem_cons.mpr ⟨.inl hwritten, hall⟩⟩
        rw [hcount, List.length_cons]
        omega
      · obtain ⟨hcount, hall⟩ := ih h
        simp only at hcount
        refine ⟨?_, List.forall_mem_cons.mpr ⟨.inr hexisting, hall⟩⟩
        rw [hcount, List.length_cons]
        omega

theorem vector_key (job : JobRow) (values : VectorValues) :
    (job.vector values).key = (job.tenantId, values.chunkId) := rfl

theorem vector_version (job : JobRow) (values : VectorValues) :
    (job.vector values).version = job.version := rfl

/-- A committed vector is not of a job that is still processed. -/
theorem Tables.Coherent.other_job (h : tables.Coherent) (hleased : Leased input tables job)
    {row : VectorRow} (hrow : row ∈ tables.vectors) : row.ingestionJobId ≠ job.id := by
  intro hsame
  obtain ⟨owner, howner, hid, hprocessed⟩ := h.processed row hrow
  obtain rfl : owner = job :=
    List.inj_on_of_nodup_map h.unique.ids howner hleased.mem (hid.trans hsame)
  rw [hleased.processing] at hprocessed
  cases hprocessed

theorem Tables.Coherent.eq_of_key (h : tables.Coherent) {a b : VectorRow} (ha : a ∈ tables.vectors)
    (hb : b ∈ tables.vectors) (hkey : a.key = b.key) : a = b :=
  List.inj_on_of_nodup_map h.keys ha hb hkey

/-- The chunk of a value that is still to be written. -/
theorem Replacing.rest_key (h : Replacing input tables delta job handled rest result)
    {value : VectorValues} (hvalue : value ∈ rest) : (job.vector value).key ∉ delta.keys := by
  intro hmem
  rw [VectorDelta.keys, h.deleted, List.append_nil, h.written, List.map_map] at hmem
  obtain ⟨other, hother, hsame⟩ := List.mem_map.mp hmem
  have hdistinct := h.distinct
  rw [List.map_append, List.nodup_append] at hdistinct
  exact hdistinct.2.2 other.chunkId (List.mem_map_of_mem hother) value.chunkId
    (List.mem_map_of_mem hvalue) (congrArg Prod.snd hsame)

/-- A committed vector with such a chunk is one that the transaction sees. -/
theorem Replacing.mem_apply (h : Replacing input tables delta job handled rest result)
    {value : VectorValues} (hvalue : value ∈ rest) {row : VectorRow} (hrow : row ∈ tables.vectors)
    (hkey : row.key = (job.vector value).key) : row ∈ delta.apply tables.vectors := by
  refine List.mem_append_left _ (List.mem_filter.mpr ⟨hrow, ?_⟩)
  rw [decide_eq_true_eq, hkey]
  exact h.rest_key hvalue

/-- The upsert writes the chunk that the conflict lookup has found: its vector
is of another job. -/
theorem Replacing.upserts (h : Replacing input tables delta job handled rest result)
    (hcoherent : tables.Coherent) {value : VectorValues} (hvalue : value ∈ rest)
    (hchunk : HasChunk tables job value.chunkId) :
    (job.vector value).upserts (delta.apply tables.vectors) := by
  obtain ⟨row, hrow, hkey, hversion⟩ := hchunk
  intro old hold hsame
  rcases List.mem_append.mp hold with hcommitted | hwritten
  · obtain ⟨hmem, -⟩ := List.mem_filter.mp hcommitted
    obtain rfl : old = row := hcoherent.eq_of_key hmem hrow (hsame.trans hkey.symm)
    refine ⟨congrArg Prod.snd hversion, fun heq => ?_⟩
    exact hcoherent.other_job h.leased hmem (congrArg VectorRow.ingestionJobId heq)
  · refine absurd ?_ (h.rest_key hvalue)
    rw [← hsame]
    exact List.mem_map_of_mem (List.mem_append_left _ hwritten)

/-- The conflict lookup finds committed vectors of the version. -/
theorem Replacing.existing {batch : List VectorValues} {existingIds : List JsString}
    (h : Replacing input tables delta job handled rest result)
    (hbatch : ∀ value ∈ batch, value ∈ rest)
    (hchecked : checkExisting job (existingBatch (delta.apply tables.vectors) job batch) =
      .ok existingIds) : ∀ chunkId ∈ existingIds, HasChunk tables job chunkId := by
  simp only [checkExisting, then_ok, require_ok, return_ok] at hchecked
  obtain ⟨_, hversions, rfl⟩ := hchecked
  intro chunkId hchunk
  obtain ⟨row, hrow, rfl⟩ := List.mem_map.mp hchunk
  have hversion := hversions row hrow
  obtain ⟨hseen, hmatches⟩ := List.mem_filter.mp hrow
  obtain ⟨htenant, hmem⟩ := of_decide_eq_true hmatches
  obtain ⟨value, hvalue, hsame⟩ := List.mem_map.mp hmem
  rcases List.mem_append.mp hseen with hcommitted | hwritten
  · exact ⟨row, (List.mem_filter.mp hcommitted).1, Prod.ext htenant rfl, Prod.ext htenant hversion⟩
  · refine absurd ?_ (h.rest_key (hbatch value hvalue))
    have hkey : (job.vector value).key = row.key := Prod.ext htenant.symm hsame
    rw [hkey]
    exact List.mem_map_of_mem (List.mem_append_left _ hwritten)

/-- **A batch.**  The upsert of a batch that is counted has written all of its
rows. -/
theorem Replacing.batch (h : Replacing input tables delta job handled rest result)
    (hcoherent : tables.Coherent) {existingIds : List JsString} {out : ReplaceResult} {n : Nat}
    (hexisting : ∀ chunkId ∈ existingIds, HasChunk tables job chunkId)
    {batch written : List VectorRow} (hbatch : batch = (rest.take n).map job.vector)
    (hwritten : written = batch.filter (VectorRow.upserts (delta.apply tables.vectors)))
    (hcount : countBatch existingIds (written.map (·.values.chunkId)) (batch.map (·.values.chunkId))
      result = .ok out) :
    written = batch ∧ Replacing input tables { delta with written := delta.written ++ written } job
      (handled ++ rest.take n) (rest.drop n) out := by
  obtain ⟨hcounted, hall⟩ := countBatch_ok hcount
  have hrest : ∀ value ∈ rest.take n, value ∈ rest := fun value hvalue => List.mem_of_mem_take hvalue
  have hupserts : ∀ row ∈ batch, row.upserts (delta.apply tables.vectors) := by
    intro row hrow
    obtain ⟨value, hvalue, rfl⟩ := List.mem_map.mp (hbatch ▸ hrow)
    rcases hall value.chunkId (List.mem_map_of_mem (f := (·.values.chunkId)) hrow) with hmem | hmem
    · obtain ⟨other, hother, hchunk⟩ := List.mem_map.mp hmem
      rw [hwritten, List.mem_filter, decide_eq_true_eq] at hother
      obtain ⟨hother, hupserts⟩ := hother
      obtain ⟨value', -, rfl⟩ := List.mem_map.mp (hbatch ▸ hother)
      have hkey : (job.vector value').key = (job.vector value).key := Prod.ext rfl hchunk
      intro old hold hsame
      obtain ⟨hversion, -⟩ := hupserts old hold (hsame.trans hkey.symm)
      refine ⟨hversion, fun heq => ?_⟩
      rcases List.mem_append.mp hold with hcommitted | hown
      · exact hcoherent.other_job h.leased (List.mem_filter.mp hcommitted).1
          (congrArg VectorRow.ingestionJobId heq)
      · refine h.rest_key (hrest value hvalue) ?_
        rw [← hsame]
        exact List.mem_map_of_mem (List.mem_append_left _ hown)
    · exact h.upserts hcoherent (hrest value hvalue) (hexisting _ hmem)
  have hsame : written = batch := by
    rw [hwritten, List.filter_eq_self]
    exact fun row hrow => decide_eq_true (hupserts row hrow)
  refine ⟨hsame, { h with
    values := ?_, distinct := ?_, written := ?_, own := ?_, counted := ?_ }⟩
  · rw [List.append_assoc, List.take_append_drop]
    exact h.values
  · rw [List.append_assoc, List.take_append_drop]
    exact h.distinct
  · rw [hsame, hbatch, h.written, List.map_append]
  · intro row hrow hkey
    rw [List.map_append, List.mem_append] at hkey
    rcases hkey with hold | hnew
    · exact h.own row hrow hold
    · rw [hsame] at hnew
      obtain ⟨new, hmem, hkey⟩ := List.mem_map.mp hnew
      obtain ⟨value, hvalue, rfl⟩ := List.mem_map.mp (hbatch ▸ hmem)
      have hseen := h.mem_apply (hrest value hvalue) hrow hkey.symm
      obtain ⟨hversion, -⟩ := hupserts _ hmem row hseen hkey.symm
      have htenant : row.tenantId = job.tenantId := congrArg Prod.fst hkey.symm
      exact Prod.ext htenant hversion
  · rw [hcounted, h.counted, hbatch]
    simp

/-! ## The stale vectors and the commit -/

theorem Replacing.keys (h : Replacing input tables delta job handled rest result) :
    delta.keys = delta.written.map (·.key) := by
  rw [VectorDelta.keys, h.deleted, List.append_nil]

/-- The stale vectors are those of the version that have no new chunk. -/
theorem Replacing.stale (h : Replacing input tables delta job handled rest result)
    (hcoherent : tables.Coherent) :
    (delta.apply tables.vectors).filter
        (fun row => row.version = job.version ∧ row.ingestionJobId ≠ job.id) =
      (published tables.vectors job.version).filter fun row => row.key ∉ delta.written.map (·.key) := by
  have hown : delta.written.filter
      (fun row => row.version = job.version ∧ row.ingestionJobId ≠ job.id) = [] := by
    rw [List.filter_eq_nil_iff, h.written]
    intro row hrow
    obtain ⟨value, -, rfl⟩ := List.mem_map.mp hrow
    simp [JobRow.vector]
  rw [VectorDelta.apply, List.filter_append, hown, List.append_nil, h.keys, published,
    List.filter_filter, List.filter_filter]
  refine List.filter_congr fun row hrow => ?_
  have hother : row.ingestionJobId ≠ job.id := hcoherent.other_job h.leased hrow
  simp [hother, Bool.and_comm]

theorem Replacing.finish (h : Replacing input tables delta job handled [] result)
    (hcoherent : tables.Coherent) {stale : List VectorRow}
    (hstale : stale = (delta.apply tables.vectors).filter fun row =>
      row.version = job.version ∧ row.ingestionJobId ≠ job.id) :
    Replaced input tables { delta with deleted := stale } job
      { result with deletedCount := stale.length } := by
  have hvalues : handled = input.records.map (·.columns) := by
    rw [← h.values, List.append_nil]
  refine ⟨h.leased, ?_, ?_, ?_, h.own, ?_, rfl⟩
  · rw [← h.values]
    exact h.distinct
  · rw [← hvalues]
    exact h.written
  · rw [hstale]
    exact h.stale hcoherent
  · rw [h.counted, hvalues, List.length_map]

/-- The vectors of another version are not among those a transaction writes or
deletes. -/
theorem Replaced.other (h : Replaced input tables delta job result) (hcoherent : tables.Coherent)
    {row : VectorRow} (hrow : row ∈ tables.vectors) (hversion : row.version ≠ job.version) :
    row.key ∉ delta.keys := by
  rw [VectorDelta.keys, List.map_append, List.mem_append]
  rintro (hwritten | hdeleted)
  · exact hversion (h.own row hrow hwritten)
  · obtain ⟨old, hold, hkey⟩ := List.mem_map.mp hdeleted
    rw [h.deleted] at hold
    obtain ⟨hmem, hold⟩ := mem_published.mp (List.mem_filter.mp hold).1
    obtain rfl : old = row := hcoherent.eq_of_key hmem hrow hkey
    exact hversion hold

/-- A vector of the version is written over or deleted. -/
theorem Replaced.self (h : Replaced input tables delta job result) {row : VectorRow}
    (hrow : row ∈ tables.vectors) (hversion : row.version = job.version) : row.key ∈ delta.keys := by
  rw [VectorDelta.keys, List.map_append, List.mem_append]
  by_cases hwritten : row.key ∈ delta.written.map (·.key)
  · exact .inl hwritten
  · refine .inr (List.mem_map_of_mem ?_)
    rw [h.deleted]
    exact List.mem_filter.mpr ⟨mem_published.mpr ⟨hrow, hversion⟩, decide_eq_true hwritten⟩

/-- **The commit of the version**: exactly the records. -/
theorem Replaced.published_self (h : Replaced input tables delta job result) :
    published (delta.apply tables.vectors) job.version = delta.written := by
  have hold : (tables.vectors.filter fun row => row.key ∉ delta.keys).filter
      (fun row => row.version = job.version) = [] := by
    rw [List.filter_eq_nil_iff]
    intro row hrow hversion
    obtain ⟨hmem, hkey⟩ := List.mem_filter.mp hrow
    exact (of_decide_eq_true hkey) (h.self hmem (of_decide_eq_true hversion))
  have hnew : delta.written.filter (fun row => row.version = job.version) = delta.written := by
    rw [List.filter_eq_self, h.written]
    intro row hrow
    obtain ⟨value, -, rfl⟩ := List.mem_map.mp hrow
    exact decide_eq_true (vector_version job value)
  rw [published, VectorDelta.apply, List.filter_append, hold, hnew, List.nil_append]

/-- **The commit of another version**: nothing. -/
theorem Replaced.published_other (h : Replaced input tables delta job result)
    (hcoherent : tables.Coherent) {version : Key} (hversion : version ≠ job.version) :
    published (delta.apply tables.vectors) version = published tables.vectors version := by
  have hnew : delta.written.filter (fun row => row.version = version) = [] := by
    rw [List.filter_eq_nil_iff, h.written]
    intro row hrow
    obtain ⟨value, -, rfl⟩ := List.mem_map.mp hrow
    rw [decide_eq_true_eq, vector_version]
    exact fun hsame => hversion hsame.symm
  rw [published, VectorDelta.apply, List.filter_append, hnew, List.append_nil, published,
    List.filter_filter]
  refine List.filter_congr fun row hrow => ?_
  by_cases hsame : row.version = version
  · have hkey : row.key ∉ delta.keys := h.other hcoherent hrow (hsame ▸ hversion)
    simp [hsame, hkey]
  · simp [hsame]

/-- **The counts** of a replacement. -/
theorem Replaced.reports (h : Replaced input tables delta job result) {closed : JobRow}
    (hversion : closed.version = job.version) :
    CompleteAnswer.Reports { job := closed, vectors := result } tables.vectors input.records := by
  refine ⟨h.counted, ?_⟩
  rw [h.deletedCount, h.deleted, hversion]
  refine congrArg List.length (List.filter_congr fun row hrow => ?_)
  have htenant : row.tenantId = job.tenantId := congrArg Prod.fst (mem_published.mp hrow).2
  rw [h.written]
  simp [VectorRow.key, JobRow.vector, VectorRecord.columns, htenant]

/-! ## The other calls -/

/-- No call but a completion writes a vector. -/
theorem vectors_effect {command : Command} {answer : Answer}
    (heffect : Effect platform tables command tables' answer)
    (hother : ∀ input now, command ≠ .complete input now) : tables'.vectors = tables.vectors := by
  cases heffect with
  | completed => exact absurd rfl (hother _ _)
  | _ => rfl

/-- A processed job is not written again. -/
theorem processed_effect {command : Command} {answer : Answer} (h : tables.Unique)
    (heffect : Effect platform tables command tables' answer) (hjob : job ∈ tables.jobs)
    (hprocessed : job.status = .processed) : job ∈ tables'.jobs := by
  have hrewrite : ∀ old new : JobRow, old ∈ tables.jobs → old.status ≠ .processed →
      job ∈ (tables.rewriteJob old new).jobs := by
    intro old new hold hopen
    refine mem_updateWhere.mpr (.inr ⟨hjob, fun hkey => hopen ?_⟩)
    rw [← eq_of_key h.ids hjob hold hkey]
    exact hprocessed
  cases heffect with
  | admitted => exact List.mem_append_left _ hjob
  | exhausted versions hfound hversions =>
      refine mem_updateWhere.mpr (.inr ⟨hjob, fun hexhausted => ?_⟩)
      have hprocessing := job.hasExpired_processing (mem_exhausted hexhausted).2.2.1
      rw [hprocessed] at hprocessing
      cases hprocessing
  | leased old binding owner duration lease hleasable =>
      obtain ⟨hold, ⟨_, _, hfree, _⟩, _⟩ := mem_leasable.mp hleasable
      refine hrewrite old _ hold fun hclosed => ?_
      rcases hfree with ⟨hqueued, _⟩ | hexpired
      · rw [hclosed] at hqueued
        cases hqueued
      · have hprocessing := old.hasExpired_processing hexpired
        rw [hclosed] at hprocessing
        cases hprocessing
  | extended old duration hheld =>
      obtain ⟨hold, _, hprocessing, _⟩ := held_some hheld
      exact hrewrite old _ hold (by rw [hprocessing]; exact nofun)
  | completed old version binding vectors hheld =>
      obtain ⟨hold, _, hprocessing, _⟩ := held_some hheld
      exact hrewrite old _ hold (by rw [hprocessing]; exact nofun)
  | failed old hshape hdelay hheld =>
      obtain ⟨hold, _, hprocessing, _⟩ := held_some hheld
      exact hrewrite old _ hold (by rw [hprocessing]; exact nofun)
  | _ => exact hjob

theorem unique_effect {command : Command} {answer : Answer} (h : tables.Unique)
    (heffect : Effect platform tables command tables' answer) : tables'.Unique := by
  by_cases henqueue : ∃ input jobId now, command = .enqueue input jobId now
  · obtain ⟨input, jobId, now, rfl⟩ := henqueue
    cases heffect with
    | admitted identity version hidentity hversion hcontent hadmits => exact h.append rfl hadmits
    | resolved => exact h
  · refine h.evolves (evolves_effect h heffect fun input jobId now hcommand => henqueue ?_)
    exact ⟨input, jobId, now, hcommand⟩

theorem Tables.Coherent.effect {command : Command} {answer : Answer} (h : tables.Coherent)
    (heffect : Effect platform tables command tables' answer)
    (hother : ∀ input now, command ≠ .complete input now) : tables'.Coherent := by
  have hvectors : tables'.vectors = tables.vectors := vectors_effect heffect hother
  refine ⟨unique_effect h.unique heffect, hvectors ▸ h.keys, ?_⟩
  rw [hvectors]
  intro row hrow
  obtain ⟨owner, howner, hid, hprocessed⟩ := h.processed row hrow
  exact ⟨owner, processed_effect h.unique heffect howner hprocessed, hid, hprocessed⟩

/-! ## Steps -/

namespace CompleteWorld

/-- What a completion holds is held by no other. -/
structure ApartFrom (world : CompleteWorld ι) (i : ι) (session : CompleteSession) : Prop where
  jobs : ∀ j, j ≠ i → ∀ a b, session.stage.lockedJob = some a →
    (world.sessions j).stage.lockedJob = some b → a.key ≠ b.key
  versions : ∀ j, j ≠ i → ∀ a b, session.stage.lockedVersion = some a →
    (world.sessions j).stage.lockedVersion = some b → a.version ≠ b.version
  keys : ∀ j, j ≠ i → ∀ row ∈ session.delta.written,
    row.key ∉ (world.sessions j).delta.written.map (·.key)

omit [DecidableEq ι] [Fintype ι] in
theorem Sound.apart (h : world.Sound requests) (i : ι) :
    world.ApartFrom i (world.sessions i) where
  jobs j hj a b := h.jobsApart i j a b hj.symm
  versions j hj a b := h.versionsApart i j a b hj.symm
  keys j hj := h.keysApart i j hj.symm

omit [DecidableEq ι] [Fintype ι] in
/-- A step that locks and writes nothing more. -/
theorem ApartFrom.same {next : CompleteSession} (h : world.ApartFrom i session)
    (hjob : next.stage.lockedJob = session.stage.lockedJob)
    (hversion : next.stage.lockedVersion = session.stage.lockedVersion)
    (hwritten : next.delta.written = session.delta.written) : world.ApartFrom i next where
  jobs := hjob ▸ h.jobs
  versions := hversion ▸ h.versions
  keys := hwritten ▸ h.keys

omit [DecidableEq ι] [Fintype ι] in
/-- A completion that holds nothing. -/
theorem ApartFrom.ended {stage : CompleteStage} (hjob : stage.lockedJob = none)
    (hversion : stage.lockedVersion = none) :
    world.ApartFrom i { stage, delta := .empty } where
  jobs _ _ a b ha := by
    rw [hjob] at ha
    cases ha
  versions _ _ a b ha := by
    rw [hversion] at ha
    cases ha
  keys _ _ row hrow := nomatch hrow

/-- The written vectors of two completions have different chunks, whichever is
named first. -/
theorem keys_disjoint {a b : List VectorRow} (h : ∀ row ∈ a, row.key ∉ b.map (·.key)) :
    ∀ row ∈ b, row.key ∉ a.map (·.key) := by
  intro row hrow hmem
  obtain ⟨other, hother, hkey⟩ := List.mem_map.mp hmem
  exact h other hother (hkey ▸ List.mem_map_of_mem hrow)

omit [Fintype ι] in
/-- **Frame.**  A completion takes a step that commits nothing. -/
theorem sound_put (h : world.Sound requests)
    (hconforms : session.Conforms (requests i) world.tables)
    (hapart : world.ApartFrom i session) : (world.put i session).Sound requests where
  coherent := h.coherent
  published := h.published
  conforms j := by
    by_cases hj : j = i
    · rw [hj, put_self]
      exact hconforms
    · rw [put_other _ _ hj]
      exact h.conforms j
  jobsApart j k a b hjk := by
    by_cases hj : j = i
    · rw [hj, put_self, put_other _ _ (hj ▸ hjk.symm)]
      exact hapart.jobs k (hj ▸ hjk.symm) a b
    · rw [put_other _ _ hj]
      by_cases hk : k = i
      · rw [hk, put_self]
        exact fun ha hb hkey => hapart.jobs j hj b a hb ha hkey.symm
      · rw [put_other _ _ hk]
        exact h.jobsApart j k a b hjk
  versionsApart j k a b hjk := by
    by_cases hj : j = i
    · rw [hj, put_self, put_other _ _ (hj ▸ hjk.symm)]
      exact hapart.versions k (hj ▸ hjk.symm) a b
    · rw [put_other _ _ hj]
      by_cases hk : k = i
      · rw [hk, put_self]
        exact fun ha hb hkey => hapart.versions j hj b a hb ha hkey.symm
      · rw [put_other _ _ hk]
        exact h.versionsApart j k a b hjk
  keysApart j k hjk := by
    by_cases hj : j = i
    · rw [hj, put_self, put_other _ _ (hj ▸ hjk.symm)]
      exact hapart.keys k (hj ▸ hjk.symm)
    · rw [put_other _ _ hj]
      by_cases hk : k = i
      · rw [hk, put_self]
        exact keys_disjoint (hapart.keys j hj)
      · rw [put_other _ _ hk]
        exact h.keysApart j k hjk

omit [Fintype ι] in
theorem sound_refuse (h : world.Sound requests) (refusal : Refusal) :
    (world.refuse i refusal).Sound requests :=
  sound_put h rfl (ApartFrom.ended rfl rfl)

theorem lockInput_ok {now : Time} (h : lockInput platform tables input now = .ok job) :
    Leased input tables job := by
  simp only [lockInput, lockLease, then_ok, require_ok, orRefuse_ok] at h
  obtain ⟨_, _, _, _, hheld⟩ := h
  obtain ⟨hmem, hkey, hprocessing, _⟩ := held_some hheld
  exact ⟨hmem, hprocessing, hkey⟩

theorem checkLeased_ok {identity : DocumentIdentity} (h : checkLeased tables input job = .ok identity) :
    (tables.activeVersion? job.version).isSome = true := by
  simp only [checkLeased, then_ok, require_ok, orRefuse_ok] at h
  obtain ⟨_, _, _, _, version, hversion, _⟩ := h
  rw [hversion]
  rfl

omit [DecidableEq ι] [Fintype ι] in
/-- The course of a completion at a stage. -/
theorem conforms_at (h : world.Sound requests) {stage : CompleteStage}
    (hstage : (world.sessions i).stage = stage) :
    CompleteSession.Conforms (requests i) world.tables
      { stage, delta := (world.sessions i).delta } :=
  hstage ▸ h.conforms i

omit [DecidableEq ι] [Fintype ι] in
theorem apart_at (h : world.Sound requests) {stage : CompleteStage}
    (hstage : (world.sessions i).stage = stage) :
    world.ApartFrom i { stage, delta := (world.sessions i).delta } :=
  hstage ▸ h.apart i

theorem sound_lock (h : world.Sound requests) (hstage : (world.sessions i).stage = .start)
    (hleased : Leased (requests i) world.tables job) (hfree : ¬ world.AwaitsJob i job) :
    (world.put i { stage := .lockingVersion job, delta := (world.sessions i).delta }).Sound
      requests := by
  have hdelta : (world.sessions i).delta = .empty := conforms_at h hstage
  refine sound_put h ⟨hleased, hdelta⟩ ⟨?_, ?_, ?_⟩
  · intro j hj a b ha hb hkey
    obtain rfl : job = a := Option.some.inj ha
    exact hfree ⟨j, hj, b, hb, hkey.symm⟩
  · intro j hj a b ha
    cases ha
  · exact (h.apart i).keys

theorem sound_lockVersion (h : world.Sound requests)
    (hstage : (world.sessions i).stage = .lockingVersion job) {identity : DocumentIdentity}
    (hchecked : checkLeased world.tables (requests i) job = .ok identity)
    (hfree : ¬ world.AwaitsVersion i job) :
    (world.put i { stage := .lockingAcceptance job identity
                   delta := (world.sessions i).delta }).Sound requests := by
  have hconforms := conforms_at h hstage
  have hapart := apart_at h hstage
  refine sound_put h hconforms ⟨hapart.jobs, ?_, hapart.keys⟩
  intro j hj a b ha hb hsame
  obtain rfl : job = a := Option.some.inj ha
  exact hfree ⟨checkLeased_ok hchecked, j, hj, b, hb, hsame.symm⟩

omit [Fintype ι] in
theorem sound_prepare (h : world.Sound requests) {identity : DocumentIdentity}
    (hstage : (world.sessions i).stage = .lockingAcceptance job identity) {now : Time}
    {values : List VectorValues}
    (hprepared : acceptAndPrepare world.tables (requests i) job identity now = .ok values) :
    (world.put i { stage := .selecting job values .zero
                   delta := (world.sessions i).delta }).Sound requests := by
  obtain ⟨hleased, hdelta⟩ := conforms_at h hstage
  simp only [acceptAndPrepare, then_ok, require_ok] at hprepared
  obtain ⟨_, _, hprepared⟩ := hprepared
  obtain ⟨hvalues, hdistinct⟩ := prepareReplacement_ok hprepared
  refine sound_put h ⟨[], hleased, hvalues, hdistinct, ?_, ?_, ?_, rfl⟩
    ((apart_at h hstage).same rfl rfl rfl)
  · exact congrArg VectorDelta.written hdelta
  · exact congrArg VectorDelta.deleted hdelta
  · intro row hrow hkey
    rw [show (world.sessions i).delta.written = [] from congrArg VectorDelta.written hdelta] at hkey
    cases hkey

theorem sound_select (h : world.Sound requests)
    (hstage : (world.sessions i).stage = .selecting job rest result) :
    (world.selectBatch i job rest result).Sound requests := by
  obtain ⟨handled, hreplacing⟩ := conforms_at h hstage
  rw [selectBatch]
  split
  next => exact h
  next =>
    split
    next existingIds hchecked =>
      refine sound_put h ⟨⟨handled, hreplacing⟩, ?_⟩ ((apart_at h hstage).same rfl rfl rfl)
      exact hreplacing.existing (fun value hvalue => List.mem_of_mem_take hvalue) hchecked
    next => exact sound_refuse h _

omit [DecidableEq ι] [Fintype ι] in
theorem conforms_afterBatch (h : Replacing input tables delta job handled rest result) :
    CompleteSession.Conforms input tables { stage := afterBatch job rest result, delta } := by
  by_cases hrest : rest = []
  · rw [afterBatch, if_pos hrest]
    exact ⟨handled, hrest ▸ h⟩
  · rw [afterBatch, if_neg hrest]
    exact ⟨handled, h⟩

theorem afterBatch_locks (job : JobRow) (rest : List VectorValues) (result : ReplaceResult) :
    (afterBatch job rest result).lockedJob = some job ∧
      (afterBatch job rest result).lockedVersion = some job := by
  rw [afterBatch]
  split <;> exact ⟨rfl, rfl⟩

theorem sound_upsert (h : world.Sound requests) {existingIds : List JsString}
    (hstage : (world.sessions i).stage = .upserting job rest result existingIds) :
    (world.upsertBatch i job rest result existingIds).Sound requests := by
  obtain ⟨⟨handled, hreplacing⟩, hexisting⟩ := conforms_at h hstage
  have hapart := apart_at h hstage
  rw [upsertBatch]
  split
  next => exact h
  next hfree =>
    split
    next out hcount =>
      obtain ⟨hwritten, hnext⟩ := hreplacing.batch h.coherent hexisting rfl rfl hcount
      obtain ⟨hjob, hversion⟩ := afterBatch_locks job (rest.drop vectorWriteBatchSize) out
      refine sound_put h (conforms_afterBatch hnext) ⟨?_, ?_, ?_⟩
      · exact fun j hj a b ha => hapart.jobs j hj a b (hjob.symm.trans ha)
      · exact fun j hj a b ha => hapart.versions j hj a b (hversion.symm.trans ha)
      · intro j hj row hrow hmem
        rcases List.mem_append.mp hrow with hold | hnew
        · exact hapart.keys j hj row hold hmem
        · rw [hwritten] at hnew
          refine hfree ⟨j, hj, row.key, List.mem_map_of_mem hnew, ?_⟩
          rw [VectorDelta.keys, List.map_append]
          exact List.mem_append_left _ hmem
    next => exact sound_refuse h _

omit [Fintype ι] in
theorem sound_deleteStale (h : world.Sound requests)
    (hstage : (world.sessions i).stage = .deletingStale job result) :
    (world.deleteStaleVectors i job result).Sound requests := by
  obtain ⟨handled, hreplacing⟩ := conforms_at h hstage
  exact sound_put h (hreplacing.finish h.coherent rfl) ((apart_at h hstage).same rfl rfl rfl)

omit [Fintype ι] in
theorem sound_complete (h : world.Sound requests)
    (hstage : (world.sessions i).stage = .completing job result) {now : Time} {token : Sha256}
    {row : JobRow}
    (hheld : world.tables.held? ((requests i).tenantId, (requests i).jobId) token now = some row) :
    (world.put i { stage := .updatingVersion job { job := row.complete now, vectors := result }
                   delta := (world.sessions i).delta }).Sound requests := by
  have hreplaced := conforms_at h hstage
  obtain ⟨hrow, hkey, _⟩ := held_some hheld
  obtain rfl : row = job := eq_of_key h.coherent.unique.ids hrow hreplaced.leased.mem
    (hkey.trans hreplaced.leased.key.symm)
  exact sound_put h ⟨hreplaced, now, rfl⟩ ((apart_at h hstage).same rfl rfl rfl)

/-! ## The commit -/

/-- The tables with a completion committed. -/
theorem coherent_commit {versions : List VersionRow} {completedAt : Time}
    (h : tables.Coherent) (hreplaced : Replaced input tables delta job result) :
    ({ tables.rewriteJob job (job.complete completedAt) with
      versions, vectors := delta.apply tables.vectors } : Tables).Coherent := by
  have hleased := hreplaced.leased
  refine ⟨?_, ?_, ?_⟩
  · have hevolves : Evolves tables.jobs (tables.rewriteJob job (job.complete completedAt)).jobs :=
      Evolves.of_rewrite h.unique hleased.mem rfl fun _ => by rw [hleased.processing]; rfl
    exact h.unique.evolves hevolves
  · rw [VectorDelta.apply, List.map_append, List.nodup_append]
    refine ⟨h.keys.sublist (List.filter_sublist.map _), ?_, ?_⟩
    · have hinjective : (delta.written.map (·.key)) =
          ((input.records.map (·.columns)).map (·.chunkId)).map fun chunkId =>
            (job.tenantId, chunkId) := by
        rw [hreplaced.written, List.map_map, List.map_map (g := fun chunkId => (job.tenantId, chunkId))]
        rfl
      rw [hinjective]
      exact hreplaced.distinct.map fun _ _ hsame => congrArg Prod.snd hsame
    · rintro key hold other hnew rfl
      obtain ⟨row, hrow, rfl⟩ := List.mem_map.mp hold
      obtain ⟨_, hkey⟩ := List.mem_filter.mp hrow
      refine (of_decide_eq_true hkey) ?_
      rw [VectorDelta.keys, List.map_append]
      exact List.mem_append_left _ hnew
  · intro row hrow
    rcases List.mem_append.mp hrow with hold | hnew
    · obtain ⟨hmem, _⟩ := List.mem_filter.mp hold
      obtain ⟨owner, howner, hid, hprocessed⟩ := h.processed row hmem
      refine ⟨owner, mem_updateWhere.mpr (.inr ⟨howner, fun hkey => ?_⟩), hid, hprocessed⟩
      exact h.other_job hleased hmem (hid.symm.trans (congrArg Prod.snd hkey))
    · rw [hreplaced.written] at hnew
      obtain ⟨value, -, rfl⟩ := List.mem_map.mp hnew
      exact ⟨job.complete completedAt, mem_updateWhere.mpr (.inl ⟨job, hleased.mem, rfl, rfl⟩),
        rfl, rfl⟩

omit [DecidableEq ι] [Fintype ι] in
/-- What the commit of one completion leaves to another. -/
theorem leaves_commit (h : world.Sound requests) {answer : CompleteAnswer} {assignedAt : Time}
    (hstage : (world.sessions i).stage = .committing job answer assignedAt) {j : ι} (hj : j ≠ i)
    {versions : List VersionRow} {closed : JobRow} :
    LeavesTo (world.sessions j) world.tables { world.tables.rewriteJob job closed with
      versions, vectors := (world.sessions i).delta.apply world.tables.vectors } where
  job other hother hmem := by
    have hapart := h.jobsApart j i other job hj hother (by rw [hstage]; rfl)
    exact mem_updateWhere.mpr (.inr ⟨hmem, hapart⟩)
  version other hother := by
    have hapart := h.versionsApart j i other job hj hother (by rw [hstage]; rfl)
    exact (conforms_at h hstage).1.published_other h.coherent hapart
  chunks row hrow := by
    rcases List.mem_append.mp hrow with hold | hnew
    · exact .inl (List.mem_filter.mp hold).1
    · exact .inr (h.keysApart i j hj.symm row hnew)

omit [Fintype ι] in
theorem commit_completes (h : world.Sound requests) {answer : CompleteAnswer} {assignedAt : Time}
    (hstage : (world.sessions i).stage = .committing job answer assignedAt) :
    world.Completes (world.commit i (requests i) job answer assignedAt) (requests i) answer := by
  obtain ⟨hreplaced, completedAt, hclosed⟩ := conforms_at h hstage
  have hversion : answer.job.version = job.version := by rw [hclosed]; rfl
  refine ⟨?_, rfl, fun version hother => ?_, hreplaced.reports hversion⟩
  · rw [hclosed]
    exact hreplaced.leased.key
  · exact hreplaced.published_other h.coherent (hversion ▸ hother)

omit [DecidableEq ι] [Fintype ι] in
/-- Committed tables that leave every completion what it has locked. -/
theorem sound_tables (h : world.Sound requests) {history : List Completion}
    (hcoherent : tables.Coherent)
    (hpublished : ∀ version, published tables.vectors version = lastPublished version history)
    (hleaves : ∀ j, LeavesTo (world.sessions j) world.tables tables) :
    ({ world with tables, history } : CompleteWorld ι).Sound requests where
  coherent := hcoherent
  published := hpublished
  conforms j := conforms_frame (h.conforms j) (hleaves j)
  jobsApart := h.jobsApart
  versionsApart := h.versionsApart
  keysApart := h.keysApart

omit [Fintype ι] in
theorem sound_commit (h : world.Sound requests) {answer : CompleteAnswer} {assignedAt : Time}
    (hstage : (world.sessions i).stage = .committing job answer assignedAt) :
    (world.commit i (requests i) job answer assignedAt).Sound requests := by
  obtain ⟨hreplaced, completedAt, hclosed⟩ := conforms_at h hstage
  have hversion : answer.job.version = job.version := by rw [hclosed]; rfl
  have hended : (world.put i { stage := .done answer, delta := .empty }).Sound requests :=
    sound_put h rfl (ApartFrom.ended rfl rfl)
  refine sound_tables hended ?_ (fun version => ?_) (fun j => ?_)
  · rw [hclosed]
    exact coherent_commit h.coherent hreplaced
  · by_cases hsame : version = job.version
    · have hrows : ({ job := answer.job, records := (requests i).records
                      vectors := answer.vectors } : Completion).rows =
          (world.sessions i).delta.written := by
        rw [Completion.rows, hclosed, hreplaced.written, List.map_map]
        rfl
      rw [hsame, hreplaced.published_self, lastPublished,
        List.find?_cons_of_pos (by simpa using hversion)]
      exact hrows.symm
    · rw [hreplaced.published_other h.coherent hsame, lastPublished, List.find?_cons_of_neg ?_]
      · exact h.published version
      · simpa [hversion] using fun heq => hsame heq.symm
  · by_cases hj : j = i
    · rw [hj, put_self]
      exact ⟨fun _ hlocked => (nomatch hlocked), fun _ hlocked => (nomatch hlocked),
        fun row _ => .inr (List.not_mem_nil (a := row.key))⟩
    · rw [put_other _ _ hj]
      exact leaves_commit h hstage hj

/-! ## Every step -/

omit [DecidableEq ι] in
theorem sound_call (h : world.Sound requests) (command : Command) :
    (world.call platform command).Sound requests := by
  rw [call.eq_def]
  split
  next => exact h
  next hnot =>
    cases hcall : Ingestion.call platform world.tables command with
    | error refusal => exact h
    | ok out =>
        simp only
        split
        next hspares =>
          have heffect := call_effect hcall
          have hvectors : out.1.vectors = world.tables.vectors := vectors_effect heffect hnot
          refine sound_tables h (h.coherent.effect heffect hnot) (fun version => ?_) (fun j => ?_)
          · rw [hvectors]
            exact h.published version
          · refine ⟨fun job hlocked hmem => ?_, fun job _ => by rw [hvectors], fun row hrow => ?_⟩
            · have hsame := (hspares j).1 job hlocked
              have hkept : job ∈ out.1.jobs.filter (·.key = job.key) := by
                rw [hsame]
                exact List.mem_filter.mpr ⟨hmem, decide_eq_true rfl⟩
              exact (List.mem_filter.mp hkept).1
            · exact .inl (hvectors ▸ hrow)
        next => exact h

/-- **Step lemma.**  A statement of a completion keeps the invariant. -/
theorem sound_proceed (h : world.Sound requests) (now : Time) :
    (world.proceed platform (requests i) i now).Sound requests := by
  rw [proceed]
  cases hstage : (world.sessions i).stage with
  | start =>
      simp only
      split
      next => exact sound_refuse h _
      next job hlocked =>
        split
        next => exact h
        next hfree => exact sound_lock h hstage (lockInput_ok hlocked) hfree
  | lockingVersion job =>
      simp only
      split
      next => exact h
      next hfree =>
        split
        next => exact sound_refuse h _
        next identity hchecked => exact sound_lockVersion h hstage hchecked hfree
  | lockingAcceptance job identity =>
      simp only
      split
      next => exact sound_refuse h _
      next values hprepared => exact sound_prepare h hstage hprepared
  | selecting job rest result => exact sound_select h hstage
  | upserting job rest result existingIds => exact sound_upsert h hstage
  | deletingStale job result => exact sound_deleteStale h hstage
  | completing job result =>
      simp only
      split
      next => exact sound_refuse h _
      next row hheld => exact sound_complete h hstage hheld
  | updatingVersion job answer =>
      simp only
      split
      next =>
        have hconforms := conforms_at h hstage
        exact sound_put h hconforms ((apart_at h hstage).same rfl rfl rfl)
      next => exact sound_refuse h _
  | committing job answer assignedAt => exact sound_commit h hstage
  | done | failed => exact h

theorem sound_step (h : world.Sound requests) (event : CompleteEvent ι) :
    (world.step platform requests event).Sound requests := by
  cases event with
  | proceed i now => exact sound_proceed h now
  | fault i message =>
      rw [step]
      split
      next => exact h
      next => exact sound_refuse h _
  | call command => exact sound_call h command

omit [Fintype ι] in
/-- A statement that does not commit. -/
theorem lawful_put (hdone : ∀ answer, session.stage ≠ .done answer) :
    world.ProceedsLawfully (world.put i session) i input := by
  refine .inl ⟨⟨rfl, rfl⟩, fun _ answer => ?_⟩
  rw [put_self]
  exact hdone answer

omit [Fintype ι] in
theorem lawful_refuse (refusal : Refusal) :
    world.ProceedsLawfully (world.refuse i refusal) i input :=
  lawful_put fun _ hdone => nomatch hdone

omit [DecidableEq ι] [Fintype ι] in
/-- A statement that waits. -/
theorem lawful_wait : world.ProceedsLawfully world i input := by
  refine .inl ⟨⟨rfl, rfl⟩, fun hopen answer hdone => ?_⟩
  rw [hdone] at hopen
  cases hopen

theorem afterBatch_open (job : JobRow) (rest : List VectorValues) (result : ReplaceResult)
    (answer : CompleteAnswer) : afterBatch job rest result ≠ .done answer := by
  intro hdone
  have hlocked := (afterBatch_locks job rest result).1
  rw [hdone] at hlocked
  cases hlocked

theorem lawful_proceed (h : world.Sound requests) (now : Time) :
    world.ProceedsLawfully (world.proceed platform (requests i) i now) i (requests i) := by
  rw [proceed]
  cases hstage : (world.sessions i).stage with
  | start =>
      simp only
      split
      next => exact lawful_refuse _
      next job hlocked =>
        split
        next => exact lawful_wait
        next => exact lawful_put fun _ hdone => nomatch hdone
  | lockingVersion job =>
      simp only
      split
      next => exact lawful_wait
      next =>
        split
        next => exact lawful_refuse _
        next => exact lawful_put fun _ hdone => nomatch hdone
  | lockingAcceptance job identity =>
      simp only
      split
      next => exact lawful_refuse _
      next => exact lawful_put fun _ hdone => nomatch hdone
  | selecting job rest result =>
      simp only [selectBatch]
      split
      next => exact lawful_wait
      next =>
        split
        next => exact lawful_put fun _ hdone => nomatch hdone
        next => exact lawful_refuse _
  | upserting job rest result existingIds =>
      simp only [upsertBatch]
      split
      next => exact lawful_wait
      next =>
        split
        next => exact lawful_put (afterBatch_open _ _ _)
        next => exact lawful_refuse _
  | deletingStale job result => exact lawful_put fun _ hdone => nomatch hdone
  | completing job result =>
      simp only
      split
      next => exact lawful_refuse _
      next => exact lawful_put fun _ hdone => nomatch hdone
  | updatingVersion job answer =>
      simp only
      split
      next => exact lawful_put fun _ hdone => nomatch hdone
      next => exact lawful_refuse _
  | committing job answer assignedAt =>
      refine .inr ⟨answer, ?_, commit_completes h hstage⟩
      simp only [commit, put_self]
  | done | failed => exact lawful_wait

omit [DecidableEq ι] in
theorem lawful_call (command : Command) :
    (world.call platform command).tables.vectors = world.tables.vectors ∧
      (world.call platform command).history = world.history := by
  rw [call.eq_def]
  split
  next => exact ⟨rfl, rfl⟩
  next hnot =>
    cases hcall : Ingestion.call platform world.tables command with
    | error refusal => exact ⟨rfl, rfl⟩
    | ok out =>
        simp only
        split
        next => exact ⟨vectors_effect (call_effect hcall) hnot, rfl⟩
        next => exact ⟨rfl, rfl⟩

theorem stepsLawfully (h : world.Sound requests) (event : CompleteEvent ι) :
    world.StepsLawfully platform requests event := by
  cases event with
  | proceed i now => exact lawful_proceed h now
  | fault i message =>
      rw [StepsLawfully, step]
      split <;> exact ⟨rfl, rfl⟩
  | call command => exact lawful_call command

/-- **Publication law.**  In every interleaving of the statements of any
completions, of failing statements and of the other calls of the runtime, the
vectors of every version are all those of its last completion, and a completion
that does not return leaves nothing. -/
theorem completions_lawful (platform : Platform) (requests : ι → CompleteInput)
    (events : List (CompleteEvent ι)) :
    Throughout (step platform requests) AllOrNothing (opening ι) events ∧
      EachStep (step platform requests) (StepsLawfully platform requests) (opening ι) events := by
  have hopening : (opening ι).Sound requests := by
    refine ⟨⟨List.Pairwise.nil, List.nodup_nil, ?_⟩, fun _ => rfl, fun _ => rfl, ?_, ?_, ?_⟩
    · exact fun row hrow => nomatch hrow
    · exact fun i j a b hij ha => nomatch ha
    · exact fun i j a b hij ha => nomatch ha
    · exact fun i j hij row hrow => nomatch hrow
  have hkeep : ∀ (world : CompleteWorld ι) event, world.Sound requests →
      (world.step platform requests event).Sound requests :=
    fun _ event h => sound_step h event
  exact laws_of_invariant hkeep (fun _ h => h.published) (fun _ event h => stepsLawfully h event)
    hopening events

end CompleteWorld

end Ingestion
