import MuniRag.Ingestion.LeaseFencing
import Mathlib.Data.Fintype.Basic

/-!
# Enqueueing, statement by statement

`enqueue` as the transaction it is: the check of the document version, the
`INSERT … ON CONFLICT DO NOTHING` and the two lookups are steps of their own,
each of which reads what is committed when it starts.  Any number of requests
run interleaved with each other and with the other calls of the runtime.  An
insert that meets an uncommitted row under one of its unique keys waits for it.

The code does not learn which row an insert has met; `met` remembers it.
-/

namespace Ingestion

open Results Table Runs

/-- One call of `enqueue` with the identifier that it draws. -/
structure EnqueueRequest where
  input : EnqueueInput
  jobId : Uuid
  deriving DecidableEq, Repr

/-- The next statement of a request. -/
inductive EnqueueStage
  | start
  | checking (identity : JobIdentity)
  | inserting (identity : JobIdentity)
  | resolving (identity : JobIdentity)
  | lookingUp (identity : JobIdentity)
  | committing (answer : EnqueueAnswer)
  | done (answer : EnqueueAnswer)
  | failed (refusal : Refusal)
  deriving DecidableEq, Repr

def EnqueueStage.ended : EnqueueStage → Bool
  | .done _ | .failed _ => true
  | _ => false

/-- The request has passed its checks. -/
def EnqueueStage.reachedInsert : EnqueueStage → Bool
  | .inserting _ | .resolving _ | .lookingUp _ | .committing _ => true
  | _ => false

/-- How many steps are left at most. -/
def EnqueueStage.remaining : EnqueueStage → Nat
  | .start => 6
  | .checking _ => 5
  | .inserting _ => 4
  | .resolving _ => 3
  | .lookingUp _ => 2
  | .committing _ => 1
  | .done _ | .failed _ => 0

/-- A request with the row that it has inserted and not committed. -/
structure EnqueueSession where
  stage : EnqueueStage
  pending : Option JobRow
  met : Option JobRow

def EnqueueSession.opening : EnqueueSession where
  stage := .start
  pending := none
  met := none

/-- The transaction is over and its row is gone. -/
def EnqueueSession.refuse (session : EnqueueSession) (refusal : Refusal) : EnqueueSession :=
  { session with stage := .failed refusal, pending := none }

structure EnqueueWorld (ι : Type) where
  tables : Tables
  sessions : ι → EnqueueSession

/-- A request takes its next step at an instant, its next statement fails on the
server, or another component calls the runtime. -/
inductive EnqueueEvent (ι : Type)
  | proceed (i : ι) (now : Time)
  | fault (i : ι) (message : String)
  | call (command : Command)

variable {ι : Type} [DecidableEq ι]

namespace EnqueueWorld

def opening (ι : Type) (tables : Tables) : EnqueueWorld ι where
  tables := tables
  sessions := fun _ => .opening

def put (world : EnqueueWorld ι) (i : ι) (session : EnqueueSession) : EnqueueWorld ι :=
  { world with sessions := Function.update world.sessions i session }

theorem put_self (world : EnqueueWorld ι) (i : ι) (session : EnqueueSession) :
    (world.put i session).sessions i = session := Function.update_self ..

theorem put_other {i j : ι} (world : EnqueueWorld ι) (session : EnqueueSession) (h : j ≠ i) :
    (world.put i session).sessions j = world.sessions j := Function.update_of_ne h ..

/-- `SELECT_DOCUMENT_IDENTITY_SQL` and the check of the digest. -/
def checkVersion (tables : Tables) (identity : JobIdentity) : Except Refusal Unit := do
  let mismatch := jobError "ingestion_artifact_identity_mismatch"
    "Document version is unavailable or does not match the accepted artifact digest."
  let version ← orRefuse
    (tables.activeVersion? (identity.tenantId, identity.documentVersionId)) mismatch
  require (version.1.contentSha256 = identity.artifactSha256) mismatch

/-- Another request has inserted a row that the new one conflicts with. -/
def Awaits [Fintype ι] (world : EnqueueWorld ι) (i : ι) (new : JobRow) : Prop :=
  ∃ j, j ≠ i ∧ ∃ row ∈ (world.sessions j).pending, ¬ { world.tables with jobs := [row] }.admits new

instance [Fintype ι] (world : EnqueueWorld ι) (i : ι) (new : JobRow) :
    Decidable (world.Awaits i new) := by
  unfold Awaits
  infer_instance

/-- `INSERT_JOB_SQL`. -/
def insertJob [Fintype ι] (world : EnqueueWorld ι) (i : ι) (session : EnqueueSession)
    (identity : JobIdentity) (new : JobRow) : EnqueueWorld ι :=
  if world.tables.admits new then
    if world.Awaits i new then world
    else world.put i { session with pending := some new, stage := .committing (.new new) }
  else world.put i { session with
    met := (world.tables.byIdempotency? identity).or (world.tables.byWork? identity)
    stage := .resolving identity }

/-- What is made of the row of the idempotency key. -/
def resolveKey (tables : Tables) (identity : JobIdentity) : EnqueueStage :=
  match tables.byIdempotency? identity with
  | some job =>
      if job.requestSha256 = identity.requestSha256 then .committing (.replay job)
      else .committing .conflict
  | none => .lookingUp identity

/-- `ingestion_claim_disappeared`. -/
def claimDisappeared : Refusal := .job {
  code := "ingestion_claim_disappeared"
  message := "Conflicting ingestion job could not be resolved.", retryable := true }

/-- What is made of the row of the work. -/
def resolveWork (tables : Tables) (identity : JobIdentity) : EnqueueStage :=
  match tables.byWork? identity with
  | some job => .committing (.duplicateWork job)
  | none => .failed claimDisappeared

variable [Fintype ι] (platform : Platform)

/-- The next statement of a request. -/
def proceed (request : EnqueueRequest) (world : EnqueueWorld ι) (i : ι) (now : Time) :
    EnqueueWorld ι :=
  let session := world.sessions i
  match session.stage with
  | .start =>
      match buildIngestionJobIdentity platform request.input with
      | .ok identity => world.put i { session with stage := .checking identity }
      | .error refusal => world.put i (session.refuse refusal)
  | .checking identity =>
      match checkVersion world.tables identity with
      | .ok _ => world.put i { session with stage := .inserting identity }
      | .error refusal => world.put i (session.refuse refusal)
  | .inserting identity =>
      world.insertJob i session identity
        (identity.job request.input.pipelineConfig request.jobId now)
  | .resolving identity => world.put i { session with stage := resolveKey world.tables identity }
  | .lookingUp identity => world.put i { session with stage := resolveWork world.tables identity }
  | .committing answer =>
      ({ world with
        tables := { world.tables with
          jobs := world.tables.jobs ++ session.pending.toList } }).put i
        { session with pending := none, stage := .done answer }
  | .done _ | .failed _ => world

/-- Another call of the runtime, a transaction of its own. -/
def call (world : EnqueueWorld ι) : Command → EnqueueWorld ι
  | .enqueue .. => world
  | command => { world with tables := settle world.tables (do
      let out ← Ingestion.call platform world.tables command
      pure out.1) }

def step (requests : ι → EnqueueRequest) (world : EnqueueWorld ι) :
    EnqueueEvent ι → EnqueueWorld ι
  | .proceed i now => world.proceed platform (requests i) i now
  | .fault i message =>
      if (world.sessions i).stage.ended = true then world
      else world.put i ((world.sessions i).refuse (.database message))
  | .call command => world.call platform command

end EnqueueWorld

/-! ## What the jobs keep -/

/-- The columns of a job that no statement writes again. -/
structure Origin where
  key : Key
  principalId : Uuid
  idempotencyKeySha256 : Sha256
  requestSha256 : Sha256
  workSha256 : Sha256
  deriving DecidableEq, Repr

def JobRow.origin (job : JobRow) : Origin where
  key := job.key
  principalId := job.requestedByPrincipalId
  idempotencyKeySha256 := job.idempotencyKeySha256
  requestSha256 := job.requestSha256
  workSha256 := job.workSha256

/-- Two jobs that the unique indexes do not allow together. -/
def JobRow.Clashes (a b : JobRow) : Prop :=
  a.id = b.id ∨
    (a.tenantId = b.tenantId ∧ a.requestedByPrincipalId = b.requestedByPrincipalId ∧
      a.idempotencyKeySha256 = b.idempotencyKeySha256) ∨
    (a.tenantId = b.tenantId ∧ a.workSha256 = b.workSha256 ∧ a.status.isLive = true ∧
      b.status.isLive = true)

instance (a b : JobRow) : Decidable (a.Clashes b) := by
  unfold JobRow.Clashes
  infer_instance

/-- What the unique indexes say about the stored jobs. -/
def Tables.Unique (tables : Tables) : Prop := tables.jobs.Pairwise fun a b => ¬ a.Clashes b

/-- The jobs after a call that enqueues nothing: the same, and none has become
live. -/
def Evolves (jobs jobs' : List JobRow) : Prop :=
  ∃ f : JobRow → JobRow, jobs' = jobs.map f ∧
    ∀ job ∈ jobs, (f job).origin = job.origin ∧ ((f job).status.isLive = true → job.status.isLive = true)

variable {tables tables' : Tables} {a b job new : JobRow} {identity : JobIdentity}
variable {platform : Platform}

theorem JobRow.Clashes.symm (h : a.Clashes b) : b.Clashes a := by
  rcases h with hid | ⟨htenant, hprincipal, hkey⟩ | ⟨htenant, hwork, ha, hb⟩
  · exact .inl hid.symm
  · exact .inr (.inl ⟨htenant.symm, hprincipal.symm, hkey.symm⟩)
  · exact .inr (.inr ⟨htenant.symm, hwork.symm, hb, ha⟩)

instance : Std.Symm fun a b : JobRow => ¬ a.Clashes b :=
  ⟨fun _ _ hnot hclash => hnot hclash.symm⟩

theorem Tables.Unique.eq (h : tables.Unique) (ha : a ∈ tables.jobs) (hb : b ∈ tables.jobs)
    (hclash : a.Clashes b) : a = b := by
  by_contra hne
  exact List.Pairwise.forall h ha hb hne hclash

theorem Tables.Unique.ids (h : tables.Unique) : (tables.jobs.map (·.id)).Nodup := by
  rw [List.Nodup, List.pairwise_map]
  exact h.imp fun hnot hid => hnot (.inl hid)

/-- A live job that a table admits clashes with none of its jobs. -/
theorem admits_iff (hlive : new.status.isLive = true) :
    tables.admits new ↔ ∀ job ∈ tables.jobs, ¬ job.Clashes new := by
  simp only [Tables.admits, JobRow.Clashes, hlive, and_true, not_or, ne_eq]

/-- A live job that is admitted keeps the jobs unique. -/
theorem Tables.Unique.append (h : tables.Unique) (hlive : new.status.isLive = true)
    (hadmits : tables.admits new) : { tables with jobs := tables.jobs ++ [new] }.Unique := by
  refine List.pairwise_append.mpr ⟨h, List.pairwise_singleton _ _, ?_⟩
  intro job hjob last hlast
  rw [List.mem_singleton.mp hlast]
  exact (admits_iff hlive).mp hadmits job hjob

/-- Clashes come from the origins and from being live. -/
theorem clashes_of_origin {a' b' : JobRow} (ha : a'.origin = a.origin) (hb : b'.origin = b.origin)
    (hlive : a'.status.isLive = true → a.status.isLive = true)
    (hlive' : b'.status.isLive = true → b.status.isLive = true) (h : a'.Clashes b') :
    a.Clashes b := by
  simp only [JobRow.origin, Origin.mk.injEq, JobRow.key, Prod.mk.injEq] at ha hb
  obtain ⟨⟨htenant, hid⟩, hprincipal, hkey, _, hwork⟩ := ha
  obtain ⟨⟨htenant', hid'⟩, hprincipal', hkey', _, hwork'⟩ := hb
  rw [JobRow.Clashes, htenant, htenant', hid, hid', hprincipal, hprincipal', hkey, hkey', hwork,
    hwork'] at h
  rcases h with hsame | hsame | ⟨hsame, hworks, hnow, hnow'⟩
  · exact .inl hsame
  · exact .inr (.inl hsame)
  · exact .inr (.inr ⟨hsame, hworks, hlive hnow, hlive' hnow'⟩)

theorem Evolves.refl (jobs : List JobRow) : Evolves jobs jobs :=
  ⟨id, (List.map_id jobs).symm, fun _ _ => ⟨rfl, id⟩⟩

theorem Evolves.update {jobs : List JobRow} {p : JobRow → Prop} [DecidablePred p]
    {f : JobRow → JobRow}
    (h : ∀ job ∈ jobs, p job → (f job).origin = job.origin ∧
      ((f job).status.isLive = true → job.status.isLive = true)) :
    Evolves jobs (updateWhere p f jobs) := by
  refine ⟨fun job => if p job then f job else job, rfl, fun job hjob => ?_⟩
  by_cases hp : p job
  · simpa only [if_pos hp] using h job hjob hp
  · simp only [if_neg hp]
    exact ⟨trivial, id⟩

theorem Tables.Unique.evolves (h : tables.Unique) (hjobs : Evolves tables.jobs tables'.jobs) :
    tables'.Unique := by
  obtain ⟨f, hmap, hf⟩ := hjobs
  rw [Tables.Unique, hmap, List.pairwise_map]
  refine h.imp_of_mem fun ha hb hnot hclash => hnot ?_
  exact clashes_of_origin (hf _ ha).1 (hf _ hb).1 (hf _ ha).2 (hf _ hb).2 hclash

theorem Evolves.of_rewrite {old : JobRow} (h : tables.Unique) (hold : old ∈ tables.jobs)
    (horigin : new.origin = old.origin)
    (hlive : new.status.isLive = true → old.status.isLive = true) :
    Evolves tables.jobs (tables.rewriteJob old new).jobs := by
  refine Evolves.update fun job hjob hkey => ?_
  have hsame : job = old := h.eq hjob hold (.inl (congrArg Prod.snd hkey))
  rw [hsame]
  exact ⟨horigin, hlive⟩

/-- **What the other calls do to the jobs.** -/
theorem evolves_effect {command : Command} {answer : Answer} (h : tables.Unique)
    (heffect : Effect platform tables command tables' answer)
    (hother : ∀ input jobId now, command ≠ .enqueue input jobId now) :
    Evolves tables.jobs tables'.jobs := by
  cases heffect with
  | admitted => exact absurd rfl (hother _ _ _)
  | resolved => exact absurd rfl (hother _ _ _)
  | catalogued | registered | begun | restarted | inspected | idle => exact Evolves.refl _
  | exhausted versions hfound hversions =>
      refine Evolves.update fun row hrow _ => ⟨rfl, fun hlive => ?_⟩
      cases hlive
  | leased job binding owner duration lease hleasable hfirst hlease =>
      obtain ⟨hjob, ⟨_, _, hfree, _⟩, _⟩ := mem_leasable.mp hleasable
      have hlive : job.status.isLive = true := by
        rcases hfree with ⟨hqueued, _⟩ | hexpired
        · rw [hqueued]
          rfl
        · rw [job.hasExpired_processing hexpired]
          rfl
      exact Evolves.of_rewrite h hjob (by rw [hlease.1]; rfl) fun _ => hlive
  | extended job duration hheld =>
      obtain ⟨hjob, _, hstatus, _⟩ := held_some hheld
      exact Evolves.of_rewrite h hjob rfl fun _ => by rw [hstatus]; rfl
  | completed job version binding vectors hheld =>
      obtain ⟨hjob, _, hstatus, _⟩ := held_some hheld
      exact Evolves.of_rewrite h hjob rfl fun _ => by rw [hstatus]; rfl
  | @failed input now job hshape hdelay hheld =>
      obtain ⟨hjob, _, hstatus, _⟩ := held_some hheld
      have horigin : (input.outcome job now).origin = job.origin := by
        rw [FailInput.outcome]
        split <;> rfl
      exact Evolves.of_rewrite h hjob horigin fun _ => by rw [hstatus]; rfl

end Ingestion
