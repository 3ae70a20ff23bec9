import MuniRag.Ingestion.Worker

/-!
# The outcome protocol of the worker

What a run may tell the lease service, over all orders of its answers: it
completes at most once and in good health, it fails at most once, never after a
success and never after its lease was seen to be lost, and it ends with its
heartbeat stopped.  The run keeps this protocol except where a stage throws
while a failed heartbeat of the background is still unread.
-/

namespace Ingestion

open Runs

/-! ## The protocol -/

/-- No heartbeat has failed. -/
def Healthy (notes : List Note) : Prop := ∀ error, .heartbeatFailed error ∉ notes

/-- The run has neither succeeded nor failed nor given up its lease. -/
def Unfinished (notes : List Note) : Prop :=
  .completeReturned ∉ notes ∧ .lossCaught ∉ notes ∧ ∀ input, .failCalled input ∉ notes

/-- What a call may have before it. -/
def Note.Allowed (note : Note) (earlier : List Note) : Prop :=
  match note with
  | .completeCalled _ => (∀ input, .completeCalled input ∉ earlier) ∧ Healthy earlier
  | .completeReturned => ∀ input, .failCalled input ∉ earlier
  | .failCalled _ => Unfinished earlier ∧ Healthy earlier
  | _ => True

/-- Every call of the run was allowed when it was made. -/
def Lawful : List Note → Prop
  | [] => True
  | note :: earlier => note.Allowed earlier ∧ Lawful earlier

/-- **The outcome protocol**, of a state of a run. -/
structure WorkerState.KeepsProtocol (state : WorkerState) : Prop where
  lawful : Lawful state.notes
  stopped : ∀ result, state.phase = .ended result → state.timer = false ∧ state.inFlight = false

/-! ## The invariant -/

/-- What a phase says about the heartbeat and the notes. -/
def WorkerState.PhaseHolds (state : WorkerState) : Prop :=
  match state.phase with
  | .leasing => state.timer = false ∧ state.inFlight = false ∧ state.notes = []
  | .resolving _ => Unfinished state.notes ∧ ∀ input, .completeCalled input ∉ state.notes
  | .checking _ _ => (Unfinished state.notes ∧ ∀ input, .completeCalled input ∉ state.notes) ∧
      state.inFlight = true
  | .extracting _ => Unfinished state.notes ∧ ∀ input, .completeCalled input ∉ state.notes
  | .preparing _ => Unfinished state.notes ∧ ∀ input, .completeCalled input ∉ state.notes
  | .completing _ _ => Unfinished state.notes ∧ state.failure = none ∧ state.timer = false ∧
      state.inFlight = false
  | .stopping _ _ => Unfinished state.notes ∧ state.timer = false ∧ state.inFlight = true
  | .failing _ _ => state.timer = false ∧ state.inFlight = false
  | .ended _ => state.timer = false ∧ state.inFlight = false

/-- What every step of a run keeps. -/
structure WorkerState.Sound (state : WorkerState) : Prop where
  lawful : Lawful state.notes
  seen : state.failure = none ↔ Healthy state.notes
  single : state.inFlight = true → state.failure = none
  phase : state.PhaseHolds

theorem sound_opening : WorkerState.opening.Sound where
  lawful := trivial
  seen := iff_of_true rfl (by simp [Healthy, WorkerState.opening])
  single := by simp [WorkerState.opening]
  phase := ⟨rfl, rfl, rfl⟩

theorem WorkerState.Sound.protocol {state : WorkerState} (h : state.Sound) :
    state.KeepsProtocol := by
  refine ⟨h.lawful, ?_⟩
  intro result hended
  have hphase := h.phase
  rw [PhaseHolds, hended] at hphase
  exact hphase

theorem Unfinished.cons {note : Note} {notes : List Note} (h : Unfinished notes)
    (hreturned : note ≠ .completeReturned) (hloss : note ≠ .lossCaught)
    (hfail : ∀ input, note ≠ .failCalled input) : Unfinished (note :: notes) := by
  obtain ⟨hnotReturned, hnotLoss, hnotFail⟩ := h
  refine ⟨?_, ?_, ?_⟩
  · rw [List.mem_cons, not_or]
    exact ⟨hreturned.symm, hnotReturned⟩
  · rw [List.mem_cons, not_or]
    exact ⟨hloss.symm, hnotLoss⟩
  · intro input
    rw [List.mem_cons, not_or]
    exact ⟨(hfail input).symm, hnotFail input⟩

theorem Healthy.cons {note : Note} {notes : List Note} (hnote : ∀ error, note ≠ .heartbeatFailed error) :
    Healthy (note :: notes) ↔ Healthy notes := by
  unfold Healthy
  constructor
  · intro h error hmem
    exact h error (List.mem_cons_of_mem _ hmem)
  · intro h error hmem
    rcases List.mem_cons.mp hmem with hsame | hold
    · exact hnote error hsame.symm
    · exact h error hold

/-! ## The single moves -/

/-- The `catch` block behind its `stop`, when it does not overlook a failed heartbeat. -/
theorem handleFailure_sound {state : WorkerState} (lease : LeasedJob) {error : WorkerError}
    (hlawful : Lawful state.notes) (hseen : state.failure = none ↔ Healthy state.notes)
    (hunfinished : Unfinished state.notes) (htimer : state.timer = false)
    (hstopped : state.inFlight = false) (hattends : state.failure ≠ none → error.isLoss = true) :
    (state.handleFailure lease error).Sound := by
  unfold WorkerState.handleFailure
  simp only
  split
  · refine ⟨⟨trivial, hlawful⟩, ?_, ?_, ⟨htimer, hstopped⟩⟩
    · rw [hseen]
      exact (Healthy.cons (by simp)).symm
    · intro hflight
      rw [hstopped] at hflight
      cases hflight
  · rename_i hloss
    have hnone : state.failure = none := by
      by_contra hfailure
      exact hloss (hattends hfailure)
    refine ⟨⟨⟨hunfinished, hseen.mp hnone⟩, hlawful⟩, ?_, ?_, ⟨htimer, hstopped⟩⟩
    · rw [hseen]
      exact (Healthy.cons (by simp)).symm
    · intro hflight
      rw [hstopped] at hflight
      cases hflight

theorem raise_sound {state : WorkerState} (lease : LeasedJob) {error : WorkerError}
    (hlawful : Lawful state.notes) (hseen : state.failure = none ↔ Healthy state.notes)
    (hsingle : state.inFlight = true → state.failure = none) (hunfinished : Unfinished state.notes)
    (hattends : state.failure ≠ none → error.isLoss = true) : (state.raise lease error).Sound := by
  unfold WorkerState.raise
  split
  · rename_i hflight
    exact ⟨hlawful, hseen, hsingle, ⟨hunfinished, rfl, hflight⟩⟩
  · rename_i hflight
    exact handleFailure_sound lease hlawful hseen hunfinished rfl (by simpa using hflight) hattends

theorem checkpointRejected_isLoss : checkpointRejected.isLoss = true := by decide

theorem startBeat_sound {state : WorkerState} (h : state.Sound) (hhealthy : state.failure = none)
    (jobId : Uuid) :
    Lawful (state.startBeat jobId).notes ∧
      ((state.startBeat jobId).failure = none ↔ Healthy (state.startBeat jobId).notes) ∧
      ((state.startBeat jobId).inFlight = true → (state.startBeat jobId).failure = none) := by
  refine ⟨⟨trivial, h.lawful⟩, ?_, fun _ => hhealthy⟩
  unfold WorkerState.startBeat
  rw [h.seen]
  exact (Healthy.cons (by simp)).symm

/-- A checkpoint between two stages. -/
theorem enterCheckpoint_sound {state : WorkerState} (h : state.Sound) (work : Work) (stage : Stage)
    (hunfinished : Unfinished state.notes)
    (huncalled : ∀ input, .completeCalled input ∉ state.notes) :
    (state.enterCheckpoint work stage).Sound := by
  unfold WorkerState.enterCheckpoint
  split
  · exact raise_sound work.lease h.lawful h.seen h.single hunfinished
      fun _ => checkpointRejected_isLoss
  · rename_i hfailure
    have hnone : state.failure = none := by simpa using hfailure
    split
    · rename_i hflight
      exact ⟨h.lawful, h.seen, h.single, ⟨⟨hunfinished, huncalled⟩, hflight⟩⟩
    · obtain ⟨hlawful, hseen, hsingle⟩ := startBeat_sound h hnone work.lease.job.id
      refine ⟨hlawful, hseen, hsingle, ⟨⟨hunfinished.cons (by simp) (by simp) (by simp), ?_⟩, rfl⟩⟩
      intro input hmem
      rcases List.mem_cons.mp hmem with hsame | hold
      · cases hsame
      · exact huncalled input hold

/-- What an answered heartbeat leaves: no heartbeat in flight, and its failure noted. -/
theorem settleBeat_sound {state : WorkerState} (h : state.Sound)
    (answer : Except WorkerError Unit) :
    Lawful (state.settleBeat answer).notes ∧
      ((state.settleBeat answer).failure = none ↔ Healthy (state.settleBeat answer).notes) ∧
      (state.settleBeat answer).inFlight = false ∧
      (Unfinished state.notes → Unfinished (state.settleBeat answer).notes) ∧
      ((∀ input, .completeCalled input ∉ state.notes) →
        ∀ input, .completeCalled input ∉ (state.settleBeat answer).notes) := by
  have hfailed : ∀ error, Lawful (.heartbeatFailed error :: state.notes) ∧
      (some error = none ↔ Healthy (.heartbeatFailed error :: state.notes)) ∧
      (Unfinished state.notes → Unfinished (.heartbeatFailed error :: state.notes)) ∧
      ((∀ input, .completeCalled input ∉ state.notes) →
        ∀ input, .completeCalled input ∉ Note.heartbeatFailed error :: state.notes) := by
    intro error
    refine ⟨⟨trivial, h.lawful⟩, ?_, fun hold => hold.cons (by simp) (by simp) (by simp), ?_⟩
    · refine iff_of_false (by simp) ?_
      intro hhealthy
      exact hhealthy error List.mem_cons_self
    · intro hold input hmem
      rcases List.mem_cons.mp hmem with hsame | hmem
      · cases hsame
      · exact hold input hmem
  unfold WorkerState.settleBeat
  split
  · exact ⟨h.lawful, h.seen, rfl, id, id⟩
  · exact ⟨h.lawful, h.seen, rfl, id, id⟩
  · rename_i error _
    obtain ⟨hlawful, hseen, hunfinished, huncalled⟩ := hfailed error
    exact ⟨hlawful, hseen, rfl, hunfinished, huncalled⟩

theorem settleBeat_phase (state : WorkerState) (answer : Except WorkerError Unit) :
    (state.settleBeat answer).phase = state.phase ∧
      (state.settleBeat answer).timer = state.timer := by
  unfold WorkerState.settleBeat
  split <;> exact ⟨rfl, rfl⟩

/-- Whether an answer is a failure that the heartbeat keeps. -/
theorem settleBeat_failure {state : WorkerState} (hnone : state.failure = none)
    (answer : Except WorkerError Unit) :
    (state.settleBeat answer).failure ≠ none ↔
      ∃ failure, answer = .error failure ∧ failure ≠ .falsy := by
  unfold WorkerState.settleBeat
  split
  · simp [hnone]
  · simp [hnone]
  · rename_i error hfalsy
    simp only [ne_eq, reduceCtorEq, not_false_eq_true, Except.error.injEq, true_iff]
    exact ⟨error, rfl, fun h => hfalsy h⟩

/-- A stage behind a checkpoint that passed. -/
theorem enterStage_sound {state : WorkerState} (work : Work) (stage : Stage)
    (hlawful : Lawful state.notes) (hseen : state.failure = none ↔ Healthy state.notes)
    (hnone : state.failure = none) (hstopped : state.inFlight = false)
    (hunfinished : Unfinished state.notes)
    (huncalled : ∀ input, .completeCalled input ∉ state.notes) :
    (state.enterStage work stage).Sound := by
  cases stage with
  | extract => exact ⟨hlawful, hseen, fun _ => hnone, ⟨hunfinished, huncalled⟩⟩
  | prepare => exact ⟨hlawful, hseen, fun _ => hnone, ⟨hunfinished, huncalled⟩⟩
  | complete records =>
      refine ⟨⟨⟨huncalled, hseen.mp hnone⟩, hlawful⟩, ?_, fun _ => hnone,
        ⟨hunfinished.cons (by simp) (by simp) (by simp), hnone, rfl, hstopped⟩⟩
      unfold WorkerState.enterStage
      rw [hseen]
      exact (Healthy.cons (by simp)).symm

theorem proceed_sound {α : Type} {state : WorkerState} (h : state.Sound) (lease : LeasedJob)
    {answer : Except WorkerError α} {next : α → WorkerState} (hunfinished : Unfinished state.notes)
    (hattends : ∀ error, answer = .error error → state.failure ≠ none → error.isLoss = true)
    (hnext : ∀ value, answer = .ok value → (next value).Sound) :
    (state.proceed lease answer next).Sound := by
  cases answer with
  | error error =>
      exact raise_sound lease h.lawful h.seen h.single hunfinished (hattends error rfl)
  | ok value => exact hnext value rfl

/-- A phase in which a stage is awaited and no heartbeat is. -/
def Phase.isOpen : Phase → Bool
  | .resolving _ => true
  | .extracting _ => true
  | .preparing _ => true
  | _ => false

theorem phaseHolds_open {state : WorkerState} (hopen : state.phase.isOpen = true) :
    state.PhaseHolds ↔
      Unfinished state.notes ∧ ∀ input, .completeCalled input ∉ state.notes := by
  unfold WorkerState.PhaseHolds
  cases hphase : state.phase <;> simp_all [Phase.isOpen]

/-- The timer fires where a stage is awaited only. -/
theorem open_of_timer {state : WorkerState} (h : state.PhaseHolds) (htimer : state.timer = true)
    (hidle : state.inFlight = false) {jobId : Uuid} (hjob : state.jobId? = some jobId) :
    state.phase.isOpen = true := by
  unfold WorkerState.PhaseHolds at h
  unfold WorkerState.jobId? at hjob
  cases hphase : state.phase with
  | resolving lease => rfl
  | extracting work => rfl
  | preparing work => rfl
  | leasing => simp [hphase] at hjob
  | ended result => simp [hphase] at hjob
  | checking work stage => simp [hphase, hidle] at h
  | completing work records => simp [hphase, htimer] at h
  | stopping lease error => simp [hphase, htimer] at h
  | failing lease failure => simp [hphase, htimer] at h

theorem fireTimer_sound {state : WorkerState} (h : state.Sound) : state.fireTimer.Sound := by
  unfold WorkerState.fireTimer
  split
  · rename_i jobId hjob
    split
    · rename_i hfires
      obtain ⟨htimer, hnone, hidle⟩ := hfires
      have hopen := open_of_timer h.phase htimer hidle hjob
      obtain ⟨hunfinished, huncalled⟩ := (phaseHolds_open hopen).mp h.phase
      obtain ⟨hlawful, hseen, hsingle⟩ := startBeat_sound h hnone jobId
      have hstarted : (state.startBeat jobId).phase.isOpen = true := hopen
      refine ⟨hlawful, hseen, hsingle, (phaseHolds_open hstarted).mpr ⟨?_, ?_⟩⟩
      · exact hunfinished.cons (by simp) (by simp) (by simp)
      · intro input hmem
        rcases List.mem_cons.mp hmem with hsame | hold
        · cases hsame
        · exact huncalled input hold
    · exact h
  · exact h

/-! ## The steps -/

/-- The error of an answer. -/
def thrown {α : Type} : Except WorkerError α → Option WorkerError
  | .error error => some error
  | .ok _ => none

/-- The error with which a stage ends in a step. -/
def stageError (host : WorkerHost) (state : WorkerState) (event : WorkerEvent) :
    Option WorkerError :=
  match event, state.phase with
  | .resolved answer, .resolving lease => thrown (answer.bind (verify host lease.job))
  | .extracted answer content, .extracting work =>
      thrown (answer.bind fun _ => checkExtracted host work.lease.job content)
  | .prepared answer, .preparing _ => thrown (answer.bind checkPrepared)
  | _, _ => none

/-- The step does not throw past a failed heartbeat: where a heartbeat has
failed, a stage ends with no error but the loss of the lease; and where the run
has such an error in hand, the heartbeat that its `stop` awaits does not fail. -/
def WorkerState.Attends (host : WorkerHost) (state : WorkerState) (event : WorkerEvent) : Prop :=
  (∀ error, stageError host state event = some error → state.failure ≠ none →
    error.isLoss = true) ∧
  ∀ lease error failure, state.phase = .stopping lease error →
    event = .beatSettled (.error failure) → failure ≠ .falsy → error.isLoss = true

theorem receiveBeat_sound {host : WorkerHost} {state : WorkerState} (h : state.Sound)
    {answer : Except WorkerError Unit} (hattends : state.Attends host (.beatSettled answer)) :
    (state.receiveBeat answer).Sound := by
  unfold WorkerState.receiveBeat
  split
  · exact h
  rename_i hidle
  have hflight : state.inFlight = true := by simpa using hidle
  have hnone := h.single hflight
  obtain ⟨hlawful, hseen, hstopped, hunfinished, huncalled⟩ := settleBeat_sound h answer
  obtain ⟨hsamePhase, hsameTimer⟩ := settleBeat_phase state answer
  have hsingle : (state.settleBeat answer).inFlight = true →
      (state.settleBeat answer).failure = none := by
    intro hstill
    rw [hstopped] at hstill
    cases hstill
  have hphase := h.phase
  simp only
  split
  · rename_i work stage hchecking
    simp only [WorkerState.PhaseHolds, hchecking] at hphase
    split
    · exact raise_sound work.lease hlawful hseen hsingle (hunfinished hphase.1.1)
        fun _ => checkpointRejected_isLoss
    · rename_i hfailure
      exact enterStage_sound work stage hlawful hseen (by simpa using hfailure) hstopped
        (hunfinished hphase.1.1) (huncalled hphase.1.2)
  · rename_i lease error hstopping
    simp only [WorkerState.PhaseHolds, hstopping] at hphase
    refine handleFailure_sound lease hlawful hseen (hunfinished hphase.1)
      (hsameTimer.trans hphase.2.1) hstopped ?_
    intro hfailure
    obtain ⟨failure, hanswer, hfalsy⟩ := (settleBeat_failure hnone answer).mp hfailure
    rw [hanswer] at hattends
    exact hattends.2 lease error failure hstopping rfl hfalsy
  · rename_i hother hrest
    refine ⟨hlawful, hseen, hsingle, ?_⟩
    have hopen : state.phase.isOpen = true := by
      unfold WorkerState.PhaseHolds at hphase
      cases hcase : state.phase <;> simp_all [Phase.isOpen]
    rw [phaseHolds_open hopen] at hphase
    exact (phaseHolds_open (by rw [hsamePhase]; exact hopen)).mpr
      ⟨hunfinished hphase.1, huncalled hphase.2⟩

/-- **One step.** A step that throws past no failed heartbeat keeps the invariant. -/
theorem workerStep_sound (host : WorkerHost) (state : WorkerState) (event : WorkerEvent)
    (h : state.Sound) (hattends : state.Attends host event) :
    (workerStep host state event).Sound := by
  have hphase := h.phase
  unfold workerStep
  split
  · exact fireTimer_sound h
  · exact receiveBeat_sound h hattends
  · rename_i error hleasing
    simp only [WorkerState.PhaseHolds, hleasing] at hphase
    exact ⟨h.lawful, h.seen, h.single, hphase.1, hphase.2.1⟩
  · rename_i hleasing
    simp only [WorkerState.PhaseHolds, hleasing] at hphase
    exact ⟨h.lawful, h.seen, h.single, hphase.1, hphase.2.1⟩
  · rename_i lease hleasing
    simp only [WorkerState.PhaseHolds, hleasing] at hphase
    obtain ⟨htimer, hidle, hnotes⟩ := hphase
    have hnone : state.failure = none := by
      rw [h.seen, hnotes]
      simp [Healthy]
    have hunfinished : Unfinished state.notes := by
      rw [hnotes]
      simp [Unfinished]
    unfold WorkerState.proceed
    split
    · exact raise_sound lease h.lawful h.seen h.single hunfinished
        fun hfailure => absurd hnone hfailure
    · exact ⟨h.lawful, h.seen, h.single, ⟨hunfinished, by rw [hnotes]; simp⟩⟩
  · rename_i answer lease hresolving
    simp only [WorkerState.PhaseHolds, hresolving] at hphase
    refine proceed_sound h lease hphase.1 ?_ ?_
    · intro error herror
      exact hattends.1 error (by simp only [stageError, hresolving, herror, thrown])
    · intro artifact _
      exact enterCheckpoint_sound h ⟨lease, artifact⟩ .extract hphase.1 hphase.2
  · rename_i answer content work hextracting
    simp only [WorkerState.PhaseHolds, hextracting] at hphase
    refine proceed_sound h work.lease hphase.1 ?_ ?_
    · intro error herror
      exact hattends.1 error (by simp only [stageError, hextracting, herror, thrown])
    · intro _ _
      exact enterCheckpoint_sound h work .prepare hphase.1 hphase.2
  · rename_i answer work hpreparing
    simp only [WorkerState.PhaseHolds, hpreparing] at hphase
    refine proceed_sound h work.lease hphase.1 ?_ ?_
    · intro error herror
      exact hattends.1 error (by simp only [stageError, hpreparing, herror, thrown])
    · intro records _
      exact enterCheckpoint_sound h work (.complete records) hphase.1 hphase.2
  · rename_i answer work records hcompleting
    simp only [WorkerState.PhaseHolds, hcompleting] at hphase
    obtain ⟨hunfinished, hnone, htimer, hidle⟩ := hphase
    refine proceed_sound h work.lease hunfinished (fun _ _ hfailure => absurd hnone hfailure) ?_
    intro completed _
    refine ⟨⟨hunfinished.2.2, h.lawful⟩, ?_, h.single, ⟨htimer, hidle⟩⟩
    rw [h.seen]
    exact (Healthy.cons (by simp)).symm
  · rename_i jobId status lease failure hfailing
    simp only [WorkerState.PhaseHolds, hfailing] at hphase
    exact ⟨h.lawful, h.seen, h.single, hphase⟩
  · rename_i code retryable lease failure hfailing
    simp only [WorkerState.PhaseHolds, hfailing] at hphase
    exact ⟨h.lawful, h.seen, h.single, hphase⟩
  · rename_i error lease failure hother hfailing
    simp only [WorkerState.PhaseHolds, hfailing] at hphase
    exact ⟨h.lawful, h.seen, h.single, hphase⟩
  · exact h

/-- A step that throws past a failed heartbeat calls `fail` behind it. -/
theorem handleFailure_breaks {state : WorkerState} (lease : LeasedJob) {error : WorkerError}
    (hunhealthy : ¬ Healthy state.notes) (hloss : error.isLoss = false) :
    ¬ (state.handleFailure lease error).KeepsProtocol := by
  rintro ⟨hlawful, -⟩
  unfold WorkerState.handleFailure at hlawful
  simp only [hloss, Bool.false_eq_true, if_false] at hlawful
  exact hunhealthy hlawful.1.2

theorem raise_breaks {state : WorkerState} (h : state.Sound) (lease : LeasedJob)
    {error : WorkerError} (hfailure : state.failure ≠ none) (hloss : error.isLoss = false) :
    ¬ (state.raise lease error).KeepsProtocol := by
  have hidle : state.inFlight = false := by
    rw [← Bool.not_eq_true]
    exact fun hflight => hfailure (h.single hflight)
  unfold WorkerState.raise
  rw [hidle]
  exact handleFailure_breaks lease (fun hhealthy => hfailure (h.seen.mpr hhealthy)) hloss

theorem thrown_eq_some {α : Type} {answer : Except WorkerError α} {error : WorkerError} :
    thrown answer = some error ↔ answer = .error error := by
  cases answer <;> simp [thrown]

/-- A stage that ends with an error throws it. -/
theorem workerStep_of_stageError {host : WorkerHost} {state : WorkerState} {event : WorkerEvent}
    {error : WorkerError} (herror : stageError host state event = some error) :
    ∃ lease, workerStep host state event = state.raise lease error := by
  unfold stageError at herror
  split at herror
  · rename_i answer lease hresolving
    refine ⟨lease, ?_⟩
    simp only [workerStep, hresolving, thrown_eq_some.mp herror]
    rfl
  · rename_i answer content work hextracting
    refine ⟨work.lease, ?_⟩
    simp only [workerStep, hextracting, thrown_eq_some.mp herror]
    rfl
  · rename_i answer work hpreparing
    refine ⟨work.lease, ?_⟩
    simp only [workerStep, hpreparing, thrown_eq_some.mp herror]
    rfl
  · cases herror

/-- **The defect.** A step that throws past a failed heartbeat breaks the protocol. -/
theorem workerStep_breaks (host : WorkerHost) (state : WorkerState) (event : WorkerEvent)
    (h : state.Sound) (hoverlooks : ¬ state.Attends host event) :
    ¬ (workerStep host state event).KeepsProtocol := by
  by_cases hstage : ∀ error, stageError host state event = some error → state.failure ≠ none →
      error.isLoss = true
  · have hbeat : ¬ ∀ lease error failure, state.phase = .stopping lease error →
        event = .beatSettled (.error failure) → failure ≠ .falsy → error.isLoss = true :=
      fun hall => hoverlooks ⟨hstage, hall⟩
    push Not at hbeat
    obtain ⟨lease, error, failure, hstopping, rfl, hfalsy, hloss⟩ := hbeat
    have hphase := h.phase
    simp only [WorkerState.PhaseHolds, hstopping] at hphase
    have hsettled := settleBeat_sound h (.error failure)
    have hfailed : (state.settleBeat (.error failure)).failure ≠ none :=
      (settleBeat_failure (h.single hphase.2.2) _).mpr ⟨failure, rfl, hfalsy⟩
    have hstep : workerStep host state (.beatSettled (.error failure)) =
        (state.settleBeat (.error failure)).handleFailure lease error := by
      simp only [workerStep, WorkerState.receiveBeat, hphase.2.2, hstopping]
      rfl
    rw [hstep]
    exact handleFailure_breaks lease (fun hhealthy => hfailed (hsettled.2.1.mpr hhealthy))
      (by simpa using hloss)
  · push Not at hstage
    obtain ⟨error, herror, hfailure, hloss⟩ := hstage
    obtain ⟨lease, hstep⟩ := workerStep_of_stageError herror
    rw [hstep]
    exact raise_breaks h lease hfailure (by simpa using hloss)

/-- **The worker's outcome protocol.** Over all orders of answers, timer and
heartbeats, a run keeps the protocol in every state exactly when none of its
steps throws past a failed heartbeat. -/
theorem runOnce_protocol_iff (host : WorkerHost) (events : List WorkerEvent) :
    Throughout (workerStep host) WorkerState.KeepsProtocol .opening events ↔
      EachStep (workerStep host) (WorkerState.Attends host) .opening events :=
  throughout_iff_eachStep (workerStep_sound host) (fun _ h => h.protocol)
    (workerStep_breaks host) sound_opening events

/-! ## A sample run -/

/-- A host of the sample pipeline that takes every artifact. -/
def sampleWorkerHost : WorkerHost where
  providerName := js "local"
  model := js "e5"
  dimensions := 1536
  verifyAcceptedArtifact _ artifact := .ok artifact
  artifactSha256 _ := sampleArtifact

/-- A lease of a job of the sample pipeline, bound to the sample object. -/
def sampleWorkerLease : LeasedJob where
  job := {
    id := sampleId 7, tenantId := sampleId 1, documentVersionId := sampleId 3
    requestedByPrincipalId := sampleId 2, idempotencyKeySha256 := sampleArtifact
    requestSha256 := sampleArtifact, artifactSha256 := sampleArtifact
    pipelineConfigSha256 := sampleArtifact, workSha256 := sampleArtifact
    pipelineConfig := { sampleConfig "1.0.0" with extractorName := js "bounded_document_registry" }
    status := .processing, attemptCount := 1, maxAttempts := 3, availableAt := 0
    startedAt := some 0, finishedAt := none, leaseOwnerSha256 := none, leaseTokenSha256 := none
    leaseExpiresAt := none, heartbeatAt := none, artifactObjectId := some (sampleId 5)
    artifactScanId := some (sampleId 6), lastErrorCode := none, lastErrorRetryable := none
    createdAt := 0, updatedAt := 0 }
  leaseToken := sampleToken 'a'
  documentIdentity := ⟨js "manual", js "Manual", js "v1"⟩

/-- The lease is rejected by a heartbeat of the background while the text is
extracted; then the extractor throws. -/
def sampleOverlooked : List WorkerEvent := [
  .leaseSettled (.ok (some sampleWorkerLease)),
  .resolved (.ok ⟨[0x68, 0x6f, 0x6c, 0x61], js "manual.txt", sampleId 5, sampleId 6⟩),
  .beatSettled (.ok ()),
  .tick,
  .beatSettled (.error (.job (js "ingestion_lease_rejected") false)),
  .extracted (.error (.ingestion (js "extraction_failed") false)) [0x68, 0x6f, 0x6c, 0x61]]

/-- The sample run calls `fail` after it saw its lease rejected. -/
theorem overlooked_run_fails :
    ¬ Throughout (workerStep sampleWorkerHost) WorkerState.KeepsProtocol .opening
      sampleOverlooked := by
  intro hprotocol
  have hlawful := (throughout_end hprotocol).lawful
  have hnotes : (run (workerStep sampleWorkerHost) .opening sampleOverlooked).notes = [
      .failCalled {
        tenantId := sampleId 1, jobId := sampleId 7, leaseToken := sampleToken 'a'
        errorCode := js "extraction_failed", retryable := false, retryDelaySeconds := none },
      .heartbeatFailed (.job (js "ingestion_lease_rejected") false),
      .heartbeatCalled (sampleId 7),
      .heartbeatCalled (sampleId 7)] := by decide +kernel
  rw [hnotes] at hlawful
  exact hlawful.1.2 (.job (js "ingestion_lease_rejected") false)
    (List.mem_cons_self ..)

end Ingestion
