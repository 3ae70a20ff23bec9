import MuniRag.Cases.InMemory
import MuniRag.Cases.Postgres
import MuniRag.Lib.Runs

/-!
# Open blockers and the status of a case

A case with an unresolved blocker is meant to have status `blocked` until it is
closed.  `Board` is what matters of a case for this: its status and whether a
blocker is open.  Both repositories move the board in the same way
(`act_board`, `act_postgres_board`), and on the board the
question is decided once (`respected_after`): of all moves only one to
`ready_for_review` leaves an open blocker behind.

`set_step_state` to `in_progress` looks at the status first and
`resolve_blocker` looks at the open blockers; the two actions that set
`ready_for_review` look at neither.
-/

namespace Cases

open Results Runs

/-! ## The board of a case -/

/-- The status of a case and whether one of its blockers is open. -/
structure Board where
  status : CaseStatus
  pending : Bool
  deriving DecidableEq, Repr

/-- What an action does to the board.  After a blocker was resolved another
may still be open. -/
inductive Move
  | other
  | block
  | start
  | ready
  | addBlocker
  | resolve (stillOpen : Bool)
  | close
  deriving DecidableEq, Repr

def Action.move (action : Action) (stillOpen : Bool) : Move :=
  match action with
  | .setStepState _ .blocked => .block
  | .setStepState _ .inProgress => .start
  | .setStepState _ .readyForReview => .ready
  | .setValidationState .inReview => .ready
  | .addBlocker .. => .addBlocker
  | .resolveBlocker _ => .resolve stillOpen
  | .closeCase _ => .close
  | _ => .other

def Board.after (board : Board) : Move → Board
  | .other => board
  | .block => { board with status := .blocked }
  | .start => { board with status := if board.status = .blocked then .blocked else .active }
  | .ready => { board with status := .readyForReview }
  | .addBlocker => { status := .blocked, pending := true }
  | .resolve stillOpen => {
      status := if stillOpen then board.status else .active, pending := stillOpen }
  | .close => { board with status := .closed }

/-- Only an open blocker can be resolved. -/
def Board.allows (board : Board) : Move → Prop
  | .resolve _ => board.pending = true
  | _ => True

/-- **The invariant.**  While the case is not closed, an open blocker means
status `blocked`. -/
def Board.Respected (board : Board) : Prop :=
  board.status ≠ .closed → board.pending = true → board.status = .blocked

instance (board : Board) : Decidable board.Respected := by
  unfold Board.Respected
  infer_instance

/-- **Step lemma.**  On a case that is not closed the invariant survives every
move but one to `ready_for_review` with a blocker open. -/
theorem respected_after {board : Board} {move : Move} (h : board.Respected)
    (hopen : board.status ≠ .closed) (hallows : board.allows move) :
    (board.after move).Respected ↔ ¬ (move = .ready ∧ board.pending = true) := by
  cases move with
  | other => simpa [Board.after] using h
  | block => simp [Board.after, Board.Respected]
  | start =>
      have hblocked := h hopen
      by_cases hstatus : board.status = .blocked
      · simp [Board.after, Board.Respected, hstatus]
      · simpa [Board.after, Board.Respected, hstatus] using hblocked
  | ready => simp [Board.after, Board.Respected]
  | addBlocker => simp [Board.after, Board.Respected]
  | resolve stillOpen =>
      have hblocked := h hopen hallows
      cases stillOpen <;> simp [Board.after, Board.Respected, hblocked]
  | close => simp [Board.after, Board.Respected]

def StoredCase.board (record : StoredCase) : Board where
  status := record.status
  pending := record.hasOpenBlocker

/-- The actions that set `ready_for_review`, on a case with these steps. -/
def asksForReview (steps : List JsString) : Action → Prop
  | .setStepState stepId .readyForReview => stepId ∈ steps
  | .setValidationState .inReview => True
  | _ => False

theorem move_ready_iff {action : Action} {stillOpen : Bool} :
    action.move stillOpen = .ready ↔
      (∃ stepId, action = .setStepState stepId .readyForReview) ∨
        action = .setValidationState .inReview := by
  cases action with
  | setStepState stepId state => cases state <;> simp [Action.move]
  | setValidationState state => cases state <;> simp [Action.move]
  | _ => simp [Action.move]

/-! ## The in-memory repository -/

namespace InMemory

variable {repository : InMemory} {record next : StoredCase} {input : ActionInput}
variable {documentVersions : List JsString}

/-- The first open blocker with an id is open. -/
theorem hasOpenBlocker_of_find {blockerId : JsString} {blocker : BlockerRecord}
    (h : (record.blockers.find? (·.blockerId = blockerId)).filter (·.isOpen) = some blocker) :
    record.hasOpenBlocker = true := by
  obtain ⟨hfind, hopen⟩ := Option.filter_eq_some_iff.mp h
  exact List.any_eq_true.mpr ⟨blocker, List.mem_of_find?_eq_some hfind, hopen⟩

/-- The board moves as the action says. -/
theorem act_board (h : act documentVersions record input = .ok next) :
    next.board = record.board.after (input.action.move next.hasOpenBlocker) ∧
      record.board.allows (input.action.move next.hasOpenBlocker) := by
  cases haction : input.action with
  | setStepState stepId state =>
      simp only [act, haction, then_ok, return_ok] at h
      obtain ⟨_, _, rfl⟩ := h
      cases state <;>
        simp [StoredCase.board, StoredCase.hasOpenBlocker, Action.move, Board.after, Board.allows,
          statusAfterStep]
      split <;> simp_all
  | recordDocument requirementId state documentVersionId note =>
      simp only [act, haction, then_ok] at h
      obtain ⟨_, _, h⟩ := h
      split at h <;> obtain rfl := return_ok.mp h <;> exact ⟨rfl, trivial⟩
  | addBlocker blockerCode description =>
      simp only [act, haction] at h
      obtain rfl := return_ok.mp h
      simp [StoredCase.board, StoredCase.hasOpenBlocker, Action.move, Board.after, Board.allows,
        BlockerRecord.isOpen]
  | resolveBlocker blockerId =>
      simp only [act, haction, then_ok, orRefuse_ok, return_ok] at h
      obtain ⟨blocker, hblocker, rfl⟩ := h
      exact ⟨rfl, hasOpenBlocker_of_find hblocker⟩
  | setFollowUp followUpAt =>
      simp only [act, haction] at h
      obtain rfl := return_ok.mp h
      exact ⟨rfl, trivial⟩
  | setValidationState validationState =>
      simp only [act, haction] at h
      obtain rfl := return_ok.mp h
      cases validationState <;> exact ⟨rfl, trivial⟩
  | appendNote note =>
      simp only [act, haction] at h
      obtain rfl := return_ok.mp h
      exact ⟨rfl, trivial⟩
  | closeCase note =>
      simp only [act, haction] at h
      obtain rfl := return_ok.mp h
      exact ⟨rfl, trivial⟩

/-- An action that is accepted was applied to the current revision of a case
that is not closed, and the stored cases change in this case only. -/
theorem applyAction_ok {answer : InMemory × StoredCase}
    (h : applyAction repository record input = .ok answer) :
    record.revision = input.expectedRevision ∧ record.status ≠ .closed ∧
      ∃ acted, act repository.documentVersions record input = .ok acted ∧
        answer.2.board = acted.board ∧
        answer.1.cases =
          repository.cases.set (key answer.2.tenantId answer.2.caseId) answer.2 := by
  simp only [applyAction, then_ok, requireCurrent_ok, return_ok] at h
  obtain ⟨_, ⟨hrevision, hstatus⟩, acted, hacted, rfl⟩ := h
  exact ⟨hrevision, hstatus, acted, hacted, rfl, rfl⟩

/-- A call on the repository; `applyAction` gets the record that `get` reads. -/
inductive Command
  | create (input : CreateInput)
  | sealCreation (input : SealInput)
  | applyAction (tenantId caseId : JsString) (input : ActionInput)

/-- One call; a call that throws changes nothing. -/
def step (repository : InMemory) : Command → InMemory
  | .create input => settle repository ((repository.create input).map Prod.fst)
  | .sealCreation input => settle repository (repository.sealCreation input)
  | .applyAction tenantId caseId input =>
      match repository.get tenantId caseId with
      | none => repository
      | some record => settle repository ((applyAction repository record input).map Prod.fst)

/-- No case is stored yet. -/
def opening (workflows : JsMap JsString WorkflowSeed) (documentVersions : List JsString) :
    InMemory where
  cases := []
  workflows := workflows
  documentVersions := documentVersions
  creationAcks := []
  creationIndex := []

/-- Every stored case respects its open blockers. -/
def BlockersRespected (repository : InMemory) : Prop :=
  ∀ record ∈ repository.cases.values, record.board.Respected

/-- The call asks for review on the current revision of an unclosed case that
has an open blocker. -/
def Premature (repository : InMemory) : Command → Prop
  | .applyAction tenantId caseId input =>
      ∃ record, repository.get tenantId caseId = some record ∧
        record.revision = input.expectedRevision ∧ record.status ≠ .closed ∧
        record.hasOpenBlocker = true ∧
        asksForReview (record.steps.map (·.stepId)) input.action
  | _ => False

theorem create_cases {creation : CreateInput} {answer : InMemory × CreateResult}
    (h : create repository creation = .ok answer) :
    answer.1.cases = repository.cases ∨
      ∃ workflow, answer.1.cases = repository.cases.set
        (key creation.tenantId creation.caseId) (newCase workflow creation) := by
  simp only [create] at h
  split at h
  · obtain rfl := return_ok.mp h
    exact .inl rfl
  · simp only [then_ok, return_ok] at h
    obtain ⟨_, _, workflow, _, _, _, _, _, _, _, rfl⟩ := h
    exact .inr ⟨workflow, rfl⟩

/-- What a call leaves in the store: the old cases, a new case without
blockers, or a case that an action moved. -/
theorem step_cases (repository : InMemory) (command : Command) :
    (step repository command).cases = repository.cases ∨
    (∃ input workflow, (step repository command).cases = repository.cases.set
      (key input.tenantId input.caseId) (newCase workflow input)) ∨
    ∃ tenantId caseId input record next acted,
      command = .applyAction tenantId caseId input ∧
      repository.get tenantId caseId = some record ∧
      record.revision = input.expectedRevision ∧ record.status ≠ .closed ∧
      act repository.documentVersions record input = .ok acted ∧ next.board = acted.board ∧
      (step repository command).cases =
        repository.cases.set (key next.tenantId next.caseId) next := by
  cases command with
  | create input =>
      cases hcreate : repository.create input with
      | error error => exact .inl (by simp [step, hcreate, Except.map])
      | ok answer =>
          rcases create_cases hcreate with hsame | ⟨workflow, hcases⟩
          · exact .inl (by simp [step, hcreate, Except.map, hsame])
          · exact .inr (.inl ⟨input, workflow, by simp [step, hcreate, Except.map, hcases]⟩)
  | sealCreation input =>
      left
      cases hseal : repository.sealCreation input with
      | error error => simp [step, hseal]
      | ok answer =>
          have hok := hseal
          simp only [sealCreation, then_ok, return_ok] at hok
          obtain ⟨_, _, rfl⟩ := hok
          simp [step, hseal]
  | applyAction tenantId caseId input =>
      cases hget : repository.get tenantId caseId with
      | none => exact .inl (by simp [step, hget])
      | some record =>
          cases happly : applyAction repository record input with
          | error error => exact .inl (by simp [step, hget, happly, Except.map])
          | ok answer =>
              obtain ⟨hrevision, hstatus, acted, hacted, hboard, hcases⟩ := applyAction_ok happly
              refine .inr (.inr ⟨tenantId, caseId, input, record, answer.2, acted, rfl, hget,
                hrevision, hstatus, hacted, hboard, ?_⟩)
              simp [step, hget, happly, Except.map, hcases]

theorem newCase_respected (workflow : WorkflowSeed) (input : CreateInput) :
    (newCase workflow input).board.Respected := by
  simp [newCase, StoredCase.board, StoredCase.hasOpenBlocker, Board.Respected]

/-- An accepted action that moves to `ready_for_review` asked for review. -/
theorem asksForReview_of_act (h : act documentVersions record input = .ok next)
    (hready : input.action.move next.hasOpenBlocker = .ready) :
    asksForReview (record.steps.map (·.stepId)) input.action := by
  rcases move_ready_iff.mp hready with ⟨stepId, haction⟩ | haction
  · simp only [act, haction, then_ok, require_ok, return_ok] at h
    obtain ⟨_, hstep, -⟩ := h
    simpa [haction, asksForReview] using hstep
  · simp [haction, asksForReview]

theorem respected_step {command : Command} (h : BlockersRespected repository)
    (hgood : ¬ Premature repository command) : BlockersRespected (step repository command) := by
  rcases step_cases repository command with hsame | ⟨input, workflow, hcases⟩ |
    ⟨tenantId, caseId, input, record, next, acted, rfl, hget, hrevision, hstatus, hacted, hboard,
      hcases⟩
  · rwa [BlockersRespected, hsame]
  · intro other hother
    rcases JsMap.mem_values_set (hcases ▸ hother) with rfl | hold
    · exact newCase_respected workflow input
    · exact h other hold
  · intro other hother
    rcases JsMap.mem_values_set (hcases ▸ hother) with rfl | hold
    · obtain ⟨hafter, hallows⟩ := act_board hacted
      rw [hboard, hafter, respected_after (h record (JsMap.get_values hget)) hstatus hallows]
      rintro ⟨hready, hopen⟩
      exact hgood ⟨record, hget, hrevision, hstatus, hopen, asksForReview_of_act hacted hready⟩
    · exact h other hold

/-- A call that asks for review is accepted. -/
theorem act_of_asksForReview (documentVersions : List JsString)
    (h : asksForReview (record.steps.map (·.stepId)) input.action) :
    ∃ next, act documentVersions record input = .ok next := by
  cases haction : input.action with
  | setStepState stepId state =>
      rw [haction] at h
      cases state with
      | readyForReview =>
          have hstep : record.steps.any (·.stepId = stepId) = true := by
            simpa [asksForReview] using h
          simp only [act, haction, then_ok, require_ok, return_ok]
          exact ⟨_, (), hstep, rfl⟩
      | _ => cases h
  | setValidationState validationState =>
      exact ⟨_, by simp only [act, haction]; rfl⟩
  | _ => simp [haction, asksForReview] at h

theorem applyAction_of_act (hrevision : record.revision = input.expectedRevision)
    (hstatus : record.status ≠ .closed)
    (hacted : act repository.documentVersions record input = .ok next) :
    ∃ answer, applyAction repository record input = .ok answer := by
  have hcurrent : requireCurrent record input.expectedRevision = .ok () :=
    requireCurrent_ok.mpr ⟨hrevision, hstatus⟩
  simp only [applyAction, then_ok, return_ok]
  exact ⟨_, (), hcurrent, next, hacted, rfl⟩

theorem move_of_asksForReview {steps : List JsString} {action : Action} {stillOpen : Bool}
    (h : asksForReview steps action) : action.move stillOpen = .ready := by
  cases action with
  | setStepState stepId state => cases state <;> first | rfl | cases h
  | setValidationState validationState => cases validationState <;> first | rfl | cases h
  | _ => cases h

/-- A premature call is accepted, and the case it leaves does not respect its
open blocker. -/
theorem not_respected_step {command : Command} (h : BlockersRespected repository)
    (hpremature : Premature repository command) : ¬ BlockersRespected (step repository command) := by
  intro hafter
  cases command with
  | create input => exact hpremature
  | sealCreation input => exact hpremature
  | applyAction tenantId caseId input =>
      obtain ⟨record, hget, hrevision, hstatus, hopen, hasks⟩ := hpremature
      obtain ⟨acted, hacted⟩ := act_of_asksForReview repository.documentVersions hasks
      obtain ⟨answer, happly⟩ := applyAction_of_act hrevision hstatus hacted
      obtain ⟨-, -, acted', hacted', hboard, hcases⟩ := applyAction_ok happly
      obtain rfl : acted = acted' := Except.ok.inj (hacted.symm.trans hacted')
      obtain ⟨hmove, hallows⟩ := act_board hacted
      have hstored : answer.2 ∈ (step repository (.applyAction tenantId caseId input)).cases.values := by
        simp only [step, hget, happly, Except.map, settle_ok, hcases]
        exact JsMap.mem_values_set_self
      have hrespected := hafter answer.2 hstored
      rw [hboard, hmove, respected_after (h record (JsMap.get_values hget)) hstatus hallows]
        at hrespected
      exact hrespected ⟨move_of_asksForReview hasks, hopen⟩

/-- **Blockers and status, in memory.**  In a run every state respects the open
blockers exactly when no call of the run asks for review on a case with an open
blocker. -/
theorem blockers_respected_iff (workflows : JsMap JsString WorkflowSeed)
    (documentVersions : List JsString) (commands : List Command) :
    Throughout step BlockersRespected (opening workflows documentVersions) commands ↔
      EachStep step (fun repository command => ¬ Premature repository command)
        (opening workflows documentVersions) commands :=
  throughout_iff_eachStep (fun _ _ h hgood => respected_step h hgood) (fun _ h => h)
    (fun _ _ h hbad => not_respected_step h (not_not.mp hbad))
    (by simp [BlockersRespected, opening, JsMap.values]) commands

end InMemory

/-! ## The PostgreSQL repository -/

section Postgres

variable {host : SqlHost} {catalog : Catalog} {tables tables' : Tables} {key : CaseKey}
variable {record : StoredCase} {input : ActionInput}

/-- Some blocker of the case is open. -/
def Tables.pending (tables : Tables) (key : CaseKey) : Bool :=
  tables.blockers.any fun row => row.case = key ∧ row.isOpen

def Tables.board (tables : Tables) (row : CaseRow) : Board where
  status := row.status
  pending := tables.pending row.key

theorem pending_iff {tables : Tables} {key : CaseKey} :
    tables.pending key = true ↔ ∃ row ∈ tables.blockers, row.case = key ∧ row.isOpen = true := by
  simp [Tables.pending]

/-- The record that is read shows the board of its row. -/
theorem mapCase_board (row : CaseRow) : (mapCase host tables row).board = tables.board row := by
  have hmem (blocker : BlockerRow) : blocker ∈ Table.orderedBy (fun row => toLex (row.createdAt, row.id))
      (tables.blockers.filter (·.case = row.key)) ↔
        blocker ∈ tables.blockers ∧ blocker.case = row.key := by
    rw [Table.mem_orderedBy]
    simp
  have hpending : (mapCase host tables row).hasOpenBlocker = tables.pending row.key := by
    rw [Bool.eq_iff_iff, pending_iff]
    simp only [StoredCase.hasOpenBlocker, mapCase, List.any_map, List.any_eq_true, hmem]
    exact ⟨fun ⟨blocker, ⟨h, hcase⟩, hopen⟩ => ⟨blocker, h, hcase, hopen⟩,
      fun ⟨blocker, h, hcase, hopen⟩ => ⟨blocker, ⟨h, hcase⟩, hopen⟩⟩
  rw [StoredCase.board, Tables.board, hpending]
  rfl

/-! ### What the statements touch -/

/-- Neither case rows nor blockers change. -/
def SameBoards (tables tables' : Tables) : Prop :=
  tables'.cases = tables.cases ∧ tables'.blockers = tables.blockers

theorem updateStep_same {stepId : JsString} {state : StepState} {principalId : Uuid} {now : Time}
    (h : updateStep catalog tables key stepId state principalId now = .ok tables') :
    SameBoards tables tables' := by
  simp only [updateStep, then_ok, return_ok] at h
  obtain ⟨_, _, _, _, rfl⟩ := h
  exact ⟨rfl, rfl⟩

theorem upsertDocument_same {new : DocumentRow}
    (h : upsertDocument host catalog tables new = .ok tables') : SameBoards tables tables' := by
  simp only [upsertDocument, then_ok] at h
  obtain ⟨_, _, _, _, h⟩ := h
  split at h
  · obtain rfl := return_ok.mp h
    exact ⟨rfl, rfl⟩
  · simp only [then_ok, return_ok] at h
    obtain ⟨_, _, rfl⟩ := h
    exact ⟨rfl, rfl⟩

theorem insertEvent_same {new : EventRow} (h : insertEvent host catalog tables new = .ok tables') :
    SameBoards tables tables' := by
  simp only [insertEvent, then_ok, return_ok] at h
  obtain ⟨_, _, _, _, _, _, rfl⟩ := h
  exact ⟨rfl, rfl⟩

theorem insertSteps_same {principalId : Uuid} {now : Time} {index : Nat}
    {steps : List (JsString × JsString)}
    (h : insertSteps host catalog key principalId now tables index steps = .ok tables') :
    SameBoards tables tables' := by
  induction steps generalizing tables index with
  | nil =>
      obtain rfl := return_ok.mp h
      exact ⟨rfl, rfl⟩
  | cons step steps ih =>
      simp only [insertSteps, then_ok] at h
      obtain ⟨tables₁, hinsert, h⟩ := h
      simp only [insertStep, then_ok, return_ok] at hinsert
      obtain ⟨_, _, _, _, _, _, rfl⟩ := hinsert
      have hrest := ih h
      exact hrest

theorem insertBlocker_ok {new : BlockerRow}
    (h : insertBlocker host catalog tables new = .ok tables') :
    tables' = { tables with blockers := tables.blockers ++ [new] } := by
  simp only [insertBlocker, then_ok, return_ok] at h
  obtain ⟨_, _, _, _, _, _, rfl⟩ := h
  rfl

/-- A blocker that is resolved was open, and only blockers of the case change. -/
theorem resolveBlocker_ok {blockerId principalId : Uuid} {now : Time}
    (h : resolveBlocker catalog tables key blockerId principalId now = .ok tables') :
    tables.pending key = true ∧ tables'.cases = tables.cases ∧
      tables'.blockers = Table.updateWhere
        (fun row => row.case = key ∧ row.id = blockerId ∧ row.isOpen)
        (fun row => { row with
          resolvedAt := some now, resolvedByPrincipalId := some principalId })
        tables.blockers := by
  simp only [resolveBlocker, then_ok, require_ok, return_ok] at h
  obtain ⟨_, hone, _, _, rfl⟩ := h
  refine ⟨?_, rfl, rfl⟩
  obtain ⟨row, hrow⟩ := List.length_eq_one_iff.mp hone
  have hmem : row ∈ tables.blockers.filter fun row =>
      row.case = key ∧ row.id = blockerId ∧ row.isOpen := by
    rw [hrow]
    exact List.mem_singleton_self row
  obtain ⟨hstored, hmatch⟩ := List.mem_filter.mp hmem
  obtain ⟨hcase, -, hopen⟩ := of_decide_eq_true hmatch
  exact pending_iff.mpr ⟨row, hstored, hcase, hopen⟩

/-- The tables of an action on the case `key`: the other boards stay, and no
blocker of an unknown case appears. -/
structure OnlyTouches (key : CaseKey) (tables tables' : Tables) : Prop where
  cases : tables'.cases = tables.cases
  pending : ∀ other, other ≠ key → tables'.pending other = tables.pending other
  known : ∀ blocker ∈ tables'.blockers,
    blocker.case = key ∨ ∃ old ∈ tables.blockers, old.case = blocker.case

theorem SameBoards.onlyTouches (h : SameBoards tables tables') : OnlyTouches key tables tables' where
  cases := h.1
  pending other _ := by rw [Tables.pending, Tables.pending, h.2]
  known blocker hblocker := .inr ⟨blocker, h.2 ▸ hblocker, rfl⟩

theorem SameBoards.pending (h : SameBoards tables tables') : tables'.pending = tables.pending := by
  funext key
  rw [Tables.pending, Tables.pending, h.2]

theorem resolveBlocker_onlyTouches {blockerId principalId : Uuid} {now : Time}
    (h : resolveBlocker catalog tables key blockerId principalId now = .ok tables') :
    OnlyTouches key tables tables' := by
  obtain ⟨-, hcases, hblockers⟩ := resolveBlocker_ok h
  refine ⟨hcases, fun other hother => ?_, fun blocker hblocker => ?_⟩
  · rw [Bool.eq_iff_iff, pending_iff, pending_iff, hblockers]
    constructor
    · rintro ⟨row, hrow, hcase, hopen⟩
      rcases Table.mem_updateWhere.mp hrow with ⟨_, _, _, rfl⟩ | ⟨hstored, -⟩
      · exact absurd hopen (by simp [BlockerRow.isOpen])
      · exact ⟨row, hstored, hcase, hopen⟩
    · rintro ⟨row, hrow, hcase, hopen⟩
      exact ⟨row, Table.mem_updateWhere.mpr (.inr ⟨hrow, fun hp => hother (hcase ▸ hp.1)⟩), hcase,
        hopen⟩
  · rw [hblockers] at hblocker
    rcases Table.mem_updateWhere.mp hblocker with ⟨old, hold, hp, rfl⟩ | ⟨hstored, -⟩
    · exact .inl hp.1
    · exact .inr ⟨blocker, hstored, rfl⟩

theorem insertBlocker_onlyTouches {new : BlockerRow} (hnew : new.case = key)
    (h : insertBlocker host catalog tables new = .ok tables') : OnlyTouches key tables tables' := by
  obtain rfl := insertBlocker_ok h
  refine ⟨rfl, fun other hother => ?_, fun blocker hblocker => ?_⟩
  · simp [Tables.pending, hnew, hother.symm]
  · rcases List.mem_append.mp hblocker with hold | hadded
    · exact .inr ⟨blocker, hold, rfl⟩
    · exact .inl (List.mem_singleton.mp hadded ▸ hnew)

/-- The board moves as the action says. -/
theorem act_postgres_board {acted : Tables × Decided}
    (hpending : record.hasOpenBlocker = tables.pending key)
    (h : act host catalog tables key record input = .ok acted) :
    OnlyTouches key tables acted.1 ∧
      (⟨acted.2.status, acted.1.pending key⟩ : Board) =
        record.board.after (input.action.move (acted.1.pending key)) ∧
      record.board.allows (input.action.move (acted.1.pending key)) := by
  have hboard : record.board = ⟨record.status, tables.pending key⟩ := by
    rw [StoredCase.board, hpending]
  rw [hboard]
  cases haction : input.action with
  | setStepState stepId state =>
      simp only [act, haction, then_ok, return_ok] at h
      obtain ⟨_, _, tables₁, hstep, rfl⟩ := h
      have hsame := updateStep_same hstep
      refine ⟨hsame.onlyTouches, ?_⟩
      rw [hsame.pending]
      cases state <;> simp [Action.move, Board.after, Board.allows, statusAfterStep]
      split <;> simp_all
  | recordDocument requirementId state documentVersionId note =>
      simp only [act, haction, then_ok, return_ok] at h
      obtain ⟨_, _, _, _, _, _, _, _, _, _, tables₁, hdocument, rfl⟩ := h
      have hsame := upsertDocument_same hdocument
      refine ⟨hsame.onlyTouches, ?_⟩
      rw [hsame.pending]
      exact ⟨rfl, trivial⟩
  | addBlocker blockerCode description =>
      simp only [act, haction, then_ok, return_ok] at h
      obtain ⟨_, _, _, _, tables₁, hinsert, rfl⟩ := h
      refine ⟨insertBlocker_onlyTouches rfl hinsert, ?_⟩
      obtain rfl := insertBlocker_ok hinsert
      simp [Action.move, Board.after, Board.allows, Tables.pending, BlockerRow.case,
        BlockerRow.isOpen]
  | resolveBlocker blockerId =>
      simp only [act, haction, then_ok, return_ok] at h
      obtain ⟨_, _, _, _, tables₁, hresolve, rfl⟩ := h
      exact ⟨resolveBlocker_onlyTouches hresolve, rfl, (resolveBlocker_ok hresolve).1⟩
  | setFollowUp followUpAt =>
      simp only [act, haction] at h
      obtain rfl := return_ok.mp h
      exact ⟨SameBoards.onlyTouches ⟨rfl, rfl⟩, rfl, trivial⟩
  | setValidationState validationState =>
      simp only [act, haction] at h
      obtain rfl := return_ok.mp h
      refine ⟨SameBoards.onlyTouches ⟨rfl, rfl⟩, ?_⟩
      cases validationState <;> exact ⟨rfl, trivial⟩
  | appendNote note =>
      simp only [act, haction] at h
      obtain rfl := return_ok.mp h
      exact ⟨SameBoards.onlyTouches ⟨rfl, rfl⟩, rfl, trivial⟩
  | closeCase note =>
      simp only [act, haction] at h
      obtain rfl := return_ok.mp h
      exact ⟨SameBoards.onlyTouches ⟨rfl, rfl⟩, rfl, trivial⟩

theorem updateCase_ok {old new : CaseRow} (h : updateCase host catalog tables old new = .ok tables') :
    tables' = { tables with
      cases := Table.updateWhere (·.key = old.key) (fun _ => new) tables.cases } := by
  simp only [updateCase, then_ok, return_ok] at h
  obtain ⟨_, _, _, _, _, _, rfl⟩ := h
  rfl

theorem case?_some {row : CaseRow} (h : tables.case? key = some row) :
    row ∈ tables.cases ∧ row.key = key :=
  ⟨List.mem_of_find?_eq_some h, by simpa using List.find?_some h⟩

/-- An accepted action that moves to `ready_for_review` asked for review. -/
theorem asksForReview_of_act_postgres {row : CaseRow} {acted : Tables × Decided} {stillOpen : Bool}
    (hkey : row.key = key)
    (h : act host catalog tables key (mapCase host tables row) input = .ok acted)
    (hready : input.action.move stillOpen = .ready) :
    asksForReview ((mapCase host tables row).steps.map (·.stepId)) input.action := by
  rcases move_ready_iff.mp hready with ⟨stepId, haction⟩ | haction
  · simp only [act, haction, updateStep, then_ok, require_ok] at h
    obtain ⟨_, _, _, ⟨_, hone, -⟩, -⟩ := h
    obtain ⟨step, hstep⟩ := List.length_eq_one_iff.mp hone
    have hmem := List.mem_of_mem_filter (hstep ▸ List.mem_singleton_self step)
    have hmatch := List.of_mem_filter (hstep ▸ List.mem_singleton_self step)
    obtain ⟨hcase, rfl⟩ := of_decide_eq_true hmatch
    rw [haction]
    refine List.mem_map.mpr ⟨step.record, List.mem_map_of_mem ?_, rfl⟩
    rw [Table.mem_orderedBy, List.mem_filter]
    exact ⟨hmem, by simp [hcase, hkey]⟩
  · simp [haction, asksForReview]

/-- **An accepted action on the tables.**  The case row is replaced by one that
the action's move leads to; the boards of the other cases stay. -/
theorem applyAction_tables {row : CaseRow} {out : Outcome} (hrow : tables.case? key = some row)
    (hkey : key.1 < 16 ^ 32 ∧ key.2 < 16 ^ 32)
    (h : applyAction host catalog tables (mapCase host tables row) input = .ok out) :
    row.revision = input.expectedRevision ∧ row.status ≠ .closed ∧
      (input.action.move (out.tables.pending key) = .ready →
        asksForReview ((mapCase host tables row).steps.map (·.stepId)) input.action) ∧
      ∃ new : CaseRow, new.key = row.key ∧
        (⟨new.status, out.tables.pending key⟩ : Board) =
          (tables.board row).after (input.action.move (out.tables.pending key)) ∧
        (tables.board row).allows (input.action.move (out.tables.pending key)) ∧
        out.tables.cases = Table.updateWhere (·.key = key) (fun _ => new) tables.cases ∧
        (∀ other, other ≠ key → out.tables.pending other = tables.pending other) ∧
        ∀ blocker ∈ out.tables.blockers,
          blocker.case = key ∨ ∃ old ∈ tables.blockers, old.case = blocker.case := by
  obtain ⟨-, hrowKey⟩ := case?_some hrow
  have hboard : (mapCase host tables row).board = tables.board row := mapCase_board row
  simp only [applyAction, then_ok, throughCase_ok, requireCurrent_ok, castUuid, orRefuse_ok,
    return_ok] at h
  obtain ⟨_, ⟨hrevision, hstatus⟩, tenantId, htenant, caseId, hcase, acted, hacted, followUpAt, _,
    principalId, _, old, hold, tables₁, hupdate, eventId, _, tables₂, hevent, rfl⟩ := h
  obtain rfl : key.1 = tenantId := by
    have htext : (mapCase host tables row).tenantId = uuidText key.1 := by rw [← hrowKey]; rfl
    rw [htext, uuidValue_uuidText hkey.1] at htenant
    exact Option.some.inj htenant
  obtain rfl : key.2 = caseId := by
    have htext : (mapCase host tables row).caseId = uuidText key.2 := by rw [← hrowKey]; rfl
    rw [htext, uuidValue_uuidText hkey.2] at hcase
    exact Option.some.inj hcase
  have hpending : (mapCase host tables row).hasOpenBlocker = tables.pending key := by
    rw [← hrowKey]
    exact congrArg Board.pending hboard
  obtain ⟨htouches, hmove, hallows⟩ := act_postgres_board hpending hacted
  have hafter : tables₂.pending = acted.1.pending := by
    rw [(insertEvent_same hevent).pending, updateCase_ok hupdate]
    rfl
  have hold' := (case?_some (Option.filter_eq_some_iff.mp hold).1).2
  refine ⟨hrevision, hstatus, fun hready => asksForReview_of_act_postgres hrowKey hacted hready,
    old.assign acted.2 followUpAt principalId input.now, hold'.trans hrowKey.symm, ?_, ?_, ?_,
    fun other hother => ?_, ?_⟩
  · rw [hafter, ← hboard]
    exact hmove
  · rw [hafter, ← hboard]
    exact hallows
  · rw [(insertEvent_same hevent).1, updateCase_ok hupdate, ← htouches.cases]
    simp only [hold']
  · rw [hafter, htouches.pending other hother]
  · rw [(insertEvent_same hevent).2, updateCase_ok hupdate]
    exact htouches.known

/-! ### Runs -/

/-- A call of the handler, with the catalog as it is at that time. -/
inductive Command
  | create (catalog : Catalog) (input : CreateInput)
  | sealCreation (catalog : Catalog) (input : SealInput)
  | applyAction (catalog : Catalog) (tenantId caseId : JsString) (input : ActionInput)

/-- `get(client, principal.tenantId, case_id, true)` of the handler. -/
def existing (host : SqlHost) (tables : Tables) (tenantId caseId : JsString) :
    Except Refusal StoredCase := do
  let tenant ← castUuid tenantId
  let id ← castUuid caseId
  orRefuse (get host tables (tenant, id))
    (.case { code := "case_not_found", message := "Procedure case not found" })

def transaction (host : SqlHost) (tables : Tables) : Command → Except Refusal Tables
  | .create catalog input => do
      let out ← create host catalog tables input
      pure out.tables
  | .sealCreation catalog input => sealCreation host catalog tables input
  | .applyAction catalog tenantId caseId input => do
      let record ← existing host tables tenantId caseId
      let out ← applyAction host catalog tables record input
      pure out.tables

/-- One transaction; an error rolls it back. -/
def Tables.step (host : SqlHost) (tables : Tables) (command : Command) : Tables :=
  settle tables (transaction host tables command)

def Tables.empty : Tables where
  cases := []
  steps := []
  documents := []
  blockers := []
  events := []

/-- Every stored case respects its open blockers. -/
def Tables.BlockersRespected (tables : Tables) : Prop :=
  ∀ row ∈ tables.cases, (tables.board row).Respected

/-- The call asks for review on the current revision of an unclosed case that
has an open blocker. -/
def Tables.Premature (host : SqlHost) (tables : Tables) : Command → Prop
  | .applyAction _ tenantId caseId input =>
      ∃ record, existing host tables tenantId caseId = .ok record ∧
        record.revision = input.expectedRevision ∧ record.status ≠ .closed ∧
        record.hasOpenBlocker = true ∧
        asksForReview (record.steps.map (·.stepId)) input.action
  | _ => False

/-- The invariant of the runs: the boards, and that no blocker is orphaned. -/
structure Kept (tables : Tables) : Prop where
  known : ∀ blocker ∈ tables.blockers, ∃ row ∈ tables.cases, row.key = blocker.case
  respected : tables.BlockersRespected

theorem existing_ok {tenantId caseId : JsString}
    (h : existing host tables tenantId caseId = .ok record) :
    ∃ key row, key.1 < 16 ^ 32 ∧ key.2 < 16 ^ 32 ∧ tables.case? key = some row ∧
      record = mapCase host tables row := by
  simp only [existing, castUuid, then_ok, orRefuse_ok, get, Option.map_eq_some_iff] at h
  obtain ⟨tenant, htenant, id, hid, row, hrow, rfl⟩ := h
  exact ⟨(tenant, id), row, uuidValue_lt htenant, uuidValue_lt hid, hrow, rfl⟩

theorem insertCase_ok {new : CaseRow} (h : insertCase host catalog tables new = .ok tables') :
    (∀ row ∈ tables.cases, row.id ≠ new.id) ∧
      tables' = { tables with cases := tables.cases ++ [new] } := by
  simp only [insertCase, then_ok, distinct_ok, return_ok] at h
  obtain ⟨_, _, _, _, _, _, _, hid, _, _, _, _, _, _, rfl⟩ := h
  exact ⟨hid, rfl⟩

/-- What `create` leaves: one more case, with a fresh id and status `active`. -/
theorem create_ok {creation : CreateInput} {out : Outcome}
    (h : create host catalog tables creation = .ok out) :
    ∃ new : CaseRow, new.status = .active ∧ (∀ row ∈ tables.cases, row.id ≠ new.id) ∧
      out.tables.cases = tables.cases ++ [new] ∧ out.tables.blockers = tables.blockers := by
  simp only [create, then_ok, mapDuplicate_ok, insertCreation, return_ok] at h
  obtain ⟨_, _, _, _, _, _, _, _, _, _, _, _, _, _, _, _, _, _, tables₁, hcase, tables₂, hsteps,
    tables₃, hevent, rfl⟩ := h
  obtain ⟨hfresh, rfl⟩ := insertCase_ok hcase
  obtain ⟨hcases₂, hblockers₂⟩ := insertSteps_same hsteps
  obtain ⟨hcases₃, hblockers₃⟩ := insertEvent_same hevent
  exact ⟨_, rfl, hfresh, hcases₃.trans hcases₂, hblockers₃.trans hblockers₂⟩

theorem kept_create {creation : CreateInput} {out : Outcome} (h : Kept tables)
    (hcreate : create host catalog tables creation = .ok out) : Kept out.tables := by
  obtain ⟨new, hactive, hfresh, hcases, hblockers⟩ := create_ok hcreate
  have hsame : SameBoards { tables with cases := out.tables.cases } out.tables := ⟨rfl, hblockers⟩
  have hpending : out.tables.pending = tables.pending := hsame.pending
  refine ⟨fun blocker hblocker => ?_, fun row hrow => ?_⟩
  · obtain ⟨row, hrow, hkey⟩ := h.known blocker (hblockers ▸ hblocker)
    exact ⟨row, hcases ▸ List.mem_append_left _ hrow, hkey⟩
  · rw [Tables.board, hpending]
    rcases List.mem_append.mp (hcases ▸ hrow) with hold | hnew
    · exact h.respected row hold
    · -- No blocker can name the fresh case.
      obtain rfl := List.mem_singleton.mp hnew
      intro _ hopen
      obtain ⟨blocker, hblocker, hcase, -⟩ := pending_iff.mp hopen
      obtain ⟨owner, howner, hkey⟩ := h.known blocker hblocker
      exact absurd (congrArg Prod.snd (hkey.trans hcase)) (hfresh owner howner)

/-- Rewriting the row of a case keeps its owner. -/
theorem kept_rewrite {row new : CaseRow} (h : Kept tables) (hrow : row ∈ tables.cases)
    (hkey : new.key = row.key)
    (hcases : tables'.cases = Table.updateWhere (·.key = row.key) (fun _ => new) tables.cases)
    (hothers : ∀ other, other ≠ row.key → tables'.pending other = tables.pending other)
    (hblockers : ∀ blocker ∈ tables'.blockers,
      blocker.case = row.key ∨ ∃ old ∈ tables.blockers, old.case = blocker.case)
    (hnew : (tables'.board new).Respected) : Kept tables' := by
  have hkeys : tables'.cases.map CaseRow.key = tables.cases.map CaseRow.key := by
    rw [hcases]
    exact Table.map_updateWhere fun _ _ hmatch => hkey.trans hmatch.symm
  refine ⟨fun blocker hblocker => ?_, fun other hother => ?_⟩
  · have howner : blocker.case ∈ tables.cases.map CaseRow.key := by
      rcases hblockers blocker hblocker with hcase | ⟨old, hold, hcase⟩
      · exact hcase ▸ List.mem_map_of_mem hrow
      · obtain ⟨owner, howner, hkey⟩ := h.known old hold
        exact List.mem_map.mpr ⟨owner, howner, hkey.trans hcase⟩
    exact List.mem_map.mp (hkeys ▸ howner)
  · rcases Table.mem_updateWhere.mp (hcases ▸ hother) with ⟨_, _, _, rfl⟩ | ⟨hstored, hne⟩
    · exact hnew
    · rw [Tables.board, hothers other.key hne]
      exact h.respected other hstored

theorem kept_step {command : Command} (h : Kept tables)
    (hgood : ¬ tables.Premature host command) : Kept (tables.step host command) := by
  refine settle_keeps h fun tables' hok => ?_
  cases command with
  | create catalog creation =>
      simp only [transaction, then_ok, return_ok] at hok
      obtain ⟨out, hcreate, rfl⟩ := hok
      exact kept_create h hcreate
  | sealCreation catalog creation =>
      simp only [transaction, sealCreation, then_ok, orRefuse_ok, Option.filter_eq_some_iff] at hok
      obtain ⟨_, _, _, _, _, _, _, _, row, ⟨hrow, -⟩, hupdate⟩ := hok
      obtain rfl := updateCase_ok hupdate
      obtain ⟨hmem, hkey⟩ := case?_some hrow
      refine kept_rewrite h hmem ?_ rfl (fun _ _ => rfl)
        (fun blocker hblocker => .inr ⟨blocker, hblocker, rfl⟩) ?_
      · rfl
      · exact h.respected row hmem
  | applyAction catalog tenantId caseId input =>
      simp only [transaction, then_ok, return_ok] at hok
      obtain ⟨record, hread, out, happly, rfl⟩ := hok
      obtain ⟨key, row, hkey₁, hkey₂, hrow, rfl⟩ := existing_ok hread
      obtain ⟨hmem, rfl⟩ := case?_some hrow
      obtain ⟨hrevision, hstatus, hasks, new, hkey, hmove, hallows, hcases, hothers, hblockers⟩ :=
        applyAction_tables hrow ⟨hkey₁, hkey₂⟩ happly
      refine kept_rewrite h hmem hkey hcases hothers hblockers ?_
      rw [Tables.board, hkey, hmove, respected_after (h.respected row hmem) hstatus hallows]
      rintro ⟨hready, hopen⟩
      refine hgood ⟨_, hread, hrevision, hstatus, ?_, hasks hready⟩
      exact (congrArg Board.pending (mapCase_board row)).trans hopen

/-- **Blockers and status, in PostgreSQL.**  In a run in which no call asks for
review on a case with an open blocker every state respects the open blockers. -/
theorem Tables.blockers_respected (host : SqlHost) (commands : List Command)
    (hgood : EachStep (Tables.step host)
      (fun tables command => ¬ tables.Premature host command) .empty commands) :
    Throughout (Tables.step host) Tables.BlockersRespected .empty commands :=
  throughout_of_invariant (fun _ _ h hgood => kept_step h hgood) (fun _ h => h.respected)
    ⟨by simp [Tables.empty], by simp [Tables.empty, Tables.BlockersRespected]⟩ hgood

end Postgres

/-- **Blocked while a blocker is open.**  In memory the law holds throughout a
run exactly when no call of the run asks for review on a case with an open
blocker; on the tables it holds throughout every such run. -/
theorem blocked_while_open (workflows : JsMap JsString WorkflowSeed)
    (documentVersions : List JsString) (host : SqlHost) :
    (∀ commands : List InMemory.Command,
      Throughout InMemory.step InMemory.BlockersRespected
          (InMemory.opening workflows documentVersions) commands ↔
        EachStep InMemory.step (fun repository command => ¬ repository.Premature command)
          (InMemory.opening workflows documentVersions) commands) ∧
    ∀ commands : List Command,
      EachStep (Tables.step host) (fun tables command => ¬ tables.Premature host command)
          .empty commands →
        Throughout (Tables.step host) Tables.BlockersRespected .empty commands :=
  ⟨InMemory.blockers_respected_iff workflows documentVersions, Tables.blockers_respected host⟩

/-! ## A case in review with an open blocker -/

def sampleSeed : WorkflowSeed where
  tenantId := sampleUuid 1
  workflowVersionId := sampleUuid 2
  versionNumber := 1
  jurisdiction := js "Guatemala"
  isApproved := true
  steps := [(js "s1", js "Paso")]

def sampleCreate : CreateInput where
  caseId := sampleUuid 3
  eventId := sampleUuid 4
  tenantId := sampleUuid 1
  caseKey := js "caso-1"
  workflowVersionId := sampleUuid 2
  jurisdiction := js "Guatemala"
  subjectReference := none
  communityReference := none
  followUpAt := none
  principalId := sampleUuid 5
  now := 0
  requestSha256 := js "00"

def sampleAction (revision : Nat) (event : Nat) (action : Action) : ActionInput where
  expectedRevision := revision
  action := action
  principalId := sampleUuid 5
  eventId := sampleUuid event
  entityId := sampleUuid 9
  now := revision

/-- Create a case, add a blocker, and ask for review while it is open. -/
def sampleInMemory : List InMemory.Command :=
  [.create sampleCreate,
    .applyAction (sampleUuid 1) (sampleUuid 3)
      (sampleAction 1 6 (.addBlocker (js "falta") (js "Falta un documento"))),
    .applyAction (sampleUuid 1) (sampleUuid 3) (sampleAction 2 7 (.setValidationState .inReview))]

def sampleHost : SqlHost where
  charLength := List.length
  hasControl _ := false
  bodyLength := List.length
  detailsLength _ := 2
  parseTime _ := none
  isoText _ := []

def sampleCatalog : Catalog where
  tenants := [0x40008000000000000001]
  principals := [(0x40008000000000000005, 0x40008000000000000001)]
  workflows := [{
    id := 0x40008000000000000002, tenantId := 0x40008000000000000001, versionNumber := 1
    isApproved := true, jurisdiction := js "Guatemala"
    steps := [{ stepId := some (js "s1"), id := none, title := some (js "Paso"), action := none }] }]
  documentVersions := []

def samplePostgres : List Command :=
  [.create sampleCatalog sampleCreate,
    .applyAction sampleCatalog (sampleUuid 1) (sampleUuid 3)
      (sampleAction 1 6 (.addBlocker (js "falta") (js "Falta un documento"))),
    .applyAction sampleCatalog (sampleUuid 1) (sampleUuid 3)
      (sampleAction 2 7 (.setValidationState .inReview))]

/-- In both repositories the case ends in `ready_for_review` with its blocker
open. -/
theorem review_with_open_blocker :
    ¬ Throughout InMemory.step InMemory.BlockersRespected
        (InMemory.opening [(joined [sampleUuid 1, sampleUuid 2], sampleSeed)] [])
        sampleInMemory ∧
      ¬ Throughout (Tables.step sampleHost) Tables.BlockersRespected .empty samplePostgres := by
  constructor
  · intro hlaw
    have hend := throughout_end hlaw
    revert hend
    unfold InMemory.BlockersRespected
    decide
  · intro hlaw
    have hend := throughout_end hlaw
    revert hend
    unfold Tables.BlockersRespected
    decide

end Cases
