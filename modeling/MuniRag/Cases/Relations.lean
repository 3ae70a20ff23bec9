import MuniRag.Cases.Blockers
import MuniRag.Cases.Effects

/-!
# The rows of a case

The steps, documents, blockers and events of one case, as the `relations` of
the repository select them but in the order in which they were inserted, and
what the statements of an action make of them.  A statement on one case leaves
the rows of every other case alone.
-/

namespace Cases

open Results Table

structure Relations where
  steps : List StepRow
  documents : List DocumentRow
  blockers : List BlockerRow
  events : List EventRow

def Tables.relations (tables : Tables) (key : CaseKey) : Relations where
  steps := tables.steps.filter (·.case = key)
  documents := tables.documents.filter (·.case = key)
  blockers := tables.blockers.filter (·.case = key)
  events := tables.events.filter (·.case = key)

/-- `ORDER BY created_at, id`. -/
def DocumentRow.rank (row : DocumentRow) : Time ×ₗ Uuid := toLex (row.createdAt, row.id)
def BlockerRow.rank (row : BlockerRow) : Time ×ₗ Uuid := toLex (row.createdAt, row.id)
def EventRow.rank (row : EventRow) : Time ×ₗ Uuid := toLex (row.createdAt, row.id)

variable {host : SqlHost} {catalog : Catalog} {tables tables' : Tables} {key other : CaseKey}
variable {record : StoredCase} {input : ActionInput}

/-- The record that is read depends on the row and on the rows of its case. -/
theorem mapCase_congr {row : CaseRow} (h : tables'.relations row.key = tables.relations row.key) :
    mapCase host tables' row = mapCase host tables row := by
  simp only [Tables.relations, Relations.mk.injEq] at h
  obtain ⟨hsteps, hdocuments, hblockers, hevents⟩ := h
  simp only [mapCase, hsteps, hdocuments, hblockers, hevents]

/-- The columns of a case row that a record shows. -/
theorem mapCase_sealed (row : CaseRow) (body : Option JsString) (auditId : Option Uuid) :
    mapCase host tables { row with initialResponseBody := body, initialAuditId := auditId } =
      mapCase host tables row := rfl

/-! ## What the statements make of them -/

/-- The identifiers that the statements of an action are given. -/
structure ActionIds where
  principalId : Uuid
  entityId : Uuid
  versionId : Option Uuid

/-- `INSERT … ON CONFLICT (tenant_id, case_id, requirement_id) DO UPDATE` among
the documents of the case. -/
def upsertRow (rows : List DocumentRow) (new : DocumentRow) : List DocumentRow :=
  if ∃ row ∈ rows, row.requirementId = new.requirementId then
    updateWhere (·.requirementId = new.requirementId)
      (fun row => { row with
        documentVersionId := new.documentVersionId, state := new.state, note := new.note
        updatedByPrincipalId := new.updatedByPrincipalId, updatedAt := new.updatedAt }) rows
  else rows ++ [new]

/-- The document that `record_document` writes. -/
def ActionIds.document (ids : ActionIds) (key : CaseKey) (now : Time) (requirementId : JsString)
    (state : DocumentState) (note : Option JsString) : DocumentRow where
  id := ids.entityId
  tenantId := key.1
  caseId := key.2
  requirementId := requirementId
  documentVersionId := ids.versionId
  state := state
  note := note
  updatedByPrincipalId := ids.principalId
  createdAt := now
  updatedAt := now

/-- The blocker that `add_blocker` writes. -/
def ActionIds.blocker (ids : ActionIds) (key : CaseKey) (now : Time)
    (blockerCode description : JsString) : BlockerRow where
  id := ids.entityId
  tenantId := key.1
  caseId := key.2
  blockerCode := blockerCode
  description := description
  resolvedAt := none
  resolvedByPrincipalId := none
  createdByPrincipalId := ids.principalId
  createdAt := now

/-- The rows of the case after the statements of an action; a blocker that is
resolved is named by `entityId`. -/
def Relations.act (relations : Relations) (key : CaseKey) (ids : ActionIds) (now : Time) :
    Action → Relations
  | .setStepState stepId state => { relations with
      steps := updateWhere (·.stepId = stepId)
        (fun row => { row with state, updatedByPrincipalId := ids.principalId, updatedAt := now })
        relations.steps }
  | .recordDocument requirementId state _ note => { relations with
      documents := upsertRow relations.documents (ids.document key now requirementId state note) }
  | .addBlocker blockerCode description => { relations with
      blockers := relations.blockers ++ [ids.blocker key now blockerCode description] }
  | .resolveBlocker _ => { relations with
      blockers := updateWhere (fun row => row.id = ids.entityId ∧ row.isOpen)
        (fun row => { row with
          resolvedAt := some now, resolvedByPrincipalId := some ids.principalId })
        relations.blockers }
  | .setFollowUp _ | .setValidationState _ | .appendNote _ | .closeCase _ => relations

/-- An update of rows of one case, seen from that case. -/
theorem filter_update_self {ρ : Type} {rows : List ρ} {owner : ρ → CaseKey} {p : ρ → Prop}
    [DecidablePred p] {f : ρ → ρ} (howner : ∀ row, owner (f row) = owner row) :
    (updateWhere (fun row => owner row = key ∧ p row) f rows).filter (owner · = key) =
      updateWhere p f (rows.filter (owner · = key)) := by
  rw [filter_updateWhere fun row _ _ => by rw [howner]]
  refine List.map_congr_left fun row hrow => ?_
  have hkey : owner row = key := of_decide_eq_true (List.mem_filter.mp hrow).2
  simp only [hkey, true_and]

/-- An update of rows of one case, seen from another. -/
theorem filter_update_other {ρ : Type} {rows : List ρ} {owner : ρ → CaseKey} {p : ρ → Prop}
    [DecidablePred p] {f : ρ → ρ} (howner : ∀ row, owner (f row) = owner row)
    (hother : other ≠ key) :
    (updateWhere (fun row => owner row = key ∧ p row) f rows).filter (owner · = other) =
      rows.filter (owner · = other) := by
  refine filter_updateWhere_other fun row _ hp => ?_
  rw [howner, hp.1]
  exact ⟨hother.symm, hother.symm⟩

/-- A new row, seen from its case and from another. -/
theorem filter_append_self {ρ : Type} {rows : List ρ} {owner : ρ → CaseKey} {new : ρ}
    (hnew : owner new = key) :
    (rows ++ [new]).filter (owner · = key) = rows.filter (owner · = key) ++ [new] := by
  rw [List.filter_append, List.filter_singleton, decide_eq_true hnew]
  rfl

theorem filter_append_other {ρ : Type} {rows : List ρ} {owner : ρ → CaseKey} {new : ρ}
    (hnew : owner new = key) (hother : other ≠ key) :
    (rows ++ [new]).filter (owner · = other) = rows.filter (owner · = other) := by
  rw [List.filter_append, List.filter_singleton, decide_eq_false (hnew ▸ hother.symm)]
  exact List.append_nil _

theorem upsertDocument_rows {new : DocumentRow}
    (h : upsertDocument host catalog tables new = .ok tables') :
    tables'.documents.filter (·.case = new.case) =
        upsertRow (tables.documents.filter (·.case = new.case)) new ∧
      (∀ other, other ≠ new.case →
        tables'.documents.filter (·.case = other) = tables.documents.filter (·.case = other)) ∧
      tables' = { tables with documents := tables'.documents } := by
  simp only [upsertDocument, then_ok] at h
  obtain ⟨_, _, _, _, hwrite⟩ := h
  have hfound : (∃ row ∈ tables.documents.filter (·.case = new.case),
        row.requirementId = new.requirementId) ↔
      ∃ row ∈ tables.documents, row.case = new.case ∧ row.requirementId = new.requirementId := by
    simp only [List.mem_filter, decide_eq_true_eq, and_assoc]
  by_cases hexists : ∃ row ∈ tables.documents,
      row.case = new.case ∧ row.requirementId = new.requirementId
  · rw [if_pos hexists] at hwrite
    obtain rfl := return_ok.mp hwrite
    rw [upsertRow, if_pos (hfound.mpr hexists)]
    exact ⟨filter_update_self fun _ => rfl, fun _ hother => filter_update_other (fun _ => rfl) hother,
      rfl⟩
  · rw [if_neg hexists] at hwrite
    simp only [then_ok, return_ok] at hwrite
    obtain ⟨_, _, rfl⟩ := hwrite
    rw [upsertRow, if_neg fun hsome => hexists (hfound.mp hsome)]
    exact ⟨filter_append_self rfl, fun _ hother => filter_append_other rfl hother, rfl⟩

/-- **The rows of the case after an action**, and those of every other case. -/
theorem act_relations {acted : Tables × Decided}
    (h : act host catalog tables key record input = .ok acted) :
    ∃ ids : ActionIds,
      acted.1.relations key = (tables.relations key).act key ids input.now input.action ∧
        ∀ other, other ≠ key → acted.1.relations other = tables.relations other := by
  cases haction : input.action with
  | setStepState stepId state =>
      simp only [act, haction, then_ok, return_ok, updateStep] at h
      obtain ⟨principalId, _, _, ⟨_, _, _, _, rfl⟩, rfl⟩ := h
      refine ⟨⟨principalId, principalId, none⟩, ?_, fun other hother => ?_⟩
      · simp only [Tables.relations, Relations.act, Relations.mk.injEq, and_self, and_true]
        exact filter_update_self fun _ => rfl
      · simp only [Tables.relations, Relations.mk.injEq, and_self, and_true]
        exact filter_update_other (fun _ => rfl) hother
  | recordDocument requirementId state documentVersionId note =>
      simp only [act, haction, then_ok, return_ok] at h
      obtain ⟨_, _, version, _, _, _, id, _, principalId, _, _, hdocument, rfl⟩ := h
      obtain ⟨hself, hothers, hrest⟩ := upsertDocument_rows hdocument
      refine ⟨⟨principalId, id, version⟩, ?_, fun other hother => ?_⟩
      · rw [hrest]
        simp only [Tables.relations, Relations.act, Relations.mk.injEq, and_true, true_and]
        exact hself
      · rw [hrest]
        simp only [Tables.relations, Relations.mk.injEq, and_true, true_and]
        exact hothers other hother
  | addBlocker blockerCode description =>
      simp only [act, haction, then_ok, return_ok, insertBlocker] at h
      obtain ⟨id, _, principalId, _, _, ⟨_, _, _, _, _, _, rfl⟩, rfl⟩ := h
      refine ⟨⟨principalId, id, none⟩, ?_, fun other hother => ?_⟩
      · simp only [Tables.relations, Relations.act, Relations.mk.injEq, and_true, true_and]
        exact filter_append_self rfl
      · simp only [Tables.relations, Relations.mk.injEq, and_true, true_and]
        exact filter_append_other rfl hother
  | resolveBlocker blockerId =>
      simp only [act, haction, then_ok, return_ok, resolveBlocker] at h
      obtain ⟨id, _, principalId, _, _, ⟨_, _, _, _, rfl⟩, rfl⟩ := h
      refine ⟨⟨principalId, id, none⟩, ?_, fun other hother => ?_⟩
      · simp only [Tables.relations, Relations.act, Relations.mk.injEq, and_true, true_and]
        exact filter_update_self fun _ => rfl
      · simp only [Tables.relations, Relations.mk.injEq, and_true, true_and]
        exact filter_update_other (fun _ => rfl) hother
  | setFollowUp | setValidationState | appendNote | closeCase =>
      simp only [act, haction] at h
      obtain rfl := return_ok.mp h
      exact ⟨⟨0, 0, none⟩, rfl, fun _ _ => rfl⟩

/-! ## What a creation adds -/

/-- The rows that `insertSteps` inserts. -/
def stepRows (key : CaseKey) (principalId : Uuid) (now : Time) (index : Nat)
    (steps : List (JsString × JsString)) : List StepRow :=
  steps.mapIdx fun offset step => {
    caseId := key.2, tenantId := key.1, stepId := step.1, title := step.2
    ordinal := index + offset + 1, state := .notStarted, updatedByPrincipalId := principalId
    updatedAt := now }

theorem stepRows_cons {principalId : Uuid} {now : Time} {index : Nat} {step : JsString × JsString}
    {steps : List (JsString × JsString)} :
    stepRows key principalId now index (step :: steps) =
      { caseId := key.2, tenantId := key.1, stepId := step.1, title := step.2
        ordinal := index + 1, state := .notStarted, updatedByPrincipalId := principalId
        updatedAt := now } :: stepRows key principalId now (index + 1) steps := by
  have hshift : ∀ offset, index + (offset + 1) + 1 = index + 1 + offset + 1 := by
    intro offset
    omega
  simp only [stepRows, List.mapIdx_cons, Nat.add_zero, hshift]

theorem stepRows_case {principalId : Uuid} {now : Time} {index : Nat}
    {steps : List (JsString × JsString)} {row : StepRow}
    (h : row ∈ stepRows key principalId now index steps) : row.case = key := by
  obtain ⟨offset, hoffset, rfl⟩ := List.mem_mapIdx.mp h
  rfl

theorem insertSteps_rows {principalId : Uuid} {now : Time} {index : Nat}
    {steps : List (JsString × JsString)}
    (h : insertSteps host catalog key principalId now tables index steps = .ok tables') :
    tables' = { tables with
      steps := tables.steps ++ stepRows key principalId now index steps } := by
  induction steps generalizing tables index with
  | nil =>
      obtain rfl := return_ok.mp h
      simp [stepRows]
  | cons step steps ih =>
      simp only [insertSteps, then_ok] at h
      obtain ⟨tables₁, hinsert, h⟩ := h
      simp only [insertStep, then_ok, return_ok] at hinsert
      obtain ⟨_, _, _, _, _, _, rfl⟩ := hinsert
      rw [ih h, stepRows_cons]
      simp only [List.append_assoc, List.singleton_append]

/-- What `create` adds: a case with a fresh id at revision 1, its steps and its
first event. -/
structure Creates (tables : Tables) (new : CaseRow) (steps : List StepRow) (event : EventRow)
    (tables' : Tables) : Prop where
  fresh : ∀ row ∈ tables.cases, row.id ≠ new.id
  first : new.revision = 1 ∧ event.revision = 1
  owned : event.case = new.key ∧ ∀ row ∈ steps, row.case = new.key
  leaves : tables' = { tables with
    cases := tables.cases ++ [new]
    steps := tables.steps ++ steps
    events := tables.events ++ [event] }

theorem create_creates {creation : CreateInput} {out : Outcome}
    (h : create host catalog tables creation = .ok out) :
    ∃ new steps event, Creates tables new steps event out.tables ∧
      out.record = mapCase host out.tables new := by
  simp only [create, then_ok, mapDuplicate_ok, insertCreation, return_ok] at h
  obtain ⟨_, _, _, _, _, _, _, _, _, _, _, _, _, _, _, _, _, _, tables₁, hcase, tables₂, hsteps,
    tables₃, hevent, rfl⟩ := h
  obtain ⟨hfresh, rfl⟩ := insertCase_ok hcase
  obtain rfl := insertSteps_rows hsteps
  simp only [insertEvent, then_ok, return_ok] at hevent
  obtain ⟨_, _, _, _, _, _, rfl⟩ := hevent
  exact ⟨_, _, _, ⟨hfresh, ⟨rfl, rfl⟩, ⟨rfl, fun row hrow => stepRows_case hrow⟩, rfl⟩, rfl⟩

end Cases
