import MuniRag.Cases.Postgres

/-!
# What an accepted action does to the tables

An accepted `applyAction` rewrites the row of its case, adds one event, and
changes nothing else of cases and events.  Whether an action is accepted depends
on the tables and on what is asked, and neither on the clock nor on which fresh
identifiers were drawn.
-/

namespace Cases

open Results

variable {host : SqlHost} {catalog : Catalog} {tables tables' : Tables} {key : CaseKey}
variable {record : StoredCase} {input : ActionInput}

/-! ## Frames -/

/-- Neither case rows nor events change. -/
def SameHistory (tables tables' : Tables) : Prop :=
  tables'.cases = tables.cases ∧ tables'.events = tables.events

theorem updateStep_history {stepId : JsString} {state : StepState} {principalId : Uuid}
    {now : Time}
    (h : updateStep catalog tables key stepId state principalId now = .ok tables') :
    SameHistory tables tables' := by
  simp only [updateStep, then_ok, return_ok] at h
  obtain ⟨_, _, _, _, rfl⟩ := h
  exact ⟨rfl, rfl⟩

theorem upsertDocument_history {new : DocumentRow}
    (h : upsertDocument host catalog tables new = .ok tables') : SameHistory tables tables' := by
  simp only [upsertDocument, then_ok] at h
  obtain ⟨_, _, _, _, h⟩ := h
  split at h
  · obtain rfl := return_ok.mp h
    exact ⟨rfl, rfl⟩
  · simp only [then_ok, return_ok] at h
    obtain ⟨_, _, rfl⟩ := h
    exact ⟨rfl, rfl⟩

theorem insertBlocker_history {new : BlockerRow}
    (h : insertBlocker host catalog tables new = .ok tables') : SameHistory tables tables' := by
  simp only [insertBlocker, then_ok, return_ok] at h
  obtain ⟨_, _, _, _, _, _, rfl⟩ := h
  exact ⟨rfl, rfl⟩

theorem resolveBlocker_history {blockerId principalId : Uuid} {now : Time}
    (h : resolveBlocker catalog tables key blockerId principalId now = .ok tables') :
    SameHistory tables tables' := by
  simp only [resolveBlocker, then_ok, return_ok] at h
  obtain ⟨_, _, _, _, rfl⟩ := h
  exact ⟨rfl, rfl⟩

/-- The statements of an action leave cases and events alone. -/
theorem act_history {acted : Tables × Decided}
    (h : act host catalog tables key record input = .ok acted) : SameHistory tables acted.1 := by
  cases haction : input.action with
  | setStepState stepId state =>
      simp only [act, haction, then_ok, return_ok] at h
      obtain ⟨_, _, _, hstep, rfl⟩ := h
      exact updateStep_history hstep
  | recordDocument requirementId state documentVersionId note =>
      simp only [act, haction, then_ok, return_ok] at h
      obtain ⟨_, _, _, _, _, _, _, _, _, _, _, hdocument, rfl⟩ := h
      exact upsertDocument_history hdocument
  | addBlocker blockerCode description =>
      simp only [act, haction, then_ok, return_ok] at h
      obtain ⟨_, _, _, _, _, hinsert, rfl⟩ := h
      exact insertBlocker_history hinsert
  | resolveBlocker blockerId =>
      simp only [act, haction, then_ok, return_ok] at h
      obtain ⟨_, _, _, _, _, hresolve, rfl⟩ := h
      exact resolveBlocker_history hresolve
  | _ =>
      simp only [act, haction] at h
      obtain rfl := return_ok.mp h
      exact ⟨rfl, rfl⟩

theorem case?_member {row : CaseRow} (h : tables.case? key = some row) :
    row ∈ tables.cases ∧ row.key = key :=
  ⟨List.mem_of_find?_eq_some h, by simpa using List.find?_some h⟩

/-- The row of a case after it was rewritten. -/
theorem case?_rewrite {row new : CaseRow} (h : tables.case? key = some row)
    (hcases : tables'.cases = Table.updateWhere (·.key = key) (fun _ => new) tables.cases)
    (hnew : new.key = key) : tables'.case? key = some new := by
  rw [Tables.case?] at h ⊢
  rw [hcases, Table.updateWhere]
  generalize tables.cases = rows at h
  induction rows with
  | nil => simp at h
  | cons first rest ih =>
      by_cases hfirst : first.key = key
      · simp [hfirst, hnew]
      · simp only [List.find?_cons, hfirst, decide_false] at h
        simpa [hfirst] using ih h

/-! ## The effect -/

/-- The event that an accepted action adds. -/
def CaseRow.nextEvent (row : CaseRow) (action : Action) (eventId principalId : Uuid) (now : Time) :
    EventRow where
  id := eventId
  tenantId := row.tenantId
  caseId := row.id
  actorPrincipalId := principalId
  eventType := "procedure_case." ++ action.type
  revision := row.revision + 1
  details := eventDetails action
  createdAt := now

/-- **What an accepted action does.**  `acted` is what the statements of the
action left and decided. -/
structure Advances (host : SqlHost) (catalog : Catalog) (tables : Tables) (row : CaseRow)
    (input : ActionInput) (out : Outcome) (acted : Tables × Decided) (new : CaseRow)
    (event : EventRow) : Prop where
  current : row.revision = input.expectedRevision
  unclosed : row.status ≠ .closed
  statements : act host catalog tables row.key (mapCase host tables row) input = .ok acted
  rewrites : ∃ followUpAt principalId, new = row.assign acted.2 followUpAt principalId input.now ∧
    castTime host acted.2.followUpAt = .ok followUpAt ∧
    uuidValue input.principalId = some principalId
  records : ∃ eventId principalId, uuidValue input.eventId = some eventId ∧
    event = row.nextEvent input.action eventId principalId input.now
  fresh : ∀ old ∈ tables.events, old.id ≠ event.id
  leaves : out.tables = { acted.1 with
    cases := Table.updateWhere (·.key = row.key) (fun _ => new) tables.cases
    events := tables.events ++ [event] }
  returns : out.record = mapCase host out.tables new

theorem applyAction_advances {row : CaseRow} {out : Outcome}
    (hrow : tables.case? key = some row) (hkey : key.1 < 16 ^ 32 ∧ key.2 < 16 ^ 32)
    (h : applyAction host catalog tables (mapCase host tables row) input = .ok out) :
    ∃ acted new event, Advances host catalog tables row input out acted new event := by
  obtain ⟨-, rfl⟩ := case?_member hrow
  have hbounds : row.tenantId < 16 ^ 32 ∧ row.id < 16 ^ 32 := hkey
  simp only [applyAction, then_ok, throughCase_ok, requireCurrent_ok, castUuid, orRefuse_ok,
    return_ok] at h
  obtain ⟨_, ⟨hrevision, hstatus⟩, tenantId, htenant, caseId, hcase, acted, hacted, followUpAt,
    hfollowUp, principalId, hprincipal, old, hold, tables₁, hupdate, eventId, hevent, tables₂,
    hinsert, rfl⟩ := h
  obtain rfl : row.tenantId = tenantId := by
    have htext : (mapCase host tables row).tenantId = uuidText row.tenantId := rfl
    rw [htext, uuidValue_uuidText hbounds.1] at htenant
    exact Option.some.inj htenant
  obtain rfl : row.id = caseId := by
    have htext : (mapCase host tables row).caseId = uuidText row.id := rfl
    rw [htext, uuidValue_uuidText hbounds.2] at hcase
    exact Option.some.inj hcase
  obtain ⟨hcases, hevents⟩ := act_history hacted
  obtain rfl : row = old := by
    have hsame : acted.1.case? row.key = tables.case? row.key := by
      rw [Tables.case?, Tables.case?, hcases]
    have hfound : acted.1.case? row.key = some old := (Option.filter_eq_some_iff.mp hold).1
    rw [hsame, hrow] at hfound
    exact Option.some.inj hfound
  simp only [updateCase, then_ok, return_ok] at hupdate
  obtain ⟨_, _, _, _, _, _, rfl⟩ := hupdate
  simp only [insertEvent, then_ok, distinct_ok, return_ok] at hinsert
  obtain ⟨_, _, _, hfresh, _, _, rfl⟩ := hinsert
  refine ⟨acted, _, _, hrevision, hstatus, hacted, ⟨followUpAt, principalId, rfl, hfollowUp,
    hprincipal⟩, ⟨eventId, principalId, hevent, rfl⟩, ?_, ?_, rfl⟩
  · intro event hmem
    exact hfresh event (hevents ▸ hmem)
  · simp only [hcases, hevents]
    rfl

/-! ## What the outcome depends on -/

/-- The identifiers drawn for an action are valid and name no stored row. -/
structure ActionInput.IsFresh (input : ActionInput) (tables : Tables) : Prop where
  event : ∃ id, uuidValue input.eventId = some id ∧ ∀ row ∈ tables.events, row.id ≠ id
  entity : ∃ id, uuidValue input.entityId = some id ∧
    (∀ row ∈ tables.documents, row.id ≠ id) ∧ ∀ row ∈ tables.blockers, row.id ≠ id

/-- The same action is asked for by the same principal on the same revision. -/
structure SameAsk (input other : ActionInput) : Prop where
  expectedRevision : other.expectedRevision = input.expectedRevision
  action : other.action = input.action
  principalId : other.principalId = input.principalId

variable {other : ActionInput}

/-- Whether a blocker of the case is open does not depend on who resolved one
and when. -/
theorem anyOpen_resolved {rows : List BlockerRow} {blockerId : Uuid} {p q : Uuid} {s t : Time} :
    (Table.updateWhere (fun row : BlockerRow => row.case = key ∧ row.id = blockerId ∧ row.isOpen)
        (fun row => { row with resolvedAt := some s, resolvedByPrincipalId := some p }) rows).any
        (fun row => row.case = key ∧ row.isOpen) =
      (Table.updateWhere (fun row : BlockerRow => row.case = key ∧ row.id = blockerId ∧ row.isOpen)
        (fun row => { row with resolvedAt := some t, resolvedByPrincipalId := some q }) rows).any
        (fun row => row.case = key ∧ row.isOpen) := by
  simp only [Table.updateWhere, List.any_map]
  congr 1
  funext row
  by_cases hmatch : row.case = key ∧ row.id = blockerId ∧ row.isOpen = true
  · simp only [Function.comp_apply, if_pos hmatch]
    rfl
  · simp only [Function.comp_apply, if_neg hmatch]

/-- An upsert goes through under another fresh identifier. -/
theorem upsertDocument_uniform {new again : DocumentRow} {id : Uuid} {s t : Time}
    (hagain : again = { new with id, createdAt := s, updatedAt := t })
    (hfresh : ∀ row ∈ tables.documents, row.id ≠ id)
    (h : upsertDocument host catalog tables new = .ok tables') :
    ∃ tables'', upsertDocument host catalog tables again = .ok tables'' := by
  subst hagain
  simp only [upsertDocument, then_ok] at h
  obtain ⟨_, hchecks, _, hforeign, hwrite⟩ := h
  by_cases hexists : ∃ row ∈ tables.documents,
      row.case = new.case ∧ row.requirementId = new.requirementId
  · refine ⟨{ tables with
      documents := Table.updateWhere
        (fun row => row.case = new.case ∧ row.requirementId = new.requirementId)
        (fun row => { row with
          documentVersionId := new.documentVersionId, state := new.state, note := new.note
          updatedByPrincipalId := new.updatedByPrincipalId, updatedAt := t })
        tables.documents }, ?_⟩
    simp only [upsertDocument, then_ok]
    refine ⟨_, hchecks, _, hforeign, ?_⟩
    exact if_pos hexists
  · refine ⟨{ tables with
      documents := tables.documents ++ [{ new with id, createdAt := s, updatedAt := t }] }, ?_⟩
    simp only [upsertDocument, then_ok]
    refine ⟨_, hchecks, _, hforeign, (if_neg hexists).trans ?_⟩
    simp only [then_ok, distinct_ok, return_ok]
    exact ⟨(), hfresh, trivial⟩

/-- The statements of an action go through with any fresh identifiers and at any
time, and decide the same. -/
theorem act_uniform {acted : Tables × Decided} (hask : SameAsk input other)
    (hfresh : other.IsFresh tables)
    (h : act host catalog tables key record input = .ok acted) :
    ∃ acted', act host catalog tables key record other = .ok acted' ∧ acted'.2 = acted.2 := by
  obtain ⟨id, hid, hdocuments, hblockers⟩ := hfresh.entity
  have hentity : castUuid other.entityId = .ok id := by rw [castUuid, orRefuse_ok, hid]
  have hprincipal := hask.principalId
  have haction' := hask.action
  cases haction : input.action with
  | setStepState stepId state =>
      rw [haction] at haction'
      simp only [act, haction, then_ok, return_ok] at h
      obtain ⟨principalId, hcast, tables₁, hstep, rfl⟩ := h
      simp only [updateStep, then_ok, return_ok] at hstep
      obtain ⟨_, hone, _, hforeign, rfl⟩ := hstep
      simp only [act, haction', then_ok, return_ok, updateStep]
      rw [hprincipal]
      exact ⟨_, ⟨principalId, hcast, _, ⟨_, hone, _, hforeign, rfl⟩, rfl⟩, rfl⟩
  | recordDocument requirementId state documentVersionId note =>
      rw [haction] at haction'
      simp only [act, haction, then_ok, return_ok] at h
      obtain ⟨_, hneeds, version, hversion, _, hstored, oldId, holdId, principalId, hcast, tables₁,
        hdocument, rfl⟩ := h
      obtain ⟨again, hagain⟩ := upsertDocument_uniform (s := other.now) (t := other.now) rfl
        hdocuments hdocument
      simp only [act, haction', then_ok, return_ok]
      rw [hprincipal]
      exact ⟨(again, record.decided), ⟨_, hneeds, version, hversion, _, hstored, id, hentity,
        principalId, hcast, again, hagain, rfl⟩, rfl⟩
  | addBlocker blockerCode description =>
      rw [haction] at haction'
      simp only [act, haction, then_ok, return_ok] at h
      obtain ⟨_, _, principalId, hcast, tables₁, hinsert, rfl⟩ := h
      simp only [insertBlocker, then_ok, return_ok] at hinsert
      obtain ⟨_, hchecks, _, _, _, hforeign, rfl⟩ := hinsert
      simp only [act, haction', then_ok, return_ok, insertBlocker, distinct_ok]
      rw [hprincipal]
      exact ⟨(_, { record.decided with status := .blocked }), ⟨id, hentity, principalId, hcast, _,
        ⟨_, hchecks, (), hblockers, _, hforeign, rfl⟩, rfl⟩, rfl⟩
  | resolveBlocker blockerId =>
      rw [haction] at haction'
      simp only [act, haction, then_ok, return_ok] at h
      obtain ⟨target, htarget, principalId, hcast, tables₁, hresolve, rfl⟩ := h
      simp only [resolveBlocker, then_ok, return_ok] at hresolve
      obtain ⟨_, hone, _, hforeign, rfl⟩ := hresolve
      simp only [act, haction', then_ok, return_ok, resolveBlocker]
      rw [hprincipal]
      refine ⟨_, ⟨target, htarget, principalId, hcast, _, ⟨_, hone, _, hforeign, rfl⟩, rfl⟩, ?_⟩
      simp only [anyOpen_resolved (p := principalId) (q := principalId) (s := other.now)
        (t := input.now)]
  | _ =>
      rw [haction] at haction'
      simp only [act, haction] at h
      obtain rfl := return_ok.mp h
      simp only [act, haction', return_ok]
      exact ⟨_, rfl, rfl⟩

/-- An action passes the binding of the row unless it reopens a closed case. -/
theorem enforceBinding_assign {row : CaseRow} {decided : Decided} {followUpAt : Option Time}
    {principalId : Uuid} {now : Time} :
    enforceBinding row (row.assign decided followUpAt principalId now) =
      raiseUnless (row.status = .closed → decided.status = .closed)
        "closed procedure cases cannot be reopened in v1" := by
  have hsealed : ¬ (row.initialResponseBody = none ∧ row.initialResponseBody ≠ none) :=
    fun h => h.2 h.1
  simp only [enforceBinding, CaseRow.assign, raiseUnless]
  rw [if_neg fun h => hsealed ⟨h.1, h.2.1⟩]
  simp [require]
  rfl

theorem updateCase_uniform {row : CaseRow} {decided : Decided} {followUpAt : Option Time}
    {principalId : Uuid} {s t : Time} (others : Tables)
    (h : updateCase host catalog tables row (row.assign decided followUpAt principalId s) =
      .ok tables') :
    ∃ tables'', updateCase host catalog others row
      (row.assign decided followUpAt principalId t) = .ok tables'' ∧
        tables''.events = others.events := by
  simp only [updateCase, then_ok, return_ok, enforceBinding_assign] at h ⊢
  obtain ⟨_, hopen, _, hchecks, _, hforeign, _⟩ := h
  exact ⟨_, ⟨_, hopen, _, hchecks, _, hforeign, rfl⟩, rfl⟩

theorem insertEvent_uniform {new again : EventRow} {id : Uuid} {s : Time} {others : Tables}
    (hagain : again = { new with id, createdAt := s })
    (hfresh : ∀ row ∈ others.events, row.id ≠ id)
    (h : insertEvent host catalog tables new = .ok tables') :
    ∃ tables'', insertEvent host catalog others again = .ok tables'' := by
  subst hagain
  simp only [insertEvent, then_ok, distinct_ok, return_ok] at h ⊢
  obtain ⟨_, hchecks, _, _, _, hactor, _⟩ := h
  exact ⟨_, _, hchecks, (), hfresh, _, hactor, rfl⟩

/-- **The outcome does not depend on the clock** nor on which fresh identifiers
were drawn. -/
theorem applyAction_uniform {out : Outcome} (hask : SameAsk input other)
    (hfresh : other.IsFresh tables)
    (h : applyAction host catalog tables record input = .ok out) :
    ∃ out', applyAction host catalog tables record other = .ok out' := by
  simp only [applyAction, then_ok, throughCase_ok, return_ok] at h
  obtain ⟨_, hcurrent, tenantId, htenant, caseId, hcase, acted, hacted, followUpAt, hfollowUp,
    principalId, hprincipal, old, hold, tables₁, hupdate, eventId, _, tables₂, hinsert, rfl⟩ := h
  obtain ⟨acted', hacted', hdecided⟩ := act_uniform hask hfresh hacted
  obtain ⟨hcases, _⟩ := act_history hacted
  obtain ⟨hcases', hevents'⟩ := act_history hacted'
  obtain ⟨freshId, hfreshId, hunused⟩ := hfresh.event
  have hsame : acted'.1.case? (tenantId, caseId) = acted.1.case? (tenantId, caseId) := by
    rw [Tables.case?, Tables.case?, hcases, hcases']
  obtain ⟨tables₃, hupdate', hevents₃⟩ :=
    updateCase_uniform (t := other.now) acted'.1 hupdate
  have hunused' : ∀ row ∈ tables₃.events, row.id ≠ freshId := by
    rw [hevents₃, hevents']
    exact hunused
  obtain ⟨tables₄, hinsert'⟩ := insertEvent_uniform (s := other.now) rfl hunused' hinsert
  refine ⟨⟨tables₄, mapCase host tables₄ (old.assign acted'.2 followUpAt principalId other.now)⟩,
    ?_⟩
  simp only [applyAction, then_ok, throughCase_ok, return_ok]
  refine ⟨(), ?_, tenantId, htenant, caseId, hcase, acted', hacted', followUpAt, ?_,
    principalId, ?_, old, ?_, tables₃, ?_, freshId, ?_, tables₄, ?_, rfl⟩
  · rw [hask.expectedRevision]
    exact hcurrent
  · rw [hdecided]
    exact hfollowUp
  · rw [hask.principalId]
    exact hprincipal
  · rw [hsame]
    exact hold
  · rw [hdecided]
    exact hupdate'
  · rw [castUuid, hfreshId]
    rfl
  · rw [hask.action]
    exact hinsert'

end Cases
