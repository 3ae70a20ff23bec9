import MuniRag.Cases.Relations

/-!
# The history of a case

Every accepted action adds one event with the next revision, whatever the
clock says.  The in-memory repository returns the events as it added them; the
PostgreSQL repository returns them by the instant and the random identifier of
each, which is the order of the revisions exactly as long as every new event
ranks after the earlier events of its case.
-/

namespace Cases

open Results Runs

/-! ## The law of a record -/

/-- What no action changes of a step. -/
def StepRecord.plan (step : StepRecord) : JsString × JsString × Nat :=
  (step.stepId, step.title, step.ordinal)

/-- **The history of a record as it is returned**: one event for each revision,
in order, and a version for each document that needs one. -/
structure StoredCase.HistoryKept (known : JsString → Prop) (record : StoredCase) : Prop where
  counted : record.revision = record.events.length
  ordered : record.events.map (·.revision) = List.range' 1 record.revision
  documents : ∀ document ∈ record.documents, document.state.needsVersion = true →
    ∃ version ∈ document.documentVersionId, known version

/-- What a step leaves of a record. -/
structure Continues (before after : StoredCase) : Prop where
  events : before.events <+: after.events
  plan : after.steps.map (·.plan) = before.steps.map (·.plan)
  closed : before.status = .closed → after = before

theorem Continues.refl (record : StoredCase) : Continues record record :=
  ⟨List.prefix_rfl, rfl, fun _ => rfl⟩

variable {known : JsString → Prop} {record after : StoredCase} {input : ActionInput}

/-- One more event with the next revision. -/
theorem StoredCase.HistoryKept.advance {event : EventRecord} (h : record.HistoryKept known)
    (hrevision : after.revision = record.revision + 1)
    (hevents : after.events = record.events ++ [event]) (hevent : event.revision = after.revision)
    (hdocuments : ∀ document ∈ after.documents, document.state.needsVersion = true →
      ∃ version ∈ document.documentVersionId, known version) : after.HistoryKept known := by
  refine ⟨?_, ?_, hdocuments⟩
  · rw [hrevision, hevents, List.length_append, h.counted]
    rfl
  · rw [hevents, List.map_append, h.ordered, hrevision, List.range'_concat, List.map_singleton,
      hevent, hrevision]
    congr 2
    omega

theorem map_updateFirst {ρ κ : Type} {p : ρ → Prop} [DecidablePred p] {f : ρ → ρ} {rows : List ρ}
    {column : ρ → κ} (h : ∀ row, column (f row) = column row) :
    (Table.updateFirst p f rows).map column = rows.map column := by
  induction rows with
  | nil => rfl
  | cons row rows ih =>
      rw [Table.updateFirst]
      split_ifs <;> simp [h, ih]

theorem mem_updateFirst {ρ : Type} {p : ρ → Prop} [DecidablePred p] {f : ρ → ρ} {rows : List ρ}
    {row : ρ} (h : row ∈ Table.updateFirst p f rows) :
    (∃ old ∈ rows, row = f old) ∨ row ∈ rows := by
  induction rows with
  | nil => cases h
  | cons first rows ih =>
      rw [Table.updateFirst] at h
      split_ifs at h with hp
      · rcases List.mem_cons.mp h with rfl | hmem
        · exact .inl ⟨first, List.mem_cons_self, rfl⟩
        · exact .inr (List.mem_cons_of_mem _ hmem)
      · rcases List.mem_cons.mp h with rfl | hmem
        · exact .inr List.mem_cons_self
        · rcases ih hmem with ⟨old, hold, hsame⟩ | hold
          · exact .inl ⟨old, List.mem_cons_of_mem _ hold, hsame⟩
          · exact .inr (List.mem_cons_of_mem _ hold)

/-! ## The in-memory repository -/

namespace InMemory

variable {repository : InMemory} {documentVersions : List JsString} {command : Command}

/-- The document versions that the repository knows of the tenant of a record. -/
def Knows (documentVersions : List JsString) (tenantId version : JsString) : Prop :=
  joined [tenantId, version] ∈ documentVersions

/-- What the action itself leaves alone. -/
structure Keeps (documentVersions : List JsString) (record acted : StoredCase) : Prop where
  events : acted.events = record.events
  revision : acted.revision = record.revision
  tenant : acted.tenantId = record.tenantId
  case : acted.caseId = record.caseId
  plan : acted.steps.map (·.plan) = record.steps.map (·.plan)
  documents : ∀ document ∈ acted.documents, document ∈ record.documents ∨
    (document.state.needsVersion = true → ∃ version ∈ document.documentVersionId,
      Knows documentVersions record.tenantId version)

theorem act_keeps (h : act documentVersions record input = .ok after) :
    Keeps documentVersions record after := by
  cases haction : input.action with
  | setStepState stepId state =>
      simp only [act, haction, then_ok, return_ok] at h
      obtain ⟨_, _, rfl⟩ := h
      refine ⟨rfl, rfl, rfl, rfl, ?_, fun document hdocument => .inl hdocument⟩
      exact map_updateFirst fun _ => rfl
  | recordDocument requirementId state documentVersionId note =>
      simp only [act, haction, then_ok, require_ok] at h
      obtain ⟨_, hneeds, h⟩ := h
      have hversion : state.needsVersion = true → ∃ version ∈ documentVersionId,
          Knows documentVersions record.tenantId version := by
        intro hstate
        obtain ⟨version, hfilter, hknown⟩ := (Option.any_eq_true _ _).mp (hneeds hstate)
        obtain ⟨hversion, _⟩ := Option.filter_eq_some_iff.mp hfilter
        have hstored : joined [record.tenantId, version] ∈ documentVersions :=
          of_decide_eq_true hknown
        exact ⟨version, hversion, hstored⟩
      split at h
      · obtain rfl := return_ok.mp h
        refine ⟨rfl, rfl, rfl, rfl, rfl, fun document hdocument => ?_⟩
        rcases mem_updateFirst hdocument with ⟨_, _, rfl⟩ | hold
        · exact .inr hversion
        · exact .inl hold
      · obtain rfl := return_ok.mp h
        refine ⟨rfl, rfl, rfl, rfl, rfl, fun document hdocument => ?_⟩
        rcases List.mem_append.mp hdocument with hold | hnew
        · exact .inl hold
        · rw [List.mem_singleton.mp hnew]
          exact .inr hversion
  | resolveBlocker blockerId =>
      simp only [act, haction, then_ok, return_ok] at h
      obtain ⟨_, _, rfl⟩ := h
      exact ⟨rfl, rfl, rfl, rfl, rfl, fun document hdocument => .inl hdocument⟩
  | addBlocker | setFollowUp | setValidationState | appendNote | closeCase =>
      simp only [act, haction] at h
      obtain rfl := return_ok.mp h
      exact ⟨rfl, rfl, rfl, rfl, rfl, fun document hdocument => .inl hdocument⟩

/-- **An accepted action.**  It adds one event with the next revision. -/
theorem applyAction_advances {answer : InMemory × StoredCase}
    (h : applyAction repository record input = .ok answer) :
    record.revision = input.expectedRevision ∧ record.status ≠ .closed ∧
      ∃ acted event, Keeps repository.documentVersions record acted ∧
        event.revision = record.revision + 1 ∧
        answer.2 = { acted with
          revision := record.revision + 1, updatedByPrincipalId := input.principalId
          updatedAt := input.now, events := record.events ++ [event] } ∧
        answer.1 = { repository with
          cases := repository.cases.set (key record.tenantId record.caseId) answer.2 } := by
  simp only [applyAction, then_ok, requireCurrent_ok, return_ok] at h
  obtain ⟨_, ⟨hrevision, hstatus⟩, acted, hacted, rfl⟩ := h
  have hkeeps := act_keeps hacted
  refine ⟨hrevision, hstatus, acted, {
    eventId := input.eventId, actorPrincipalId := input.principalId
    eventType := "procedure_case." ++ input.action.type, revision := acted.revision + 1
    details := eventDetails input.action, createdAt := input.now }, hkeeps, ?_, ?_, ?_⟩
  · exact congrArg (· + 1) hkeeps.revision
  · simp only [hkeeps.revision, hkeeps.events]
  · simp only [hkeeps.tenant, hkeeps.case]

/-- The history of a record goes on. -/
theorem applyAction_kept {answer : InMemory × StoredCase}
    (hkept : record.HistoryKept (Knows repository.documentVersions record.tenantId))
    (h : applyAction repository record input = .ok answer) :
    answer.2.HistoryKept (Knows repository.documentVersions answer.2.tenantId) ∧
      Continues record answer.2 := by
  obtain ⟨_, hstatus, acted, event, hkeeps, hevent, hnext, _⟩ := applyAction_advances h
  have htenant : answer.2.tenantId = record.tenantId := by rw [hnext, hkeeps.tenant]
  have hevents : answer.2.events = record.events ++ [event] := by rw [hnext]
  have hrevision : answer.2.revision = record.revision + 1 := by rw [hnext]
  refine ⟨?_, ?_, ?_, fun hclosed => absurd hclosed hstatus⟩
  · rw [htenant]
    refine hkept.advance hrevision hevents (hevent.trans hrevision.symm) ?_
    intro document hdocument hneeds
    rw [hnext] at hdocument
    rcases hkeeps.documents document hdocument with hold | hnew
    · exact hkept.documents document hold hneeds
    · exact hnew hneeds
  · rw [hevents]
    exact List.prefix_append _ _
  · rw [hnext]
    exact hkeeps.plan

theorem newCase_kept (workflow : WorkflowSeed) (creation : CreateInput) :
    (newCase workflow creation).HistoryKept known := by
  refine ⟨rfl, rfl, fun document hdocument => ?_⟩
  exact absurd hdocument List.not_mem_nil

/-- Every case is stored under its own key with its history kept. -/
def Tidy (repository : InMemory) : Prop :=
  ∀ entryKey record, repository.cases.get entryKey = some record →
    entryKey = key record.tenantId record.caseId ∧
      record.HistoryKept (Knows repository.documentVersions record.tenantId)

theorem tidy_set (h : Tidy repository)
    (hnew : record.HistoryKept (Knows repository.documentVersions record.tenantId)) :
    Tidy { repository with
      cases := repository.cases.set (key record.tenantId record.caseId) record } := by
  intro entryKey other hget
  rw [JsMap.get_set] at hget
  split_ifs at hget with hkey
  · obtain rfl := Option.some.inj hget
    exact ⟨hkey, hnew⟩
  · exact h entryKey other hget

/-- The maps beside the cases do not matter. -/
theorem tidy_congr {other : InMemory} (hcases : other.cases = repository.cases)
    (hversions : other.documentVersions = repository.documentVersions) (h : Tidy repository) :
    Tidy other := by
  intro entryKey record hget
  rw [hcases] at hget
  rw [hversions]
  exact h entryKey record hget

theorem tidy_create {creation : CreateInput} {answer : InMemory × CreateResult}
    (h : Tidy repository) (hcreate : repository.create creation = .ok answer) : Tidy answer.1 := by
  simp only [create] at hcreate
  split at hcreate
  · obtain rfl := return_ok.mp hcreate
    exact h
  · simp only [then_ok, return_ok] at hcreate
    obtain ⟨_, _, workflow, _, _, _, _, _, _, _, rfl⟩ := hcreate
    have hset := tidy_set h (newCase_kept workflow creation)
    exact tidy_congr rfl rfl hset

/-- **Every call keeps the histories.** -/
theorem tidy_step (command : Command) (h : Tidy repository) : Tidy (step repository command) := by
  cases command with
  | create creation =>
      refine settle_keeps h fun repository' hok => ?_
      cases hcreate : repository.create creation with
      | error error =>
          rw [hcreate] at hok
          cases hok
      | ok answer =>
          rw [hcreate] at hok
          obtain rfl : answer.1 = repository' := Except.ok.inj hok
          exact tidy_create h hcreate
  | sealCreation creation =>
      refine settle_keeps h fun repository' hok => ?_
      simp only [sealCreation, then_ok, return_ok] at hok
      obtain ⟨_, _, rfl⟩ := hok
      exact tidy_congr rfl rfl h
  | applyAction tenantId caseId input =>
      rw [step]
      split
      · exact h
      · next record hget =>
          refine settle_keeps h fun repository' hok => ?_
          cases happly : applyAction repository record input with
          | error error =>
              rw [happly] at hok
              cases hok
          | ok answer =>
              rw [happly] at hok
              obtain rfl : answer.1 = repository' := Except.ok.inj hok
              have hkept := (h _ record hget).2
              obtain ⟨_, _, acted, event, hkeeps, _, hnext, hstored⟩ := applyAction_advances happly
              have hset := tidy_set h (applyAction_kept hkept happly).1
              rw [hstored]
              have hkeys : key record.tenantId record.caseId =
                  key answer.2.tenantId answer.2.caseId := by
                rw [hnext, hkeeps.tenant, hkeeps.case]
              rw [hkeys]
              exact hset

/-! ### Updates -/

/-- A call of `applyAction`, on the record that `get` reads. -/
structure Update where
  tenantId : JsString
  caseId : JsString
  input : ActionInput

def update (repository : InMemory) (call : Update) : InMemory :=
  step repository (.applyAction call.tenantId call.caseId call.input)

/-- The case and the revision of an update that is accepted. -/
def accepted (repository : InMemory) (call : Update) : Option (JsString × Nat) := do
  let record ← repository.get call.tenantId call.caseId
  let _ ← (applyAction repository record call.input).toOption
  pure (key call.tenantId call.caseId, call.input.expectedRevision)

/-- The revision of the case that is stored under a key. -/
def revisionOf (repository : InMemory) (entryKey : JsString) : Nat :=
  ((repository.cases.get entryKey).map (·.revision)).getD 0

/-- What an update leaves: the repository itself, or the one of an accepted
action. -/
theorem update_cases (h : Tidy repository) (call : Update) :
    (accepted repository call = none ∧ update repository call = repository) ∨
      ∃ record answer, repository.get call.tenantId call.caseId = some record ∧
        applyAction repository record call.input = .ok answer ∧
        accepted repository call = some (key call.tenantId call.caseId, record.revision) ∧
        update repository call = { repository with
          cases := repository.cases.set (key call.tenantId call.caseId) answer.2 } := by
  cases hget : repository.get call.tenantId call.caseId with
  | none => exact .inl ⟨by simp [accepted, hget], by simp [update, step, hget]⟩
  | some record =>
      cases happly : applyAction repository record call.input with
      | error error =>
          left
          refine ⟨by simp [accepted, hget, happly, Except.toOption], ?_⟩
          simp [update, step, hget, happly, Except.map]
      | ok answer =>
          obtain ⟨hrevision, _, _, _, _, _, _, hstored⟩ := applyAction_advances happly
          refine .inr ⟨record, answer, rfl, happly, ?_, ?_⟩
          · simp [accepted, hget, happly, Except.toOption, hrevision]
          · have hkey := (h _ record hget).1
            simp only [update, step, hget, happly, Except.map, settle_ok]
            rw [hstored, hkey]

/-- An update goes on with the history of every case. -/
def EachContinues (repository : InMemory) (call : Update) : Prop :=
  ∀ entryKey before, repository.cases.get entryKey = some before →
    ∃ after, (update repository call).cases.get entryKey = some after ∧ Continues before after

theorem update_continues (h : Tidy repository) (call : Update) :
    EachContinues repository call := by
  intro entryKey before hbefore
  rcases update_cases h call with ⟨_, hsame⟩ | ⟨record, answer, hget, happly, _, hset⟩
  · rw [hsame]
    exact ⟨before, hbefore, Continues.refl before⟩
  · rw [hset, JsMap.get_set]
    split_ifs with hkey
    · subst hkey
      obtain rfl : record = before := Option.some.inj (hget.symm.trans hbefore)
      exact ⟨answer.2, rfl, (applyAction_kept (h _ record hget).2 happly).2⟩
    · exact ⟨before, hbefore, Continues.refl before⟩

/-- No update takes a revision back, and an accepted one passes the revision it
was issued against. -/
theorem update_revision (h : Tidy repository) (call : Update) :
    (∀ entryKey, revisionOf repository entryKey ≤ revisionOf (update repository call) entryKey) ∧
      ∀ entryKey n, accepted repository call = some (entryKey, n) →
        revisionOf repository entryKey ≤ n ∧ n < revisionOf (update repository call) entryKey := by
  rcases update_cases h call with ⟨hnone, hsame⟩ | ⟨record, answer, hget, happly, hsome, hset⟩
  · rw [hsame, hnone]
    exact ⟨fun _ => Nat.le_refl _, fun _ _ hout => nomatch hout⟩
  · obtain ⟨_, _, _, _, _, _, hnext, _⟩ := applyAction_advances happly
    have hrevision : answer.2.revision = record.revision + 1 := by rw [hnext]
    have hold : revisionOf repository (key call.tenantId call.caseId) = record.revision := by
      have hstored : repository.cases.get (key call.tenantId call.caseId) = some record := hget
      rw [revisionOf, hstored]
      rfl
    have hnew : revisionOf (update repository call) (key call.tenantId call.caseId) =
        record.revision + 1 := by
      rw [revisionOf, hset, JsMap.get_set, if_pos rfl]
      exact hrevision
    refine ⟨fun entryKey => ?_, fun entryKey n hout => ?_⟩
    · by_cases hkey : entryKey = key call.tenantId call.caseId
      · rw [hkey, hold, hnew]
        omega
      · rw [revisionOf, revisionOf, hset, JsMap.get_set, if_neg hkey]
    · rw [hsome] at hout
      obtain ⟨rfl, rfl⟩ := Prod.mk.inj (Option.some.inj hout)
      rw [hold, hnew]
      omega

/-- The law of the updates of a run. -/
structure Lawful (repository : InMemory) (calls : List Update) : Prop where
  states : Throughout update (fun repository => ∀ tenantId caseId record,
    repository.get tenantId caseId = some record →
      record.HistoryKept (Knows repository.documentVersions record.tenantId)) repository calls
  steps : EachStep update EachContinues repository calls
  once : (outputs update accepted repository calls).Nodup

/-- **Histories in memory.**  Whatever the clock says. -/
theorem updates_lawful (workflows : JsMap JsString WorkflowSeed) (documentVersions : List JsString)
    (commands : List Command) (calls : List Update) :
    Lawful (run step (opening workflows documentVersions) commands) calls := by
  have hopening : Tidy (opening workflows documentVersions) :=
    fun entryKey record hget => nomatch hget
  have hstart : Tidy (run step (opening workflows documentVersions) commands) :=
    run_invariant Tidy (fun _ command h => tidy_step command h) hopening commands
  have hkeep : ∀ repository call, Tidy repository → Tidy (update repository call) :=
    fun _ call h => tidy_step (.applyAction call.tenantId call.caseId call.input) h
  obtain ⟨hstates, hsteps⟩ := laws_of_invariant hkeep
    (P := fun repository => ∀ tenantId caseId record,
      repository.get tenantId caseId = some record →
        record.HistoryKept (Knows repository.documentVersions record.tenantId))
    (fun repository h tenantId caseId record hget => (h _ record hget).2)
    (fun repository call h => update_continues h call) hstart calls
  refine ⟨hstates, hsteps, ?_⟩
  exact outputs_nodup hkeep (fun repository call entryKey h => (update_revision h call).1 entryKey)
    (fun repository call entryKey n h hout => (update_revision h call).2 entryKey n hout)
    hstart calls

end InMemory

/-! ## The PostgreSQL repository -/

variable {host : SqlHost} {catalog : Catalog} {tables tables' : Tables} {key other : CaseKey}

theorem case?_append {new : CaseRow} (hcases : tables'.cases = tables.cases ++ [new])
    (hother : other ≠ new.key) : tables'.case? other = tables.case? other := by
  have hnone : [new].find? (fun row => row.key = other) = none := by
    simpa using hother.symm
  rw [Tables.case?, Tables.case?, hcases, List.find?_append, hnone, Option.or_none]

theorem case?_rewrite_other {new : CaseRow}
    (hcases : tables'.cases = Table.updateWhere (·.key = key) (fun _ => new) tables.cases)
    (hnew : new.key = key) (hother : other ≠ key) : tables'.case? other = tables.case? other := by
  rw [Tables.case?, Tables.case?, hcases, Table.updateWhere]
  induction tables.cases with
  | nil => rfl
  | cons row rows ih =>
      by_cases hrow : row.key = key
      · simp [hrow, hnew, hother.symm, ih]
      · by_cases hfound : row.key = other <;> simp [hrow, hfound, ih, hother]

/-- The revision of the case that is stored under a key. -/
def Tables.revision (tables : Tables) (key : CaseKey) : Nat :=
  ((tables.case? key).map (·.revision)).getD 0

theorem revision_some {row : CaseRow} (h : tables.case? key = some row) :
    tables.revision key = row.revision := by
  rw [Tables.revision, h]
  rfl

theorem revision_congr (h : tables'.case? key = tables.case? key) :
    tables'.revision key = tables.revision key := by
  rw [Tables.revision, Tables.revision, h]

/-- The rows of the case after an accepted action. -/
theorem advances_relations {row new : CaseRow} {out : Outcome} {acted : Tables × Decided}
    {event : EventRow} (h : Advances host catalog tables row input out acted new event) :
    (∃ ids : ActionIds, out.tables.relations row.key =
      { (tables.relations row.key).act row.key ids input.now input.action with
        events := (tables.relations row.key).events ++ [event] }) ∧
      ∀ other, other ≠ row.key → out.tables.relations other = tables.relations other := by
  obtain ⟨ids, hself, hothers⟩ := act_relations h.statements
  obtain ⟨eventId, principalId, _, rfl⟩ := h.records
  have hsteps : out.tables.steps = acted.1.steps := by rw [h.leaves]
  have hdocuments : out.tables.documents = acted.1.documents := by rw [h.leaves]
  have hblockers : out.tables.blockers = acted.1.blockers := by rw [h.leaves]
  have hevents : out.tables.events =
      tables.events ++ [row.nextEvent input.action eventId principalId input.now] := by
    rw [h.leaves]
  have howner : (row.nextEvent input.action eventId principalId input.now).case = row.key := rfl
  have hacted (other : CaseKey) : out.tables.relations other =
      { acted.1.relations other with
        events := out.tables.events.filter (·.case = other) } := by
    simp only [Tables.relations, hsteps, hdocuments, hblockers]
  refine ⟨⟨ids, ?_⟩, fun other hother => ?_⟩
  · rw [hacted, hself, hevents, filter_append_self howner]
    rfl
  · rw [hacted, hothers other hother, hevents, filter_append_other howner hother]
    rfl

theorem advances_cases {row new : CaseRow} {out : Outcome} {acted : Tables × Decided}
    {event : EventRow} (h : Advances host catalog tables row input out acted new event) :
    new.key = row.key ∧ new.revision = row.revision + 1 ∧
      out.tables.cases =
        Table.updateWhere (·.key = row.key) (fun _ => new) tables.cases := by
  obtain ⟨_, _, rfl, _, _⟩ := h.rewrites
  refine ⟨rfl, rfl, ?_⟩
  rw [h.leaves]

/-! ### One step -/

/-- The case tables and the tables that they refer to. -/
structure Archive where
  tables : Tables
  catalog : Catalog

/-- A call, or a change that another component makes to what a call reads. -/
inductive Archive.Event
  | create (input : CreateInput)
  | sealCreation (input : SealInput)
  | applyAction (tenantId caseId : JsString) (input : ActionInput)
  | maintain (catalog : Catalog)

/-- `FOREIGN KEY (document_version_id, tenant_id) … ON DELETE RESTRICT`. -/
def Tables.References (tables : Tables) (catalog : Catalog) : Prop :=
  ∀ document ∈ tables.documents, ∀ version ∈ document.documentVersionId,
    (document.tenantId, version) ∈ catalog.documentVersions

instance (tables : Tables) (catalog : Catalog) : Decidable (tables.References catalog) := by
  unfold Tables.References
  infer_instance

def Archive.step (host : SqlHost) (archive : Archive) : Archive.Event → Archive
  | .create input =>
      { archive with tables := archive.tables.step host (.create archive.catalog input) }
  | .sealCreation input =>
      { archive with tables := archive.tables.step host (.sealCreation archive.catalog input) }
  | .applyAction tenantId caseId input =>
      { archive with
        tables := archive.tables.step host (.applyAction archive.catalog tenantId caseId input) }
  | .maintain catalog =>
      if archive.tables.References catalog then { archive with catalog } else archive

/-- The case and the revision of an update that is accepted. -/
def Archive.accepted (host : SqlHost) (archive : Archive) :
    Archive.Event → Option (CaseKey × Nat)
  | .applyAction tenantId caseId input => do
      let tenant ← uuidValue tenantId
      let id ← uuidValue caseId
      let _ ← (transaction host archive.tables
        (.applyAction archive.catalog tenantId caseId input)).toOption
      pure ((tenant, id), input.expectedRevision)
  | _ => none

/-- **What a step can do**, with the update that it accepts. -/
inductive Archive.Change (host : SqlHost) (archive : Archive) :
    Archive.Event → Option (CaseKey × Nat) → Archive → Prop
  | refused (event : Archive.Event) : Change host archive event none archive
  | maintained (catalog : Catalog) (hreferences : archive.tables.References catalog) :
      Change host archive (.maintain catalog) none { archive with catalog }
  | created {input : CreateInput} {new : CaseRow} {steps : List StepRow} {event : EventRow}
      {tables' : Tables} (hcreates : Creates archive.tables new steps event tables') :
      Change host archive (.create input) none { archive with tables := tables' }
  | sealed {input : SealInput} {row new : CaseRow}
      (hrow : archive.tables.case? row.key = some row)
      (hnew : ∃ body auditId, new = { row with
        initialResponseBody := body, initialAuditId := auditId }) :
      Change host archive (.sealCreation input) none { archive with
        tables := { archive.tables with
          cases := Table.updateWhere (·.key = row.key) (fun _ => new) archive.tables.cases } }
  | advanced {tenantId caseId : JsString} {input : ActionInput} {row new : CaseRow}
      {out : Outcome} {acted : Tables × Decided} {event : EventRow}
      (haddress : uuidValue tenantId = some row.tenantId ∧ uuidValue caseId = some row.id)
      (hrow : archive.tables.case? row.key = some row)
      (hadvances : Advances host archive.catalog archive.tables row input out acted new event) :
      Change host archive (.applyAction tenantId caseId input)
        (some (row.key, row.revision)) { archive with tables := out.tables }

theorem Archive.step_change (host : SqlHost) (archive : Archive) (event : Archive.Event) :
    Archive.Change host archive event (archive.accepted host event) (archive.step host event) := by
  cases event with
  | create input =>
      cases hcreate : transaction host archive.tables (.create archive.catalog input) with
      | error refusal =>
          simp only [Archive.step, Tables.step, hcreate, settle_error]
          exact .refused _
      | ok tables' =>
          simp only [Archive.step, Tables.step, hcreate, settle_ok]
          simp only [transaction, then_ok, return_ok] at hcreate
          obtain ⟨out, hcreate, rfl⟩ := hcreate
          obtain ⟨new, steps, event, hcreates, _⟩ := create_creates hcreate
          exact .created hcreates
  | sealCreation input =>
      cases hseal : transaction host archive.tables (.sealCreation archive.catalog input) with
      | error refusal =>
          simp only [Archive.step, Tables.step, hseal, settle_error]
          exact .refused _
      | ok tables' =>
          simp only [Archive.step, Tables.step, hseal, settle_ok]
          simp only [transaction, sealCreation, then_ok, orRefuse_ok, Option.filter_eq_some_iff]
            at hseal
          obtain ⟨_, _, _, _, _, _, _, _, row, ⟨hrow, _⟩, hupdate⟩ := hseal
          obtain rfl := updateCase_ok hupdate
          obtain ⟨_, hkey⟩ := case?_some hrow
          rw [← hkey] at hrow
          exact .sealed hrow ⟨_, _, rfl⟩
  | applyAction tenantId caseId input =>
      cases hcall : transaction host archive.tables
          (.applyAction archive.catalog tenantId caseId input) with
      | error refusal =>
          have hnone : archive.accepted host (.applyAction tenantId caseId input) = none := by
            simp [Archive.accepted, hcall, Except.toOption]
          rw [hnone]
          simp only [Archive.step, Tables.step, hcall, settle_error]
          exact .refused _
      | ok tables' =>
          have hread := hcall
          simp only [transaction, existing, castUuid, get, then_ok, orRefuse_ok, return_ok,
            Option.map_eq_some_iff] at hread
          obtain ⟨_, ⟨tenant, htenant, id, hid, row, hrow, rfl⟩, out, happly, rfl⟩ := hread
          obtain ⟨acted, new, event, hadvances⟩ :=
            applyAction_advances hrow ⟨uuidValue_lt htenant, uuidValue_lt hid⟩ happly
          have hsome : archive.accepted host (.applyAction tenantId caseId input) =
              some ((tenant, id), row.revision) := by
            simp [Archive.accepted, htenant, hid, hcall, Except.toOption, hadvances.current]
          rw [hsome]
          simp only [Archive.step, Tables.step, hcall, settle_ok]
          obtain ⟨_, hkey⟩ := case?_some hrow
          obtain ⟨rfl, rfl⟩ := Prod.mk.inj hkey
          exact .advanced ⟨htenant, hid⟩ hrow hadvances
  | maintain catalog =>
      simp only [Archive.step]
      split_ifs with hreferences
      · exact .maintained catalog hreferences
      · exact .refused _

/-! ### Documents and their versions -/

/-- Every document that needs a version names one that is stored. -/
def Tables.Named (catalog : Catalog) (tables : Tables) : Prop :=
  ∀ document ∈ tables.documents, document.state.needsVersion = true →
    ∃ version ∈ document.documentVersionId,
      (document.tenantId, version) ∈ catalog.documentVersions

theorem upsertDocument_named {new : DocumentRow} (hnamed : tables.Named catalog)
    (h : upsertDocument host catalog tables new = .ok tables') : tables'.Named catalog := by
  simp only [upsertDocument, then_ok, raiseUnless_ok] at h
  obtain ⟨_, ⟨_, _, hneeds⟩, _, ⟨_, hforeign⟩, hwrite⟩ := h
  have hnew : new.state.needsVersion = true → ∃ version ∈ new.documentVersionId,
      (new.tenantId, version) ∈ catalog.documentVersions := by
    intro hstate
    obtain ⟨version, hversion⟩ := Option.ne_none_iff_exists'.mp (hneeds hstate)
    exact ⟨version, hversion, hforeign version hversion⟩
  split at hwrite
  · obtain rfl := return_ok.mp hwrite
    intro document hdocument
    rcases Table.mem_updateWhere.mp hdocument with ⟨old, _, ⟨hcase, _⟩, rfl⟩ | ⟨hold, _⟩
    · have htenant : old.tenantId = new.tenantId := congrArg Prod.fst hcase
      simp only [htenant]
      exact hnew
    · exact hnamed document hold
  · simp only [then_ok, return_ok] at hwrite
    obtain ⟨_, _, rfl⟩ := hwrite
    intro document hdocument
    rcases List.mem_append.mp hdocument with hold | hadded
    · exact hnamed document hold
    · obtain rfl := List.mem_singleton.mp hadded
      exact hnew

theorem act_named {acted : Tables × Decided} (hnamed : tables.Named catalog)
    (h : act host catalog tables key record input = .ok acted) : acted.1.Named catalog := by
  cases haction : input.action with
  | setStepState stepId state =>
      simp only [act, haction, then_ok, return_ok, updateStep] at h
      obtain ⟨_, _, _, ⟨_, _, _, _, rfl⟩, rfl⟩ := h
      exact hnamed
  | recordDocument requirementId state documentVersionId note =>
      simp only [act, haction, then_ok, return_ok] at h
      obtain ⟨_, _, _, _, _, _, _, _, _, _, _, hdocument, rfl⟩ := h
      exact upsertDocument_named hnamed hdocument
  | addBlocker blockerCode description =>
      simp only [act, haction, then_ok, return_ok] at h
      obtain ⟨_, _, _, _, _, hinsert, rfl⟩ := h
      rw [insertBlocker_ok hinsert]
      exact hnamed
  | resolveBlocker blockerId =>
      simp only [act, haction, then_ok, return_ok, resolveBlocker] at h
      obtain ⟨_, _, _, _, _, ⟨_, _, _, _, rfl⟩, rfl⟩ := h
      exact hnamed
  | setFollowUp | setValidationState | appendNote | closeCase =>
      simp only [act, haction] at h
      obtain rfl := return_ok.mp h
      exact hnamed

/-! ### The order of the events -/

/-- **The invariant.**  The events of a case were added with the revisions from
1 on, and each ranks after the ones before it. -/
structure Archive.Kept (archive : Archive) : Prop where
  counted : ∀ key, (archive.tables.relations key).events.map (·.revision) =
    List.range' 1 (archive.tables.revision key)
  sorted : ∀ key, (archive.tables.relations key).events.Pairwise fun a b => a.rank ≤ b.rank
  named : archive.tables.Named archive.catalog

/-- The event of an update that is accepted ranks after every event of its case,
by the clock and then by the identifier. -/
def Archive.RanksAfter (archive : Archive) : Archive.Event → Option (CaseKey × Nat) → Prop
  | .applyAction _ _ input, some entry =>
      ∀ eventId, uuidValue input.eventId = some eventId →
        ∀ old ∈ (archive.tables.relations entry.1).events, old.rank < toLex (input.now, eventId)
  | _, _ => True

/-- **The condition.**  A call is refused or adds its event in order. -/
def Archive.InOrder (host : SqlHost) (archive : Archive) (event : Archive.Event) : Prop :=
  archive.RanksAfter event (archive.accepted host event)

variable {archive : Archive}

theorem Archive.Kept.no_events (h : archive.Kept) (hnone : archive.tables.case? key = none) :
    (archive.tables.relations key).events = [] := by
  have hcounted := h.counted key
  rw [Tables.revision, hnone] at hcounted
  exact List.map_eq_nil_iff.mp hcounted

theorem creates_relations {new : CaseRow} {steps : List StepRow} {event : EventRow}
    (h : Creates tables new steps event tables') :
    (tables'.relations new.key).events = (tables.relations new.key).events ++ [event] ∧
      ∀ other, other ≠ new.key → tables'.relations other = tables.relations other := by
  obtain ⟨hevent, hsteps⟩ := h.owned
  rw [h.leaves]
  refine ⟨filter_append_self hevent, fun other hother => ?_⟩
  have hnone : steps.filter (fun row => row.case = other) = [] := by
    refine List.filter_eq_nil_iff.mpr fun row hrow => ?_
    rw [hsteps row hrow]
    simpa using hother.symm
  simp only [Tables.relations, Relations.mk.injEq, true_and]
  refine ⟨?_, filter_append_other hevent hother⟩
  rw [List.filter_append, hnone, List.append_nil]

/-- A fresh id is no key of a stored case. -/
theorem creates_case {new : CaseRow} {steps : List StepRow} {event : EventRow}
    (h : Creates tables new steps event tables') :
    tables.case? new.key = none ∧ tables'.case? new.key = some new := by
  have hnone : tables.case? new.key = none := by
    refine List.find?_eq_none.mpr fun row hrow hkey => ?_
    have hsame : row.key = new.key := of_decide_eq_true hkey
    exact h.fresh row hrow (congrArg Prod.snd hsame)
  refine ⟨hnone, ?_⟩
  rw [Tables.case?] at hnone ⊢
  rw [h.leaves]
  simp [List.find?_append, hnone]

/-- The events of the case after an accepted action. -/
theorem advances_events {row new : CaseRow} {out : Outcome} {acted : Tables × Decided}
    {event : EventRow} (h : Advances host catalog tables row input out acted new event) :
    (out.tables.relations row.key).events = (tables.relations row.key).events ++ [event] := by
  obtain ⟨⟨ids, hself⟩, _⟩ := advances_relations h
  rw [hself]

theorem advances_revision {row new : CaseRow} {out : Outcome} {acted : Tables × Decided}
    {event : EventRow} (hrow : tables.case? row.key = some row)
    (h : Advances host catalog tables row input out acted new event) :
    out.tables.case? row.key = some new ∧ out.tables.revision row.key = row.revision + 1 ∧
      ∀ other, other ≠ row.key → out.tables.case? other = tables.case? other := by
  obtain ⟨hkey, hrevision, hcases⟩ := advances_cases h
  have hnew := case?_rewrite hrow hcases hkey
  refine ⟨hnew, ?_, fun other hother => case?_rewrite_other hcases hkey hother⟩
  rw [revision_some hnew, hrevision]

theorem advances_named {row new : CaseRow} {out : Outcome} {acted : Tables × Decided}
    {event : EventRow} (hnamed : tables.Named catalog)
    (h : Advances host catalog tables row input out acted new event) :
    out.tables.Named catalog := by
  have hacted := act_named hnamed h.statements
  rw [h.leaves]
  exact hacted

/-- The event that an accepted action adds has the next revision. -/
theorem advances_next {row new : CaseRow} {out : Outcome} {acted : Tables × Decided}
    {event : EventRow} (h : Advances host catalog tables row input out acted new event) :
    event.revision = row.revision + 1 ∧
      ∃ eventId, uuidValue input.eventId = some eventId ∧
        event.rank = toLex (input.now, eventId) := by
  obtain ⟨eventId, principalId, hid, rfl⟩ := h.records
  exact ⟨rfl, eventId, hid, rfl⟩

/-- The response that a sealing stores shows in no record. -/
theorem sealed_record {row new : CaseRow} (h : ∃ body auditId, new = { row with
      initialResponseBody := body, initialAuditId := auditId }) :
    mapCase host tables new = mapCase host tables row := by
  obtain ⟨body, auditId, rfl⟩ := h
  exact mapCase_sealed row body auditId

theorem sealed_key {row new : CaseRow} (h : ∃ body auditId, new = { row with
      initialResponseBody := body, initialAuditId := auditId }) :
    new.key = row.key ∧ new.revision = row.revision := by
  obtain ⟨body, auditId, rfl⟩ := h
  exact ⟨rfl, rfl⟩

/-- **Step lemma.** -/
theorem Archive.Kept.change {event : Archive.Event} {output : Option (CaseKey × Nat)}
    {after : Archive} (h : archive.Kept) (hchange : archive.Change host event output after)
    (hgood : archive.RanksAfter event output) : after.Kept := by
  cases hchange with
  | refused => exact h
  | maintained catalog hreferences =>
      refine ⟨h.counted, h.sorted, fun document hdocument hneeds => ?_⟩
      obtain ⟨version, hversion, _⟩ := h.named document hdocument hneeds
      exact ⟨version, hversion, hreferences document hdocument version hversion⟩
  | @created input new steps first tables' hcreates =>
      obtain ⟨hself, hothers⟩ := creates_relations hcreates
      obtain ⟨hnone, hsome⟩ := creates_case hcreates
      have hcases : tables'.cases = archive.tables.cases ++ [new] := by rw [hcreates.leaves]
      rw [h.no_events hnone, List.nil_append] at hself
      refine ⟨fun key => ?_, fun key => ?_, ?_⟩
      · by_cases hkey : key = new.key
        · rw [hkey, hself, revision_some hsome, hcreates.first.1]
          exact congrArg (fun n => [n]) hcreates.first.2
        · rw [hothers key hkey, revision_congr (case?_append hcases hkey)]
          exact h.counted key
      · by_cases hkey : key = new.key
        · rw [hkey, hself]
          exact List.pairwise_singleton _ _
        · rw [hothers key hkey]
          exact h.sorted key
      · rw [hcreates.leaves]
        exact h.named
  | @sealed input row new hrow hnew =>
      obtain ⟨hsame, hrevision⟩ := sealed_key hnew
      refine ⟨fun key => ?_, h.sorted, h.named⟩
      by_cases hkey : key = row.key
      · have hcounted := h.counted row.key
        rw [revision_some hrow] at hcounted
        rw [hkey, revision_some (case?_rewrite hrow rfl hsame), hrevision]
        exact hcounted
      · rw [revision_congr (case?_rewrite_other rfl hsame hkey)]
        exact h.counted key
  | @advanced tenantId caseId input row new out acted added haddress hrow hadvances =>
      obtain ⟨_, hrevision, hcases⟩ := advances_revision hrow hadvances
      obtain ⟨_, hothers⟩ := advances_relations hadvances
      obtain ⟨hnext, eventId, hid, hrank⟩ := advances_next hadvances
      refine ⟨fun key => ?_, fun key => ?_, advances_named h.named hadvances⟩
      · by_cases hkey : key = row.key
        · have hcounted := h.counted row.key
          rw [revision_some hrow] at hcounted
          rw [hkey, hrevision, advances_events hadvances, List.map_append, hcounted,
            List.range'_concat, List.map_singleton, hnext]
          congr 2
          omega
        · rw [hothers key hkey, revision_congr (hcases key hkey)]
          exact h.counted key
      · by_cases hkey : key = row.key
        · rw [hkey, advances_events hadvances]
          refine List.pairwise_append.mpr ⟨h.sorted row.key, List.pairwise_singleton _ _, ?_⟩
          intro old hold last hlast
          rw [List.mem_singleton.mp hlast, hrank]
          exact (hgood eventId hid old hold).le
        · rw [hothers key hkey]
          exact h.sorted key

/-! ### What is read -/

/-- The document versions of a tenant that are stored. -/
def Archive.Knows (archive : Archive) (tenantId : Uuid) (version : JsString) : Prop :=
  ∃ id, uuidText id = version ∧ (tenantId, id) ∈ archive.catalog.documentVersions

theorem get_some {record : StoredCase} (h : get host tables key = some record) :
    ∃ row, tables.case? key = some row ∧ row.key = key ∧ record = mapCase host tables row := by
  obtain ⟨row, hrow, rfl⟩ := Option.map_eq_some_iff.mp h
  exact ⟨row, hrow, (case?_some hrow).2, rfl⟩

theorem get_of_row {row : CaseRow} (h : tables.case? key = some row) :
    get host tables key = some (mapCase host tables row) := by
  rw [get, h]
  rfl

theorem mapCase_events {row : CaseRow} :
    (mapCase host tables row).events =
      (Table.orderedBy EventRow.rank (tables.relations row.key).events).map EventRow.record := rfl

/-- Events in order are returned as they were added. -/
theorem Archive.Kept.returned (h : archive.Kept) {row : CaseRow} :
    (mapCase host archive.tables row).events =
      (archive.tables.relations row.key).events.map EventRow.record := by
  rw [mapCase_events, Table.orderedBy_of_sorted (h.sorted row.key)]

theorem Archive.Kept.history (h : archive.Kept) {record : StoredCase}
    (hget : get host archive.tables key = some record) :
    record.HistoryKept (archive.Knows key.1) := by
  obtain ⟨row, hrow, rfl, rfl⟩ := get_some hget
  have hcounted := h.counted row.key
  rw [revision_some hrow] at hcounted
  refine ⟨?_, ?_, fun document hdocument hneeds => ?_⟩
  · have hlength := congrArg List.length hcounted
    rw [h.returned, List.length_map]
    simpa [mapCase] using hlength.symm
  · rw [h.returned, List.map_map]
    exact hcounted
  · obtain ⟨stored, hstored, rfl⟩ := List.mem_map.mp hdocument
    rw [Table.mem_orderedBy, List.mem_filter] at hstored
    obtain ⟨hmem, hcase⟩ := hstored
    have htenant : stored.tenantId = row.key.1 := congrArg Prod.fst (of_decide_eq_true hcase)
    obtain ⟨version, hversion, hknown⟩ := h.named stored hmem hneeds
    refine ⟨uuidText version, ?_, version, rfl, htenant ▸ hknown⟩
    exact Option.mem_map_of_mem uuidText hversion

/-- No action changes the plan of the steps. -/
theorem act_plan {relations : Relations} {ids : ActionIds} {now : Time} {action : Action} :
    ((Table.orderedBy StepRow.ordinal (relations.act key ids now action).steps).map
        StepRow.record).map StepRecord.plan =
      ((Table.orderedBy StepRow.ordinal relations.steps).map StepRow.record).map
        StepRecord.plan := by
  cases action with
  | setStepState stepId state =>
      simp only [Relations.act, List.map_map]
      rw [Table.orderedBy_updateWhere]
      · exact Table.map_updateWhere fun _ _ _ => rfl
      · exact fun _ _ _ => rfl
  | _ => rfl

theorem Archive.Kept.continues {event : Archive.Event} {output : Option (CaseKey × Nat)}
    {after : Archive} (h : archive.Kept) (hchange : archive.Change host event output after)
    (hafter : after.Kept) {before : StoredCase}
    (hget : get host archive.tables key = some before) :
    ∃ record, get host after.tables key = some record ∧ Continues before record := by
  obtain ⟨row, hrow, rfl, rfl⟩ := get_some hget
  -- A step that leaves the row and the rows of the case returns the same record.
  have hframe : ∀ tables' : Tables, tables'.case? row.key = some row →
      tables'.relations row.key = archive.tables.relations row.key →
      ∃ record, get host tables' row.key = some record ∧
        Continues (mapCase host archive.tables row) record := by
    intro tables' hcase hrelations
    refine ⟨_, get_of_row hcase, ?_⟩
    rw [mapCase_congr hrelations]
    exact Continues.refl _
  cases hchange with
  | refused => exact hframe _ hrow rfl
  | maintained catalog hreferences => exact hframe _ hrow rfl
  | @created input new steps first tables' hcreates =>
      obtain ⟨hnone, _⟩ := creates_case hcreates
      have hother : row.key ≠ new.key := by
        intro hsame
        rw [← hsame, hrow] at hnone
        cases hnone
      have hcases : tables'.cases = archive.tables.cases ++ [new] := by rw [hcreates.leaves]
      refine hframe tables' ?_ ((creates_relations hcreates).2 row.key hother)
      rw [case?_append hcases hother]
      exact hrow
  | @sealed input old new hold hnew =>
      have hsame := (sealed_key hnew).1
      by_cases hkey : row.key = old.key
      · rw [hkey] at hrow
        obtain rfl : old = row := Option.some.inj (hold.symm.trans hrow)
        refine ⟨_, get_of_row (case?_rewrite hrow rfl hsame), ?_⟩
        rw [sealed_record hnew, mapCase_congr rfl]
        exact Continues.refl _
      · refine hframe _ ?_ rfl
        rw [case?_rewrite_other rfl hsame hkey]
        exact hrow
  | @advanced tenantId caseId input old new out acted added haddress hold hadvances =>
      obtain ⟨hnew, _, hcases⟩ := advances_revision hold hadvances
      obtain ⟨⟨ids, hself⟩, hothers⟩ := advances_relations hadvances
      by_cases hkey : row.key = old.key
      · rw [hkey] at hrow
        obtain rfl : old = row := Option.some.inj (hold.symm.trans hrow)
        have hnewKey := (advances_cases hadvances).1
        refine ⟨_, get_of_row hnew, ?_, ?_, fun hclosed => absurd hclosed hadvances.unclosed⟩
        · have hreturned : (mapCase host out.tables new).events =
              (out.tables.relations new.key).events.map EventRow.record := hafter.returned
          rw [hreturned, hnewKey, advances_events hadvances, List.map_append, h.returned]
          exact List.prefix_append _ _
        · have hsteps (tables : Tables) (row : CaseRow) : (mapCase host tables row).steps =
              (Table.orderedBy StepRow.ordinal (tables.relations row.key).steps).map
                StepRow.record := rfl
          rw [hsteps, hsteps, hnewKey, hself]
          exact act_plan
      · refine hframe _ ?_ (hothers row.key hkey)
        rw [hcases row.key hkey]
        exact hrow

/-- No step takes a revision back, and an accepted update passes the revision
it was issued against. -/
theorem change_revision {event : Archive.Event} {output : Option (CaseKey × Nat)}
    {after : Archive} (hchange : archive.Change host event output after) :
    (∀ key, archive.tables.revision key ≤ after.tables.revision key) ∧
      ∀ key n, output = some (key, n) →
        archive.tables.revision key ≤ n ∧ n < after.tables.revision key := by
  cases hchange with
  | refused => exact ⟨fun _ => Nat.le_refl _, fun _ _ hout => nomatch hout⟩
  | maintained => exact ⟨fun _ => Nat.le_refl _, fun _ _ hout => nomatch hout⟩
  | @created input new steps first tables' hcreates =>
      obtain ⟨hnone, _⟩ := creates_case hcreates
      have hcases : tables'.cases = archive.tables.cases ++ [new] := by rw [hcreates.leaves]
      refine ⟨fun key => ?_, fun _ _ hout => nomatch hout⟩
      by_cases hkey : key = new.key
      · rw [hkey, Tables.revision, hnone]
        exact Nat.zero_le _
      · exact (revision_congr (case?_append hcases hkey)).ge
  | @sealed input row new hrow hnew =>
      refine ⟨fun key => ?_, fun _ _ hout => nomatch hout⟩
      obtain ⟨hsame, hrevision⟩ := sealed_key hnew
      by_cases hkey : key = row.key
      · rw [hkey, revision_some hrow, revision_some (case?_rewrite hrow rfl hsame), hrevision]
      · exact (revision_congr (case?_rewrite_other rfl hsame hkey)).ge
  | @advanced tenantId caseId input row new out acted added haddress hrow hadvances =>
      obtain ⟨_, hrevision, hcases⟩ := advances_revision hrow hadvances
      refine ⟨fun key => ?_, fun key n hout => ?_⟩
      · by_cases hkey : key = row.key
        · rw [hkey, revision_some hrow, hrevision]
          exact Nat.le_succ _
        · exact (revision_congr (hcases key hkey)).ge
      · obtain ⟨rfl, rfl⟩ := Prod.mk.inj (Option.some.inj hout)
        rw [revision_some hrow, hrevision]
        exact ⟨Nat.le_refl _, Nat.lt_succ_self _⟩

/-! ### Out of order -/

/-- What is returned in the order of the revisions ends with the event of the
last revision, so no event of the case ranks above it. -/
theorem ranks_below {old new : EventRow} {events : List EventRow} {n : Nat}
    (hcounted : events.map (·.revision) = List.range' 1 n) (hnew : new.revision = n + 1)
    (hreturned : (Table.orderedBy EventRow.rank (events ++ [new])).map (·.revision) =
      List.range' 1 (n + 1)) (hold : old ∈ events) : old.rank ≤ new.rank := by
  have hsplit : List.range' 1 (n + 1) = List.range' 1 n ++ [1 + n] := by
    rw [List.range'_concat]
    simp
  rw [hsplit] at hreturned
  obtain ⟨front, rear, hordered, _, hrear⟩ := List.map_eq_append_iff.mp hreturned
  obtain ⟨last, hrear, hlast⟩ := List.map_eq_singleton_iff.mp hrear
  have hmem (row : EventRow) : row ∈ front ++ rear ↔ row ∈ events ++ [new] := by
    rw [← hordered]
    exact Table.mem_orderedBy
  -- Every revision of the old events is at most `n`.
  have hbelow : ∀ row ∈ events, row.revision < 1 + n := by
    intro row hrow
    have hrange : row.revision ∈ List.range' 1 n := hcounted ▸ List.mem_map_of_mem hrow
    have hbounds := List.mem_range'_1.mp hrange
    omega
  have hlast_mem : last ∈ events ++ [new] := (hmem last).mp (by simp [hrear])
  obtain rfl : last = new := by
    rcases List.mem_append.mp hlast_mem with hevent | hsame
    · exact absurd hlast (hbelow last hevent).ne
    · exact List.mem_singleton.mp hsame
  have hfront : old ∈ front := by
    rcases List.mem_append.mp ((hmem old).mpr (List.mem_append_left _ hold)) with hfront | hrest
    · exact hfront
    · rw [hrear] at hrest
      obtain rfl := List.mem_singleton.mp hrest
      exact absurd hlast (hbelow old hold).ne
  have hsorted := Table.orderedBy_sorted EventRow.rank (events ++ [last])
  rw [hordered, hrear] at hsorted
  exact (List.pairwise_append.mp hsorted).2.2 old hfront last (List.mem_singleton_self last)

/-- What a read returns in every state of a run. -/
def Archive.HistoriesKept (host : SqlHost) (archive : Archive) : Prop :=
  ∀ key record, get host archive.tables key = some record →
    record.HistoryKept (archive.Knows key.1)

/-- After a step out of order the case is not returned in order. -/
theorem Archive.Kept.breaks {event : Archive.Event} {output : Option (CaseKey × Nat)}
    {after : Archive} (h : archive.Kept) (hchange : archive.Change host event output after)
    (hbad : ¬ archive.RanksAfter event output) : ¬ after.HistoriesKept host := by
  cases hchange with
  | refused => exact absurd (by cases event <;> trivial) hbad
  | maintained | created | sealed => exact absurd trivial hbad
  | @advanced tenantId caseId input row new out acted added haddress hrow hadvances =>
      intro hkept
      obtain ⟨hnew, _, _⟩ := advances_revision hrow hadvances
      obtain ⟨hnewKey, hnewRevision, _⟩ := advances_cases hadvances
      obtain ⟨hnext, eventId, hid, hrank⟩ := advances_next hadvances
      have hcounted := h.counted row.key
      rw [revision_some hrow] at hcounted
      have hordered := (hkept row.key _ (get_of_row hnew)).ordered
      rw [mapCase_events, List.map_map, hnewKey, advances_events hadvances] at hordered
      apply hbad
      intro id hparsed old hold
      obtain rfl : eventId = id := Option.some.inj (hid.symm.trans hparsed)
      rw [← hrank]
      refine lt_of_le_of_ne (ranks_below hcounted hnext ?_ hold) ?_
      · exact hordered.trans (by rw [← hnewRevision]; rfl)
      · intro hsame
        have hids : old.id = added.id := congrArg Prod.snd (toLex.injective hsame)
        exact hadvances.fresh old (List.mem_of_mem_filter hold) hids

/-- A step goes on with the history of every case. -/
def Archive.EachContinues (host : SqlHost) (archive : Archive) (event : Archive.Event) : Prop :=
  ∀ key before, get host archive.tables key = some before →
    ∃ after, get host (archive.step host event).tables key = some after ∧ Continues before after

/-- The law of a run. -/
structure Archive.Lawful (host : SqlHost) (archive : Archive) (events : List Archive.Event) :
    Prop where
  states : Throughout (Archive.step host) (Archive.HistoriesKept host) archive events
  steps : EachStep (Archive.step host) (Archive.EachContinues host) archive events
  once : (outputs (Archive.step host) (Archive.accepted host) archive events).Nodup

theorem Archive.lawful_iff (host : SqlHost) (catalog : Catalog) (events : List Archive.Event) :
    Archive.Lawful host ⟨.empty, catalog⟩ events ↔
      EachStep (Archive.step host) (Archive.InOrder host) ⟨.empty, catalog⟩ events := by
  have hopening : Archive.Kept ⟨.empty, catalog⟩ :=
    ⟨fun _ => rfl, fun _ => .nil, fun document hdocument => absurd hdocument List.not_mem_nil⟩
  have hkeep : ∀ archive event, Archive.Kept archive → archive.InOrder host event →
      (archive.step host event).Kept :=
    fun archive event h hgood => h.change (archive.step_change host event) hgood
  have hlaw : ∀ archive : Archive, archive.Kept → ∀ (key : CaseKey) (record : StoredCase),
      get host archive.tables key = some record → record.HistoryKept (archive.Knows key.1) :=
    fun archive h key record hget => h.history hget
  have hstates := throughout_iff_eachStep hkeep hlaw
    (fun archive event h hbad => h.breaks (archive.step_change host event) hbad) hopening events
  refine ⟨fun h => hstates.mp h.states, fun hgood => ⟨hstates.mpr hgood, ?_, ?_⟩⟩
  · refine eachStep_of_invariant hkeep (fun archive event h hgood key before hget => ?_) hopening
      hgood
    exact h.continues (archive.step_change host event) (hkeep archive event h hgood) hget
  · have htrue : ∀ (archive : Archive) (event : Archive.Event), True → True := fun _ _ h => h
    exact outputs_nodup htrue
      (fun archive event key _ => (change_revision (archive.step_change host event)).1 key)
      (fun archive event key n _ hout =>
        (change_revision (archive.step_change host event)).2 key n hout) trivial events

/-- **The history of a case.**  In memory every run of updates keeps it; in
PostgreSQL a run keeps it exactly when every update that is accepted brings an
event that ranks after the events of its case. -/
theorem histories_kept (workflows : JsMap JsString WorkflowSeed) (documentVersions : List JsString)
    (host : SqlHost) (catalog : Catalog) :
    (∀ commands calls, InMemory.Lawful
      (run InMemory.step (InMemory.opening workflows documentVersions) commands) calls) ∧
    ∀ events, Archive.Lawful host ⟨.empty, catalog⟩ events ↔
      EachStep (Archive.step host) (Archive.InOrder host) ⟨.empty, catalog⟩ events :=
  ⟨InMemory.updates_lawful workflows documentVersions, Archive.lawful_iff host catalog⟩

/-- A note in the millisecond in which its case was created, with an event
whose identifier is the smaller one. -/
def sampleSameInstant : List Archive.Event :=
  [.create sampleCreate,
    .applyAction (sampleUuid 1) (sampleUuid 3)
      { sampleAction 1 2 (.appendNote (js "nota")) with now := 0 }]

/-- The note is returned before the creation. -/
theorem note_before_creation :
    ¬ Archive.Lawful sampleHost ⟨.empty, sampleCatalog⟩ sampleSameInstant := by
  intro hlawful
  have hread : (get sampleHost (run (Archive.step sampleHost) ⟨.empty, sampleCatalog⟩
      sampleSameInstant).tables (0x40008000000000000001, 0x40008000000000000003)).any
        (fun record => record.events.map (·.revision) = [2, 1]) = true := by
    decide +kernel
  obtain ⟨record, hget, hevents⟩ := (Option.any_eq_true _ _).mp hread
  have hkept := throughout_end hlawful.states _ record hget
  have hreversed : record.events.map (·.revision) = [2, 1] := of_decide_eq_true hevents
  have hlength := congrArg List.length hreversed
  have hordered := hkept.ordered
  rw [hkept.counted, ← List.length_map (f := fun event : EventRecord => event.revision), hlength,
    hreversed] at hordered
  exact absurd hordered (by decide)

end Cases
