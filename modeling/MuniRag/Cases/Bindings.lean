import MuniRag.Cases.Blockers
import MuniRag.Cases.Effects
import MuniRag.Cases.Mutation

/-!
# The columns of a case that stay

The columns that identify a case and its creation, and the stored response, are
written when the case is inserted and when it is sealed.  What `bindings` shows
of the tables is a function from case keys to those columns: an accepted action
leaves it as it is, a creation adds one entry, and a seal completes one.
-/

namespace Cases

open Results

/-- The columns that no action writes. -/
structure Binding where
  id : Uuid
  tenantId : Uuid
  createdByPrincipalId : Uuid
  createRequestSha256 : JsString
  initialResponseBody : Option JsString
  initialAuditId : Option Uuid
  deriving DecidableEq, Repr

def CaseRow.binding (row : CaseRow) : Binding where
  id := row.id
  tenantId := row.tenantId
  createdByPrincipalId := row.createdByPrincipalId
  createRequestSha256 := row.createRequestSha256
  initialResponseBody := row.initialResponseBody
  initialAuditId := row.initialAuditId

def Binding.key (binding : Binding) : CaseKey := (binding.tenantId, binding.id)

/-- The bindings stored under a key: one at most, as the id is the primary
key. -/
def Tables.bindings (tables : Tables) (key : CaseKey) : List Binding :=
  (tables.cases.filter (·.key = key)).map CaseRow.binding

variable {host : SqlHost} {catalog : Catalog} {tables tables' : Tables} {key : CaseKey}

theorem binding_key (row : CaseRow) : row.binding.key = row.key := rfl

theorem mem_bindings {binding : Binding} :
    binding ∈ tables.bindings key ↔ ∃ row ∈ tables.cases, row.key = key ∧ row.binding = binding := by
  simp [Tables.bindings, and_assoc]

theorem bindings_of_cases (h : tables'.cases = tables.cases) (key : CaseKey) :
    tables'.bindings key = tables.bindings key := by
  rw [Tables.bindings, Tables.bindings, h]

/-- A case that can be read is bound. -/
theorem bindings_ne_nil {record : StoredCase} (h : get host tables key = some record) :
    tables.bindings key ≠ [] := by
  obtain ⟨row, hrow, _⟩ := Option.map_eq_some_iff.mp h
  obtain ⟨hmem, hkey⟩ := case?_member hrow
  exact List.ne_nil_of_mem (mem_bindings.mpr ⟨row, hmem, hkey, rfl⟩)

theorem bindings_graft (base own : Tables) (key other : CaseKey) :
    (base.graft own key).bindings other =
      if other = key then own.bindings key else base.bindings other := by
  have hsame : ∀ rows : List CaseRow,
      (rows.filter (·.key = key)).filter (·.key = key) = rows.filter (·.key = key) := by
    intro rows
    simp [List.filter_filter]
  have hnone : ∀ rows : List CaseRow,
      (rows.filter (·.key ≠ key)).filter (·.key = key) = [] := by
    intro rows
    simp [List.filter_filter]
  by_cases hother : other = key
  · subst hother
    rw [if_pos rfl, Tables.bindings, Tables.graft, List.filter_append, hsame, hnone]
    rfl
  · have hkeep : ∀ rows : List CaseRow,
        (rows.filter (·.key ≠ key)).filter (·.key = other) = rows.filter (·.key = other) := by
      intro rows
      rw [List.filter_filter]
      refine List.filter_congr fun row _ => ?_
      by_cases hrow : row.key = other <;> simp [hrow, hother]
    have hdrop : ∀ rows : List CaseRow,
        (rows.filter (·.key = key)).filter (·.key = other) = [] := by
      intro rows
      rw [List.filter_filter, List.filter_eq_nil_iff]
      intro row _
      by_cases hrow : row.key = other <;> simp [hrow, hother]
    rw [if_neg hother, Tables.bindings, Tables.graft, List.filter_append, hkeep, hdrop,
      List.append_nil]
    rfl

/-- A row under a key that no other row has is the one binding of that key. -/
theorem bindings_append {row : CaseRow} (hcases : tables'.cases = tables.cases ++ [row])
    (other : CaseKey) :
    tables'.bindings other =
      tables.bindings other ++ if other = row.key then [row.binding] else [] := by
  rw [Tables.bindings, Tables.bindings, hcases, List.filter_append, List.map_append]
  by_cases hother : other = row.key
  · subst hother
    simp
  · have hne : row.key ≠ other := fun h => hother h.symm
    simp [hother, hne]

/-- Rewriting the rows of a key leaves the rows of the others. -/
theorem filter_rewrite_other {new : CaseRow} {other : CaseKey} (hnew : new.key = key)
    (hother : other ≠ key) (rows : List CaseRow) :
    (Table.updateWhere (·.key = key) (fun _ => new) rows).filter (·.key = other) =
      rows.filter (·.key = other) := by
  induction rows with
  | nil => rfl
  | cons row rows ih =>
      rw [Table.updateWhere] at ih ⊢
      rw [List.map_cons, List.filter_cons, List.filter_cons, ih]
      by_cases hrow : row.key = key
      · have hne : key ≠ other := fun h => hother h.symm
        simp [hrow, hnew, hne]
      · simp [hrow]

theorem filter_rewrite_self {new : CaseRow} (hnew : new.key = key) (rows : List CaseRow) :
    (Table.updateWhere (·.key = key) (fun _ => new) rows).filter (·.key = key) =
      List.replicate (rows.filter (·.key = key)).length new := by
  induction rows with
  | nil => rfl
  | cons row rows ih =>
      rw [Table.updateWhere] at ih ⊢
      rw [List.map_cons, List.filter_cons, List.filter_cons, ih]
      by_cases hrow : row.key = key
      · simp [hrow, hnew, List.replicate_succ]
      · simp [hrow]

/-- The one row of a key is rewritten. -/
theorem bindings_rewrite {binding : Binding} {new : CaseRow}
    (hbound : tables.bindings key = [binding])
    (hcases : tables'.cases = Table.updateWhere (·.key = key) (fun _ => new) tables.cases)
    (hnew : new.key = key) (other : CaseKey) :
    tables'.bindings other = if other = key then [new.binding] else tables.bindings other := by
  have hone : (tables.cases.filter (·.key = key)).length = 1 := by
    have hlength := congrArg List.length hbound
    simpa [Tables.bindings] using hlength
  by_cases hother : other = key
  · subst hother
    rw [if_pos rfl, Tables.bindings, hcases, filter_rewrite_self hnew, hone]
    rfl
  · rw [if_neg hother, Tables.bindings, hcases, filter_rewrite_other hnew hother]
    rfl

/-! ## Counting -/

/-- The bindings of all cases. -/
def Tables.allBindings (tables : Tables) : List Binding := tables.cases.map CaseRow.binding

theorem count_allBindings (binding : Binding) :
    tables.allBindings.count binding = (tables.bindings binding.key).count binding := by
  rw [Tables.allBindings, Tables.bindings]
  generalize tables.cases = rows
  induction rows with
  | nil => rfl
  | cons row rows ih =>
      rw [List.map_cons, List.count_cons, List.filter_cons, ih]
      by_cases hsame : row.binding = binding
      · have hkey : row.key = binding.key := by rw [← hsame, binding_key]
        simp [hkey, hsame]
      · by_cases hkey : row.key = binding.key <;> simp [hkey, hsame]

theorem mem_allBindings {binding : Binding} :
    binding ∈ tables.allBindings ↔ binding ∈ tables.bindings binding.key := by
  rw [← List.count_pos_iff, ← List.count_pos_iff, count_allBindings]

/-- Tables with the same bindings have the same bindings in all. -/
theorem allBindings_perm (h : ∀ key, tables'.bindings key = tables.bindings key) :
    tables'.allBindings.Perm tables.allBindings := by
  rw [List.perm_iff_count]
  intro binding
  rw [count_allBindings, count_allBindings, h]

/-- A key that was free and is bound adds its binding. -/
theorem allBindings_add {binding : Binding} (hfree : tables.bindings binding.key = [])
    (hbound : ∀ key, tables'.bindings key =
      if key = binding.key then [binding] else tables.bindings key) :
    tables'.allBindings.Perm (binding :: tables.allBindings) := by
  rw [List.perm_iff_count]
  intro other
  rw [List.count_cons, count_allBindings, count_allBindings, hbound]
  by_cases hkey : other.key = binding.key
  · rw [if_pos hkey, hkey, hfree]
    simp [List.count_cons]
  · have hne : binding ≠ other := fun h => hkey (by rw [h])
    rw [if_neg hkey]
    simp [hne]

/-! ## What the statements do to the bindings -/

/-- Every key is bound once at most. -/
def Tables.Keyed (tables : Tables) : Prop := ∀ key, (tables.bindings key).length ≤ 1

theorem keyed_of_nodup (h : (tables.cases.map CaseRow.id).Nodup) : tables.Keyed := by
  intro key
  rw [Tables.bindings, List.length_map]
  have hkeys : (tables.cases.map CaseRow.key).Nodup := by
    have hmap : tables.cases.map CaseRow.id = (tables.cases.map CaseRow.key).map Prod.snd := by
      rw [List.map_map]
      rfl
    rw [hmap] at h
    exact h.of_map _
  have hcount := List.nodup_iff_count_le_one.mp hkeys key
  rw [List.count_eq_countP, List.countP_map, List.countP_eq_length_filter] at hcount
  refine le_trans (le_of_eq ?_) hcount
  congr 1
  refine List.filter_congr fun row _ => ?_
  simp [Bool.beq_eq_decide_eq]

/-- **An accepted action leaves the bindings.** -/
theorem applyAction_bindings {record : StoredCase} {input : ActionInput} {out : Outcome}
    (hkeyed : tables.Keyed) (h : applyAction host catalog tables record input = .ok out)
    (key : CaseKey) : out.tables.bindings key = tables.bindings key := by
  simp only [applyAction, then_ok, throughCase_ok, return_ok] at h
  obtain ⟨_, _, tenantId, _, caseId, _, acted, hacted, followUpAt, _, principalId, _, old, hold,
    tables₁, hupdate, eventId, _, tables₂, hinsert, rfl⟩ := h
  simp only [updateCase, then_ok, return_ok] at hupdate
  obtain ⟨_, _, _, _, _, _, htables₁⟩ := hupdate
  simp only [insertEvent, then_ok, return_ok] at hinsert
  obtain ⟨_, _, _, _, _, _, htables₂⟩ := hinsert
  obtain ⟨hcases, _⟩ := act_history hacted
  have hcases₂ : tables₂.cases = Table.updateWhere (·.key = old.key)
      (fun _ => old.assign acted.2 followUpAt principalId input.now) tables.cases := by
    rw [← htables₂, ← htables₁, ← hcases]
  have hfound : acted.1.case? (tenantId, caseId) = some old :=
    (Option.filter_eq_some_iff.mp (orRefuse_ok.mp hold)).1
  obtain ⟨hmem, _⟩ := case?_member hfound
  have hbound : tables.bindings old.key = [old.binding] := by
    have hin : old.binding ∈ tables.bindings old.key :=
      mem_bindings.mpr ⟨old, hcases ▸ hmem, rfl, rfl⟩
    obtain ⟨binding, hone⟩ := List.length_eq_one_iff.mp
      (le_antisymm (hkeyed old.key) (List.length_pos_of_mem hin))
    rw [hone, List.mem_singleton] at hin
    rw [hone, hin]
  show tables₂.bindings key = tables.bindings key
  rw [bindings_rewrite hbound hcases₂ rfl key]
  by_cases hkey : key = old.key
  · rw [if_pos hkey, hkey, hbound]
    rfl
  · rw [if_neg hkey]

/-- The binding of a case that was inserted and not sealed. -/
def CreateInput.draft (input : CreateInput) (tenantId caseId principalId : Uuid) : Binding where
  id := caseId
  tenantId := tenantId
  createdByPrincipalId := principalId
  createRequestSha256 := input.requestSha256
  initialResponseBody := none
  initialAuditId := none

/-- **A creation adds one binding**, under an id and for a request that had
none. -/
theorem createStatements_bindings {input : CreateInput} {out : Outcome}
    (h : createStatements host catalog tables input = .ok out) :
    ∃ tenantId caseId principalId, uuidValue input.tenantId = some tenantId ∧
      uuidValue input.caseId = some caseId ∧ uuidValue input.principalId = some principalId ∧
      out.record.caseId = uuidText caseId ∧
      (∀ old ∈ tables.allBindings, old.id ≠ caseId ∧ ¬ (old.tenantId = tenantId ∧
        old.createdByPrincipalId = principalId ∧
        old.createRequestSha256 = input.requestSha256)) ∧
      ∀ key, out.tables.bindings key = tables.bindings key ++
        if key = (tenantId, caseId) then [input.draft tenantId caseId principalId] else [] := by
  simp only [createStatements, insertCreation, then_ok, castUuid, orRefuse_ok, return_ok] at h
  obtain ⟨tenantId, htenant, _, _, workflow, _, _, _, _, _, caseId, hcase, principalId, hprincipal,
    eventId, _, followUpAt, _, tables₁, hinsert, tables₂, hsteps, tables₃, hevent, rfl⟩ := h
  simp only [insertCase, then_ok, distinct_ok, return_ok] at hinsert
  obtain ⟨_, _, _, _, _, _, _, hid, _, _, _, hrequest, _, _, rfl⟩ := hinsert
  have hcases₂ := (insertSteps_same hsteps).1
  have hcases₃ := (insertEvent_same hevent).1
  refine ⟨tenantId, caseId, principalId, htenant, hcase, hprincipal, rfl, ?_, fun key => ?_⟩
  · intro old hold
    obtain ⟨row, hrow, rfl⟩ := List.mem_map.mp hold
    exact ⟨hid row hrow, hrequest row hrow⟩
  · exact bindings_append (hcases₃.trans hcases₂) key

/-- **A seal completes the binding of its case.** -/
theorem sealCreation_bindings {input : SealInput} {binding : Binding}
    (htenant : uuidValue input.tenantId = some key.1) (hcase : uuidValue input.caseId = some key.2)
    (hbound : tables.bindings key = [binding])
    (h : sealCreation host catalog tables input = .ok tables') :
    ∃ auditId, ∀ other, tables'.bindings other =
      if other = key then
        [{ binding with
          initialResponseBody := some input.responseBody, initialAuditId := some auditId }]
      else tables.bindings other := by
  simp only [sealCreation, then_ok, castUuid, orRefuse_ok] at h
  obtain ⟨tenantId, htenant', caseId, hcase', principalId, _, auditId, _, row, hrow, hupdate⟩ := h
  obtain rfl : key.1 = tenantId := Option.some.inj (htenant.symm.trans htenant')
  obtain rfl : key.2 = caseId := Option.some.inj (hcase.symm.trans hcase')
  obtain ⟨hmem, hkey⟩ := case?_member (Option.filter_eq_some_iff.mp hrow).1
  have hsame : binding = row.binding := by
    have hin : row.binding ∈ tables.bindings key := mem_bindings.mpr ⟨row, hmem, hkey, rfl⟩
    rw [hbound, List.mem_singleton] at hin
    exact hin.symm
  simp only [updateCase, then_ok, return_ok] at hupdate
  obtain ⟨_, _, _, _, _, _, htables⟩ := hupdate
  have hcases : tables'.cases = Table.updateWhere (·.key = key)
      (fun _ => { row with
        initialResponseBody := some input.responseBody, initialAuditId := some auditId })
      tables.cases := by
    rw [← htables, hkey]
  refine ⟨auditId, fun other => ?_⟩
  rw [bindings_rewrite hbound hcases hkey, hsame]
  rfl

end Cases
