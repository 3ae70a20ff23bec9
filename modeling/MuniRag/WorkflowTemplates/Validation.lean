import MuniRag.Documents.Normalize
import MuniRag.WorkflowTemplates.Templates

/-!
# Which editable templates are accepted

An editable template is accepted exactly when it is `EditableTemplate.Accepted`, and the
result is the template with its texts trimmed.  Whatever value is accepted holds the texts
of an accepted template, so both validators return their own output unchanged.
-/

namespace WorkflowTemplates

open Results Api

/-! ## Texts and lists of texts -/

/-- A text that is not blank. -/
def Nonblank (text : JsString) : Prop := trim text ≠ []

/-- Texts that are not blank and differ once they are trimmed. -/
def Entries (texts : List JsString) : Prop :=
  (∀ text ∈ texts, Nonblank text) ∧ (texts.map trim).Nodup

theorem requireText_ok {value : Value} {field out : JsString} :
    requireText value field = .ok out ↔ ∃ text, value = .text text ∧ Nonblank text ∧
      out = trim text := by
  unfold requireText
  split
  · rename_i text
    by_cases hblank : trim text = []
    · simp [hblank, Nonblank]
    · simp [hblank, Nonblank, eq_comm]
  · rename_i hnone
    constructor
    · intro h
      cases h
    · rintro ⟨text, rfl, -⟩
      exact absurd rfl (hnone text)

theorem requireSafeId_ok {value : Value} {field out : JsString} :
    requireSafeId value field = .ok out ↔ ∃ text, value = .text text ∧ Nonblank text ∧
      isSafeId (trim text) = true ∧ out = trim text := by
  simp only [requireSafeId, then_ok, requireText_ok, require_ok, return_ok]
  constructor
  · rintro ⟨id, ⟨text, rfl, hblank, rfl⟩, _, hsafe, rfl⟩
    exact ⟨text, rfl, hblank, hsafe, rfl⟩
  · rintro ⟨text, rfl, hblank, hsafe, rfl⟩
    exact ⟨_, ⟨text, rfl, hblank, rfl⟩, (), hsafe, rfl⟩

/-- The texts of an array are read one by one. -/
theorem forall₂_requireText {field : JsString} {values : List Value} {out : List JsString} {k : Nat} :
    List.Forall₂ (fun item text => requireText item.1 (indexed field item.2) = .ok text)
      (values.zipIdx k) out ↔
      ∃ texts : List JsString, values = texts.map .text ∧ (∀ text ∈ texts, Nonblank text) ∧ out = texts.map trim := by
  induction values generalizing out k with
  | nil =>
      rw [List.zipIdx_nil, List.forall₂_nil_left_iff]
      constructor
      · rintro rfl
        exact ⟨[], rfl, fun _ h => absurd h List.not_mem_nil, rfl⟩
      · rintro ⟨texts, htexts, -, rfl⟩
        rw [List.map_eq_nil_iff.mp htexts.symm, List.map_nil]
  | cons value values ih =>
      rw [List.zipIdx_cons, List.forall₂_cons_left_iff]
      constructor
      · rintro ⟨first, rest, hfirst, hrest, rfl⟩
        obtain ⟨text, rfl, hblank, rfl⟩ := requireText_ok.mp hfirst
        obtain ⟨texts, rfl, hblanks, rfl⟩ := ih.mp hrest
        exact ⟨text :: texts, rfl, List.forall_mem_cons.mpr ⟨hblank, hblanks⟩, rfl⟩
      · rintro ⟨texts, htexts, hblanks, rfl⟩
        obtain ⟨text, texts, rfl, rfl, rfl⟩ := List.map_eq_cons_iff.mp htexts.symm
        rw [List.forall_mem_cons] at hblanks
        exact ⟨_, _, requireText_ok.mpr ⟨text, rfl, hblanks.1, rfl⟩,
          ih.mpr ⟨texts, rfl, hblanks.2, rfl⟩, rfl⟩

theorem requireStringArray_ok {value : Value} {field : JsString} {out : List JsString} :
    requireStringArray value field = .ok out ↔ ∃ texts : List JsString, value = textsValue texts ∧ Entries texts ∧
      out = texts.map trim := by
  unfold requireStringArray
  split
  · rename_i values
    simp only [then_ok, mapM_ok, require_ok, return_ok, forall₂_requireText]
    constructor
    · rintro ⟨items, ⟨texts, rfl, hblanks, rfl⟩, _, hnodup, rfl⟩
      exact ⟨texts, rfl, ⟨hblanks, hnodup⟩, rfl⟩
    · rintro ⟨texts, heq, hentries, rfl⟩
      obtain rfl := Value.array.inj heq
      exact ⟨_, ⟨texts, rfl, hentries.1, rfl⟩, (), hentries.2, rfl⟩
  · rename_i hnone
    constructor
    · intro h
      cases h
    · rintro ⟨texts, rfl, -⟩
      exact absurd rfl (hnone _)

theorem textsValue_inj {texts others : List JsString} (h : textsValue texts = textsValue others) :
    texts = others :=
  List.map_injective_iff.mpr (fun _ _ => Value.text.inj) (Value.array.inj h)

/-- Reading the value of texts that are not blank. -/
theorem requireStringArray_texts {texts out : List JsString} {field : JsString} :
    requireStringArray (textsValue texts) field = .ok out ↔ Entries texts ∧ out = texts.map trim := by
  rw [requireStringArray_ok]
  constructor
  · rintro ⟨others, heq, hentries, rfl⟩
    rw [textsValue_inj heq]
    exact ⟨hentries, rfl⟩
  · rintro ⟨hentries, rfl⟩
    exact ⟨texts, rfl, hentries, rfl⟩

theorem requireText_text {text out field : JsString} :
    requireText (.text text) field = .ok out ↔ Nonblank text ∧ out = trim text := by
  rw [requireText_ok]
  simp

theorem requireSafeId_text {text out field : JsString} :
    requireSafeId (.text text) field = .ok out ↔
      Nonblank text ∧ isSafeId (trim text) = true ∧ out = trim text := by
  rw [requireSafeId_ok]
  simp

/-! ## Steps -/

section Steps

variable {authorityIds governanceIds : List JsString} {step out : EditableStep} {index : Nat}

/-- What the validator makes of the texts of a step. -/
def EditableStep.tidy (step : EditableStep) : EditableStep where
  id := trim step.id
  order := step.order
  label := trim step.label
  action := trim step.action
  requiredDocuments := step.requiredDocuments.map trim
  outputDocuments := step.outputDocuments.map trim
  allowedSourceAuthorities := step.allowedSourceAuthorities.map trim
  governanceRules := step.governanceRules.map trim
  evidencePatterns := step.evidencePatterns.map trim
  humanValidationRequired := step.humanValidationRequired
  notes := step.notes.bind notBlank

structure StepAccepted (authorityIds governanceIds : List JsString) (step : EditableStep) : Prop where
  order : 1 ≤ step.order
  authorities : Entries step.allowedSourceAuthorities
  knownAuthorities : ∀ id ∈ step.allowedSourceAuthorities.map trim, id ∈ authorityIds
  rules : Entries step.governanceRules
  knownRules : ∀ id ∈ step.governanceRules.map trim, id ∈ governanceIds
  id : Nonblank step.id
  safe : isSafeId (trim step.id) = true
  label : Nonblank step.label
  action : Nonblank step.action
  requiredDocuments : Entries step.requiredDocuments
  outputDocuments : Entries step.outputDocuments
  evidencePatterns : Entries step.evidencePatterns

theorem nonblank_trim {text : JsString} : Nonblank (trim text) ↔ Nonblank text := by
  rw [Nonblank, Nonblank, Documents.trim_trim]

theorem map_trim_trim (texts : List JsString) : (texts.map trim).map trim = texts.map trim := by
  rw [List.map_map]
  exact List.map_congr_left fun text _ => Documents.trim_trim text

theorem Entries.trim {texts : List JsString} (h : Entries texts) : Entries (texts.map trim) := by
  refine ⟨fun text htext => ?_, ?_⟩
  · obtain ⟨source, hsource, rfl⟩ := List.mem_map.mp htext
    exact nonblank_trim.mpr (h.1 source hsource)
  · rw [map_trim_trim]
    exact h.2

theorem bind_notBlank (notes : Option JsString) :
    (notes.bind notBlank).bind notBlank = notes.bind notBlank := by
  cases notes with
  | none => rfl
  | some text =>
      by_cases hblank : trim text = []
      · simp [notBlank, hblank]
      · simp [notBlank, hblank, Documents.trim_trim]

theorem EditableStep.tidy_tidy (step : EditableStep) : step.tidy.tidy = step.tidy := by
  simp only [EditableStep.tidy, Documents.trim_trim, map_trim_trim, bind_notBlank]

theorem StepAccepted.tidy (h : StepAccepted authorityIds governanceIds step) :
    StepAccepted authorityIds governanceIds step.tidy where
  order := h.order
  authorities := h.authorities.trim
  knownAuthorities := by
    rw [EditableStep.tidy, map_trim_trim]
    exact h.knownAuthorities
  rules := h.rules.trim
  knownRules := by
    rw [EditableStep.tidy, map_trim_trim]
    exact h.knownRules
  id := nonblank_trim.mpr h.id
  safe := by
    rw [EditableStep.tidy, Documents.trim_trim]
    exact h.safe
  label := nonblank_trim.mpr h.label
  action := nonblank_trim.mpr h.action
  requiredDocuments := h.requiredDocuments.trim
  outputDocuments := h.outputDocuments.trim
  evidencePatterns := h.evidencePatterns.trim

/-- Whatever value is accepted as a step, it holds the texts of an accepted step. -/
theorem validateStep_reads {value : Value}
    (h : validateStep authorityIds governanceIds value index = .ok out) :
    ∃ step, StepAccepted authorityIds governanceIds step ∧ out = step.tidy := by
  simp only [validateStep, then_ok, require_ok, orRefuse_ok, forM_ok, requireStringArray_ok,
    requireSafeId_ok, requireText_ok, return_ok] at h
  obtain ⟨_, -, order, horder, _, ⟨authorities, -, hauthorities, rfl⟩, _, hknown, _,
    ⟨rules, -, hrules, rfl⟩, _, hknownRules, _, ⟨id, -, hid, hsafe, rfl⟩, _,
    ⟨label, -, hlabel, rfl⟩, _, ⟨action, -, haction, rfl⟩, _, ⟨documents, -, hdocuments, rfl⟩, _,
    ⟨outputs, -, houtputs, rfl⟩, _, ⟨patterns, -, hpatterns, rfl⟩, hout⟩ := h
  have hpositive : 1 ≤ order := by
    unfold orderOf at horder
    split at horder
    · rename_i n hn
      split at horder
      · rename_i hint
        obtain rfl := Option.some.inj horder
        omega
      · cases horder
    · cases horder
  exact ⟨{ id, order, label, action, requiredDocuments := documents, outputDocuments := outputs,
           allowedSourceAuthorities := authorities, governanceRules := rules,
           evidencePatterns := patterns,
           humanValidationRequired := out.humanValidationRequired, notes := out.notes },
    ⟨hpositive, hauthorities, hknown, hrules, hknownRules, hid, hsafe, hlabel, haction, hdocuments,
      houtputs, hpatterns⟩, by
        subst hout
        cases value.get "notes" with
        | text text => exact congrArg _ (bind_notBlank (some text)).symm
        | _ => rfl⟩

/-- A step is accepted as `StepAccepted` says, and comes back with its texts trimmed. -/
theorem validateStep_toValue :
    validateStep authorityIds governanceIds step.toValue index = .ok out ↔
      StepAccepted authorityIds governanceIds step ∧ out = step.tidy := by
  have horder : orderOf (.number (some (step.order : Rat))) =
      if 1 ≤ step.order then some step.order else none := by
    simp [orderOf]
  simp only [validateStep, then_ok, require_ok, orRefuse_ok, forM_ok, return_ok,
    EditableStep.get_order, EditableStep.get_allowedSourceAuthorities,
    EditableStep.get_governanceRules, EditableStep.get_id, EditableStep.get_label,
    EditableStep.get_action, EditableStep.get_requiredDocuments, EditableStep.get_outputDocuments,
    EditableStep.get_evidencePatterns, EditableStep.get_humanValidationRequired,
    EditableStep.get_notes, requireStringArray_texts, requireSafeId_text, requireText_text, horder]
  constructor
  · rintro ⟨_, -, order, hpositive, _, ⟨hauthorities, rfl⟩, _, hknown, _, ⟨hrules, rfl⟩, _,
      hknownRules, _, ⟨hid, hsafe, rfl⟩, _, ⟨hlabel, rfl⟩, _, ⟨haction, rfl⟩, _,
      ⟨hdocuments, rfl⟩, _, ⟨houtputs, rfl⟩, _, ⟨hpatterns, rfl⟩, rfl⟩
    split at hpositive
    · rename_i hone
      obtain rfl := Option.some.inj hpositive
      exact ⟨⟨hone, hauthorities, hknown, hrules, hknownRules, hid, hsafe, hlabel, haction,
        hdocuments, houtputs, hpatterns⟩, by
          unfold EditableStep.tidy
          cases step.humanValidationRequired <;> cases step.notes <;> rfl⟩
    · cases hpositive
  · rintro ⟨h, rfl⟩
    exact ⟨(), rfl, _, if_pos h.order, _, ⟨h.authorities, rfl⟩, (), h.knownAuthorities, _,
      ⟨h.rules, rfl⟩, (), h.knownRules, _, ⟨h.id, h.safe, rfl⟩, _, ⟨h.label, rfl⟩, _,
      ⟨h.action, rfl⟩, _, ⟨h.requiredDocuments, rfl⟩, _, ⟨h.outputDocuments, rfl⟩, _,
      ⟨h.evidencePatterns, rfl⟩, by
        unfold EditableStep.tidy
        cases step.humanValidationRequired <;> cases step.notes <;> rfl⟩

end Steps

/-! ## Templates -/

section Templates

variable {pack : DomainPack} {template out : EditableTemplate}

def EditableTemplate.tidy (template : EditableTemplate) : EditableTemplate where
  domainPackId := trim template.domainPackId
  workflowId := trim template.workflowId
  workflowType := trim template.workflowType
  title := trim template.title
  description := trim template.description
  defaultSummary := trim template.defaultSummary
  validationWarning := trim template.validationWarning
  governanceRules := template.governanceRules.map trim
  evidenceRequirement := template.evidenceRequirement
  authoritative := template.authoritative
  steps := template.steps.map EditableStep.tidy

def DomainPack.authorityIds (pack : DomainPack) : List JsString :=
  pack.sourceAuthorityClasses.map (·.id)

def DomainPack.governanceIds (pack : DomainPack) : List JsString := pack.governanceRules.map (·.id)

/-- Orders that are 1, 2, 3 and so on once they are sorted. -/
def Contiguous (orders : List Nat) : Prop :=
  ∀ order ∈ orders.mergeSort.zipIdx, order.1 = order.2 + 1

structure EditableTemplate.Accepted (pack : DomainPack) (template : EditableTemplate) : Prop where
  packNonblank : Nonblank template.domainPackId
  packSafe : isSafeId (trim template.domainPackId) = true
  packOwner : trim template.domainPackId = pack.id
  workflowType : Nonblank template.workflowType
  knownType : trim template.workflowType ∈ pack.workflowTypes.map (·.id)
  authoritative : template.authoritative = true → template.evidenceRequirement = .required
  rules : Entries template.governanceRules
  knownRules : ∀ id ∈ template.governanceRules.map trim, id ∈ pack.governanceIds
  someStep : template.steps ≠ []
  steps : ∀ step ∈ template.steps, StepAccepted pack.authorityIds pack.governanceIds step
  ids : (template.steps.map fun step => trim step.id).Nodup
  orders : (template.steps.map (·.order)).Nodup
  contiguous : Contiguous (template.steps.map (·.order))
  evidence : template.evidenceRequirement = .required → ∀ step ∈ template.steps,
    step.evidencePatterns ≠ [] ∧ step.allowedSourceAuthorities ≠ []
  workflowId : Nonblank template.workflowId
  workflowSafe : isSafeId (trim template.workflowId) = true
  title : Nonblank template.title
  description : Nonblank template.description
  defaultSummary : Nonblank template.defaultSummary
  validationWarning : Nonblank template.validationWarning

theorem EditableTemplate.tidy_tidy (template : EditableTemplate) :
    template.tidy.tidy = template.tidy := by
  have hsteps : (template.steps.map EditableStep.tidy).map EditableStep.tidy =
      template.steps.map EditableStep.tidy := by
    rw [List.map_map]
    exact List.map_congr_left fun step _ => step.tidy_tidy
  simp only [EditableTemplate.tidy, Documents.trim_trim, map_trim_trim, hsteps]

theorem EditableTemplate.Accepted.tidy (h : template.Accepted pack) : template.tidy.Accepted pack where
  packNonblank := nonblank_trim.mpr h.packNonblank
  packSafe := by
    rw [EditableTemplate.tidy, Documents.trim_trim]
    exact h.packSafe
  packOwner := by
    rw [EditableTemplate.tidy, Documents.trim_trim]
    exact h.packOwner
  workflowType := nonblank_trim.mpr h.workflowType
  knownType := by
    rw [EditableTemplate.tidy, Documents.trim_trim]
    exact h.knownType
  authoritative := h.authoritative
  rules := h.rules.trim
  knownRules := by
    rw [EditableTemplate.tidy, map_trim_trim]
    exact h.knownRules
  someStep := by
    rw [EditableTemplate.tidy, Ne, List.map_eq_nil_iff]
    exact h.someStep
  steps := by
    intro step hstep
    obtain ⟨source, hsource, rfl⟩ := List.mem_map.mp hstep
    exact (h.steps source hsource).tidy
  ids := by
    have hids := h.ids
    simpa [EditableTemplate.tidy, EditableStep.tidy, Function.comp_def, Documents.trim_trim] using hids
  orders := by
    have horders := h.orders
    simpa [EditableTemplate.tidy, EditableStep.tidy, Function.comp_def] using horders
  contiguous := by
    have hcontiguous := h.contiguous
    simpa [EditableTemplate.tidy, EditableStep.tidy, Function.comp_def] using hcontiguous
  evidence := by
    intro hrequired step hstep
    obtain ⟨source, hsource, rfl⟩ := List.mem_map.mp hstep
    obtain ⟨hpatterns, hauthorities⟩ := h.evidence hrequired source hsource
    exact ⟨by simpa [EditableStep.tidy] using hpatterns,
      by simpa [EditableStep.tidy] using hauthorities⟩
  workflowId := nonblank_trim.mpr h.workflowId
  workflowSafe := by
    rw [EditableTemplate.tidy, Documents.trim_trim]
    exact h.workflowSafe
  title := nonblank_trim.mpr h.title
  description := nonblank_trim.mpr h.description
  defaultSummary := nonblank_trim.mpr h.defaultSummary
  validationWarning := nonblank_trim.mpr h.validationWarning

theorem requireArray_ok {value : Value} {error : JsString} {values : List Value} :
    requireArray value error = .ok values ↔ value = .array values ∧ values ≠ [] := by
  unfold requireArray
  split
  · rename_i items
    by_cases hempty : items = []
    · subst hempty
      rw [if_pos rfl]
      constructor
      · intro h
        cases h
      · rintro ⟨heq, hne⟩
        exact absurd (Value.array.inj heq).symm hne
    · rw [if_neg hempty]
      constructor
      · intro h
        obtain rfl := Except.ok.inj h
        exact ⟨rfl, hempty⟩
      · rintro ⟨heq, -⟩
        rw [Value.array.inj heq]
  · rename_i hnone
    constructor
    · intro h
      cases h
    · rintro ⟨rfl, -⟩
      exact absurd rfl (hnone _)

theorem requireEvidence_ok {requirement : EvidenceRequirement} {steps : List EditableStep}
    {done : Unit} :
    requireEvidence requirement steps = .ok done ↔ (requirement = .required → ∀ step ∈ steps,
      step.evidencePatterns ≠ [] ∧ step.allowedSourceAuthorities ≠ []) := by
  unfold requireEvidence
  by_cases hrequired : requirement = .required
  · rw [if_pos hrequired, forM_ok]
    simp only [then_ok, require_ok]
    constructor
    · intro h _ step hstep
      obtain ⟨index, hindex⟩ := List.mem_iff_getElem.mp hstep
      obtain ⟨hlt, heq⟩ := hindex
      have hmem : (step, index) ∈ steps.zipIdx := by
        rw [List.mem_zipIdx_iff_getElem?, List.getElem?_eq_getElem hlt, heq]
      obtain ⟨_, hpatterns, hauthorities⟩ := h _ hmem
      exact ⟨hpatterns, hauthorities⟩
    · intro h step hstep
      obtain ⟨hpatterns, hauthorities⟩ := h hrequired step.1 (List.fst_mem_of_mem_zipIdx hstep)
      exact ⟨(), hpatterns, hauthorities⟩
  · simp [hrequired]

/-- The values of a list of steps are accepted when each step is. -/
theorem forall₂_validateStep {steps : List EditableStep} {outs : List EditableStep}
    {authorityIds governanceIds : List JsString} {k : Nat} :
    List.Forall₂ (fun item step =>
        validateStep authorityIds governanceIds item.1 item.2 = .ok step)
      ((steps.map EditableStep.toValue).zipIdx k) outs ↔
      (∀ step ∈ steps, StepAccepted authorityIds governanceIds step) ∧
        outs = steps.map EditableStep.tidy := by
  induction steps generalizing outs k with
  | nil => simp
  | cons step steps ih =>
      rw [List.map_cons, List.zipIdx_cons, List.forall₂_cons_left_iff]
      constructor
      · rintro ⟨first, rest, hfirst, hrest, rfl⟩
        obtain ⟨hstep, rfl⟩ := validateStep_toValue.mp hfirst
        obtain ⟨hsteps, rfl⟩ := ih.mp hrest
        exact ⟨List.forall_mem_cons.mpr ⟨hstep, hsteps⟩, rfl⟩
      · rintro ⟨hsteps, rfl⟩
        rw [List.forall_mem_cons] at hsteps
        exact ⟨_, _, validateStep_toValue.mpr ⟨hsteps.1, rfl⟩, ih.mpr ⟨hsteps.2, rfl⟩, rfl⟩

theorem forall₂_reads {values : List Value} {outs : List EditableStep}
    {authorityIds governanceIds : List JsString} {k : Nat}
    (h : List.Forall₂ (fun item step =>
        validateStep authorityIds governanceIds item.1 item.2 = .ok step) (values.zipIdx k) outs) :
    ∃ steps : List EditableStep, (∀ step ∈ steps, StepAccepted authorityIds governanceIds step) ∧
      outs = steps.map EditableStep.tidy ∧ (values ≠ [] → steps ≠ []) := by
  induction values generalizing outs k with
  | nil =>
      rw [List.zipIdx_nil, List.forall₂_nil_left_iff] at h
      exact ⟨[], fun _ hmem => absurd hmem List.not_mem_nil, h, fun hne => absurd rfl hne⟩
  | cons value values ih =>
      rw [List.zipIdx_cons, List.forall₂_cons_left_iff] at h
      obtain ⟨first, rest, hfirst, hrest, rfl⟩ := h
      obtain ⟨step, hstep, rfl⟩ := validateStep_reads hfirst
      obtain ⟨steps, hsteps, rfl, -⟩ := ih hrest
      exact ⟨step :: steps, List.forall_mem_cons.mpr ⟨hstep, hsteps⟩, rfl,
        fun _ => List.cons_ne_nil _ _⟩

theorem tidy_ids (steps : List EditableStep) :
    (steps.map EditableStep.tidy).map (·.id) = steps.map fun step => trim step.id := by
  simp [EditableStep.tidy, Function.comp_def]

theorem tidy_orders (steps : List EditableStep) :
    (steps.map EditableStep.tidy).map (·.order) = steps.map (·.order) := by
  simp [EditableStep.tidy, Function.comp_def]

theorem tidy_evidence {steps : List EditableStep} :
    (∀ step ∈ steps.map EditableStep.tidy,
      step.evidencePatterns ≠ [] ∧ step.allowedSourceAuthorities ≠ []) ↔
      ∀ step ∈ steps, step.evidencePatterns ≠ [] ∧ step.allowedSourceAuthorities ≠ [] := by
  simp [EditableStep.tidy]

/-- Whatever value is accepted as a template, it holds the texts of an accepted template. -/
theorem validateTemplate_reads {value : Value}
    (h : validateEditableWorkflowTemplate value pack = .ok out) :
    ∃ template : EditableTemplate, template.Accepted pack ∧ out = template.tidy := by
  simp only [validateEditableWorkflowTemplate, then_ok, require_ok, orRefuse_ok, forM_ok,
    requireStringArray_ok, requireSafeId_ok, requireText_ok, requireArray_ok, mapM_ok,
    requireEvidence_ok, return_ok] at h
  obtain ⟨_, -, _, ⟨packId, -, hpack, hpackSafe, rfl⟩, _, howner, _, ⟨type, -, htype, rfl⟩, _,
    hknown, requirement, -, _, hauthoritative, _, ⟨rules, -, hrules, rfl⟩, _, hknownRules, values,
    ⟨-, hvalues⟩, _, hsteps, _, hids, _, horders, _, hcontiguous, _, hevidence, _,
    ⟨workflowId, -, hworkflow, hsafe, rfl⟩, _, ⟨title, -, htitle, rfl⟩, _,
    ⟨description, -, hdescription, rfl⟩, _, ⟨summary, -, hsummary, rfl⟩, _,
    ⟨warning, -, hwarning, rfl⟩, hout⟩ := h
  obtain ⟨steps, haccepted, rfl, hsome⟩ := forall₂_reads hsteps
  rw [tidy_ids] at hids
  rw [tidy_orders] at horders hcontiguous
  rw [tidy_evidence] at hevidence
  exact ⟨{ domainPackId := packId, workflowId, workflowType := type, title, description,
           defaultSummary := summary, validationWarning := warning, governanceRules := rules,
           evidenceRequirement := requirement,
           authoritative := out.authoritative
           steps },
    ⟨hpack, hpackSafe, howner, htype, hknown, hout ▸ hauthoritative, hrules, hknownRules,
      hsome hvalues,
      haccepted, hids, horders, hcontiguous, hevidence, hworkflow, hsafe, htitle, hdescription,
      hsummary, hwarning⟩, by
        subst hout
        rfl⟩

theorem evidenceRequirementOf_text (requirement other : EvidenceRequirement) :
    evidenceRequirementOf (.text requirement.text) = some other ↔ requirement = other := by
  cases requirement <;> cases other <;> decide

theorem validateTemplate_toValue :
    validateEditableWorkflowTemplate template.toValue pack = .ok out ↔
      template.Accepted pack ∧ out = template.tidy := by
  simp only [validateEditableWorkflowTemplate, then_ok, require_ok, orRefuse_ok, forM_ok,
    EditableTemplate.get_domainPackId, EditableTemplate.get_workflowType,
    EditableTemplate.get_evidenceRequirement, EditableTemplate.get_authoritative,
    EditableTemplate.get_governanceRules, EditableTemplate.get_steps,
    EditableTemplate.get_workflowId, EditableTemplate.get_title, EditableTemplate.get_description,
    EditableTemplate.get_defaultSummary, EditableTemplate.get_validationWarning,
    requireStringArray_texts, requireSafeId_text, requireText_text, requireArray_ok, mapM_ok,
    requireEvidence_ok, evidenceRequirementOf_text, return_ok]
  constructor
  · rintro ⟨_, -, _, ⟨hpack, hpackSafe, rfl⟩, _, howner, _, ⟨htype, rfl⟩, _, hknown, _, rfl, _,
      hauthoritative, _, ⟨hrules, rfl⟩, _, hknownRules, values, ⟨hvalues, hsome⟩, steps, hsteps, _,
      hids, _, horders, _, hcontiguous, _, hevidence, _, ⟨hworkflow, hsafe, rfl⟩, _,
      ⟨htitle, rfl⟩, _, ⟨hdescription, rfl⟩, _, ⟨hsummary, rfl⟩, _, ⟨hwarning, rfl⟩, rfl⟩
    obtain rfl := Value.array.inj hvalues
    obtain ⟨haccepted, rfl⟩ := forall₂_validateStep.mp hsteps
    rw [tidy_ids] at hids
    rw [tidy_orders] at horders hcontiguous
    rw [tidy_evidence] at hevidence
    rw [Ne, List.map_eq_nil_iff] at hsome
    exact ⟨⟨hpack, hpackSafe, howner, htype, hknown, require_ok.mp hauthoritative, hrules,
      hknownRules, hsome, haccepted, hids, horders, hcontiguous, hevidence, hworkflow, hsafe,
      htitle, hdescription, hsummary, hwarning⟩, rfl⟩
  · rintro ⟨h, rfl⟩
    refine ⟨(), rfl, _, ⟨h.packNonblank, h.packSafe, rfl⟩, (), h.packOwner, _,
      ⟨h.workflowType, rfl⟩, (), h.knownType, _, rfl, (),
      require_ok.mpr h.authoritative, _, ⟨h.rules, rfl⟩, (),
      h.knownRules, _, ⟨rfl, ?_⟩, _, forall₂_validateStep.mpr ⟨h.steps, rfl⟩, (), ?_, (), ?_, (),
      ?_, (), ?_, _, ⟨h.workflowId, h.workflowSafe, rfl⟩, _, ⟨h.title, rfl⟩, _,
      ⟨h.description, rfl⟩, _, ⟨h.defaultSummary, rfl⟩, _, ⟨h.validationWarning, rfl⟩, rfl⟩
    · rw [Ne, List.map_eq_nil_iff]
      exact h.someStep
    · rw [tidy_ids]
      exact h.ids
    · rw [tidy_orders]
      exact h.orders
    · rw [tidy_orders]
      exact h.contiguous
    · rw [tidy_evidence]
      exact h.evidence

/-- **Templates come back.**  The validator returns its own output unchanged. -/
theorem validateTemplate_again {value : Value}
    (h : validateEditableWorkflowTemplate value pack = .ok out) :
    validateEditableWorkflowTemplate out.toValue pack = .ok out := by
  obtain ⟨template, haccepted, rfl⟩ := validateTemplate_reads h
  exact validateTemplate_toValue.mpr ⟨haccepted.tidy, template.tidy_tidy.symm⟩

/-! ## Collections -/

theorem validateCollection_toValue {collection result : EditableCollection} :
    validateEditableWorkflowTemplateCollection collection.toValue pack = .ok result ↔
      collection.domainPackId = pack.id ∧ collection.templates ≠ [] ∧
      (∀ template ∈ collection.templates, template.Accepted pack) ∧
      (collection.templates.map fun template => trim template.workflowId).Nodup ∧
      result = ⟨pack.id, collection.templates.map EditableTemplate.tidy⟩ := by
  have hone : isNumberOne (.number (some 1)) = true := rfl
  have howner : isText pack.id (.text collection.domainPackId) = true ↔
      collection.domainPackId = pack.id := beq_iff_eq
  have htemplates {templates outs : List EditableTemplate} :
      List.Forall₂ (fun value template =>
        validateEditableWorkflowTemplate value pack = .ok template)
        (templates.map EditableTemplate.toValue) outs ↔
      (∀ template ∈ templates, template.Accepted pack) ∧
        outs = templates.map EditableTemplate.tidy := by
    rw [List.forall₂_map_left_iff]
    induction templates generalizing outs with
    | nil => simp
    | cons template templates ih =>
        rw [List.forall₂_cons_left_iff, List.forall_mem_cons]
        constructor
        · rintro ⟨first, rest, hfirst, hrest, rfl⟩
          obtain ⟨haccepted, rfl⟩ := validateTemplate_toValue.mp hfirst
          obtain ⟨hall, rfl⟩ := ih.mp hrest
          exact ⟨⟨haccepted, hall⟩, rfl⟩
        · rintro ⟨⟨haccepted, hall⟩, rfl⟩
          exact ⟨_, _, validateTemplate_toValue.mpr ⟨haccepted, rfl⟩, ih.mpr ⟨hall, rfl⟩, rfl⟩
  have hids (templates : List EditableTemplate) :
      (templates.map EditableTemplate.tidy).map (·.workflowId) =
        templates.map fun template => trim template.workflowId := by
    simp [EditableTemplate.tidy, Function.comp_def]
  simp only [validateEditableWorkflowTemplateCollection, then_ok, require_ok,
    EditableCollection.get_schemaVersion, EditableCollection.get_domainPackId,
    EditableCollection.get_templates, hone, howner, requireArray_ok, mapM_ok, return_ok]
  constructor
  · rintro ⟨_, -, _, -, _, hpack, values, ⟨hvalues, hsome⟩, outs, houts, _, hnodup, rfl⟩
    obtain rfl := Value.array.inj hvalues
    obtain ⟨haccepted, rfl⟩ := htemplates.mp houts
    rw [hids] at hnodup
    rw [Ne, List.map_eq_nil_iff] at hsome
    exact ⟨hpack, hsome, haccepted, hnodup, rfl⟩
  · rintro ⟨hpack, hsome, haccepted, hnodup, rfl⟩
    refine ⟨(), rfl, (), trivial, (), hpack, _, ⟨rfl, ?_⟩, _, htemplates.mpr ⟨haccepted, rfl⟩, (),
      ?_, rfl⟩
    · rw [Ne, List.map_eq_nil_iff]
      exact hsome
    · rw [hids]
      exact hnodup

/-- **Collections come back.**  The validator of collections returns its own output unchanged. -/
theorem validateCollection_again {value : Value} {result : EditableCollection}
    (h : validateEditableWorkflowTemplateCollection value pack = .ok result) :
    validateEditableWorkflowTemplateCollection result.toValue pack = .ok result := by
  simp only [validateEditableWorkflowTemplateCollection, then_ok, require_ok, requireArray_ok,
    mapM_ok, return_ok] at h
  obtain ⟨_, -, _, -, _, -, values, ⟨-, hsome⟩, templates, htemplates, _, hnodup, rfl⟩ := h
  have hreads : ∀ template ∈ templates, ∃ source : EditableTemplate, source.Accepted pack ∧
      template = source.tidy := by
    intro template htemplate
    obtain ⟨value, -, hvalue⟩ := exists_of_mapM_ok (mapM_ok.mpr htemplates) htemplate
    exact validateTemplate_reads hvalue
  have hsame : templates.map EditableTemplate.tidy = templates := by
    conv_rhs => rw [← List.map_id templates]
    refine List.map_congr_left fun template htemplate => ?_
    obtain ⟨source, -, rfl⟩ := hreads template htemplate
    exact source.tidy_tidy
  have htrim : (templates.map fun template => trim template.workflowId) =
      templates.map (·.workflowId) := by
    refine List.map_congr_left fun template htemplate => ?_
    obtain ⟨source, -, rfl⟩ := hreads template htemplate
    exact Documents.trim_trim _
  refine validateCollection_toValue.mpr ⟨rfl, ?_, fun template htemplate => ?_, ?_, ?_⟩
  · intro hempty
    have hlength := htemplates.length_eq
    rw [show templates = [] from hempty, List.length_nil] at hlength
    exact hsome (List.length_eq_zero_iff.mp hlength)
  · obtain ⟨source, haccepted, rfl⟩ := hreads template htemplate
    exact haccepted.tidy
  · rw [htrim]
    exact hnodup
  · rw [hsame]

end Templates

end WorkflowTemplates
