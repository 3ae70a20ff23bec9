import MuniRag.WorkflowTemplates.Validation

/-!
# Which domain packs convert

The templates of a domain pack that `validateDomainPack` accepts convert to accepted
templates exactly when the pack is `Convertible` (`converts_iff`).  A slug is always a safe
identifier; but `validateDomainPack` looks neither at the slugs of titles nor at the texts of
templates and their steps, and does not compare the identifiers of governance rules.
-/

namespace WorkflowTemplates

open Results Api

/-! ## Slugs are safe -/

theorem dashRuns_strip (text : JsString) :
    (dashRuns false text).dropWhile (· == dash) = dashRuns true text := by
  have htrue (text : JsString) : (dashRuns true text).dropWhile (· == dash) = dashRuns true text := by
    induction text with
    | nil => rfl
    | cons u text ih =>
        by_cases hu : isSlugUnit u = true
        · have hdash : u ≠ dash := by
            rintro rfl
            exact absurd hu (by decide)
          simp [dashRuns, hu, hdash]
        · simpa [dashRuns, hu] using ih
  cases text with
  | nil => rfl
  | cons u text =>
      by_cases hu : isSlugUnit u = true
      · have hdash : u ≠ dash := by
          rintro rfl
          exact absurd hu (by decide)
        simp [dashRuns, hu, hdash]
      · simpa [dashRuns, hu] using htrue text

theorem rdropWhile_cons_dash (u : UInt16) (text : JsString) :
    (u :: text).rdropWhile (· == dash) =
      if text.rdropWhile (· == dash) = [] then [u].rdropWhile (· == dash)
      else u :: text.rdropWhile (· == dash) := by
  unfold List.rdropWhile
  rw [List.reverse_cons, List.dropWhile_append]
  by_cases htext : text.reverse.dropWhile (· == dash) = []
  · simp [htext]
  · simp [htext]

/-- Without the dashes at the end, runs of dashes between slug units leave a safe identifier:
nothing or a dash and more of it behind a unit, nothing or an identifier behind a dash. -/
theorem isSafeRest_dashRuns (text : JsString) :
    isSafeRest true ((dashRuns false text).rdropWhile (· == dash)) = true ∧
      ((dashRuns true text).rdropWhile (· == dash) = [] ∨
        isSafeRest false ((dashRuns true text).rdropWhile (· == dash)) = true) := by
  induction text with
  | nil => exact ⟨rfl, .inl rfl⟩
  | cons u text ih =>
      by_cases hu : isSlugUnit u = true
      · have hdash : (u == dash) = false := by
          rw [beq_eq_false_iff_ne]
          rintro rfl
          exact absurd hu (by decide)
        have hcons (afterDash : Bool) : (dashRuns afterDash (u :: text)).rdropWhile (· == dash) =
            u :: (dashRuns false text).rdropWhile (· == dash) := by
          rw [dashRuns, if_pos hu, rdropWhile_cons_dash]
          split
          · rename_i hempty
            simp [hempty, List.rdropWhile_singleton, hdash]
          · rfl
        rw [hcons, hcons, isSafeRest, if_pos hu, isSafeRest, if_pos hu]
        exact ⟨ih.1, .inr ih.1⟩
      · have htrue : dashRuns true (u :: text) = dashRuns true text := by
          simp [dashRuns, hu]
        have hfalse : dashRuns false (u :: text) = dash :: dashRuns true text := by
          simp [dashRuns, hu]
        rw [htrue, hfalse, rdropWhile_cons_dash]
        refine ⟨?_, ih.2⟩
        split
        · rfl
        · rename_i hsome
          have hsafe := ih.2.resolve_left hsome
          rw [isSafeRest, if_neg (by decide), hsafe]
          rfl

theorem toSafeId_safe (platform : Platform) (value : JsString) {fallback : JsString}
    (h : isSafeId fallback = true) : isSafeId (toSafeId platform value fallback) = true := by
  simp only [toSafeId, stripDashes, dashRuns_strip]
  split
  · exact h
  · rename_i hsome
    exact (isSafeRest_dashRuns _).2.resolve_left hsome

theorem units_of_safe {afterUnit : Bool} {id : JsString} (h : isSafeRest afterUnit id = true) :
    ∀ u ∈ id, isSlugUnit u = true ∨ u = dash := by
  fun_induction isSafeRest afterUnit id with
  | case1 => exact fun _ hmem => absurd hmem List.not_mem_nil
  | case2 afterUnit u rest hu ih => exact List.forall_mem_cons.mpr ⟨.inl hu, ih h⟩
  | case3 afterUnit u rest hu ih =>
      rw [Bool.and_eq_true, Bool.and_eq_true, beq_iff_eq] at h
      exact List.forall_mem_cons.mpr ⟨.inr h.1.1, ih h.2⟩

theorem isWhitespace_slug {u : UInt16} (h : isSlugUnit u = true ∨ u = dash) :
    isWhitespace u = false := by
  rcases h with h | rfl
  · simp only [isSlugUnit, isLowerLetter, isDecimalDigit, Bool.or_eq_true, Bool.and_eq_true,
      decide_eq_true_eq, UInt16.le_iff_toNat_le, UInt16.reduceToNat] at h
    simp only [isWhitespace, Bool.or_eq_false_iff, Bool.and_eq_false_iff, decide_eq_false_iff_not,
      beq_eq_false_iff_ne, UInt16.le_iff_toNat_le, ne_eq, ← UInt16.toNat_inj, UInt16.reduceToNat]
    omega
  · decide

/-- Safe identifiers have no white space to trim. -/
theorem trim_safe {id : JsString} (h : isSafeId id = true) : trim id = id ∧ Nonblank id := by
  have hsolid : ∀ u ∈ id, isWhitespace u = false := fun u hu =>
    isWhitespace_slug (units_of_safe h u hu)
  have hdrop {text : JsString} (htext : ∀ u ∈ text, isWhitespace u = false) :
      text.dropWhile isWhitespace = text := by
    cases text with
    | nil => rfl
    | cons u text =>
        rw [List.dropWhile_cons_of_neg]
        rw [htext u List.mem_cons_self]
        exact Bool.false_ne_true
  have htrim : trim id = id := by
    rw [trim, hdrop hsolid, hdrop fun u hu => hsolid u (List.mem_reverse.mp hu), List.reverse_reverse]
  refine ⟨htrim, ?_⟩
  rw [Nonblank, htrim]
  rintro rfl
  exact absurd h (by decide)

theorem isSafeId_fallback (index : Nat) : isSafeId (js "step-" ++ numberText (index + 1)) = true := by
  have hrest {afterUnit : Bool} {digits : JsString} (hdigits : ∀ u ∈ digits, isDecimalDigit u = true)
      (hsome : afterUnit = true ∨ digits ≠ []) : isSafeRest afterUnit digits = true := by
    induction digits generalizing afterUnit with
    | nil => exact hsome.resolve_right fun h => h rfl
    | cons u digits ih =>
        rw [List.forall_mem_cons] at hdigits
        rw [isSafeRest, if_pos (by rw [isSlugUnit, hdigits.1, Bool.or_true])]
        exact ih hdigits.2 (.inl rfl)
  have hliteral : js "step-" = [0x73, 0x74, 0x65, 0x70, 0x2d] := by decide
  have hnumber : numberText ((index : Int) + 1) = js (index + 1).repr := rfl
  have hnonempty : js (index + 1).repr ≠ [] := by
    rw [js, Nat.toList_repr, Ne, List.flatMap_eq_nil_iff]
    intro h
    obtain ⟨c, hc⟩ := List.exists_mem_of_ne_nil _ (Nat.toDigits_ne_nil)
    exact utf16_ne_nil c (h c hc)
  rw [hnumber, hliteral]
  show isSafeRest false (js (index + 1).repr) = true
  exact hrest (fun u hu => isDecimalDigit_of_mem_repr hu) (.inr hnonempty)

/-! ## What a domain pack must satisfy -/

section Packs

variable {platform : Platform} {pack : DomainPack} {template : DomainTemplate}

/-- The identifiers of the pack as they stand: not blank, without white space around them. -/
def Trimmed (ids : List JsString) : Prop := ∀ id ∈ ids, Nonblank id ∧ trim id = id

def DomainPack.describe (pack : DomainPack) (template : DomainTemplate) : JsString :=
  ((pack.workflowTypes.find? (·.id == template.workflowType)).map
    (·.description)).getD template.defaultSummary

structure StepConvertible (step : TemplateStep) : Prop where
  title : Nonblank step.title
  action : Nonblank step.action
  requiredDocuments : Entries step.requiredDocuments
  outputDocuments : Entries step.outputDocuments
  evidencePatterns : Entries step.evidencePatterns
  somePattern : step.evidencePatterns ≠ []

def stepSlugs (platform : Platform) (template : DomainTemplate) : List JsString :=
  template.steps.mapIdx fun index step =>
    toSafeId platform step.title (js "step-" ++ numberText (index + 1))

def typeSlugs (platform : Platform) (pack : DomainPack) : List JsString :=
  pack.workflowTemplates.map fun template =>
    toSafeId platform template.workflowType (js "workflow")

structure TemplateConvertible (platform : Platform) (pack : DomainPack) (template : DomainTemplate) :
    Prop where
  workflowType : Nonblank template.workflowType
  knownType : trim template.workflowType ∈ pack.workflowTypes.map (·.id)
  title : Nonblank template.title
  description : Nonblank (pack.describe template)
  defaultSummary : Nonblank template.defaultSummary
  validationWarning : Nonblank template.validationWarning
  steps : ∀ step ∈ template.steps, StepConvertible step
  slugs : (stepSlugs platform template).Nodup

/-- The packs whose templates all convert. -/
structure Convertible (platform : Platform) (pack : DomainPack) : Prop where
  id : isSafeId pack.id = true
  authorities : Trimmed pack.authorityIds
  rules : Trimmed pack.governanceIds
  distinctRules : pack.governanceIds.Nodup
  templates : ∀ template ∈ pack.workflowTemplates, TemplateConvertible platform pack template
  slugs : (typeSlugs platform pack).Nodup

/-- The collection of all templates of a pack, converted. -/
def convertAll (platform : Platform) (pack : DomainPack) : EditableCollection where
  domainPackId := pack.id
  templates := pack.workflowTemplates.map fun template =>
    convertDomainWorkflowTemplate platform template pack

/-- Every converted template is valid, alone and in the collection of all of them, its slugs
are distinct, and the validators return their own output unchanged. -/
structure ConvertsValid (platform : Platform) (pack : DomainPack) : Prop where
  templates : ∀ template ∈ pack.workflowTemplates, ∃ out, validateEditableWorkflowTemplate
    (convertDomainWorkflowTemplate platform template pack).toValue pack = .ok out
  collection : ∃ out, validateEditableWorkflowTemplateCollection
    (convertAll platform pack).toValue pack = .ok out
  stepSlugs : ∀ template ∈ pack.workflowTemplates,
    ((convertDomainWorkflowTemplate platform template pack).steps.map (·.id)).Nodup
  typeSlugs : ((convertAll platform pack).templates.map (·.workflowId)).Nodup
  templatesAgain : ∀ value out, validateEditableWorkflowTemplate value pack = .ok out →
    validateEditableWorkflowTemplate out.toValue pack = .ok out
  collectionsAgain : ∀ value out, validateEditableWorkflowTemplateCollection value pack = .ok out →
    validateEditableWorkflowTemplateCollection out.toValue pack = .ok out

theorem assertUniqueFrom_ok {field : JsString} {values seen : List JsString} {done : Unit} :
    assertUniqueFrom field seen values = .ok done ↔ values.Nodup ∧ ∀ value ∈ values, value ∉ seen := by
  induction values generalizing seen with
  | nil => simp [assertUniqueFrom]
  | cons value values ih =>
      rw [assertUniqueFrom, List.nodup_cons, List.forall_mem_cons]
      by_cases hseen : value ∈ seen
      · simp [hseen]
      · rw [if_neg hseen, ih]
        constructor
        · rintro ⟨hnodup, hfresh⟩
          exact ⟨⟨fun hmem => hfresh value hmem List.mem_cons_self, hnodup⟩, hseen,
            fun other hother hin => hfresh other hother (List.mem_cons_of_mem _ hin)⟩
        · rintro ⟨⟨hnew, hnodup⟩, -, hfresh⟩
          refine ⟨hnodup, fun other hother hin => ?_⟩
          rcases List.mem_cons.mp hin with rfl | hin
          · exact hnew hother
          · exact hfresh other hother hin

/-- What the conversion uses of an accepted pack. -/
theorem accepted_pack {out : DomainPack} (h : validateDomainPack pack = .ok out) :
    pack.workflowTemplates ≠ [] ∧ pack.authorityIds ≠ [] ∧ pack.authorityIds.Nodup ∧
      ∀ template ∈ pack.workflowTemplates, template.steps ≠ [] := by
  simp only [validateDomainPack, requireNonEmpty, assertUnique, then_ok, require_ok, forM_ok,
    assertUniqueFrom_ok, return_ok] at h
  obtain ⟨_, -, _, -, _, -, _, -, _, -, _, -, _, -, _, hauthorities, _, -, _, htemplates, _, -, _,
    hnodup, _, -, _, -, _, -, _, -, _, hsteps, -⟩ := h
  refine ⟨htemplates, ?_, hnodup.1, fun template htemplate => ?_⟩
  · rw [DomainPack.authorityIds, Ne, List.map_eq_nil_iff]
    exact hauthorities
  · obtain ⟨_, -, hsome⟩ := hsteps template htemplate
    exact hsome

/-- Identifiers are known after trimming exactly when there is nothing to trim. -/
theorem known_iff {ids : List JsString} :
    (Entries ids ∧ ∀ id ∈ ids.map trim, id ∈ ids) ↔ ids.Nodup ∧ Trimmed ids := by
  constructor
  · rintro ⟨⟨hblank, hnodup⟩, hknown⟩
    refine ⟨List.Nodup.of_map _ hnodup, fun id hid => ⟨hblank id hid, ?_⟩⟩
    have hmem : trim id ∈ ids := hknown _ (List.mem_map_of_mem hid)
    exact List.inj_on_of_nodup_map hnodup hmem hid (Documents.trim_trim id)
  · rintro ⟨hnodup, htrimmed⟩
    have hsame : ids.map trim = ids :=
      (List.map_congr_left fun id hid => (htrimmed id hid).2).trans (List.map_id ids)
    refine ⟨⟨fun id hid => (htrimmed id hid).1, hsame.symm ▸ hnodup⟩, fun id hid => ?_⟩
    rwa [hsame] at hid

theorem orders_contiguous (steps : List TemplateStep) :
    let orders := (steps.mapIdx fun index step => convertStep platform pack step index).map (·.order)
    orders.Nodup ∧ Contiguous orders := by
  intro orders
  have horders : orders = List.range' 1 steps.length := by
    refine List.ext_getElem (by simp [orders]) fun i hleft hright => ?_
    simp [orders, convertStep, Nat.add_comm]
  have hsorted : orders.mergeSort = orders := by
    rw [horders]
    exact List.mergeSort_of_pairwise (by simpa using List.pairwise_le_range')
  refine ⟨horders ▸ List.nodup_range', ?_⟩
  rw [Contiguous, hsorted, horders]
  intro order horder
  obtain ⟨hlt, hvalue⟩ := List.getElem?_eq_some_iff.mp (List.mem_zipIdx_iff_getElem?.mp horder)
  rw [← hvalue, List.getElem_range']
  omega

theorem mem_converted {steps : List TemplateStep} {converted : EditableStep} :
    (converted ∈ steps.mapIdx fun index step => convertStep platform pack step index) ↔
      ∃ (index : Nat) (h : index < steps.length),
        convertStep platform pack steps[index] index = converted :=
  List.mem_mapIdx

theorem converted_ids (template : DomainTemplate) :
    ((convertDomainWorkflowTemplate platform template pack).steps.map fun step => trim step.id) =
      stepSlugs platform template ∧
    (convertDomainWorkflowTemplate platform template pack).steps.map (·.id) =
      stepSlugs platform template := by
  have hids : (convertDomainWorkflowTemplate platform template pack).steps.map (·.id) =
      stepSlugs platform template := by
    refine List.ext_getElem (by simp [convertDomainWorkflowTemplate, stepSlugs]) fun i _ _ => ?_
    simp [convertDomainWorkflowTemplate, stepSlugs, convertStep]
  refine ⟨?_, hids⟩
  rw [← hids]
  refine List.map_congr_left fun step hstep => ?_
  obtain ⟨index, hindex, rfl⟩ := mem_converted.mp hstep
  exact (trim_safe (toSafeId_safe platform _ (isSafeId_fallback index))).1

/-- The validator accepts what the conversion makes of a step exactly when the texts of the
step and the identifiers of the pack pass. -/
theorem convertStep_accepted {step : TemplateStep} {index : Nat} (hauthorities : pack.authorityIds.Nodup) :
    (StepAccepted pack.authorityIds pack.governanceIds (convertStep platform pack step index) ∧
        step.evidencePatterns ≠ []) ↔
      StepConvertible step ∧ Trimmed pack.authorityIds ∧ pack.governanceIds.Nodup ∧
        Trimmed pack.governanceIds := by
  have hsafe := toSafeId_safe platform step.title (isSafeId_fallback index)
  constructor
  · rintro ⟨h, hsome⟩
    exact ⟨⟨h.label, h.action, h.requiredDocuments, h.outputDocuments, h.evidencePatterns, hsome⟩,
      (known_iff.mp ⟨h.authorities, h.knownAuthorities⟩).2, known_iff.mp ⟨h.rules, h.knownRules⟩⟩
  · rintro ⟨h, htrimmed, hrules⟩
    obtain ⟨hentries, hknown⟩ := known_iff.mpr ⟨hauthorities, htrimmed⟩
    obtain ⟨hruleEntries, hknownRules⟩ := known_iff.mpr hrules
    refine ⟨⟨Nat.succ_pos index, hentries, hknown, hruleEntries, hknownRules, (trim_safe hsafe).2, ?_,
      h.title, h.action, h.requiredDocuments, h.outputDocuments, h.evidencePatterns⟩, h.somePattern⟩
    rw [convertStep, (trim_safe hsafe).1]
    exact hsafe

theorem convert_accepted_iff (hsome : pack.authorityIds ≠ []) (hauthorities : pack.authorityIds.Nodup)
    (hsteps : template.steps ≠ []) :
    (convertDomainWorkflowTemplate platform template pack).Accepted pack ↔
      isSafeId pack.id = true ∧ Trimmed pack.authorityIds ∧ Trimmed pack.governanceIds ∧
        pack.governanceIds.Nodup ∧ TemplateConvertible platform pack template := by
  have hslugs := @converted_ids platform pack template
  have horders := @orders_contiguous platform pack template.steps
  have hworkflow := toSafeId_safe platform template.workflowType
    (by decide : isSafeId (js "workflow") = true)
  constructor
  · intro h
    have hid : isSafeId pack.id = true := by
      rw [← h.packOwner]
      exact h.packSafe
    have hstep : ∀ step ∈ template.steps, StepConvertible step ∧ Trimmed pack.authorityIds ∧
        pack.governanceIds.Nodup ∧ Trimmed pack.governanceIds := by
      intro step hstep
      obtain ⟨index, hindex, rfl⟩ := List.mem_iff_getElem.mp hstep
      have hmem : convertStep platform pack template.steps[index] index ∈
          (convertDomainWorkflowTemplate platform template pack).steps :=
        mem_converted.mpr ⟨index, hindex, rfl⟩
      exact (convertStep_accepted hauthorities).mp ⟨h.steps _ hmem, (h.evidence rfl _ hmem).1⟩
    obtain ⟨first, hfirst⟩ := List.exists_mem_of_ne_nil _ hsteps
    obtain ⟨-, htrimmed, hnodup, hrules⟩ := hstep first hfirst
    refine ⟨hid, htrimmed, hrules, hnodup, h.workflowType, h.knownType, h.title, h.description,
      h.defaultSummary, h.validationWarning, fun step hin => (hstep step hin).1, ?_⟩
    rw [← hslugs.1]
    exact h.ids
  · rintro ⟨hid, htrimmed, hrules, hnodup, h⟩
    obtain ⟨hruleEntries, hknownRules⟩ := known_iff.mpr ⟨hnodup, hrules⟩
    obtain ⟨hidTrim, hidBlank⟩ := trim_safe hid
    obtain ⟨hworkflowTrim, hworkflowBlank⟩ := trim_safe hworkflow
    refine ⟨hidBlank, ?_, hidTrim, h.workflowType, h.knownType, (fun hfalse => nomatch hfalse),
      hruleEntries, hknownRules, ?_, fun step hstep => ?_, ?_, horders.1, horders.2,
      fun _ step hstep => ?_, hworkflowBlank, ?_, h.title, h.description, h.defaultSummary,
      h.validationWarning⟩
    · rw [convertDomainWorkflowTemplate, hidTrim]
      exact hid
    · rw [convertDomainWorkflowTemplate, Ne, List.mapIdx_eq_nil_iff]
      exact hsteps
    · obtain ⟨index, hindex, rfl⟩ := mem_converted.mp hstep
      exact ((convertStep_accepted hauthorities).mpr
        ⟨h.steps _ (List.getElem_mem hindex), htrimmed, hnodup, hrules⟩).1
    · rw [hslugs.1]
      exact h.slugs
    · obtain ⟨index, hindex, rfl⟩ := mem_converted.mp hstep
      exact ⟨(h.steps _ (List.getElem_mem hindex)).somePattern, hsome⟩
    · rw [convertDomainWorkflowTemplate, hworkflowTrim]
      exact hworkflow

end Packs

/-- **Which packs convert.**  The templates of an accepted pack convert to valid ones if and
only if the pack is convertible. -/
theorem converts_iff {platform : Platform} {pack : DomainPack}
    (h : validateDomainPack pack = .ok pack) :
    ConvertsValid platform pack ↔ Convertible platform pack := by
  obtain ⟨htemplates, hsome, hauthorities, hsteps⟩ := accepted_pack h
  have hworkflows : ((convertAll platform pack).templates.map (·.workflowId)) =
      typeSlugs platform pack := by
    rw [convertAll, List.map_map]
    rfl
  have htrimmed : ((convertAll platform pack).templates.map fun template =>
      trim template.workflowId) = typeSlugs platform pack := by
    rw [← hworkflows]
    refine List.map_congr_left fun template htemplate => ?_
    obtain ⟨source, -, rfl⟩ := List.mem_map.mp htemplate
    exact (trim_safe (toSafeId_safe platform _ (by decide))).1
  have haccepted : ∀ template ∈ pack.workflowTemplates,
      ((∃ out, validateEditableWorkflowTemplate
        (convertDomainWorkflowTemplate platform template pack).toValue pack = .ok out) ↔
      isSafeId pack.id = true ∧ Trimmed pack.authorityIds ∧ Trimmed pack.governanceIds ∧
        pack.governanceIds.Nodup ∧ TemplateConvertible platform pack template) := by
    intro template htemplate
    rw [← convert_accepted_iff hsome hauthorities (hsteps template htemplate)]
    simp only [validateTemplate_toValue, exists_and_left, exists_eq, and_true]
  constructor
  · intro hvalid
    obtain ⟨first, hfirst⟩ := List.exists_mem_of_ne_nil _ htemplates
    obtain ⟨hid, hauthority, hrules, hnodup, -⟩ :=
      (haccepted first hfirst).mp (hvalid.templates first hfirst)
    refine ⟨hid, hauthority, hrules, hnodup, fun template htemplate => ?_, ?_⟩
    · exact ((haccepted template htemplate).mp (hvalid.templates template htemplate)).2.2.2.2
    · rw [← hworkflows]
      exact hvalid.typeSlugs
  · intro hpack
    have hall : ∀ template ∈ pack.workflowTemplates, ∃ out, validateEditableWorkflowTemplate
        (convertDomainWorkflowTemplate platform template pack).toValue pack = .ok out :=
      fun template htemplate => (haccepted template htemplate).mpr ⟨hpack.id, hpack.authorities,
        hpack.rules, hpack.distinctRules, hpack.templates template htemplate⟩
    refine ⟨hall, ?_, fun template htemplate => ?_, ?_, fun _ _ => validateTemplate_again,
      fun _ _ => validateCollection_again⟩
    · refine ⟨_, validateCollection_toValue.mpr ⟨rfl, ?_, fun template htemplate => ?_, ?_, rfl⟩⟩
      · rw [convertAll, Ne, List.map_eq_nil_iff]
        exact htemplates
      · obtain ⟨source, hsource, rfl⟩ := List.mem_map.mp htemplate
        obtain ⟨out, hout⟩ := hall source hsource
        exact (validateTemplate_toValue.mp hout).1
      · rw [htrimmed]
        exact hpack.slugs
    · rw [(converted_ids template).2]
      exact (hpack.templates template htemplate).slugs
    · rw [hworkflows]
      exact hpack.slugs

/-- A pack with one template whose steps have the given titles. -/
def samplePack (titles : List JsString) : DomainPack where
  id := js "custom"
  name := js "Custom"
  language := js "es"
  branding := ⟨js "Custom", js "Assistant", js "Custom"⟩
  workflowTypes := [⟨js "permit", js "Permits"⟩]
  sourceAuthorityClasses := [⟨js "official"⟩]
  classifierRules := [⟨js "permit-rule", js "permit"⟩]
  workflowTemplates := [{
    workflowType := js "permit"
    title := js "Permit"
    defaultSummary := js "How to get a permit"
    validationWarning := js "Ask the office"
    steps := titles.map fun title =>
      ⟨title, js "Do it", [], [js "Receipt"], [js "permit"], none⟩ }]
  governanceRules := []
  feedbackTypes := []

theorem converts_sample : ConvertsValid (samplePlatform []) (samplePack [js "Apply", js "Pay"]) ↔
    Convertible (samplePlatform []) (samplePack [js "Apply", js "Pay"]) :=
  converts_iff rfl

/-- Two titles that differ in a mark only are accepted in a pack and have one slug. -/
theorem same_slug : ¬ ∀ pack, validateDomainPack pack = .ok pack →
    ConvertsValid (samplePlatform []) pack := by
  intro h
  have hslugs := (h (samplePack [js "Review", js "Review!"]) rfl).stepSlugs _ List.mem_cons_self
  exact absurd hslugs (by decide)

end WorkflowTemplates
