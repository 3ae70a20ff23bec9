import MuniRag.Procedure.Composer

/-!
# The support of a step

The claim that a step makes on its evidence: it is supported when a matching citation is
official, and its attribution then is to one of the highest authority.  The citations are
cut to four before their authority is looked at, so that **the claim holds exactly when the
first four matching citations reach the highest authority of them all**, and where it holds
neither the order of the evidence nor more of it makes the support worse (`support_law`).
-/

namespace Procedure

variable {platform : TextPlatform} {patterns : List JsString}
  {citations more evidence : List ProcedureCitation} {citation : ProcedureCitation}

/-- A citation that matches and is official. -/
def MatchesOfficially (platform : TextPlatform) (patterns : List JsString)
    (citation : ProcedureCitation) : Prop :=
  citationMatches platform patterns citation = true ∧ citation.isOfficial = true

/-- What the support of a step is to be. -/
structure StepSupported (platform : TextPlatform) (patterns : List JsString)
    (citations : List ProcedureCitation) (step : ProcedureStep) : Prop where
  supported : step.evidenceStatus = .supported ↔
    ∃ citation ∈ citations, MatchesOfficially platform patterns citation
  attribution : step.evidenceStatus = .supported →
    (step.sourceAttribution.status = .officialMunicipal ∨
      step.sourceAttribution.status = .officialNational) ∧
    ∃ primary ∈ citations, citationMatches platform patterns primary = true ∧
      step.sourceAttribution.primaryCitation = some primary ∧
      ∀ other ∈ citations, citationMatches platform patterns other = true →
        authorityRank other ≤ authorityRank primary

/-- Where a matching citation is official, one of the first four matching ones has the
highest authority of them all. -/
def FirstFourSuffice (platform : TextPlatform) (patterns : List JsString)
    (citations : List ProcedureCitation) : Prop :=
  (∃ citation ∈ citations, MatchesOfficially platform patterns citation) →
    ∃ first ∈ (citations.filter (citationMatches platform patterns)).take 4,
      ∀ other ∈ citations, citationMatches platform patterns other = true →
        authorityRank other ≤ authorityRank first

/-! ## Authority and status -/

theorem isOfficial_iff : citation.isOfficial = true ↔ 4 ≤ authorityRank citation := by
  unfold ProcedureCitation.isOfficial authorityRank
  cases citation.authorityLevel <;> decide

/-- The primary citation is one of the highest rank. -/
theorem primaryCitationFor_spec {primary : ProcedureCitation}
    (h : primaryCitationFor evidence = some primary) :
    primary ∈ evidence ∧ ∀ other ∈ evidence, authorityRank other ≤ authorityRank primary := by
  have hsorted : (evidence.insertionSort
      fun left right => authorityRank right ≤ authorityRank left).Pairwise
        fun left right => authorityRank right ≤ authorityRank left :=
    List.pairwise_insertionSort _ _
  unfold primaryCitationFor at h
  obtain ⟨rest, hcons⟩ : ∃ rest, evidence.insertionSort
      (fun left right => authorityRank right ≤ authorityRank left) = primary :: rest := by
    obtain ⟨rest, hrest⟩ := List.head?_eq_some_iff.mp h
    exact ⟨rest, hrest⟩
  have hmem : ∀ other, other ∈ evidence ↔ other ∈ primary :: rest := fun other => by
    rw [← hcons]
    exact (List.mem_insertionSort _).symm
  rw [hcons, List.pairwise_cons] at hsorted
  refine ⟨(hmem primary).mpr List.mem_cons_self, fun other hother => ?_⟩
  rcases List.mem_cons.mp ((hmem other).mp hother) with rfl | hrest
  · exact Nat.le_refl _
  · exact hsorted.1 other hrest

theorem primaryCitationFor_eq_none_iff : primaryCitationFor evidence = none ↔ evidence = [] := by
  unfold primaryCitationFor
  rw [List.head?_eq_none_iff, ← List.length_eq_zero_iff, List.length_insertionSort,
    List.length_eq_zero_iff]

theorem evidenceStatusFor_supported_iff :
    evidenceStatusFor evidence = .supported ↔ ∃ citation ∈ evidence, citation.isOfficial = true := by
  unfold evidenceStatusFor
  by_cases hnone : evidence = []
  · subst hnone
    simp
  · rw [if_neg hnone]
    by_cases hany : evidence.any ProcedureCitation.isOfficial = true
    · rw [if_pos hany]
      exact iff_of_true rfl (List.any_eq_true.mp hany)
    · rw [if_neg hany]
      exact iff_of_false (by decide) fun h => hany (List.any_eq_true.mpr h)

theorem evidenceStatusFor_insufficient_iff :
    evidenceStatusFor evidence = .insufficient ↔ evidence = [] := by
  unfold evidenceStatusFor
  by_cases hnone : evidence = []
  · rw [if_pos hnone]
    exact iff_of_true rfl hnone
  · rw [if_neg hnone]
    refine iff_of_false ?_ hnone
    split_ifs <;> decide

/-- An attribution to an official citation is official. -/
theorem sourceAttributionFor_official {required : List JsString} {available : Bool}
    {primary : ProcedureCitation} (h : primaryCitationFor evidence = some primary)
    (hofficial : primary.isOfficial = true) :
    ((sourceAttributionFor evidence required available).status = .officialMunicipal ∨
      (sourceAttributionFor evidence required available).status = .officialNational) ∧
      (sourceAttributionFor evidence required available).primaryCitation = some primary := by
  unfold sourceAttributionFor
  unfold ProcedureCitation.isOfficial at hofficial
  rw [h]
  dsimp only
  cases hlevel : primary.authorityLevel with
  | primary => exact ⟨.inl rfl, rfl⟩
  | national => exact ⟨.inr rfl, rfl⟩
  | context | comparative | unknown =>
      rw [hlevel] at hofficial
      exact absurd hofficial (by decide)

theorem primaryCitation_eq {required : List JsString} {available : Bool} :
    (sourceAttributionFor evidence required available).primaryCitation =
      primaryCitationFor evidence := by
  unfold sourceAttributionFor
  cases primaryCitationFor evidence with
  | none => rfl
  | some primary =>
      dsimp only
      cases primary.authorityLevel <;> rfl

/-! ## One step -/

theorem mem_matching {first : ProcedureCitation}
    (h : first ∈ matchingCitationsForStep platform citations patterns) :
    first ∈ citations ∧ citationMatches platform patterns first = true :=
  List.mem_filter.mp (List.mem_of_mem_take h)

/-- **One step.**  Its support is what it is to be exactly when the first four suffice. -/
theorem stepSupported_iff {templateStep : DomainWorkflowTemplateStep} {index : Nat}
    {classification : QueryClassification} {depth : Depth} :
    StepSupported platform templateStep.evidencePatterns citations
        (stepFromTemplate platform templateStep index citations classification depth) ↔
      FirstFourSuffice platform templateStep.evidencePatterns citations := by
  have hstatus : (stepFromTemplate platform templateStep index citations classification
      depth).evidenceStatus = .supported ↔
        ∃ first ∈ matchingCitationsForStep platform citations templateStep.evidencePatterns,
          first.isOfficial = true := evidenceStatusFor_supported_iff
  have hprimary : (stepFromTemplate platform templateStep index citations classification
      depth).sourceAttribution.primaryCitation = primaryCitationFor
        (matchingCitationsForStep platform citations templateStep.evidencePatterns) :=
    primaryCitation_eq
  constructor
  · rintro ⟨hsupported, hattribution⟩ hofficial
    obtain ⟨-, primary, -, -, hfound, hbest⟩ := hattribution (hsupported.mpr hofficial)
    exact ⟨primary, (primaryCitationFor_spec (hprimary.symm.trans hfound)).1, hbest⟩
  · intro hsuffice
    have hofficial : (∃ citation ∈ citations,
        MatchesOfficially platform templateStep.evidencePatterns citation) →
          ∃ first ∈ matchingCitationsForStep platform citations templateStep.evidencePatterns,
            first.isOfficial = true := by
      intro hsome
      obtain ⟨first, hfirst, hbest⟩ := hsuffice hsome
      obtain ⟨citation, hcitation, hmatches, hlevel⟩ := hsome
      exact ⟨first, hfirst, isOfficial_iff.mpr
        ((isOfficial_iff.mp hlevel).trans (hbest citation hcitation hmatches))⟩
    refine ⟨⟨fun hsupported => ?_, fun hsome => hstatus.mpr (hofficial hsome)⟩, fun hsupported => ?_⟩
    · obtain ⟨first, hfirst, hlevel⟩ := hstatus.mp hsupported
      obtain ⟨hmem, hmatches⟩ := mem_matching hfirst
      exact ⟨first, hmem, hmatches, hlevel⟩
    · obtain ⟨official, hofficial', hlevel⟩ := hstatus.mp hsupported
      obtain ⟨hmem, hmatches⟩ := mem_matching hofficial'
      obtain ⟨first, hfirst, hbest⟩ := hsuffice ⟨official, hmem, hmatches, hlevel⟩
      have hfirst : first ∈ matchingCitationsForStep platform citations
          templateStep.evidencePatterns := hfirst
      cases hfound : primaryCitationFor
          (matchingCitationsForStep platform citations templateStep.evidencePatterns) with
      | none =>
          rw [primaryCitationFor_eq_none_iff.mp hfound] at hfirst
          exact absurd hfirst List.not_mem_nil
      | some primary =>
          obtain ⟨hprimarymem, hhighest⟩ := primaryCitationFor_spec hfound
          have hrank := hhighest official hofficial'
          have hprimaryofficial : primary.isOfficial = true :=
            isOfficial_iff.mpr ((isOfficial_iff.mp hlevel).trans hrank)
          refine ⟨(sourceAttributionFor_official hfound hprimaryofficial).1, primary,
            (mem_matching hprimarymem).1, (mem_matching hprimarymem).2, hprimary.trans hfound, ?_⟩
          intro other hother hmatch
          exact (hbest other hother hmatch).trans (hhighest first hfirst)

/-! ## More evidence, and another order -/

/-- How good a status is. -/
def StepEvidenceStatus.rank : StepEvidenceStatus → Nat
  | .supported => 2
  | .inferred => 1
  | .insufficient => 0

/-- The status that the claim gives a step. -/
theorem rank_evidenceStatus {templateStep : DomainWorkflowTemplateStep} {index : Nat}
    {classification : QueryClassification} {depth : Depth}
    (hsuffice : FirstFourSuffice platform templateStep.evidencePatterns citations) :
    let status := (stepFromTemplate platform templateStep index citations classification
      depth).evidenceStatus
    (2 ≤ status.rank ↔ ∃ citation ∈ citations,
        MatchesOfficially platform templateStep.evidencePatterns citation) ∧
      (1 ≤ status.rank ↔ ∃ citation ∈ citations,
        citationMatches platform templateStep.evidencePatterns citation = true) := by
  intro status
  have hsupported := (@stepSupported_iff platform citations templateStep index classification
    depth).mpr hsuffice |>.supported
  have hinsufficient : status = .insufficient ↔
      matchingCitationsForStep platform citations templateStep.evidencePatterns = [] :=
    evidenceStatusFor_insufficient_iff
  have hmatching : matchingCitationsForStep platform citations templateStep.evidencePatterns = [] ↔
      ∀ citation ∈ citations,
        ¬ citationMatches platform templateStep.evidencePatterns citation = true := by
    rw [matchingCitationsForStep, List.take_eq_nil_iff, or_iff_right (by decide),
      List.filter_eq_nil_iff]
  constructor
  · rw [← hsupported]
    change 2 ≤ status.rank ↔ status = .supported
    cases status <;> decide
  · rw [hmatching] at hinsufficient
    have hnot : 1 ≤ status.rank ↔ ¬ status = .insufficient := by
      cases status <;> decide
    rw [hnot, hinsufficient]
    push Not
    exact Iff.rfl

/-- The support of the steps and of the whole is no worse. -/
structure NoWorse (workflow workflow' : ProcedureWorkflow) : Prop where
  steps : List.Forall₂ (fun step step' => step.evidenceStatus.rank ≤ step'.evidenceStatus.rank)
    workflow.steps workflow'.steps
  supported : workflow.metadata.supportedStepCount ≤ workflow'.metadata.supportedStepCount
  pending : workflow'.metadata.pendingStepCount ≤ workflow.metadata.pendingStepCount
  coverage : workflow.metadata.coveragePercent ≤ workflow'.metadata.coveragePercent

/-- The support of the steps and of the whole is the same. -/
structure SameSupport (workflow workflow' : ProcedureWorkflow) : Prop where
  steps : workflow.steps.map ProcedureStep.evidenceStatus =
    workflow'.steps.map ProcedureStep.evidenceStatus
  supported : workflow.metadata.supportedStepCount = workflow'.metadata.supportedStepCount
  inferred : workflow.metadata.inferredStepCount = workflow'.metadata.inferredStepCount
  pending : workflow.metadata.pendingStepCount = workflow'.metadata.pendingStepCount
  coverage : workflow.metadata.coveragePercent = workflow'.metadata.coveragePercent

theorem stepCount_congr {steps steps' : List ProcedureStep}
    (h : steps.map ProcedureStep.evidenceStatus = steps'.map ProcedureStep.evidenceStatus)
    (status : StepEvidenceStatus) : stepCount status steps = stepCount status steps' := by
  have hcount : ∀ steps : List ProcedureStep, stepCount status steps =
      (steps.map ProcedureStep.evidenceStatus).count status := by
    intro steps
    rw [stepCount, List.count_eq_length_filter, List.filter_map, List.length_map]
    rfl
  rw [hcount, hcount, h]

theorem stepCount_cons (status : StepEvidenceStatus) (step : ProcedureStep)
    (steps : List ProcedureStep) :
    stepCount status (step :: steps) =
      (if step.evidenceStatus = status then 1 else 0) + stepCount status steps := by
  unfold stepCount
  by_cases hstep : step.evidenceStatus = status
  · simp [hstep, Nat.add_comm]
  · simp [hstep]

theorem stepCount_le {status : StepEvidenceStatus} {steps steps' : List ProcedureStep}
    (h : List.Forall₂ (fun step step' : ProcedureStep =>
      step.evidenceStatus = status → step'.evidenceStatus = status) steps steps') :
    stepCount status steps ≤ stepCount status steps' := by
  induction h with
  | nil => exact Nat.le_refl _
  | @cons step step' steps steps' hhead _ ih =>
      rw [stepCount_cons, stepCount_cons]
      by_cases hstep : step.evidenceStatus = status
      · rw [if_pos hstep, if_pos (hhead hstep)]
        omega
      · rw [if_neg hstep]
        omega

/-- The steps of one template, over two lists of citations. -/
theorem forall₂_steps {R : ProcedureStep → ProcedureStep → Prop}
    {template : DomainWorkflowTemplate} {classification : QueryClassification} {depth : Depth}
    (h : ∀ templateStep ∈ template.steps, ∀ index,
      R (stepFromTemplate platform templateStep index citations classification depth)
        (stepFromTemplate platform templateStep index more classification depth)) :
    List.Forall₂ R (stepsFromTemplate platform template citations classification depth)
      (stepsFromTemplate platform template more classification depth) := by
  unfold stepsFromTemplate
  rw [List.forall₂_iff_get]
  refine ⟨by simp, fun i hi hi' => ?_⟩
  simp only [List.get_eq_getElem, List.getElem_mapIdx]
  exact h _ (List.getElem_mem _) i

/-! ## The law -/

/-- The citations of the evidence. -/
def citationsOf (platform : TextPlatform) (domainPack : DomainPack)
    (evidence : List EvidencePassage) : List ProcedureCitation :=
  evidence.map fun item =>
    toProcedureCitation platform item .citedText domainPack.sourceAuthorityClasses

/-- The support of every step is what it is to be. -/
def Supports (platform : TextPlatform) (classification : QueryClassification)
    (domainPack : DomainPack) (evidence : List EvidencePassage) (workflow : ProcedureWorkflow) :
    Prop :=
  ∀ template, templateForType domainPack classification.procedureType = some template →
    List.Forall₂ (fun templateStep step => StepSupported platform templateStep.evidencePatterns
      (citationsOf platform domainPack evidence) step) template.steps workflow.steps

/-- The first four matching citations suffice for every step of the template. -/
def FourSuffice (platform : TextPlatform) (classification : QueryClassification)
    (domainPack : DomainPack) (evidence : List EvidencePassage) : Prop :=
  ∀ template, templateForType domainPack classification.procedureType = some template →
    ∀ templateStep ∈ template.steps, FirstFourSuffice platform templateStep.evidencePatterns
      (citationsOf platform domainPack evidence)

variable {percent : Nat → Nat → Nat} {classification : QueryClassification}
  {items others : List EvidencePassage} {domainPack : DomainPack} {depth : Depth}
  {workflow workflow' : ProcedureWorkflow}

/-- What a composed procedure says of its steps. -/
theorem compose_parts
    (h : composeProcedureWorkflow platform percent classification items domainPack depth =
      some workflow) :
    ∃ template, templateForType domainPack classification.procedureType = some template ∧
      workflow.steps = stepsFromTemplate platform template
        (citationsOf platform domainPack items) classification depth ∧
      workflow.metadata.supportedStepCount = stepCount .supported workflow.steps ∧
      workflow.metadata.inferredStepCount = stepCount .inferred workflow.steps ∧
      workflow.metadata.pendingStepCount = stepCount .insufficient workflow.steps ∧
      workflow.metadata.coveragePercent = if 0 < workflow.steps.length then
        percent (stepCount .supported workflow.steps) workflow.steps.length else 0 := by
  obtain ⟨template, htemplate, rfl⟩ := Option.map_eq_some_iff.mp h
  exact ⟨template, htemplate, rfl, rfl, rfl, rfl, rfl⟩

theorem supports_iff
    (h : composeProcedureWorkflow platform percent classification items domainPack depth =
      some workflow) :
    Supports platform classification domainPack items workflow ↔
      FourSuffice platform classification domainPack items := by
  obtain ⟨template, htemplate, hsteps, -⟩ := compose_parts h
  refine forall_congr' fun other => forall_congr' fun hother => ?_
  obtain rfl := Option.some.inj (htemplate.symm.trans hother)
  rw [hsteps, stepsFromTemplate, List.forall₂_iff_get]
  simp only [List.length_mapIdx, List.get_eq_getElem, List.getElem_mapIdx, true_and]
  constructor
  · intro hall templateStep hmem
    obtain ⟨i, hi, rfl⟩ := List.mem_iff_getElem.mp hmem
    exact stepSupported_iff.mp (hall i hi (by simpa using hi))
  · intro hall i hi _
    exact stepSupported_iff.mpr (hall _ (List.getElem_mem hi))

/-- Citations that are all among others support a step no better. -/
theorem rank_le {templateStep : DomainWorkflowTemplateStep} {index : Nat}
    (hsuffice : FirstFourSuffice platform templateStep.evidencePatterns citations)
    (hsuffice' : FirstFourSuffice platform templateStep.evidencePatterns more)
    (hsubset : ∀ citation ∈ citations, citation ∈ more) :
    (stepFromTemplate platform templateStep index citations classification
        depth).evidenceStatus.rank ≤
      (stepFromTemplate platform templateStep index more classification
        depth).evidenceStatus.rank := by
  obtain ⟨htwo, hone⟩ := @rank_evidenceStatus platform citations templateStep index
    classification depth hsuffice
  obtain ⟨htwo', hone'⟩ := @rank_evidenceStatus platform more templateStep index
    classification depth hsuffice'
  by_contra hworse
  rw [not_le] at hworse
  have hbest : ∀ status : StepEvidenceStatus, status.rank ≤ 2 := by
    intro status
    cases status <;> decide
  have hbound := hbest (stepFromTemplate platform templateStep index citations classification
    depth).evidenceStatus
  by_cases hsupported : 2 ≤ (stepFromTemplate platform templateStep index citations classification
      depth).evidenceStatus.rank
  · obtain ⟨citation, hcitation, hmatches⟩ := htwo.mp hsupported
    have hmore := htwo'.mpr ⟨citation, hsubset citation hcitation, hmatches⟩
    omega
  · obtain ⟨citation, hcitation, hmatches⟩ := hone.mp (by omega)
    have hmore := hone'.mpr ⟨citation, hsubset citation hcitation, hmatches⟩
    omega

theorem noWorse_of_subset
    (hpercent : ∀ whole part part', part ≤ part' → percent part whole ≤ percent part' whole)
    (h : composeProcedureWorkflow platform percent classification items domainPack depth =
      some workflow)
    (h' : composeProcedureWorkflow platform percent classification others domainPack depth =
      some workflow')
    (hsuffice : FourSuffice platform classification domainPack items)
    (hsuffice' : FourSuffice platform classification domainPack others)
    (hsubset : ∀ item ∈ items, item ∈ others) : NoWorse workflow workflow' := by
  obtain ⟨template, htemplate, hsteps, hsupported, -, hpending, hcoverage⟩ := compose_parts h
  obtain ⟨template', htemplate', hsteps', hsupported', -, hpending', hcoverage'⟩ := compose_parts h'
  obtain rfl := Option.some.inj (htemplate.symm.trans htemplate')
  have hcitations : ∀ citation ∈ citationsOf platform domainPack items,
      citation ∈ citationsOf platform domainPack others := by
    intro citation hcitation
    obtain ⟨item, hitem, rfl⟩ := List.mem_map.mp hcitation
    exact List.mem_map_of_mem (hsubset item hitem)
  have hranks : List.Forall₂ (fun step step' : ProcedureStep =>
      step.evidenceStatus.rank ≤ step'.evidenceStatus.rank) workflow.steps workflow'.steps := by
    rw [hsteps, hsteps']
    exact forall₂_steps fun templateStep hmem index =>
      rank_le (hsuffice template htemplate templateStep hmem)
        (hsuffice' template htemplate templateStep hmem) hcitations
  have hmore : stepCount .supported workflow.steps ≤ stepCount .supported workflow'.steps := by
    refine stepCount_le (hranks.imp fun step step' hle hstep => ?_)
    rw [hstep] at hle
    revert hle
    cases step'.evidenceStatus <;> decide
  have hfewer : stepCount .insufficient workflow'.steps ≤ stepCount .insufficient workflow.steps := by
    refine stepCount_le (List.Forall₂.flip (hranks.imp fun step step' hle hstep => ?_))
    rw [hstep] at hle
    revert hle
    cases step.evidenceStatus <;> decide
  have hlength := hranks.length_eq
  refine ⟨hranks, by omega, by omega, ?_⟩
  rw [hcoverage, hcoverage', hlength]
  split_ifs
  · exact hpercent _ _ _ hmore
  · exact Nat.le_refl 0

/-- Two procedures each no worse than the other have the same support. -/
theorem NoWorse.antisymm
    (h : composeProcedureWorkflow platform percent classification items domainPack depth =
      some workflow)
    (h' : composeProcedureWorkflow platform percent classification others domainPack depth =
      some workflow')
    (hless : NoWorse workflow workflow') (hmore : NoWorse workflow' workflow) :
    SameSupport workflow workflow' := by
  obtain ⟨-, -, -, -, hinferred, -⟩ := compose_parts h
  obtain ⟨-, -, -, -, hinferred', -⟩ := compose_parts h'
  have hstatus : workflow.steps.map ProcedureStep.evidenceStatus =
      workflow'.steps.map ProcedureStep.evidenceStatus := by
    have hrank : ∀ status status' : StepEvidenceStatus, status.rank ≤ status'.rank →
        status'.rank ≤ status.rank → status = status' := by
      intro status status'
      cases status <;> cases status' <;> decide
    have hlength := hless.steps.length_eq
    refine List.ext_getElem (by simpa using hlength) fun i hi hi' => ?_
    rw [List.length_map] at hi hi'
    rw [List.getElem_map, List.getElem_map]
    exact hrank _ _ (hless.steps.get hi hi') (hmore.steps.get hi' hi)
  have hinferredcount := stepCount_congr hstatus .inferred
  exact ⟨hstatus, Nat.le_antisymm hless.supported hmore.supported,
    by rw [hinferred, hinferred', hinferredcount], Nat.le_antisymm hmore.pending hless.pending,
    Nat.le_antisymm hless.coverage hmore.coverage⟩

/-- **Support.**  The support of the steps is what it is to be exactly when the first four
matching citations suffice; where they do, another order of the evidence leaves it as it is
and more evidence makes it no worse. -/
theorem support_law
    (hpercent : ∀ whole part part', part ≤ part' → percent part whole ≤ percent part' whole)
    (h : composeProcedureWorkflow platform percent classification items domainPack depth =
      some workflow) :
    (Supports platform classification domainPack items workflow ↔
        FourSuffice platform classification domainPack items) ∧
      (FourSuffice platform classification domainPack items → ∀ others workflow',
        FourSuffice platform classification domainPack others →
        composeProcedureWorkflow platform percent classification others domainPack depth =
          some workflow' →
        (items.Perm others → SameSupport workflow workflow') ∧
          (items.Sublist others → NoWorse workflow workflow')) := by
  refine ⟨supports_iff h, fun hsuffice others workflow' hsuffice' h' => ⟨fun hperm => ?_, fun hsub => ?_⟩⟩
  · exact NoWorse.antisymm h h'
      (noWorse_of_subset hpercent h h' hsuffice hsuffice' fun _ hitem => hperm.subset hitem)
      (noWorse_of_subset hpercent h' h hsuffice' hsuffice fun _ hitem => hperm.symm.subset hitem)
  · exact noWorse_of_subset hpercent h h' hsuffice hsuffice' fun _ hitem => hsub.subset hitem

/-! ## A sample -/

/-- `Math.round` of an exact percentage. -/
def exactPercent (part whole : Nat) : Nat := (200 * part + whole) / (2 * whole)

theorem exactPercent_mono (whole part part' : Nat) (h : part ≤ part') :
    exactPercent part whole ≤ exactPercent part' whole := by
  unfold exactPercent
  exact Nat.div_le_div_right (by omega)

def samplePack : DomainPack where
  id := js "custom"
  name := js "Muestra"
  sourceAuthorityClasses := municipalAntigua
  workflowTemplates := [{
    workflowType := js "unknown"
    title := js "Procedimiento"
    defaultSummary := js "Resumen"
    validationWarning := js "Validar"
    steps := [{
      title := js "Presentar la solicitud"
      action := js "Presentar"
      requiredDocuments := []
      outputDocuments := []
      evidencePatterns := [js "solicitud"]
      notes := none }] }]

def sampleQuery : QueryClassification where
  procedureType := js "unknown"
  caseName := none

/-- A passage about the request, from a source of this title. -/
def samplePassage (title : String) : EvidencePassage where
  sourceType := js "document"
  documentTitle := js title
  citationLabel := js "p"
  pageStart := none
  excerpt := js "La solicitud"
  sourceUrl := none

/-- Four plans of a neighbour and then the own plan. -/
def neighboursFirst : List EvidencePassage :=
  List.replicate 4 (samplePassage "Mixco") ++ [samplePassage "PDM-OT"]

/-- The own plan is found, and the step is only inferred. -/
theorem neighboursFirst_inferred :
    ¬ ∀ (percent : Nat → Nat → Nat) (classification : QueryClassification)
      (items : List EvidencePassage) (domainPack : DomainPack) (depth : Depth)
      (workflow : ProcedureWorkflow),
      composeProcedureWorkflow asciiPlatform percent classification items domainPack depth =
        some workflow → Supports asciiPlatform classification domainPack items workflow := by
  intro hclaim
  have hsupports := hclaim exactPercent sampleQuery neighboursFirst samplePack .overview _ rfl _ rfl
  cases hsupports with
  | cons hstep _ =>
      have hofficial : ∃ citation ∈ citationsOf asciiPlatform samplePack neighboursFirst,
          MatchesOfficially asciiPlatform [js "solicitud"] citation := by
        refine ⟨toProcedureCitation asciiPlatform (samplePassage "PDM-OT") .citedText
          municipalAntigua, ?_, by decide +kernel, by decide +kernel⟩
        exact List.mem_map_of_mem (by decide +kernel)
      have hstatus := hstep.supported.mpr hofficial
      exact absurd hstatus (by decide +kernel)

/-- The law for the own plan alone. -/
theorem support_sample : ∃ workflow,
    composeProcedureWorkflow asciiPlatform exactPercent sampleQuery [samplePassage "PDM-OT"]
      samplePack .overview = some workflow ∧
    (Supports asciiPlatform sampleQuery samplePack [samplePassage "PDM-OT"] workflow ↔
      FourSuffice asciiPlatform sampleQuery samplePack [samplePassage "PDM-OT"]) :=
  ⟨_, rfl, (support_law exactPercent_mono rfl).1⟩

end Procedure
