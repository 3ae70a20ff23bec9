import MuniRag.Lib.Replacing
import MuniRag.Procedure.Authorities
import Mathlib.Data.List.Sort

/-!
# Composing a procedure

`procedureComposer.ts`: the steps of a template with the evidence for each of them.  The
citations whose text matches a step are cut to the first four, in the order of retrieval,
and the status and the attribution of the step are those of the four.
-/

namespace Procedure

open Api Replacing

/-! ## Citations -/

/-- An `EvidenceItem` with all that its citation is made of. -/
structure EvidencePassage extends EvidenceItem where
  pageStart : Option Int
  excerpt : JsString
  sourceUrl : Option JsString
  deriving DecidableEq, Repr

inductive EvidenceUse
  | citedText
  | inference
  | validationRequired
  deriving DecidableEq, Repr

structure ProcedureCitation where
  citationLabel : JsString
  sourceType : JsString
  pageStart : Option Int
  excerpt : JsString
  sourceUrl : Option JsString
  authorityClass : JsString
  authorityLabel : JsString
  authorityLevel : AuthorityLevel
  evidenceUse : EvidenceUse
  deriving DecidableEq, Repr

variable (platform : TextPlatform)

def toProcedureCitation (evidence : EvidencePassage) (evidenceUse : EvidenceUse)
    (classes : List SourceAuthority) : ProcedureCitation :=
  let authority := resolveSourceAuthority platform evidence.toEvidenceItem classes
  { citationLabel := evidence.citationLabel
    sourceType := evidence.sourceType
    pageStart := evidence.pageStart
    excerpt :=
      if 360 < evidence.excerpt.length then evidence.excerpt.take 360 ++ js "…" else evidence.excerpt
    sourceUrl := evidence.sourceUrl
    authorityClass := (authority.map SourceAuthority.id).getD (js "unknown")
    authorityLabel := (authority.map SourceAuthority.label).getD (js "Fuente no clasificada")
    authorityLevel := (authority.map SourceAuthority.authorityLevel).getD .unknown
    evidenceUse }

def hasLocalEvidence (citations : List ProcedureCitation) (classes : List SourceAuthority) : Bool :=
  citations.any fun citation =>
    match classes.find? (·.id = citation.authorityClass) with
    | some authority => authority.authorityLevel == .primary && !authority.externalReference
    | none => false

/-! ## Domain packs -/

structure DomainWorkflowTemplateStep where
  title : JsString
  action : JsString
  requiredDocuments : List JsString
  outputDocuments : List JsString
  evidencePatterns : List JsString
  notes : Option JsString
  deriving DecidableEq, Repr

structure DomainWorkflowTemplate where
  workflowType : JsString
  title : JsString
  defaultSummary : JsString
  validationWarning : JsString
  steps : List DomainWorkflowTemplateStep
  deriving DecidableEq, Repr

/-- The part of a `DomainPack` that the steps of a procedure depend on. -/
structure DomainPack where
  id : JsString
  name : JsString
  sourceAuthorityClasses : List SourceAuthority
  workflowTemplates : List DomainWorkflowTemplate
  deriving DecidableEq, Repr

def isMunicipalAntigua (domainPack : DomainPack) : Bool := domainPack.id == js "municipal-antigua"

/-- The template of a type; with no template at all there is nothing to read steps from. -/
def templateForType (domainPack : DomainPack) (type : JsString) : Option DomainWorkflowTemplate :=
  match domainPack.workflowTemplates.find? (·.workflowType = type) with
  | some direct => some direct
  | none =>
      if isMunicipalAntigua domainPack ∧ type = js "project_execution" then
        domainPack.workflowTemplates.find? (·.workflowType = js "public_works")
      else
        (domainPack.workflowTemplates.find? (·.workflowType = js "unknown")).orElse fun _ =>
          domainPack.workflowTemplates.head?

/-! ## Matching -/

def matchStopwords : List JsString := [js "de", js "del", js "la", js "las", js "el", js "los",
  js "un", js "una", js "y", js "o", js "para", js "por", js "con", js "en", js "al", js "que",
  js "se", js "su", js "sus", js "a", js "e", js "u", js "cuando", js "aplique"]

/-- `/[^a-z0-9\s-]+/g` with a space. -/
def unmatchedRule : Rule UInt16 := fun text =>
  let run := text.takeWhile fun u =>
    !(isLowerLetter u || isDecimalDigit u || isWhitespace u || u == 0x2d)
  if run ≠ [] then some ([0x20], run.length - 1) else none

def significantTokens (value : JsString) : List JsString :=
  (words (replaceAll unmatchedRule (normalize platform value))).filter fun token =>
    decide (1 < token.length) && !matchStopwords.contains token

/-- `Math.max(2, Math.ceil(n * 0.6))`. -/
def tokensNeeded (n : Nat) : Nat := max 2 ((3 * n + 4) / 5)

def patternMatches (haystack : JsString) (haystackTokens : List JsString) (pattern : JsString) :
    Bool :=
  let normalizedPattern := normalize platform pattern
  if normalizedPattern = [] then false
  else if normalizedPattern <:+: haystack then true
  else
    let tokens := significantTokens platform normalizedPattern
    let matched := (tokens.filter fun token => haystackTokens.contains token).length
    if tokens.length = 0 then false
    else if tokens.length = 1 then matched == 1
    else decide (tokensNeeded tokens.length ≤ matched)

/-- Whether the text of a citation matches one of the patterns. -/
def citationMatches (patterns : List JsString) (citation : ProcedureCitation) : Bool :=
  let haystack := normalize platform (citation.citationLabel ++ 0x20 :: citation.excerpt ++
    0x20 :: citation.sourceType)
  let tokens := significantTokens platform haystack
  patterns.any (patternMatches platform haystack tokens)

def matchingCitationsForStep (citations : List ProcedureCitation) (patterns : List JsString) :
    List ProcedureCitation :=
  (citations.filter (citationMatches platform patterns)).take 4

/-! ## Authority -/

def authorityRank (citation : ProcedureCitation) : Nat :=
  match citation.authorityLevel with
  | .primary => 5
  | .national => 4
  | .context => 3
  | .comparative => 2
  | .unknown => 1

/-- The first citation of the highest rank; the sort is stable. -/
def primaryCitationFor (citations : List ProcedureCitation) : Option ProcedureCitation :=
  (citations.insertionSort fun left right => authorityRank right ≤ authorityRank left).head?

inductive StepEvidenceStatus
  | supported
  | inferred
  | insufficient
  deriving DecidableEq, Repr

/-- `authorityLevel === "primary" || authorityLevel === "national"`. -/
def ProcedureCitation.isOfficial (citation : ProcedureCitation) : Bool :=
  citation.authorityLevel == .primary || citation.authorityLevel == .national

def evidenceStatusFor (evidence : List ProcedureCitation) : StepEvidenceStatus :=
  if evidence = [] then .insufficient
  else if evidence.any ProcedureCitation.isOfficial then .supported
  else .inferred

inductive AttributionStatus
  | officialMunicipal
  | officialNational
  | comparative
  | contextual
  | insufficient
  deriving DecidableEq, Repr

inductive CoverageReason
  | sourceNotLoaded
  | noMatchingPassage
  deriving DecidableEq, Repr

structure SourceAttribution where
  status : AttributionStatus
  heading : JsString
  statement : JsString
  coverageReason : Option CoverageReason
  requiredEvidence : Option (List JsString)
  primaryCitation : Option ProcedureCitation
  citations : List ProcedureCitation
  deriving DecidableEq, Repr

/-- An attribution to a primary citation. -/
def attributedTo (status : AttributionStatus) (heading statement : JsString)
    (primary : ProcedureCitation) (evidence : List ProcedureCitation) : SourceAttribution where
  status
  heading := heading ++ primary.citationLabel
  statement
  coverageReason := none
  requiredEvidence := none
  primaryCitation := some primary
  citations := evidence

def sourceAttributionFor (evidence : List ProcedureCitation) (requiredEvidence : List JsString)
    (hasAvailableEvidence : Bool) : SourceAttribution :=
  match primaryCitationFor evidence with
  | none =>
      { status := .insufficient
        heading := js "Falta una fuente que confirme este paso"
        statement :=
          if hasAvailableEvidence then
            js "Hay fuentes relacionadas entre los documentos disponibles, pero ninguna confirma este paso. Por eso no se presenta como un requisito confirmado."
          else
            js "Los documentos disponibles todavía no contienen una fuente que confirme este paso. Por eso no se presenta como un requisito confirmado."
        coverageReason := some (if hasAvailableEvidence then .noMatchingPassage else .sourceNotLoaded)
        requiredEvidence := some requiredEvidence
        primaryCitation := none
        citations := [] }
  | some primary =>
      match primary.authorityLevel with
      | .primary =>
          attributedTo .officialMunicipal (js "Fuente oficial municipal: ")
            (js "Este paso está respaldado por " ++ primary.authorityLabel ++
              js ". Revisa el fragmento y la vigencia del documento antes de actuar.")
            primary evidence
      | .national =>
          attributedTo .officialNational (js "Base nacional aplicable: ")
            (js "Este paso tiene respaldo normativo nacional en " ++ primary.authorityLabel ++
              js ". Cuando el paso dependa de una práctica interna municipal, debe corroborarse además con expediente o fuente local de Antigua Guatemala.")
            primary evidence
      | .comparative =>
          attributedTo .comparative (js "Referencia comparativa: ")
            (js "La fuente recuperada pertenece a otra municipalidad o entidad. Sirve como referencia comparativa, pero no define por sí sola el procedimiento oficial de Antigua Guatemala.")
            primary evidence
      | .context =>
          attributedTo .contextual (js "Fuente contextual: ")
            (js "La fuente aporta contexto operativo o comunitario, pero no es suficiente por sí sola para afirmar una obligación o procedimiento oficial.")
            primary evidence
      | .unknown =>
          attributedTo .insufficient (js "Fuente no clasificada: ")
            (js "Encontré contenido relacionado, pero no pude clasificarlo como fuente oficial suficiente para afirmar este paso.")
            primary evidence

/-! ## Steps -/

inductive Depth
  | overview
  | deepDive
  deriving DecidableEq, Repr

inductive Confidence
  | high
  | medium
  | low
  deriving DecidableEq, Repr

/-- The members of the classification of a query that the steps depend on. -/
structure QueryClassification where
  procedureType : JsString
  caseName : Option JsString
  deriving DecidableEq, Repr

structure ProcedureStep where
  stepNumber : Nat
  title : JsString
  action : JsString
  requiredDocuments : List JsString
  outputDocuments : List JsString
  dependsOn : Option (List Nat)
  legalBasis : List ProcedureCitation
  sourceEvidence : List ProcedureCitation
  evidenceStatus : StepEvidenceStatus
  evidenceStatement : JsString
  sourceAttribution : SourceAttribution
  confidence : Confidence
  notes : Option JsString
  deriving DecidableEq, Repr

def confidenceFor (status : StepEvidenceStatus) : Confidence :=
  if status = .supported then .medium else .low

def stepFromTemplate (templateStep : DomainWorkflowTemplateStep) (index : Nat)
    (citations : List ProcedureCitation) (classification : QueryClassification) (depth : Depth) :
    ProcedureStep :=
  let action :=
    match truthy classification.caseName with
    | some caseName =>
        if templateStep.title = js "Verificar expediente del caso" then
          js "Localizar el expediente específico de " ++ caseName ++
            js " antes de afirmar estado actual, recepción o cierre."
        else templateStep.action
    | none => templateStep.action
  let matched := matchingCitationsForStep platform citations templateStep.evidencePatterns
  let evidenceStatus := evidenceStatusFor matched
  let sourceAttribution :=
    sourceAttributionFor matched templateStep.requiredDocuments (decide (0 < citations.length))
  { stepNumber := index + 1
    title := templateStep.title
    action
    requiredDocuments := templateStep.requiredDocuments
    outputDocuments := templateStep.outputDocuments
    dependsOn := if depth = .deepDive ∧ 0 < index then some [index] else none
    legalBasis := matched
    sourceEvidence := matched
    evidenceStatus
    evidenceStatement := sourceAttribution.statement
    sourceAttribution
    confidence := confidenceFor evidenceStatus
    notes := templateStep.notes }

def stepsFromTemplate (template : DomainWorkflowTemplate) (citations : List ProcedureCitation)
    (classification : QueryClassification) (depth : Depth) : List ProcedureStep :=
  template.steps.mapIdx fun index templateStep =>
    stepFromTemplate platform templateStep index citations classification depth

structure ProcedureDependency where
  fromStep : Nat
  toStep : Nat
  statement : JsString
  evidenceStatus : StepEvidenceStatus
  citations : List ProcedureCitation
  deriving DecidableEq, Repr

def dependenciesFor (steps : List ProcedureStep) (depth : Depth) :
    Option (List ProcedureDependency) :=
  if depth ≠ .deepDive then none
  else some ((steps.drop 1).map fun step =>
    { fromStep := step.stepNumber - 1
      toStep := step.stepNumber
      statement := js "El paso " ++ numberText step.stepNumber ++
        js " depende de completar o validar el paso " ++ numberText (step.stepNumber - 1) ++ js "."
      evidenceStatus := step.evidenceStatus
      citations := step.sourceEvidence })

def hasExternalReferenceCitation (citations : List ProcedureCitation)
    (classes : List SourceAuthority) : Bool :=
  citations.any fun citation =>
    ((classes.find? (·.id = citation.authorityClass)).map SourceAuthority.externalReference).getD false

def workflowConfidence (hasLocalEvidence : Bool) : Confidence :=
  if hasLocalEvidence then .medium else .low

structure WorkflowMetadata where
  domainPackId : JsString
  domainPackName : JsString
  depth : Depth
  evidenceCount : Nat
  supportedStepCount : Nat
  inferredStepCount : Nat
  pendingStepCount : Nat
  coveragePercent : Nat
  hasLocalEvidence : Bool
  hasExternalReference : Bool
  hasAntiguaEvidence : Bool
  deriving DecidableEq, Repr

/-- A `ProcedureWorkflow`, without its identifier, its texts for the reader and its gaps. -/
structure ProcedureWorkflow where
  procedureType : JsString
  confidence : Confidence
  steps : List ProcedureStep
  dependencies : Option (List ProcedureDependency)
  citations : List ProcedureCitation
  validationWarning : JsString
  metadata : WorkflowMetadata
  deriving DecidableEq, Repr

/-- The steps of a status. -/
def stepCount (status : StepEvidenceStatus) (steps : List ProcedureStep) : Nat :=
  (steps.filter fun step => step.evidenceStatus = status).length

/-- `percent` is `Math.round((part / whole) * 100)` in the numbers of the platform. -/
def composeProcedureWorkflow (percent : Nat → Nat → Nat) (classification : QueryClassification)
    (evidence : List EvidencePassage) (domainPack : DomainPack) (depth : Depth) :
    Option ProcedureWorkflow :=
  (templateForType domainPack classification.procedureType).map fun template =>
    let classes := domainPack.sourceAuthorityClasses
    let citations := evidence.map fun item => toProcedureCitation platform item .citedText classes
    let hasExternalReference := hasExternalReferenceCitation citations classes
    let hasLocal := hasLocalEvidence citations classes
    let hasAntiguaEvidence := if isMunicipalAntigua domainPack then hasLocal else false
    let steps := stepsFromTemplate platform template citations classification depth
    let supportedStepCount := stepCount .supported steps
    { procedureType := classification.procedureType
      confidence := workflowConfidence hasLocal
      steps
      dependencies := dependenciesFor steps depth
      citations
      validationWarning := template.validationWarning
      metadata :=
        { domainPackId := domainPack.id
          domainPackName := domainPack.name
          depth
          evidenceCount := evidence.length
          supportedStepCount
          inferredStepCount := stepCount .inferred steps
          pendingStepCount := stepCount .insufficient steps
          coveragePercent :=
            if 0 < steps.length then percent supportedStepCount steps.length else 0
          hasLocalEvidence := hasLocal
          hasExternalReference
          hasAntiguaEvidence } }

end Procedure
