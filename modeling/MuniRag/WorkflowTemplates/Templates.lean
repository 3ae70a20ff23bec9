import MuniRag.Api.DerivedIds
import MuniRag.Lib.Results
import Mathlib.Data.List.DropRight

/-!
# Workflow templates

A domain pack describes workflow templates; `convertDomainWorkflowTemplate` makes an
editable template of one, and the validators of editable templates read any value.
`toSafeId` makes slugs of titles; letter case and Unicode decomposition belong to the
platform.  Of a domain pack only what the two validators and the conversion read is
kept.
-/

namespace WorkflowTemplates

open Results Api

/-! ## Domain packs -/

structure Branding where
  productName : JsString
  assistantName : JsString
  primaryLabel : JsString

structure WorkflowType where
  id : JsString
  description : JsString

structure SourceAuthorityClass where
  id : JsString

structure ClassifierRule where
  id : JsString
  workflowType : JsString

structure TemplateStep where
  title : JsString
  action : JsString
  requiredDocuments : List JsString
  outputDocuments : List JsString
  evidencePatterns : List JsString
  notes : Option JsString

structure DomainTemplate where
  workflowType : JsString
  title : JsString
  defaultSummary : JsString
  validationWarning : JsString
  steps : List TemplateStep

structure GovernanceRule where
  id : JsString
  appliesToAuthorityClasses : Option (List JsString)

structure FeedbackType where
  id : JsString

structure DomainPack where
  id : JsString
  name : JsString
  language : JsString
  branding : Branding
  workflowTypes : List WorkflowType
  sourceAuthorityClasses : List SourceAuthorityClass
  classifierRules : List ClassifierRule
  workflowTemplates : List DomainTemplate
  governanceRules : List GovernanceRule
  feedbackTypes : List FeedbackType

/-- A validator returns what it accepted or throws an error with a message. -/
abbrev Checked := Except JsString

def requireNonEmpty (value field : JsString) : Checked Unit :=
  require (trim value ≠ []) (field ++ js " is required")

/-- The loop of `assertUnique`, with the values seen so far. -/
def assertUniqueFrom (field : JsString) : List JsString → List JsString → Checked Unit
  | _, [] => .ok ()
  | seen, value :: rest =>
      if value ∈ seen then .error (field ++ js " contains duplicate value: " ++ value)
      else assertUniqueFrom field (value :: seen) rest

def assertUnique (values : List JsString) (field : JsString) : Checked Unit :=
  assertUniqueFrom field [] values

def validateDomainPack (pack : DomainPack) : Checked DomainPack := do
  requireNonEmpty pack.id (js "id")
  requireNonEmpty pack.name (js "name")
  requireNonEmpty pack.language (js "language")
  requireNonEmpty pack.branding.productName (js "branding.productName")
  requireNonEmpty pack.branding.assistantName (js "branding.assistantName")
  requireNonEmpty pack.branding.primaryLabel (js "branding.primaryLabel")
  require (pack.workflowTypes ≠ []) (pack.id ++ js " must define workflow types")
  require (pack.sourceAuthorityClasses ≠ []) (pack.id ++ js " must define source authority classes")
  require (pack.classifierRules ≠ []) (pack.id ++ js " must define classifier rules")
  require (pack.workflowTemplates ≠ []) (pack.id ++ js " must define workflow templates")
  let workflowTypeIds := pack.workflowTypes.map (·.id)
  let authorityIds := pack.sourceAuthorityClasses.map (·.id)
  assertUnique workflowTypeIds (pack.id ++ js ".workflowTypes")
  assertUnique authorityIds (pack.id ++ js ".sourceAuthorityClasses")
  assertUnique (pack.classifierRules.map (·.id)) (pack.id ++ js ".classifierRules")
  assertUnique (pack.workflowTemplates.map (·.workflowType)) (pack.id ++ js ".workflowTemplates")
  assertUnique (pack.feedbackTypes.map (·.id)) (pack.id ++ js ".feedbackTypes")
  pack.classifierRules.forM fun rule =>
    require (rule.workflowType ∈ workflowTypeIds)
      (pack.id ++ js ".classifierRules references unknown workflow type: " ++ rule.workflowType)
  pack.workflowTemplates.forM fun template => do
    require (template.workflowType ∈ workflowTypeIds)
      (pack.id ++ js ".workflowTemplates references unknown workflow type: " ++
        template.workflowType)
    require (template.steps ≠ [])
      (pack.id ++ js "." ++ template.workflowType ++ js " must define at least one step")
  pack.governanceRules.forM fun rule =>
    (rule.appliesToAuthorityClasses.getD []).forM fun authorityClass =>
      require (authorityClass ∈ authorityIds)
        (pack.id ++ js ".governanceRules references unknown authority class: " ++ authorityClass)
  return pack

/-! ## Slugs -/

/-- The units `[a-z0-9]`. -/
def isSlugUnit (u : UInt16) : Bool := isLowerLetter u || isDecimalDigit u

def dash : UInt16 := 0x2d

/-- The rest of `^[a-z0-9]+(?:-[a-z0-9]+)*$` behind a slug unit, or where one is due. -/
def isSafeRest : Bool → JsString → Bool
  | afterUnit, [] => afterUnit
  | afterUnit, u :: rest =>
      if isSlugUnit u then isSafeRest true rest
      else u == dash && afterUnit && isSafeRest false rest

/-- `SAFE_ID`. -/
def isSafeId (id : JsString) : Bool := isSafeRest false id

/-- `.replace(/[^a-z0-9]+/g, "-")` behind a unit that was replaced, or was not. -/
def dashRuns : Bool → JsString → JsString
  | _, [] => []
  | afterDash, u :: rest =>
      if isSlugUnit u then u :: dashRuns false rest
      else if afterDash then dashRuns true rest else dash :: dashRuns true rest

/-- `.replace(/^-+|-+$/g, "")`. -/
def stripDashes (text : JsString) : JsString :=
  (text.dropWhile (· == dash)).rdropWhile (· == dash)

def toSafeId (platform : Platform) (value fallback : JsString) : JsString :=
  let plain := (platform.nfd (platform.toLowerCase value)).filter fun u => !isCombiningMark u
  let normalized := stripDashes (dashRuns false plain)
  if normalized = [] then fallback else normalized

/-! ## Editable templates -/

structure EditableStep where
  id : JsString
  order : Nat
  label : JsString
  action : JsString
  requiredDocuments : List JsString
  outputDocuments : List JsString
  allowedSourceAuthorities : List JsString
  governanceRules : List JsString
  evidencePatterns : List JsString
  humanValidationRequired : Option Bool
  notes : Option JsString

inductive EvidenceRequirement
  | none | recommended | required
  deriving DecidableEq

structure EditableTemplate where
  domainPackId : JsString
  workflowId : JsString
  workflowType : JsString
  title : JsString
  description : JsString
  defaultSummary : JsString
  validationWarning : JsString
  governanceRules : List JsString
  evidenceRequirement : EvidenceRequirement
  authoritative : Bool
  steps : List EditableStep

structure EditableCollection where
  domainPackId : JsString
  templates : List EditableTemplate

def convertStep (platform : Platform) (pack : DomainPack) (step : TemplateStep) (index : Nat) :
    EditableStep where
  id := toSafeId platform step.title (js "step-" ++ numberText (index + 1))
  order := index + 1
  label := step.title
  action := step.action
  requiredDocuments := step.requiredDocuments
  outputDocuments := step.outputDocuments
  allowedSourceAuthorities := pack.sourceAuthorityClasses.map (·.id)
  governanceRules := pack.governanceRules.map (·.id)
  evidencePatterns := step.evidencePatterns
  humanValidationRequired := some true
  notes := step.notes

def convertDomainWorkflowTemplate (platform : Platform) (template : DomainTemplate)
    (pack : DomainPack) : EditableTemplate where
  domainPackId := pack.id
  workflowId := toSafeId platform template.workflowType (js "workflow")
  workflowType := template.workflowType
  title := template.title
  description := ((pack.workflowTypes.find? (·.id == template.workflowType)).map
    (·.description)).getD template.defaultSummary
  defaultSummary := template.defaultSummary
  validationWarning := template.validationWarning
  governanceRules := pack.governanceRules.map (·.id)
  evidenceRequirement := .required
  authoritative := false
  steps := template.steps.mapIdx fun index step => convertStep platform pack step index

/-! ## Values -/

/-- A value of unknown type; a number that is not finite is `none`. -/
inductive Value
  | undefined
  | null
  | bool (b : Bool)
  | number (n : Option Rat)
  | text (s : JsString)
  | array (items : List Value)
  | object (entries : List (JsString × Value))

/-- A property of the value. -/
def Value.get (value : Value) (key : String) : Value :=
  match value with
  | .object entries => (entries.lookup (js key)).getD .undefined
  | _ => .undefined

/-- `value && typeof value === "object" && !Array.isArray(value)`. -/
def Value.isRecord : Value → Bool
  | .object _ => true
  | _ => false

def EvidenceRequirement.text : EvidenceRequirement → JsString
  | .none => js "none"
  | .recommended => js "recommended"
  | .required => js "required"

def optionalValue {α : Type} (toValue : α → Value) (a : Option α) : Value :=
  (a.map toValue).getD .undefined

def textsValue (texts : List JsString) : Value := .array (texts.map .text)

def EditableStep.toValue (step : EditableStep) : Value := .object [
  (js "id", .text step.id), (js "order", .number (some step.order)),
  (js "label", .text step.label), (js "action", .text step.action),
  (js "requiredDocuments", textsValue step.requiredDocuments),
  (js "outputDocuments", textsValue step.outputDocuments),
  (js "allowedSourceAuthorities", textsValue step.allowedSourceAuthorities),
  (js "governanceRules", textsValue step.governanceRules),
  (js "evidencePatterns", textsValue step.evidencePatterns),
  (js "humanValidationRequired", optionalValue .bool step.humanValidationRequired),
  (js "notes", optionalValue .text step.notes)]

def EditableTemplate.toValue (template : EditableTemplate) : Value := .object [
  (js "domainPackId", .text template.domainPackId), (js "workflowId", .text template.workflowId),
  (js "workflowType", .text template.workflowType), (js "title", .text template.title),
  (js "description", .text template.description),
  (js "defaultSummary", .text template.defaultSummary),
  (js "validationWarning", .text template.validationWarning),
  (js "governanceRules", textsValue template.governanceRules),
  (js "evidenceRequirement", .text template.evidenceRequirement.text),
  (js "authoritative", .bool template.authoritative),
  (js "steps", .array (template.steps.map EditableStep.toValue))]

def EditableCollection.toValue (collection : EditableCollection) : Value := .object [
  (js "schemaVersion", .number (some 1)), (js "domainPackId", .text collection.domainPackId),
  (js "templates", .array (collection.templates.map EditableTemplate.toValue))]

@[simp] theorem EditableStep.get_id (x : EditableStep) : x.toValue.get "id" = .text x.id := rfl

@[simp] theorem EditableStep.get_order (x : EditableStep) :
    x.toValue.get "order" = .number (some x.order) := rfl

@[simp] theorem EditableStep.get_label (x : EditableStep) :
    x.toValue.get "label" = .text x.label := rfl

@[simp] theorem EditableStep.get_action (x : EditableStep) :
    x.toValue.get "action" = .text x.action := rfl

@[simp] theorem EditableStep.get_requiredDocuments (x : EditableStep) :
    x.toValue.get "requiredDocuments" = textsValue x.requiredDocuments := rfl

@[simp] theorem EditableStep.get_outputDocuments (x : EditableStep) :
    x.toValue.get "outputDocuments" = textsValue x.outputDocuments := rfl

@[simp] theorem EditableStep.get_allowedSourceAuthorities (x : EditableStep) :
    x.toValue.get "allowedSourceAuthorities" = textsValue x.allowedSourceAuthorities := rfl

@[simp] theorem EditableStep.get_governanceRules (x : EditableStep) :
    x.toValue.get "governanceRules" = textsValue x.governanceRules := rfl

@[simp] theorem EditableStep.get_evidencePatterns (x : EditableStep) :
    x.toValue.get "evidencePatterns" = textsValue x.evidencePatterns := rfl

@[simp] theorem EditableStep.get_humanValidationRequired (x : EditableStep) :
    x.toValue.get "humanValidationRequired" = optionalValue .bool x.humanValidationRequired := rfl

@[simp] theorem EditableStep.get_notes (x : EditableStep) :
    x.toValue.get "notes" = optionalValue .text x.notes := rfl

@[simp] theorem EditableTemplate.get_domainPackId (x : EditableTemplate) :
    x.toValue.get "domainPackId" = .text x.domainPackId := rfl

@[simp] theorem EditableTemplate.get_workflowId (x : EditableTemplate) :
    x.toValue.get "workflowId" = .text x.workflowId := rfl

@[simp] theorem EditableTemplate.get_workflowType (x : EditableTemplate) :
    x.toValue.get "workflowType" = .text x.workflowType := rfl

@[simp] theorem EditableTemplate.get_title (x : EditableTemplate) :
    x.toValue.get "title" = .text x.title := rfl

@[simp] theorem EditableTemplate.get_description (x : EditableTemplate) :
    x.toValue.get "description" = .text x.description := rfl

@[simp] theorem EditableTemplate.get_defaultSummary (x : EditableTemplate) :
    x.toValue.get "defaultSummary" = .text x.defaultSummary := rfl

@[simp] theorem EditableTemplate.get_validationWarning (x : EditableTemplate) :
    x.toValue.get "validationWarning" = .text x.validationWarning := rfl

@[simp] theorem EditableTemplate.get_governanceRules (x : EditableTemplate) :
    x.toValue.get "governanceRules" = textsValue x.governanceRules := rfl

@[simp] theorem EditableTemplate.get_evidenceRequirement (x : EditableTemplate) :
    x.toValue.get "evidenceRequirement" = .text x.evidenceRequirement.text := rfl

@[simp] theorem EditableTemplate.get_authoritative (x : EditableTemplate) :
    x.toValue.get "authoritative" = .bool x.authoritative := rfl

@[simp] theorem EditableTemplate.get_steps (x : EditableTemplate) :
    x.toValue.get "steps" = .array (x.steps.map EditableStep.toValue) := rfl

@[simp] theorem EditableCollection.get_schemaVersion (x : EditableCollection) :
    x.toValue.get "schemaVersion" = .number (some 1) := rfl

@[simp] theorem EditableCollection.get_domainPackId (x : EditableCollection) :
    x.toValue.get "domainPackId" = .text x.domainPackId := rfl

@[simp] theorem EditableCollection.get_templates (x : EditableCollection) :
    x.toValue.get "templates" = .array (x.templates.map EditableTemplate.toValue) := rfl

/-! ## The validators of editable templates -/

def requireText (value : Value) (field : JsString) : Checked JsString :=
  match value with
  | .text text =>
      if trim text = [] then .error (field ++ js " is required") else .ok (trim text)
  | _ => .error (field ++ js " is required")

def requireSafeId (value : Value) (field : JsString) : Checked JsString := do
  let id ← requireText value field
  require (isSafeId id = true) (field ++ js " must be safe kebab-case")
  return id

/-- `field[index]`. -/
def indexed (field : JsString) (index : Nat) : JsString :=
  field ++ js "[" ++ numberText index ++ js "]"

def requireStringArray (value : Value) (field : JsString) : Checked (List JsString) :=
  match value with
  | .array values => do
      let items ← values.zipIdx.mapM fun item => requireText item.1 (indexed field item.2)
      require items.Nodup (field ++ js " contains duplicate values")
      return items
  | _ => .error (field ++ js " must be an array")

/-- The order of a step, a positive integer. -/
def orderOf (value : Value) : Option Nat :=
  match value with
  | .number (some n) => if n.den = 1 ∧ 1 ≤ n.num then some n.num.toNat else none
  | _ => none

/-- The trimmed text, unless it is blank. -/
def notBlank (text : JsString) : Option JsString :=
  if trim text = [] then none else some (trim text)

def stepField (index : Nat) (name : String) : JsString :=
  indexed (js "steps") index ++ js "." ++ js name

def validateStep (authorityIds governanceIds : List JsString) (step : Value) (index : Nat) :
    Checked EditableStep := do
  require (step.isRecord = true) (indexed (js "steps") index ++ js " must be an object")
  let order ← orRefuse (orderOf (step.get "order"))
    (stepField index "order" ++ js " must be a positive integer")
  let allowedSourceAuthorities ← requireStringArray (step.get "allowedSourceAuthorities")
    (stepField index "allowedSourceAuthorities")
  allowedSourceAuthorities.forM fun authorityId =>
    require (authorityId ∈ authorityIds) (indexed (js "steps") index ++
      js " references unknown source authority: " ++ authorityId)
  let governanceRules ← requireStringArray (step.get "governanceRules")
    (stepField index "governanceRules")
  governanceRules.forM fun governanceId =>
    require (governanceId ∈ governanceIds) (indexed (js "steps") index ++
      js " references unknown governance rule: " ++ governanceId)
  let id ← requireSafeId (step.get "id") (stepField index "id")
  let label ← requireText (step.get "label") (stepField index "label")
  let action ← requireText (step.get "action") (stepField index "action")
  let requiredDocuments ← requireStringArray (step.get "requiredDocuments")
    (stepField index "requiredDocuments")
  let outputDocuments ← requireStringArray (step.get "outputDocuments")
    (stepField index "outputDocuments")
  let evidencePatterns ← requireStringArray (step.get "evidencePatterns")
    (stepField index "evidencePatterns")
  let humanValidationRequired := match step.get "humanValidationRequired" with
    | .bool b => some b
    | _ => none
  let notes := match step.get "notes" with
    | .text text => notBlank text
    | _ => none
  return { id, order, label, action, requiredDocuments, outputDocuments,
           allowedSourceAuthorities, governanceRules, evidencePatterns, humanValidationRequired,
           notes }

def evidenceRequirementOf (value : Value) : Option EvidenceRequirement :=
  match value with
  | .text text =>
      if text = js "none" then some .none
      else if text = js "recommended" then some .recommended
      else if text = js "required" then some .required
      else none
  | _ => none

def requireArray (value : Value) (error : JsString) : Checked (List Value) :=
  match value with
  | .array values => if values = [] then .error error else .ok values
  | _ => .error error

/-- The last check of the steps of a template. -/
def requireEvidence (requirement : EvidenceRequirement) (steps : List EditableStep) :
    Checked Unit :=
  if requirement = .required then
    steps.zipIdx.forM fun step => do
      require (step.1.evidencePatterns ≠ []) (indexed (js "steps") step.2 ++
        js " must define evidencePatterns when evidence is required")
      require (step.1.allowedSourceAuthorities ≠ []) (indexed (js "steps") step.2 ++
        js " must define allowedSourceAuthorities when evidence is required")
  else .ok ()

def validateEditableWorkflowTemplate (template : Value) (pack : DomainPack) :
    Checked EditableTemplate := do
  require (template.isRecord = true) (js "template must be an object")
  let domainPackId ← requireSafeId (template.get "domainPackId") (js "domainPackId")
  require (domainPackId = pack.id) (js "template domainPackId " ++ domainPackId ++
    js " does not match owning pack " ++ pack.id)
  let workflowType ← requireText (template.get "workflowType") (js "workflowType")
  require (workflowType ∈ pack.workflowTypes.map (·.id))
    (js "unknown workflow type: " ++ workflowType)
  let evidenceRequirement ← orRefuse (evidenceRequirementOf (template.get "evidenceRequirement"))
    (js "evidenceRequirement must be none, recommended, or required")
  let authoritative := match template.get "authoritative" with
    | .bool b => b
    | _ => false
  require (authoritative = true → evidenceRequirement = .required)
    (js "authoritative templates must require evidence")
  let governanceIds := pack.governanceRules.map (·.id)
  let authorityIds := pack.sourceAuthorityClasses.map (·.id)
  let governanceRules ← requireStringArray (template.get "governanceRules") (js "governanceRules")
  governanceRules.forM fun governanceId =>
    require (governanceId ∈ governanceIds) (js "unknown governance rule: " ++ governanceId)
  let values ← requireArray (template.get "steps") (js "steps must contain at least one step")
  let steps ← values.zipIdx.mapM fun step => validateStep authorityIds governanceIds step.1 step.2
  require (steps.map (·.id)).Nodup (js "steps contains duplicate ids")
  let orders : List Nat := steps.map (·.order)
  require orders.Nodup (js "steps contains duplicate order values")
  let sortedOrders := orders.mergeSort
  require (∀ order ∈ sortedOrders.zipIdx, order.1 = order.2 + 1)
    (js "steps order must be contiguous and start at 1")
  requireEvidence evidenceRequirement steps
  let workflowId ← requireSafeId (template.get "workflowId") (js "workflowId")
  let title ← requireText (template.get "title") (js "title")
  let description ← requireText (template.get "description") (js "description")
  let defaultSummary ← requireText (template.get "defaultSummary") (js "defaultSummary")
  let validationWarning ← requireText (template.get "validationWarning") (js "validationWarning")
  return { domainPackId, workflowId, workflowType, title, description, defaultSummary,
           validationWarning, governanceRules, evidenceRequirement, authoritative, steps }

def isNumberOne : Value → Bool
  | .number (some n) => n == 1
  | _ => false

def isText (text : JsString) : Value → Bool
  | .text s => s == text
  | _ => false

def validateEditableWorkflowTemplateCollection (collection : Value) (pack : DomainPack) :
    Checked EditableCollection := do
  require (collection.isRecord = true) (js "collection must be an object")
  require (isNumberOne (collection.get "schemaVersion") = true) (js "schemaVersion must be 1")
  require (isText pack.id (collection.get "domainPackId") = true)
    (js "collection domainPackId does not match owning pack")
  let values ← requireArray (collection.get "templates")
    (js "templates must contain at least one template")
  let templates ← values.mapM fun template => validateEditableWorkflowTemplate template pack
  require (templates.map (·.workflowId)).Nodup (js "templates contains duplicate workflow ids")
  return { domainPackId := pack.id, templates }

end WorkflowTemplates
