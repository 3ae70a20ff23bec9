import MuniRag.Ingestion.Database

/-!
# Artifact inspection

`PostgresArtifactAcceptanceRepository`: `beginInspection` registers an object
or restarts its inspection under the next generation, `completeInspection`
records the scan of one generation and accepts or rejects the object.  The
trigger of migration 011 and the unique index on accepted objects stand in the
`UPDATE` of an object.  Both calls are one transaction; a refusal rolls it
back.
-/

namespace Ingestion

open Results

/-! ## Inputs -/

/-- `BeginArtifactInspectionInput`. -/
structure BeginInput where
  tenantId : Uuid
  principalId : Uuid
  documentVersionId : Uuid
  artifactSha256 : JsString
  originalFilename : JsString
  mediaType : JsString
  object : ArtifactObjectReference
  deriving DecidableEq, Repr

/-- `ArtifactInspection`, what `beginInspection` returns. -/
structure Inspection where
  artifactObjectId : Uuid
  tenantId : Uuid
  principalId : Uuid
  documentVersionId : Uuid
  artifactSha256 : JsString
  originalFilename : JsString
  mediaType : JsString
  object : ArtifactObjectReference
  inspectionGeneration : Nat
  deriving DecidableEq, Repr

/-- `ArtifactInspectionOutcome`.  Its two dates are the instants of their texts,
which `Date.parse` and PostgreSQL read alike. -/
structure InspectionOutcome where
  verdict : Verdict
  contentSha256 : Option JsString
  byteLength : Option Int
  detectedMediaType : Option JsString
  structuralSignature : Option JsString
  inspectedAt : DateText
  scannerEngine : JsString
  scannerEngineVersion : JsString
  scannerDefinitionsVersion : Option JsString
  malwareSignature : Option JsString
  failureCode : Option JsString
  acceptedUntil : Option DateText
  deriving DecidableEq, Repr

/-- `ArtifactAcceptanceRecord`. -/
structure AcceptanceRecord where
  artifactObjectId : Uuid
  artifactScanId : Uuid
  documentVersionId : Uuid
  status : ObjectStatus
  verdict : Verdict
  failureCode : Option JsString
  acceptedUntil : Option Time
  deriving DecidableEq, Repr

/-! ## Validation -/

def supportedMediaTypes : List JsString := [
  js "application/pdf",
  js "application/vnd.openxmlformats-officedocument.wordprocessingml.document",
  js "text/plain",
  js "text/markdown"]

/-- `value.split(";", 1)[0].trim().toLowerCase()`. -/
def normalizeMediaType (platform : Platform) (value : JsString) : JsString :=
  platform.toLowerCase (trim (value.takeWhile (· != 0x3b)))

/-- `SAFE_COMPONENT_PATTERN`: the component marks and `+`, 160 units at most. -/
def isSafeComponent : JsString → Bool :=
  headTail isAlphanumeric (fun u => isAlphanumeric u || isComponentMark u || u == 0x2b) 159

/-- `SAFE_TEXT_PATTERN`. -/
def isSafeText (text : JsString) : Bool :=
  decide (1 ≤ text.length ∧ text.length ≤ 256) && text.all fun u => !isControl u

/-- `SAFE_FILENAME_PATTERN`; such a name is its own `basename`. -/
def isSafeFilename (name : JsString) : Bool :=
  decide (1 ≤ name.length ∧ name.length ≤ 255) &&
    name.all fun u => !isControl u && u != 0x2f && u != 0x5c

/-- `URI_PREFIX_PATTERN`: a scheme followed by `://`. -/
def hasUriPrefix : JsString → Bool
  | [] => false
  | u :: rest =>
      (isLowerLetter u || isUpperLetter u) &&
        (js "://").isPrefixOf (rest.dropWhile fun v =>
          isAlphanumeric v || v == 0x2b || v == 0x2e || v == 0x2d)

/-- `boundedOpaqueCoordinate`. -/
def boundedOpaqueCoordinate (value : JsString) (maximum : Nat) : Bool :=
  decide (1 ≤ value.length ∧ utf8Length value ≤ maximum) && value.all (fun u => !isControl u) &&
    !hasUriPrefix value

/-- `assertArtifactObjectReference`. -/
def ArtifactObjectReference.isValid (reference : ArtifactObjectReference) : Bool :=
  headTail isLowerLetter (fun u => isLowerLetter u || isDecimalDigit u || u == 0x5f || u == 0x2d) 79
      reference.storeName &&
    boundedOpaqueCoordinate reference.objectNamespace 255 &&
    boundedOpaqueCoordinate reference.objectKey 1024 &&
    headTail isAlphanumeric (fun u => isAlphanumeric u || isKeyMark u) 255 reference.objectVersion

def validateBeginInput (platform : Platform) (input : BeginInput) : Except Refusal Unit := do
  require (isSha256Hex input.artifactSha256 = true ∧ isSafeFilename input.originalFilename = true)
    (acceptanceError "artifact_acceptance_input_invalid" "Artifact acceptance input is invalid.")
  require (normalizeMediaType platform input.mediaType ∈ supportedMediaTypes)
    (acceptanceError "artifact_acceptance_input_invalid" "Artifact media type is unsupported.")
  require (input.object.isValid = true)
    (acceptanceError "artifact_acceptance_input_invalid" "Artifact object reference is invalid.")

/-- The instant of `acceptedUntil`, `none` where `Date.parse` gives `NaN`. -/
def InspectionOutcome.expiry (outcome : InspectionOutcome) : Option Time :=
  outcome.acceptedUntil.join

/-- The shape every outcome must have. -/
def InspectionOutcome.isShaped (outcome : InspectionOutcome) : Bool :=
  outcome.inspectedAt.isSome && isSafeComponent outcome.scannerEngine &&
    isSafeComponent outcome.scannerEngineVersion && outcome.contentSha256.all isSha256Hex &&
    outcome.byteLength.all (fun n => 1 ≤ n && n ≤ 1024 * 1024 * 1024) &&
    outcome.detectedMediaType.all isSafeText && outcome.structuralSignature.all isSafeComponent &&
    outcome.scannerDefinitionsVersion.all isSafeComponent &&
    outcome.malwareSignature.all isSafeText && outcome.failureCode.all isCodeText

/-- What a clean and an infected verdict both have to show. -/
def InspectionOutcome.identifies (outcome : InspectionOutcome) (inspection : Inspection) : Prop :=
  outcome.contentSha256 = some inspection.artifactSha256 ∧ outcome.byteLength.isSome = true ∧
    outcome.detectedMediaType.isSome = true ∧ outcome.structuralSignature.isSome = true ∧
    outcome.scannerDefinitionsVersion.isSome = true

instance (outcome : InspectionOutcome) (inspection : Inspection) :
    Decidable (outcome.identifies inspection) := by
  unfold InspectionOutcome.identifies
  infer_instance

def validateOutcome (inspection : Inspection) (outcome : InspectionOutcome) :
    Except Refusal Unit := do
  require (outcome.isShaped = true)
    (acceptanceError "artifact_scan_outcome_invalid" "Artifact scan outcome is invalid.")
  require (outcome.verdict = .clean → outcome.identifies inspection ∧ outcome.failureCode = none ∧
      outcome.malwareSignature = none ∧
      ∃ expiry ∈ outcome.expiry, ∃ inspectedAt ∈ outcome.inspectedAt, inspectedAt < expiry)
    (acceptanceError "artifact_scan_outcome_invalid" "Clean artifact evidence is incomplete.")
  require (outcome.verdict ≠ .clean → outcome.failureCode.isSome = true ∧
      outcome.acceptedUntil = none)
    (acceptanceError "artifact_scan_outcome_invalid" "Rejected artifact evidence is incomplete.")
  require (outcome.verdict = .infected → outcome.identifies inspection ∧
      outcome.malwareSignature.isSome = true ∧ outcome.failureCode = some (js "malware_detected"))
    (acceptanceError "artifact_scan_outcome_invalid" "Infected artifact evidence is incomplete.")

/-! ## Objects -/

/-- The trigger `validate_artifact_acceptance_v1` on an update of `old`. -/
def validateAcceptance (scans : List ScanRow) (old new : ObjectRow) (now : Time) :
    Except Refusal Unit := do
  raiseUnless (new.status = .accepted → old.status = .accepted →
      new.key = old.key ∧ new.version = old.version ∧ new.reference = old.reference ∧
        new.originalFilename = old.originalFilename ∧
        new.declaredMediaType = old.declaredMediaType ∧
        new.expectedSha256 = old.expectedSha256 ∧
        new.inspectionGeneration = old.inspectionGeneration ∧
        new.acceptedScanId = old.acceptedScanId ∧ new.acceptedUntil = old.acceptedUntil)
    "accepted artifact identity is immutable; start a new inspection generation"
  raiseUnless (new.status = .accepted →
      (∃ scan ∈ scans, new.ProvenBy scan) ∧ new.acceptedUntil.any (now < ·) = true)
    "accepted artifact requires the exact current clean scan and bounded acceptance window"

/-- Only an accepted object has a scan and an end of its acceptance. -/
def ObjectRow.meetsChecks (object : ObjectRow) : Prop :=
  1 ≤ object.inspectionGeneration ∧ object.inspectionGeneration ≤ 2147483647 ∧
    (object.status = .accepted ↔ object.acceptedScanId ≠ none) ∧
    (object.status = .accepted ↔ object.acceptedUntil ≠ none)

instance (object : ObjectRow) : Decidable object.meetsChecks := by
  unfold ObjectRow.meetsChecks
  infer_instance

/-- An `UPDATE` of the one object row `old`, with the trigger, the `CHECK` and
the index `artifact_objects_active_document_version_idx`. -/
def updateObject (tables : Tables) (old new : ObjectRow) (now : Time) :
    Except Refusal Tables := do
  validateAcceptance tables.scans old new now
  raiseUnless new.meetsChecks "artifact_objects check"
  raiseUnless (new.status = .accepted → ∀ row ∈ tables.objects, row.id ≠ new.id →
      ¬ (row.status = .accepted ∧ row.version = new.version))
    "artifact_objects_active_document_version_idx"
  pure { tables with objects := Table.updateWhere (·.id = old.id) (fun _ => new) tables.objects }

/-- `INSERT_OBJECT_SQL` of coordinates that no object has. -/
def insertObject (platform : Platform) (tables : Tables) (new : ObjectRow) :
    Except Refusal Tables := do
  raiseUnless (new.meetsChecks ∧ platform.hasControl new.reference.objectNamespace = false ∧
      platform.hasControl new.reference.objectKey = false ∧
      platform.hasControl new.originalFilename = false) "artifact_objects check"
  raiseUnless (∀ row ∈ tables.objects, row.id ≠ new.id) "artifact_objects_pkey"
  pure { tables with objects := tables.objects ++ [new] }

/-- The object that `INSERT_OBJECT_SQL` registers. -/
def BeginInput.register (input : BeginInput) (mediaType : JsString) (objectId : Uuid) (now : Time) :
    ObjectRow where
  id := objectId
  tenantId := input.tenantId
  documentVersionId := input.documentVersionId
  registeredByPrincipalId := input.principalId
  reference := input.object
  originalFilename := input.originalFilename
  declaredMediaType := mediaType
  expectedSha256 := input.artifactSha256
  inspectionGeneration := 1
  status := .scanning
  acceptedScanId := none
  acceptedUntil := none
  createdAt := now
  updatedAt := now

/-- `RESTART_INSPECTION_SQL` on one row. -/
def ObjectRow.restart (object : ObjectRow) (principalId : Uuid) (now : Time) : ObjectRow :=
  { object with
    registeredByPrincipalId := principalId
    inspectionGeneration := object.inspectionGeneration + 1
    status := .scanning, acceptedScanId := none, acceptedUntil := none, updatedAt := now }

/-- Registers the coordinates, or restarts the inspection of the object that
already has them. -/
def registerObject (platform : Platform) (tables : Tables) (input : BeginInput)
    (mediaType : JsString) (objectId : Uuid) (now : Time) :
    Except Refusal (Tables × ObjectRow) :=
  match tables.objects.find? fun row =>
      row.tenantId = input.tenantId ∧ row.reference = input.object with
  | none => do
      let tables ← insertObject platform tables (input.register mediaType objectId now)
      pure (tables, input.register mediaType objectId now)
  | some row => do
      require (row.documentVersionId = input.documentVersionId ∧
          row.originalFilename = input.originalFilename ∧ row.declaredMediaType = mediaType ∧
          row.expectedSha256 = input.artifactSha256)
        (acceptanceError "artifact_object_reference_conflict"
          "Immutable object coordinates are already bound to different artifact metadata.")
      require (row.inspectionGeneration < 2147483647)
        (acceptanceError "artifact_inspection_generation_exhausted"
          "Artifact inspection generation cannot advance.")
      let tables ← updateObject tables row (row.restart input.principalId now) now
      pure (tables, row.restart input.principalId now)

def beginInspection (platform : Platform) (tables : Tables) (input : BeginInput) (objectId : Uuid)
    (now : Time) : Except Refusal (Tables × Inspection) := do
  let mismatch := acceptanceError "artifact_document_identity_mismatch"
    "Document version is unavailable or does not match the artifact digest."
  validateBeginInput platform input
  let mediaType := normalizeMediaType platform input.mediaType
  let version ← orRefuse (tables.activeVersion? (input.tenantId, input.documentVersionId)) mismatch
  require (version.1.contentSha256 = input.artifactSha256) mismatch
  let registered ← registerObject platform tables input mediaType objectId now
  pure (registered.1, {
    artifactObjectId := registered.2.id, tenantId := input.tenantId
    principalId := input.principalId, documentVersionId := input.documentVersionId
    artifactSha256 := input.artifactSha256, originalFilename := input.originalFilename
    mediaType, object := input.object
    inspectionGeneration := registered.2.inspectionGeneration })

/-! ## Scans -/

/-- The scan that `INSERT_SCAN_SQL` writes. -/
def Inspection.scan (inspection : Inspection) (outcome : InspectionOutcome) (scanId : Uuid)
    (inspectedAt now : Time) : ScanRow where
  id := scanId
  tenantId := inspection.tenantId
  artifactObjectId := inspection.artifactObjectId
  inspectionGeneration := inspection.inspectionGeneration
  inspectedByPrincipalId := inspection.principalId
  verdict := outcome.verdict
  contentSha256 := outcome.contentSha256
  byteLength := outcome.byteLength
  detectedMediaType := outcome.detectedMediaType
  structuralSignature := outcome.structuralSignature
  inspectedAt := inspectedAt
  scannerEngine := outcome.scannerEngine
  scannerEngineVersion := outcome.scannerEngineVersion
  scannerDefinitionsVersion := outcome.scannerDefinitionsVersion
  malwareSignature := outcome.malwareSignature
  failureCode := outcome.failureCode
  createdAt := now

/-- `INSERT_SCAN_SQL`; the `CHECK`s of the table repeat `validateOutcome`. -/
def insertScan (platform : Platform) (tables : Tables) (new : ScanRow) : Except Refusal Tables := do
  raiseUnless (new.detectedMediaType.all (!platform.hasControl ·) = true ∧
      new.malwareSignature.all (!platform.hasControl ·) = true) "artifact_scans check"
  raiseUnless (∀ row ∈ tables.scans, row.id ≠ new.id) "artifact_scans_pkey"
  raiseUnless (∀ row ∈ tables.scans,
      ¬ (row.object = new.object ∧ row.inspectionGeneration = new.inspectionGeneration))
    "artifact_scans_tenant_id_artifact_object_id_inspection_gene_key"
  pure { tables with scans := tables.scans ++ [new] }

/-- `SUPERSEDE_OTHER_OBJECTS_SQL`. -/
def supersedeOtherObjects (tables : Tables) (object : ObjectRow) (now : Time) : Tables :=
  { tables with
    objects := Table.updateWhere
      (fun row => row.version = object.version ∧ row.id ≠ object.id ∧ row.status = .accepted)
      (fun row => { row with
        status := .superseded, acceptedScanId := none, acceptedUntil := none, updatedAt := now })
      tables.objects }

/-- `COMPLETE_OBJECT_SQL` on the locked row. -/
def ObjectRow.decide (object : ObjectRow) (outcome : InspectionOutcome) (scanId : Uuid)
    (now : Time) : ObjectRow :=
  { object with
    status := if outcome.verdict = .clean then .accepted else .rejected
    acceptedScanId := if outcome.verdict = .clean then some scanId else none
    acceptedUntil := if outcome.verdict = .clean then outcome.expiry else none
    updatedAt := now }

/-- The tables before `COMPLETE_OBJECT_SQL`: an acceptance supersedes the other
accepted objects of the version first. -/
def makeRoom (tables : Tables) (object : ObjectRow) (verdict : Verdict) (now : Time) : Tables :=
  if verdict = .clean then supersedeOtherObjects tables object now else tables

def inspectionStale : Refusal := .acceptance {
  code := "artifact_inspection_stale"
  message := "Artifact inspection was superseded before its result could be committed."
  retryable := true }

def completeInspection (platform : Platform) (tables : Tables) (inspection : Inspection)
    (outcome : InspectionOutcome) (scanId : Uuid) (now : Time) :
    Except Refusal (Tables × AcceptanceRecord) := do
  validateOutcome inspection outcome
  let inspectedAt ← orRefuse outcome.inspectedAt
    (acceptanceError "artifact_scan_outcome_invalid" "Artifact scan outcome is invalid.")
  let object ← orRefuse (tables.objects.find? fun row =>
    row.key = (inspection.tenantId, inspection.artifactObjectId)) inspectionStale
  require (object.documentVersionId = inspection.documentVersionId ∧
      object.expectedSha256 = inspection.artifactSha256 ∧ object.status = .scanning ∧
      object.inspectionGeneration = inspection.inspectionGeneration) inspectionStale
  let scanned ← insertScan platform tables (inspection.scan outcome scanId inspectedAt now)
  let completed ← updateObject (makeRoom scanned object outcome.verdict now) object
    (object.decide outcome scanId now) now
  pure (completed, {
    artifactObjectId := inspection.artifactObjectId, artifactScanId := scanId
    documentVersionId := inspection.documentVersionId
    status := if outcome.verdict = .clean then .accepted else .rejected
    verdict := outcome.verdict, failureCode := outcome.failureCode
    acceptedUntil := if outcome.verdict = .clean then outcome.expiry else none })

end Ingestion
