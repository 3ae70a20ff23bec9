import MuniRag.Ingestion.Identity
import MuniRag.Lib.JsMap
import MuniRag.Procedure.Authorities
import Mathlib.Data.Rat.Defs

/-!
# The source inventory

The records of `sourceInventory.ts` with the checks of `validateSourceInventory`: each record
for itself, and no two records of one source and version.  Numbers are those of JSON texts,
that is, rational ones.  `new URL` and `Date.parse` are parameters.
-/

namespace DocumentLibrary

open Api

/-! ## The records -/

inductive SourceState
  | missingSource | identified | verified | acquisitionPending | acquired | ingestionPending
  | ingested | failed | superseded
  deriving DecidableEq, Repr

def SourceState.text : SourceState → JsString
  | .missingSource => js "missing_source"
  | .identified => js "identified"
  | .verified => js "verified"
  | .acquisitionPending => js "acquisition_pending"
  | .acquired => js "acquired"
  | .ingestionPending => js "ingestion_pending"
  | .ingested => js "ingested"
  | .failed => js "failed"
  | .superseded => js "superseded"

inductive AuthorityClass
  | officialMunicipal | officialNational | externalReference | contextual | unknown
  deriving DecidableEq, Repr

inductive SourceCategory
  | constitution | nationalLaw | nationalRegulation | planning | budget | organization
  | procedureManual | functionManual | councilRecord | form | communityRecord | publicPortal | other
  deriving DecidableEq, Repr

/-- `SourceInventoryAcquisitionEvidence`. -/
structure Acquisition where
  acquiredAt : JsString
  artifactPath : JsString
  contentSha256 : JsString
  mediaType : Option JsString
  byteLength : Option ℚ
  deriving DecidableEq, Repr

inductive SafetyVerdict
  | clean | infected | rejected | error
  deriving DecidableEq, Repr

/-- `SourceInventoryArtifactSafetyEvidence`. -/
structure SafetyEvidence where
  inspectedAt : JsString
  artifactPath : JsString
  contentSha256 : JsString
  byteLength : ℚ
  observedContentSha256 : Option JsString
  observedByteLength : ℚ
  declaredMediaType : JsString
  detectedMediaType : Option JsString
  signature : Option JsString
  scannerEngine : JsString
  scannerVersion : JsString
  scannerDefinitionsVersion : Option JsString
  malwareSignature : Option JsString
  verdict : SafetyVerdict
  failureCodes : List JsString
  quarantinePath : Option JsString
  originalArtifactPath : Option JsString
  deriving DecidableEq, Repr

/-- `SourceInventoryExtractionEvidence`. -/
structure Extraction where
  extractedAt : JsString
  extractor : JsString
  sectionCount : ℚ
  outputPath : Option JsString
  deriving DecidableEq, Repr

/-- `SourceInventoryIndexingEvidence`. -/
structure Indexing where
  indexedAt : JsString
  indexer : JsString
  chunkCount : ℚ
  manifestDocumentKey : JsString
  deriving DecidableEq, Repr

/-- `SourceInventoryRecord`. -/
structure SourceRecord where
  sourceId : JsString
  documentKey : JsString
  documentVersion : JsString
  title : JsString
  category : SourceCategory
  status : SourceState
  targetJurisdiction : JsString
  sourceJurisdiction : JsString
  municipality : Option JsString
  authorityClass : AuthorityClass
  authorityLevel : Procedure.AuthorityLevel
  officialSource : Bool
  officialForTargetJurisdiction : Bool
  publicUrl : Option JsString
  verifiedAt : Option JsString
  publicationDate : Option JsString
  effectiveFrom : Option JsString
  effectiveTo : Option JsString
  acquisition : Option Acquisition
  artifactSafety : Option SafetyEvidence
  extraction : Option Extraction
  indexing : Option Indexing
  failureCodes : Option (List JsString)
  supersedesSourceId : Option JsString
  supersededBySourceId : Option JsString
  limitations : List JsString
  provenanceNotes : List JsString
  tags : Option (List JsString)
  deriving DecidableEq, Repr

/-- `SourceInventoryManifestFile`; the schema version is always 1. -/
structure InventoryManifest where
  targetJurisdiction : JsString
  generatedAt : JsString
  records : List SourceRecord
  deriving DecidableEq, Repr

/-- `SourceInventoryValidationFailure`. -/
structure ValidationFailure where
  code : JsString
  sourceId : Option JsString
  message : JsString
  deriving DecidableEq, Repr

/-- What the checks ask of the platform; `protocolOf` is what `new URL` reads. -/
structure Texts where
  platform : Platform
  protocolOf : JsString → Option JsString
  parseDate : JsString → Option Time

/-! ## Parts of a record -/

/-- A text with more than white space. -/
def isShown (value : JsString) : Bool := !(trim value).isEmpty

def isHexDigit (u : UInt16) : Bool := (hexDigit u).isSome

/-- `/^[a-f0-9]{64}$/i`. -/
def isContentSha256 (value : JsString) : Bool := value.length == 64 && value.all isHexDigit

/-- `Number.isSafeInteger`. -/
def isSafeInteger (value : ℚ) : Bool := value.den == 1 && decide (value.num.natAbs ≤ 2 ^ 53 - 1)

def isInteger (value : ℚ) : Bool := value.den == 1

/-- `/^[a-z0-9_]{1,64}$/`. -/
def isFailureCode (code : JsString) : Bool :=
  decide (1 ≤ code.length ∧ code.length ≤ 64) &&
    code.all fun u => isLowerLetter u || isDecimalDigit u || u == 0x5f

section Checks

variable (texts : Texts)

def normalize (value : JsString) : JsString :=
  collapseSpaces ((texts.platform.nfd (texts.platform.toLowerCase (trim value))).filter
    fun u => !isCombiningMark u)

def isAntigua (value : JsString) : Bool :=
  let normalized := normalize texts value
  normalized == js "antigua" || decide (js "antigua guatemala" <:+: normalized)

def isHttpUrl (value : Option JsString) : Bool :=
  value.any fun text => text ≠ [] && (texts.protocolOf text).any fun protocol =>
    protocol == js "http:" || protocol == js "https:"

def hasAcquisition (record : SourceRecord) : Bool :=
  record.acquisition.any fun acquisition => isShown acquisition.acquiredAt &&
    isShown acquisition.artifactPath && isContentSha256 acquisition.contentSha256

def hasArtifactSafetyShape (value : SafetyEvidence) : Bool :=
  (texts.parseDate value.inspectedAt).isSome && isShown value.artifactPath &&
    isContentSha256 value.contentSha256 && isSafeInteger value.byteLength &&
    decide (0 < value.byteLength) && value.observedContentSha256.all isContentSha256 &&
    isSafeInteger value.observedByteLength && decide (0 ≤ value.observedByteLength) &&
    isShown value.declaredMediaType && value.detectedMediaType.all isShown &&
    value.signature.all isShown && isShown value.scannerEngine && isShown value.scannerVersion &&
    value.scannerDefinitionsVersion.all isShown && value.malwareSignature.all isShown &&
    decide (value.failureCodes.length ≤ 16) && value.failureCodes.all isFailureCode &&
    value.quarantinePath.all isShown && value.originalArtifactPath.all isShown

/-- The media type up to letter case and white space around it. -/
def plainMediaType (value : JsString) : JsString := texts.platform.toLowerCase (trim value)

def hasCleanArtifactSafety (record : SourceRecord) : Bool :=
  match record.acquisition, record.artifactSafety with
  | some acquisition, some safety =>
      hasArtifactSafetyShape texts safety && safety.verdict == .clean &&
        isShown safety.inspectedAt && safety.artifactPath == acquisition.artifactPath &&
        safety.contentSha256 == acquisition.contentSha256 &&
        safety.observedContentSha256 == some acquisition.contentSha256 &&
        isSafeInteger safety.byteLength && decide (0 < safety.byteLength) &&
        acquisition.byteLength == some safety.byteLength &&
        safety.observedByteLength == safety.byteLength &&
        acquisition.mediaType.map (plainMediaType texts) ==
          some (plainMediaType texts safety.declaredMediaType) &&
        safety.detectedMediaType.any isShown && safety.signature.any isShown &&
        isShown safety.scannerEngine && isShown safety.scannerVersion &&
        safety.failureCodes.isEmpty
  | _, _ => false

def hasExtraction (record : SourceRecord) : Bool :=
  record.extraction.any fun extraction => isShown extraction.extractedAt &&
    isShown extraction.extractor && isInteger extraction.sectionCount &&
    decide (0 < extraction.sectionCount)

def hasIndexing (record : SourceRecord) : Bool :=
  record.indexing.any fun indexing => isShown indexing.indexedAt && isShown indexing.indexer &&
    isShown indexing.manifestDocumentKey && isInteger indexing.chunkCount &&
    decide (0 < indexing.chunkCount)

/-! ## The checks of a record -/

/-- One failure of the record where the condition holds. -/
def failureIf (condition : Bool) (record : SourceRecord) (code message : String) :
    List ValidationFailure :=
  if condition then
    [⟨js code, if record.sourceId = [] then none else some record.sourceId, js message⟩]
  else []

/-- What makes a record fail whatever its status and its evidence are. -/
def declarationFailures (record : SourceRecord) : List ValidationFailure :=
  let municipality := (record.municipality.filter (· ≠ [])).elim [] (normalize texts)
  let externalMunicipality := municipality ≠ [] && municipality ≠ js "antigua" &&
    municipality ≠ js "antigua guatemala"
  failureIf (!isShown record.sourceId) record "missing_source_id"
      "sourceId must be a non-empty string." ++
    failureIf (!isShown record.documentKey) record "missing_document_key"
      "documentKey must be a non-empty string." ++
    failureIf (!isShown record.documentVersion) record "missing_document_version"
      "documentVersion must be a non-empty string." ++
    failureIf (!isShown record.title) record "missing_title" "title must be a non-empty string." ++
    failureIf (!isShown record.targetJurisdiction) record "missing_target_jurisdiction"
      "targetJurisdiction must be a non-empty string." ++
    failureIf (!isShown record.sourceJurisdiction) record "missing_source_jurisdiction"
      "sourceJurisdiction must be a non-empty string." ++
    failureIf (record.publicUrl.isSome && !isHttpUrl texts record.publicUrl) record
      "invalid_public_url" "publicUrl must use HTTP or HTTPS." ++
    failureIf (record.authorityLevel == .primary && (!isAntigua texts record.sourceJurisdiction ||
      !record.officialForTargetJurisdiction)) record "invalid_authority_combination"
      "Primary authority requires an official source for Antigua." ++
    failureIf (isAntigua texts record.targetJurisdiction && externalMunicipality &&
      (record.authorityClass != .externalReference || record.authorityLevel != .comparative ||
        record.officialForTargetJurisdiction)) record "external_municipality_must_be_comparative"
      "A source from another municipality must remain comparative for Antigua." ++
    failureIf (normalize texts record.sourceJurisdiction == js "unknown" &&
      (record.authorityLevel == .primary || record.officialForTargetJurisdiction)) record
      "unknown_jurisdiction_cannot_be_primary" "Unknown jurisdiction cannot be primary."

/-- What makes the artifact safety evidence of a record fail. -/
def safetyFailures (record : SourceRecord) : List ValidationFailure :=
  match record.artifactSafety with
  | none => []
  | some safety =>
      if hasArtifactSafetyShape texts safety then
        failureIf (!record.acquisition.any fun acquisition =>
            safety.contentSha256 == acquisition.contentSha256 &&
              acquisition.byteLength == some safety.byteLength) record
          "artifact_safety_evidence_mismatch"
          "Artifact safety evidence must match the acquired artifact hash and byte length." ++
        failureIf (safety.verdict != .clean && safety.failureCodes.isEmpty) record
          "artifact_safety_clean_evidence_invalid"
          "Rejected artifact safety evidence requires at least one stable failure code." ++
        failureIf (safety.verdict == .clean && !hasCleanArtifactSafety texts record) record
          "artifact_safety_clean_evidence_invalid"
          ("Clean artifact safety evidence requires matching media, signature, scanner, hash, " ++
            "and size fields.")
      else failureIf true record "artifact_safety_clean_evidence_invalid"
        "Artifact safety evidence has an invalid shape."

/-- What the status of a record requires and it does not have. -/
def statusFailures (record : SourceRecord) : List ValidationFailure :=
  match record.status with
  | .missingSource =>
      failureIf (record.publicUrl.any (· ≠ []) || record.acquisition.isSome ||
        record.extraction.isSome || record.indexing.isSome) record "missing_source_has_evidence"
        "missing_source cannot include URL or processing evidence."
  | .verified =>
      failureIf (!isHttpUrl texts record.publicUrl || !record.verifiedAt.any isShown) record
        "verified_requires_url_and_timestamp" "verified requires publicUrl and verifiedAt."
  | .acquired =>
      failureIf (!hasAcquisition record) record "acquired_requires_acquisition_evidence"
        "acquired requires artifact and hash evidence."
  | .ingestionPending =>
      failureIf (!hasAcquisition record) record "ingestion_pending_requires_acquisition"
        "ingestion_pending requires acquisition evidence."
  | .ingested =>
      failureIf (!hasAcquisition record || !hasExtraction record || !hasIndexing record) record
        "ingested_requires_full_evidence"
        "ingested requires acquisition, extraction, and indexing evidence." ++
      failureIf (!hasCleanArtifactSafety texts record) record
        "ingested_requires_clean_artifact_safety"
        "ingested requires matching clean artifact safety evidence."
  | .failed =>
      failureIf (!record.failureCodes.any (!·.isEmpty)) record "failed_requires_failure_code"
        "failed requires at least one failure code."
  | .superseded =>
      failureIf (!record.supersededBySourceId.any isShown) record "superseded_requires_replacement"
        "superseded requires supersededBySourceId."
  | .identified | .acquisitionPending => []

/-- The failures of `validateSourceInventoryRecord`; those of the evidence stand between those
of the first statuses and of the last ones. -/
def validateSourceInventoryRecord (record : SourceRecord) : List ValidationFailure :=
  declarationFailures texts record ++
    (if record.status ∈ [.missingSource, .verified, .acquired] then
      statusFailures texts record ++ safetyFailures texts record
    else safetyFailures texts record ++ statusFailures texts record)

/-! ## The checks of an inventory -/

/-- The key of a source and a version. -/
def versionKey (record : SourceRecord) : JsString :=
  record.sourceId ++ js "::" ++ record.documentVersion

/-- The second record of a key, and each after it, fails. -/
def versionFailures : JsMap JsString SourceRecord → List SourceRecord → List ValidationFailure
  | _, [] => []
  | versions, record :: records =>
      if record.sourceId = [] ∨ record.documentVersion = [] then versionFailures versions records
      else match JsMap.get versions (versionKey record) with
        | none => versionFailures (JsMap.set versions (versionKey record) record) records
        | some existing =>
            let leftHash : JsString := (existing.acquisition.map (·.contentSha256)).getD []
            let rightHash : JsString := (record.acquisition.map (·.contentSha256)).getD []
            { code := if leftHash ≠ [] ∧ rightHash ≠ [] ∧ leftHash ≠ rightHash then
                js "conflicting_acquired_hash" else js "duplicate_declared_version"
              sourceId := some record.sourceId
              message := js "Duplicate or conflicting source/version: " ++ record.sourceId ++
                js " " ++ record.documentVersion ++ js "." } ::
              versionFailures versions records

/-- The failures of `validateSourceInventory`, which is valid without any. -/
def validateSourceInventory (records : List SourceRecord) : List ValidationFailure :=
  records.flatMap (validateSourceInventoryRecord texts) ++ versionFailures [] records

/-! ## Valid inventories -/

/-- `readInventory` accepts the records. -/
def Valid (records : List SourceRecord) : Prop := validateSourceInventory texts records = []

instance (records : List SourceRecord) : Decidable (Valid texts records) :=
  inferInstanceAs (Decidable (validateSourceInventory texts records = []))

variable {texts} {records : List SourceRecord} {record updated : SourceRecord}

theorem failureIf_eq_nil {condition : Bool} {code message : String} :
    failureIf condition record code message = [] ↔ condition = false := by
  cases condition <;> simp [failureIf]

/-- A valid record has texts for its source and its version. -/
theorem named_of_valid (h : validateSourceInventoryRecord texts record = []) :
    record.sourceId ≠ [] ∧ record.documentVersion ≠ [] := by
  have hdeclared := (List.append_eq_nil_iff.mp h).1
  simp only [declarationFailures, List.append_eq_nil_iff, failureIf_eq_nil] at hdeclared
  have hshown : ∀ value, (!isShown value) = false → value ≠ [] := by
    rintro value hvalue rfl
    exact absurd hvalue (by decide)
  exact ⟨hshown _ (by tauto), hshown _ (by tauto)⟩

theorem versionFailures_eq_nil {versions : JsMap JsString SourceRecord}
    (hnamed : ∀ record ∈ records, record.sourceId ≠ [] ∧ record.documentVersion ≠ []) :
    versionFailures versions records = [] ↔ (records.map versionKey).Nodup ∧
      ∀ record ∈ records, JsMap.get versions (versionKey record) = none := by
  induction records generalizing versions with
  | nil => simp [versionFailures]
  | cons record records ih =>
      obtain ⟨hrecord, hrest⟩ := List.forall_mem_cons.mp hnamed
      rw [versionFailures, if_neg (not_or.mpr hrecord), List.map_cons, List.nodup_cons,
        List.forall_mem_cons]
      cases hget : JsMap.get versions (versionKey record) with
      | some existing => simp
      | none =>
          simp only [true_and]
          rw [ih hrest]
          simp only [JsMap.get_set]
          constructor
          · rintro ⟨hnodup, hfree⟩
            refine ⟨⟨fun hmem => ?_, hnodup⟩, fun other hother => ?_⟩
            · obtain ⟨other, hother, hkey⟩ := List.mem_map.mp hmem
              have hnone := hfree other hother
              rw [if_pos hkey] at hnone
              exact absurd hnone (by simp)
            · have hnone := hfree other hother
              split_ifs at hnone
              exact hnone
          · rintro ⟨⟨hnew, hnodup⟩, hfree⟩
            refine ⟨hnodup, fun other hother => ?_⟩
            have hkey : versionKey other ≠ versionKey record := fun hkey =>
              hnew (hkey ▸ List.mem_map_of_mem hother)
            rw [if_neg hkey]
            exact hfree other hother

/-- **Validity.**  Every record is valid and no two are of one source and version. -/
theorem valid_iff : Valid texts records ↔
    (∀ record ∈ records, validateSourceInventoryRecord texts record = []) ∧
      (records.map versionKey).Nodup := by
  rw [Valid, validateSourceInventory, List.append_eq_nil_iff, List.flatMap_eq_nil_iff]
  refine and_congr_right fun hrecords => ?_
  rw [versionFailures_eq_nil fun record hrecord => named_of_valid (hrecords record hrecord)]
  exact and_iff_left fun _ _ => rfl

/-! ## Replacing a record -/

/-- The records of `replaceRecord`: every one of the source becomes the updated one. -/
def replaced (records : List SourceRecord) (updated : SourceRecord) : List SourceRecord :=
  records.map fun record => if record.sourceId = updated.sourceId then updated else record

/-- No other version of the source is in the inventory. -/
def OnlyVersion (records : List SourceRecord) (record : SourceRecord) : Prop :=
  ∀ other ∈ records, other.sourceId = record.sourceId → other = record

theorem replaced_eq (hnodup : (records.map versionKey).Nodup) (hmem : record ∈ records)
    (honly : OnlyVersion records record) (hsource : updated.sourceId = record.sourceId) :
    ∃ before after, records = before ++ record :: after ∧
      replaced records updated = before ++ updated :: after := by
  obtain ⟨before, after, rfl⟩ := List.append_of_mem hmem
  have hdistinct := (List.nodup_append.mp (List.Nodup.of_map _ hnodup))
  have hother : ∀ list : List SourceRecord, (∀ other ∈ list, other ∈ before ++ record :: after) →
      record ∉ list → replaced list updated = list := by
    intro list hlist hnot
    refine (List.map_congr_left fun other hin => ?_).trans (List.map_id _)
    refine if_neg fun hsame => hnot ?_
    exact honly other (hlist other hin) (hsame.trans hsource) ▸ hin
  have hbefore : record ∉ before := fun h => hdistinct.2.2 _ h _ List.mem_cons_self rfl
  have hafter : record ∉ after := (List.nodup_cons.mp hdistinct.2.1).1
  refine ⟨before, after, rfl, ?_⟩
  have hreplaced : replaced (before ++ record :: after) updated =
      replaced before updated ++ updated :: replaced after updated := by
    simp [replaced, hsource]
  rw [hreplaced, hother before (fun other h => List.mem_append_left _ h) hbefore,
    hother after (fun other h => List.mem_append_right _ (List.mem_cons_of_mem _ h)) hafter]

/-- **Replacement.**  A valid inventory stays valid exactly when the new record is valid and
replaces the only version of its source. -/
theorem valid_replaced_iff (h : Valid texts records) (hmem : record ∈ records)
    (hsource : updated.sourceId = record.sourceId)
    (hversion : updated.documentVersion = record.documentVersion) :
    Valid texts (replaced records updated) ↔
      validateSourceInventoryRecord texts updated = [] ∧ OnlyVersion records record := by
  obtain ⟨hrecords, hnodup⟩ := valid_iff.mp h
  have hkey : versionKey updated = versionKey record := by
    rw [versionKey, versionKey, hsource, hversion]
  rw [valid_iff]
  constructor
  · rintro ⟨hreplaced, hdistinct⟩
    constructor
    · exact hreplaced updated (List.mem_map.mpr ⟨record, hmem, if_pos hsource.symm⟩)
    · intro other hother hsame
      rw [replaced, List.map_map] at hdistinct
      refine List.inj_on_of_nodup_map hdistinct hother hmem ?_
      simp [hsame, hsource]
  · rintro ⟨hupdated, honly⟩
    obtain ⟨before, after, rfl, heq⟩ := replaced_eq hnodup hmem honly hsource
    rw [heq]
    constructor
    · intro other hother
      rcases List.mem_append.mp hother with hother | hother
      · exact hrecords other (List.mem_append_left _ hother)
      · rcases List.mem_cons.mp hother with rfl | hother
        · exact hupdated
        · exact hrecords other (List.mem_append_right _ (List.mem_cons_of_mem _ hother))
    · rw [List.map_append, List.map_cons] at hnodup ⊢
      rwa [hkey]

end Checks

end DocumentLibrary
