import MuniRag.Ingestion.ObjectReading

/-!
# What an inspection finds

`ArtifactAcceptanceService.inspect` between `beginInspection` and
`completeInspection`: it reads the object, inspects the bytes, compares their
digest and has them scanned, and each way out makes an outcome of its own.
Reader, inspector and scanner may answer anything their types allow and may
throw anything.
-/

namespace Ingestion

/-! ## Inspector and scanner -/

/-- What an inspector or a scanner throws: an `ArtifactSafetyError` with its
code, or another error. -/
inductive SafetyFailure
  | safety (code : JsString)
  | other
  deriving DecidableEq, Repr

/-- The fields of an `ArtifactStructuralInspection` that an outcome has. -/
structure Structural where
  detectedMediaType : JsString
  signature : JsString
  deriving DecidableEq, Repr

def docxMediaType : JsString :=
  js "application/vnd.openxmlformats-" ++ js "officedocument.wordprocessingml" ++ js ".document"

/-- `MEDIA_TYPE_BY_EXTENSION`. -/
def mediaTypeByExtension : List (JsString × JsString) := [
  (js ".pdf", js "application/pdf"),
  (js ".docx", docxMediaType),
  (js ".txt", js "text/plain"),
  (js ".html", js "text/html"),
  (js ".htm", js "text/html"),
  (js ".md", js "text/markdown"),
  (js ".markdown", js "text/markdown")]

/-- What the signature tests of an inspection say of the bytes, and
`extname(path).toLowerCase()`. -/
structure ContentProbe where
  extension : JsString → JsString
  hasPdfSignature : List UInt8 → Bool
  hasDocxSignature : List UInt8 → Bool
  isUtf8Text : List UInt8 → Bool

/-- What the bytes are, by their signature; the declared charset is never given. -/
def ContentProbe.detect (probe : ContentProbe) (content : List UInt8) (extension : JsString) :
    Option Structural :=
  if probe.hasPdfSignature content then
    some ⟨js "application/pdf", js "pdf-header-eof-v1"⟩
  else if probe.hasDocxSignature content then some ⟨docxMediaType, js "docx-opc-markers-v1"⟩
  else if probe.isUtf8Text content then
    some ⟨if extension = js ".md" ∨ extension = js ".markdown" then js "text/markdown"
      else if extension = js ".html" ∨ extension = js ".htm" then js "text/html"
      else js "text/plain", js "utf8-text-v1"⟩
  else none

/-- `inspectArtifactContent`. -/
def inspectArtifactContent (platform : Platform) (probe : ContentProbe) (content : List UInt8)
    (sourcePath declaredMediaType : JsString) (maxArtifactBytes : Nat) :
    Except SafetyFailure Structural :=
  let extension := probe.extension sourcePath
  let declared := normalizeMediaType platform declaredMediaType
  if content.length = 0 then .error (.safety (js "artifact_empty"))
  else if content.length > maxArtifactBytes then .error (.safety (js "artifact_size_exceeded"))
  else match mediaTypeByExtension.lookup extension with
    | none => .error (.safety (js "artifact_extension_unsupported"))
    | some expected =>
        if declared = [] then .error (.safety (js "artifact_media_type_missing"))
        else if declared ≠ expected then
          .error (.safety (js "artifact_declared_media_type_mismatch"))
        else match probe.detect content extension with
          | none => .error (.safety (js "artifact_signature_unrecognized"))
          | some structural =>
              if structural.detectedMediaType ≠ expected then
                .error (.safety (js "artifact_signature_mismatch"))
              else .ok structural

/-- The answers of the signature tests. -/
def structurals : List Structural := [
  ⟨js "application/pdf", js "pdf-header-eof-v1"⟩,
  ⟨docxMediaType, js "docx-opc-markers-v1"⟩,
  ⟨js "text/markdown", js "utf8-text-v1"⟩,
  ⟨js "text/html", js "utf8-text-v1"⟩,
  ⟨js "text/plain", js "utf8-text-v1"⟩]

/-- An inspector of contents.  It may throw anything; what it returns is one of
the answers of the signature tests, and of the declared media type. -/
structure ContentInspector (platform : Platform) where
  inspect : List UInt8 → JsString → JsString → Nat → Except SafetyFailure Structural
  known {content sourcePath declaredMediaType maxArtifactBytes structural}
    (hanswer : inspect content sourcePath declaredMediaType maxArtifactBytes = .ok structural) :
    structural ∈ structurals ∧
      structural.detectedMediaType = normalizeMediaType platform declaredMediaType

theorem detect_known {probe : ContentProbe} {content : List UInt8} {extension : JsString}
    {structural : Structural} (hdetect : probe.detect content extension = some structural) :
    structural ∈ structurals := by
  unfold ContentProbe.detect at hdetect
  split at hdetect
  · cases hdetect
    simp [structurals]
  · split at hdetect
    · cases hdetect
      simp [structurals]
    · split at hdetect
      · cases hdetect
        split
        · simp [structurals]
        · split <;> simp [structurals]
      · cases hdetect

/-- The inspector of the service. -/
def artifactInspector (platform : Platform) (probe : ContentProbe) : ContentInspector platform where
  inspect := inspectArtifactContent platform probe
  known {content sourcePath declaredMediaType maxArtifactBytes structural} hanswer := by
    unfold inspectArtifactContent at hanswer
    simp only at hanswer
    split at hanswer
    · cases hanswer
    split at hanswer
    · cases hanswer
    split at hanswer
    · cases hanswer
    split at hanswer
    · cases hanswer
    split at hanswer
    · cases hanswer
    rename_i hdeclared
    split at hanswer
    · cases hanswer
    rename_i found hdetect
    split at hanswer
    · cases hanswer
    rename_i hdetected
    cases hanswer
    refine ⟨detect_known hdetect, ?_⟩
    rw [not_not.mp hdetected, not_not.mp hdeclared]

/-- The verdict of a scanner. -/
inductive ScanVerdict
  | clean
  | infected
  | error
  deriving DecidableEq, Repr

/-- `MalwareScanResult`. -/
structure MalwareScanResult where
  verdict : ScanVerdict
  engine : JsString
  engineVersion : JsString
  definitionsVersion : Option JsString
  signature : Option JsString
  failureCode : Option JsString
  deriving DecidableEq, Repr

/-! ## The service -/

/-- `ArtifactSafetyPolicy`, as the constructor of the service checks it. -/
structure SafetyPolicy where
  maxArtifactBytes : Nat
  malwareScanMaxAgeMs : Nat
  bytesBound : 1 ≤ maxArtifactBytes ∧ maxArtifactBytes ≤ 1024 * 1024 * 1024
  ageBound : 1 ≤ malwareScanMaxAgeMs ∧ malwareScanMaxAgeMs ≤ 7 * 24 * 60 * 60 * 1000

/-- What a service is built from. `digest` is `sha256` of the bytes, in
hexadecimal digits. -/
structure AcceptanceService (platform : Platform) (E : Type) where
  objectReader : ArtifactObjectReader E
  inspector : ContentInspector platform
  scanner : List UInt8 → JsString → Except SafetyFailure MalwareScanResult
  policy : SafetyPolicy
  objectReadTimeoutMs : SizeNumber
  digest : List UInt8 → Sha256
  hexadecimal (content : List UInt8) : isSha256Hex (digest content) = true

/-- How far an inspection came, with what it has in hand there. -/
inductive Finding (E : Type)
  | unread (error : ReadError E)
  | malformed (content : List UInt8) (failure : SafetyFailure)
  | altered (content : List UInt8) (structural : Structural)
  | unscanned (content : List UInt8) (structural : Structural) (failure : SafetyFailure)
  | scanned (content : List UInt8) (structural : Structural) (scan : MalwareScanResult)

section
variable {platform : Platform} {E : Type}

/-- The steps of `inspect` up to the way out that it takes. -/
def AcceptanceService.examine (service : AcceptanceService platform E) (inspection : Inspection) :
    Finding E :=
  match (readBoundedImmutableObject service.objectReader inspection.object
      ⟨.integer service.policy.maxArtifactBytes, service.objectReadTimeoutMs⟩).result with
  | .error error => .unread error
  | .ok content =>
      match service.inspector.inspect content inspection.originalFilename inspection.mediaType
          service.policy.maxArtifactBytes with
      | .error failure => .malformed content failure
      | .ok structural =>
          if service.digest content ≠ inspection.artifactSha256 then .altered content structural
          else match service.scanner content inspection.originalFilename with
            | .error failure => .unscanned content structural failure
            | .ok scan => .scanned content structural scan

/-- A code of the pattern `SAFE_FAILURE_CODE_PATTERN`, or the one given for all others. -/
def safeCode (code : Option JsString) (fallback : JsString) : JsString :=
  (code.filter isCodeText).getD fallback

def ReadError.code? : ReadError E → Option JsString
  | .store code _ _ => some code
  | .caused code _ _ _ => some code
  | .foreign _ => none

def SafetyFailure.code? : SafetyFailure → Option JsString
  | .safety code => some code
  | .other => none

/-- `safeOptionalText`, with the signature that stands in for none. -/
def storedSignature (signature : Option JsString) : JsString :=
  (signature.filter isSafeText).getD (js "clamav-detection")

/-- An outcome that is neither clean nor infected and has nothing of the bytes. -/
def bareOutcome (verdict : Verdict) (engine engineVersion failureCode : JsString)
    (inspectedAt : Time) : InspectionOutcome where
  verdict
  contentSha256 := none
  byteLength := none
  detectedMediaType := none
  structuralSignature := none
  inspectedAt := some inspectedAt
  scannerEngine := engine
  scannerEngineVersion := engineVersion
  scannerDefinitionsVersion := none
  malwareSignature := none
  failureCode := some failureCode
  acceptedUntil := none

/-- The same of bytes with a digest and a length. -/
def InspectionOutcome.ofContent (outcome : InspectionOutcome) (digest : Sha256)
    (content : List UInt8) : InspectionOutcome :=
  { outcome with contentSha256 := some digest, byteLength := some content.length }

/-- The same of bytes whose structure is known. -/
def InspectionOutcome.ofStructure (outcome : InspectionOutcome) (structural : Structural) :
    InspectionOutcome :=
  { outcome with
    detectedMediaType := some structural.detectedMediaType
    structuralSignature := some structural.signature }

/-- The definitions version of a scan, where it is given and not empty. -/
def MalwareScanResult.definitions? (scan : MalwareScanResult) : Option JsString :=
  scan.definitionsVersion.filter fun version => version ≠ [] && isSafeComponent version

/-- A clean scan by known components. -/
def MalwareScanResult.provesClean (scan : MalwareScanResult) : Bool :=
  scan.verdict == .clean && scan.definitions?.isSome && isSafeComponent scan.engine &&
    isSafeComponent scan.engineVersion

/-- The outcome of a scan. -/
def scanOutcome (scan : MalwareScanResult) (inspectedAt : Time) (maxAgeMs : Nat) :
    InspectionOutcome :=
  if scan.provesClean then
    { bareOutcome .clean scan.engine scan.engineVersion [] inspectedAt with
      scannerDefinitionsVersion := scan.definitions?
      failureCode := none
      acceptedUntil := some (some (inspectedAt + maxAgeMs)) }
  else if scan.verdict = .infected then
    -- engine, engine version and definitions version go into the outcome as they came
    { bareOutcome .infected scan.engine scan.engineVersion (js "malware_detected") inspectedAt with
      scannerDefinitionsVersion := some (scan.definitionsVersion.getD (js "unavailable"))
      malwareSignature := some (storedSignature scan.signature) }
  else
    { bareOutcome .error
        (if isSafeComponent scan.engine then scan.engine else js "scanner_adapter")
        (if isSafeComponent scan.engineVersion then scan.engineVersion else js "unavailable")
        (if scan.verdict = .clean then js "malware_definitions_unavailable"
          else safeCode scan.failureCode (js "malware_scan_error")) inspectedAt with
      scannerDefinitionsVersion := scan.definitions? }

/-- The outcome of each way out of `inspect`. -/
def Finding.outcome (digest : List UInt8 → Sha256) (maxAgeMs : Nat) (inspectedAt : Time) :
    Finding E → InspectionOutcome
  | .unread error => bareOutcome .error (js "object_store") (js "unavailable")
      (safeCode error.code? (js "artifact_object_read_failed")) inspectedAt
  | .malformed content failure => (bareOutcome .rejected (js "not_run") (js "not_available")
      (safeCode failure.code? (js "artifact_structural_verification_failed"))
      inspectedAt).ofContent (digest content) content
  | .altered content structural => ((bareOutcome .rejected (js "not_run") (js "not_available")
      (js "artifact_content_hash_mismatch") inspectedAt).ofContent (digest content)
      content).ofStructure structural
  | .unscanned content structural failure => ((bareOutcome .error (js "scanner_adapter")
      (js "unavailable") (safeCode failure.code? (js "malware_scan_error"))
      inspectedAt).ofContent (digest content) content).ofStructure structural
  | .scanned content structural scan => ((scanOutcome scan inspectedAt maxAgeMs).ofContent
      (digest content) content).ofStructure structural

/-- The outcome that `inspect` hands to `completeInspection`. -/
def AcceptanceService.outcome (service : AcceptanceService platform E) (inspection : Inspection)
    (inspectedAt : Time) : InspectionOutcome :=
  (service.examine inspection).outcome service.digest service.policy.malwareScanMaxAgeMs inspectedAt

end

end Ingestion
