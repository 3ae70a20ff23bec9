import MuniRag.Library.Operations

/-!
# Inspecting an artifact

`inspectLibraryArtifact`: the artifact of a record is looked up below the library or the
quarantine root, examined and scanned.  Where nothing is found, it goes (or stays) where it came
from and the record is acquired; otherwise it goes to the quarantine and the record fails.  A
call that fails after the move moves the artifact back.
-/

namespace DocumentLibrary

open Api FileSystem PosixPath Fallible
open Ingestion (MalwareScanResult)

/-- `InspectLibraryArtifactInput`; the path of the inventory is a resolved one. -/
structure InspectInput where
  inventoryPath : Path
  sourceId : JsString
  libraryRoot : JsString
  quarantineRoot : JsString
  dryRun : Bool
  deriving DecidableEq, Repr

inductive ManagedRoot
  | library | quarantine
  deriving DecidableEq, Repr

/-- What a configured scanner answers for the bytes of a file with this name, or throws. -/
abbrev Scanner := List UInt8 → Path → Except Thrown MalwareScanResult

/-- What an examination found. -/
structure Findings where
  size : Nat
  content : Option (List UInt8)
  observed : Option JsString
  structural : Option Structural
  scan : Option MalwareScanResult
  failureCodes : List JsString
  deriving DecidableEq, Repr

/-- The artifact of a record, where it is. -/
structure Managed where
  manifest : InventoryManifest
  record : SourceRecord
  acquisition : Acquisition
  mediaType : JsString
  path : Path
  root : ManagedRoot
  deriving DecidableEq, Repr

section Inspect

variable (setting : Setting) (scanner : Option Scanner) (input : InspectInput)

/-! ## The artifact -/

/-- The record that is to be inspected, with its acquisition and its media type. -/
def inspectableRecord (manifest : InventoryManifest) :
    Except Thrown (SourceRecord × Acquisition × JsString) := do
  let record ← findRecord manifest input.sourceId
  match record.acquisition with
  | none => throw (.plain (js "Source has no acquisition evidence."))
  | some acquisition =>
      if record.status ∉ [.acquired, .ingestionPending, .failed] then
        throw (.plain (js "Source " ++ record.sourceId ++ js " cannot be inspected from status " ++
          record.status.text ++ js "."))
      else match acquisition.mediaType with
        | none => throw (.safety (js "artifact_media_type_missing")
            (js "Acquisition evidence has no declared media type."))
        | some mediaType =>
            if !isShown mediaType then
              throw (.safety (js "artifact_media_type_missing")
                (js "Acquisition evidence has no declared media type."))
            else return (record, acquisition, mediaType)

def libraryRootPath : Path := resolve setting.cwd input.libraryRoot

def quarantineRootPath : Path := resolve setting.cwd input.quarantineRoot

def rootPath : ManagedRoot → Path
  | .library => libraryRootPath setting input
  | .quarantine => quarantineRootPath setting input

/-- The root below which the path is; the two must be apart. -/
def selectRoot (path : Path) : Except Thrown ManagedRoot :=
  let library := libraryRootPath setting input
  let quarantine := quarantineRootPath setting input
  if library = [] ∨ quarantine = [] then
    .error (.safety (js "artifact_root_too_broad")
      (js "Managed artifact roots cannot be filesystem roots."))
  else if isWithin library quarantine ∨ isWithin quarantine library then
    .error (.safety (js "artifact_roots_overlap")
      (js "Library and quarantine roots must be separate non-overlapping directories."))
  else if isWithin library path then .ok .library
  else if isWithin quarantine path then .ok .quarantine
  else .error (.plain
    (js "Artifact path is outside the configured library and quarantine roots."))

/-- `realpath`; there are no symbolic links. -/
def realpath (step : Step) (path : Path) : Fallible Thrown World Path := do
  let _ ← lstat setting step path
  return path

def resolveManagedArtifact (artifactPath : JsString) :
    Fallible Thrown World (Path × ManagedRoot) := do
  let path := resolve setting.cwd artifactPath
  let root ← Fallible.lift (selectRoot setting input path)
  match ← lstat setting .statManaged path with
  | .directory => Fallible.fail (.safety (js "artifact_not_regular_file")
      (js "Managed artifact must be a regular non-symlink file."))
  | .file _ =>
      let realRoot ← realpath setting .resolveRoot (rootPath setting input root)
      let realArtifact ← realpath setting .resolveArtifact path
      if !isWithin realRoot realArtifact then
        Fallible.fail (.plain (js "Artifact real path escapes its configured managed root."))
      else return (path, root)

/-- The artifact that is to be inspected. -/
def findArtifact : Fallible Thrown World Managed := do
  let manifest ← readInventory setting input.inventoryPath
  let (record, acquisition, mediaType) ← Fallible.lift (inspectableRecord input manifest)
  let (path, root) ← resolveManagedArtifact setting input acquisition.artifactPath
  return ⟨manifest, record, acquisition, mediaType, path, root⟩

/-! ## The examination -/

/-- The code of a failed safety check; other errors are thrown again. -/
def safetyCode {α : Type} : Except Thrown α → Except Thrown (List JsString × Option α)
  | .ok a => .ok ([], some a)
  | .error (.safety code _) => .ok ([code], none)
  | .error e => .error e

def scanCodes (scan : MalwareScanResult) : List JsString :=
  if scan.verdict = .clean then [] else [scan.failureCode.getD (js "malware_scan_error")]

/-- The scan of an artifact, and the codes it leads to. -/
def scanArtifact (content : List UInt8) (path : Path) : List JsString × MalwareScanResult :=
  match scanner with
  | none =>
      let scan : MalwareScanResult := ⟨.error, js "not_configured", js "not_available", none, none,
        some (js "malware_scanner_unconfigured")⟩
      (scanCodes scan, scan)
  | some scanner =>
      match scanner content path with
      | .ok scan => (scanCodes scan, scan)
      | .error e =>
          let scan : MalwareScanResult := ⟨.error, js "scanner_adapter", js "unavailable", none,
            none, some (js "malware_scan_error")⟩
          ((match e with
            | .safety code _ => [code]
            | _ => []) ++ scanCodes scan, scan)

/-- The size that the file system states. -/
def entrySize : Entry → Nat
  | .file content => content.length
  | .directory => 0

/-- The codes from the size of the artifact. -/
def sizeCodes (managed : Managed) (size : Nat) : Except Thrown (List JsString) := do
  let (codes, _) ← safetyCode (assertArtifactByteLength size setting.policy.maxArtifactBytes)
  return codes ++ if managed.acquisition.byteLength.any (· ≠ (size : ℚ)) then
    [js "artifact_acquisition_size_mismatch"] else []

/-- The structural inspection and the scan, where nothing was found before. -/
def inspectBytes (managed : Managed) (content : List UInt8) (codes : List JsString) :
    Except Thrown (List JsString × Option Structural × Option MalwareScanResult) := do
  if codes ≠ [] then return (codes, none, none)
  let (more, structural) ← safetyCode (inspectArtifactContent setting content
    managed.acquisition.artifactPath managed.mediaType)
  match structural with
  | none => return (more, none, none)
  | some structural =>
      let (more, scan) := scanArtifact scanner content managed.path
      return (more, some structural, some scan)

/-- The steps up to the way out that the call takes. -/
def examine (managed : Managed) : Fallible Thrown World Findings := do
  let entry ← lstat setting .statArtifact managed.path
  let size := entrySize entry
  let codes ← Fallible.lift (sizeCodes setting managed size)
  if 0 < size ∧ size ≤ setting.policy.maxArtifactBytes then
    let content ← readFile setting .readArtifact managed.path
    let observed := setting.digest content
    let codes := codes ++ if observed ≠ managed.acquisition.contentSha256 then
      [js "artifact_acquisition_hash_mismatch"] else []
    let (codes, structural, scan) ← Fallible.lift
      (inspectBytes setting scanner managed content codes)
    let again ← readFile setting .readAgain managed.path
    if setting.digest again ≠ observed ∨ again.length ≠ content.length then
      return ⟨size, some again, some (setting.digest again), structural, scan,
        codes ++ [js "artifact_changed_during_scan"]⟩
    else return ⟨size, some content, some observed, structural, scan, codes⟩
  else return ⟨size, none, none, none, none, codes⟩

/-! ## Evidence -/

def cleanSafetyEvidence (inspectedAt artifactPath contentSha256 : JsString)
    (structural : Structural) (scan : MalwareScanResult) : SafetyEvidence where
  inspectedAt := inspectedAt
  artifactPath := artifactPath
  contentSha256 := contentSha256
  byteLength := structural.byteLength
  observedContentSha256 := some contentSha256
  observedByteLength := structural.byteLength
  declaredMediaType := structural.declaredMediaType
  detectedMediaType := some structural.detectedMediaType
  signature := some structural.signature
  scannerEngine := scan.engine
  scannerVersion := scan.engineVersion
  scannerDefinitionsVersion := scan.definitionsVersion.filter (· ≠ [])
  malwareSignature := none
  verdict := .clean
  failureCodes := []
  quarantinePath := none
  originalArtifactPath := none

/-- The verdict of a rejection, by that of the scan. -/
def rejectedVerdict (scan : Option MalwareScanResult) : SafetyVerdict :=
  match scan with
  | some scan =>
      if scan.verdict = .infected then .infected
      else if scan.verdict = .error then .error else .rejected
  | none => .rejected

def rejectedSafetyEvidence (managed : Managed) (findings : Findings)
    (inspectedAt quarantinePath : JsString) (originalArtifactPath : Option JsString) :
    SafetyEvidence where
  inspectedAt := inspectedAt
  artifactPath := quarantinePath
  contentSha256 := managed.acquisition.contentSha256
  byteLength := managed.acquisition.byteLength.getD findings.size
  observedContentSha256 := findings.observed.filter (· ≠ [])
  observedByteLength := ((findings.content.map List.length).getD findings.size : Nat)
  declaredMediaType := (findings.structural.map (·.declaredMediaType)).getD
    (plainMediaType setting.texts managed.mediaType)
  detectedMediaType := findings.structural.map (·.detectedMediaType)
  signature := findings.structural.map (·.signature)
  scannerEngine := (findings.scan.map (·.engine)).getD (js "not_run")
  scannerVersion := (findings.scan.map (·.engineVersion)).getD (js "not_available")
  scannerDefinitionsVersion :=
    (findings.scan.bind (·.definitionsVersion)).filter (· ≠ [])
  malwareSignature := (findings.scan.bind (·.signature)).filter (· ≠ [])
  verdict := rejectedVerdict findings.scan
  failureCodes := findings.failureCodes
  quarantinePath := some quarantinePath |>.filter (· ≠ [])
  originalArtifactPath := originalArtifactPath.filter (· ≠ [])

def quarantineArtifactPath (record : SourceRecord) (artifactPath contentSha256 : JsString) :
    Except Thrown Path := do
  let root := quarantineRootPath setting input
  let source ← cleanSegment record.sourceId
  let version ← cleanSegment record.documentVersion
  let fileName := source ++ js "--" ++ version ++ js "--" ++ contentSha256.take 12 ++
    setting.probe.extension artifactPath
  let target := resolveWithin root source fileName
  if isWithin root target then return target
  else throw (.plain (js "Quarantine path escapes the configured root."))

def rejectionFailures (codes : List JsString) : List Failure :=
  codes.map fun code => ⟨code, if code = js "malware_detected" then
    js "Artifact was rejected by the configured malware scanner."
    else js "Artifact safety inspection failed closed."⟩

/-! ## The ways out -/

/-- A move that the call undoes where it fails after it. -/
def moveArtifact (source target : Path) : Fallible Thrown World Unit := do
  mkdir setting .makeDirectory (parent target)
  moveArtifactNoReplace setting .forward source target
  Fallible.modify fun world => { world with moved := some (source, target) }

/-- The write of the updated inventory, after which no move is undone. -/
def recordInspection (manifest : InventoryManifest) (updated : SourceRecord)
    (inspectedAt : JsString) : Fallible Thrown World Unit := do
  let updatedManifest := replaceRecord manifest updated inspectedAt
  Fallible.lift (checkUpdated setting updatedManifest)
  writeInventory setting input.inventoryPath updatedManifest
  Fallible.modify fun world => { world with moved := none }

def inspectionResult (record : SourceRecord) (status : OperationStatus)
    (artifactPath contentSha256 : JsString) (artifactSafety : SafetyEvidence) (mutated : Bool)
    (failures : List Failure) : OperationResult where
  operation := .inspecting
  status := status
  sourceId := record.sourceId
  documentKey := some record.documentKey
  documentVersion := some record.documentVersion
  artifactPath := some artifactPath
  contentSha256 := some contentSha256
  sectionCount := (record.extraction.map (·.sectionCount)).getD 0
  chunkCount := (record.indexing.map (·.chunkCount)).getD 0
  artifactSafety := some artifactSafety
  mutated := mutated
  failures := failures

/-- The path that an accepted artifact has in the end, with where it must be moved. -/
def acceptedPath (managed : Managed) : Except Thrown (JsString × Option Path) :=
  match managed.root with
  | .library => .ok (managed.acquisition.artifactPath, none)
  | .quarantine =>
      match (managed.record.artifactSafety.bind (·.originalArtifactPath)).filter (· ≠ []) with
      | none => .error
          (.plain (js "Quarantined artifact has no bounded original path for retry."))
      | some originalArtifactPath =>
          let resolvedOriginal := resolve setting.cwd originalArtifactPath
          if isWithin (libraryRootPath setting input) resolvedOriginal then
            .ok (originalArtifactPath, some resolvedOriginal)
          else .error
            (.plain (js "Quarantine retry destination escapes the configured library root."))

def acceptedRecord (managed : Managed) (content : List UInt8) (artifactPath : JsString)
    (artifactSafety : SafetyEvidence) : SourceRecord :=
  { managed.record with
    status := .acquired
    acquisition := some { managed.acquisition with
      artifactPath := artifactPath
      byteLength := some content.length }
    artifactSafety := some artifactSafety
    failureCodes := none }

def acceptArtifact (managed : Managed) (content : List UInt8) (observed : JsString)
    (structural : Structural) (scan : MalwareScanResult) : Fallible Thrown World OperationResult := do
  let inspectedAt := setting.now 0
  let (artifactPath, target) ← Fallible.lift (acceptedPath setting input managed)
  let artifactSafety := cleanSafetyEvidence inspectedAt artifactPath observed structural scan
  if input.dryRun then
    return inspectionResult managed.record .planned artifactPath observed artifactSafety false []
  match target with
  | none => pure ()
  | some target => moveArtifact setting managed.path target
  let updated := acceptedRecord managed content artifactPath artifactSafety
  recordInspection setting input managed.manifest updated inspectedAt
  return inspectionResult updated .accepted artifactPath observed artifactSafety true []

def rejectedRecord (managed : Managed) (findings : Findings) (quarantinePath : JsString)
    (artifactSafety : SafetyEvidence) : SourceRecord :=
  { managed.record with
    status := .failed
    acquisition := some { managed.acquisition with
      artifactPath := quarantinePath
      byteLength := some (managed.acquisition.byteLength.getD findings.size) }
    artifactSafety := some artifactSafety
    extraction := none
    indexing := none
    failureCodes := some findings.failureCodes }

def rejectArtifact (managed : Managed) (findings : Findings) :
    Fallible Thrown World OperationResult := do
  let inspectedAt := setting.now 0
  let originalArtifactPath := match managed.root with
    | .library => some managed.acquisition.artifactPath
    | .quarantine => managed.record.artifactSafety.bind (·.originalArtifactPath)
  let identityHash := findings.observed.getD managed.acquisition.contentSha256
  let target ← match managed.root with
    | .quarantine => pure managed.path
    | .library => Fallible.lift (quarantineArtifactPath setting input managed.record
        managed.acquisition.artifactPath identityHash)
  let quarantinePath := manifestArtifactPath setting input.quarantineRoot target
  let artifactSafety := rejectedSafetyEvidence setting managed findings inspectedAt quarantinePath
    originalArtifactPath
  let failures := rejectionFailures findings.failureCodes
  if input.dryRun then
    return inspectionResult managed.record .planned managed.acquisition.artifactPath identityHash
      artifactSafety false failures
  match managed.root with
  | .quarantine => pure ()
  | .library => moveArtifact setting managed.path target
  let updated := rejectedRecord managed findings quarantinePath artifactSafety
  recordInspection setting input managed.manifest updated inspectedAt
  return inspectionResult updated .quarantined quarantinePath identityHash artifactSafety true
    failures

/-- The inspection, by what was found. -/
def settleInspection (managed : Managed) (findings : Findings) :
    Fallible Thrown World OperationResult :=
  match findings.content, findings.observed, findings.structural, findings.scan with
  | some content, some observed, some structural, some scan =>
      if observed ≠ [] ∧ scan.verdict = .clean ∧ findings.failureCodes = [] then
        acceptArtifact setting input managed content observed structural scan
      else rejectArtifact setting input managed findings
  | _, _, _, _ => rejectArtifact setting input managed findings

/-- A move that is undone, whether that succeeds or not. -/
def moveBack : Fallible Thrown World Unit := do
  let world ← Fallible.get
  match world.moved with
  | none => pure ()
  | some (source, target) =>
      Fallible.recover (moveArtifactNoReplace setting .back target source) fun _ => pure ()

def inspectLibraryArtifact : Fallible Thrown World OperationResult :=
  Fallible.recover (do
    let managed ← findArtifact setting input
    let findings ← examine setting scanner managed
    settleInspection setting input managed findings)
    fun error => do
      moveBack setting
      return failureResult .inspecting input.sourceId error

end Inspect

end DocumentLibrary
