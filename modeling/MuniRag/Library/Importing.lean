import MuniRag.Library.Operations

/-!
# Importing an artifact

`importLocalArtifact`: the input is read and inspected, copied beside its destination, linked
to it without replacing anything, and the record of the source gets its digest and length.
Where a step fails, the paths that the call remembers are removed.
-/

namespace DocumentLibrary

open Api FileSystem PosixPath Fallible

/-- `ImportLocalArtifactInput`; the path of the inventory is a resolved one. -/
structure ImportInput where
  inventoryPath : Path
  sourceId : JsString
  inputPath : JsString
  libraryRoot : JsString
  documentVersion : JsString
  mediaType : JsString
  dryRun : Bool
  deriving DecidableEq, Repr

/-- What is known of an import before anything is written. -/
structure Prepared where
  manifest : InventoryManifest
  record : SourceRecord
  content : List UInt8
  structural : Structural
  target : Path
  artifactPath : JsString
  deriving DecidableEq, Repr

section Import

variable (setting : Setting) (input : ImportInput)

/-- The record that is to be imported for. -/
def importableRecord (manifest : InventoryManifest) : Except Thrown SourceRecord := do
  let record ← findRecord manifest input.sourceId
  if record.status ∈ [.missingSource, .ingested, .superseded] then
    throw (.plain (js "Source " ++ record.sourceId ++ js " cannot be imported from status " ++
      record.status.text ++ js "."))
  if record.documentVersion ≠ input.documentVersion then
    throw (.plain (js "Declared document version does not match the inventory record."))
  if !isShown input.mediaType then
    throw (.safety (js "artifact_media_type_missing")
      (js "A declared artifact media type is required."))
  return record

/-- The bytes of the input, a regular file within the limits. -/
def readInput : Fallible Thrown World (List UInt8) := do
  let inputPath := resolve setting.cwd input.inputPath
  match ← lstat setting .statInput inputPath with
  | .directory => Fallible.fail (.safety (js "artifact_not_regular_file")
      (js "Artifact input must be a regular file."))
  | .file metadata =>
      Fallible.lift (assertArtifactByteLength metadata.length setting.policy.maxArtifactBytes)
      let content ← readFile setting .readInput inputPath
      if content.length ≠ metadata.length then
        Fallible.fail (.safety (js "artifact_changed_during_import")
          (js "Artifact size changed while import bytes were being read."))
      else return content

/-- The result of an import that changes nothing. -/
def unchangedImport (record : SourceRecord) (status : OperationStatus)
    (artifactPath contentSha256 : JsString) : OperationResult where
  operation := .importing
  status := status
  sourceId := record.sourceId
  documentKey := some record.documentKey
  documentVersion := some record.documentVersion
  artifactPath := some artifactPath
  contentSha256 := some contentSha256
  sectionCount := 0
  chunkCount := 0
  artifactSafety := none
  mutated := false
  failures := []

/-- The call up to its first change: the result of an import that changes nothing, or what is
to be imported. -/
def prepareImport : Fallible Thrown World (OperationResult ⊕ Prepared) := do
  let manifest ← readInventory setting input.inventoryPath
  let record ← Fallible.lift (importableRecord input manifest)
  let content ← readInput setting input
  let structural ← Fallible.lift
    (inspectArtifactContent setting content input.inputPath input.mediaType)
  let contentSha256 := setting.digest content
  let target ← Fallible.lift (boundedArtifactPath setting input.libraryRoot record.sourceId
    record.documentVersion input.inputPath)
  let artifactPath := manifestArtifactPath setting input.libraryRoot target
  match record.acquisition with
  | some acquisition =>
      if acquisition.contentSha256 ≠ contentSha256 then
        Fallible.fail
          (.plain (js "A different hash is already registered for this source and version."))
      else return .inl { unchangedImport record .noop acquisition.artifactPath contentSha256 with
        sectionCount := (record.extraction.map (·.sectionCount)).getD 0
        chunkCount := (record.indexing.map (·.chunkCount)).getD 0
        artifactSafety := record.artifactSafety }
  | none =>
      if input.dryRun then
        return .inl (unchangedImport record .planned artifactPath contentSha256)
      else return .inr ⟨manifest, record, content, structural, target, artifactPath⟩

def ensureDestinationAbsent (path : Path) : Fallible Thrown World Unit :=
  Fallible.recover (do
    let _ ← lstat setting .statStaging path
    Fallible.fail (.plain (js "Managed artifact destination already exists.")))
    fun error => if error = .system .noEntry then pure () else Fallible.fail error

def stagingPath (target : Path) : Path := withSuffix target (js ".importing")

/-- The copy beside the destination. -/
def stageArtifact (prepared : Prepared) : Fallible Thrown World Unit := do
  let staging := stagingPath prepared.target
  ensureDestinationAbsent setting staging
  perform setting .writeStaging (spoilNew staging) (writeNew staging prepared.content)
  let copied ← readFile setting .readStaging staging
  if setting.digest copied ≠ setting.digest prepared.content then
    Fallible.fail (.plain (js "Copied artifact hash verification failed."))
  else pure ()

/-- The record of the source after its import. -/
def importedRecord (prepared : Prepared) : SourceRecord :=
  { prepared.record with
    status := .acquired
    acquisition := some {
      acquiredAt := setting.now 0
      artifactPath := prepared.artifactPath
      contentSha256 := setting.digest prepared.content
      mediaType := some prepared.structural.declaredMediaType
      byteLength := some prepared.content.length }
    artifactSafety := none
    extraction := none
    indexing := none
    failureCodes := none }

def importedManifest (prepared : Prepared) : InventoryManifest :=
  replaceRecord prepared.manifest (importedRecord setting prepared) (setting.now 1)

/-- The call after the artifact got to its destination. -/
def recordImport (prepared : Prepared) : Fallible Thrown World OperationResult := do
  Fallible.modify fun world =>
    { world with stagedArtifactPath := none, createdArtifactPath := some prepared.target }
  Fallible.lift (checkUpdated setting (importedManifest setting prepared))
  writeInventory setting input.inventoryPath (importedManifest setting prepared)
  Fallible.modify fun world => { world with createdArtifactPath := none }
  let updated := importedRecord setting prepared
  return { unchangedImport updated .imported prepared.artifactPath
      (setting.digest prepared.content) with mutated := true }

/-- The changes of the call, with the paths it remembers on the way. -/
def publishImport (prepared : Prepared) : Fallible Thrown World OperationResult := do
  mkdir setting .makeDirectory (parent prepared.target)
  Fallible.modify fun world =>
    { world with stagedArtifactPath := some (stagingPath prepared.target) }
  stageArtifact setting prepared
  moveArtifactNoReplace setting .forward (stagingPath prepared.target) prepared.target
  recordImport setting input prepared

/-- Removing a remembered path, whether that succeeds or not. -/
def cleanPath (step : Step) : Option Path → Fallible Thrown World Unit
  | none => pure ()
  | some path => Fallible.recover (unlinkFile setting step path) fun _ => pure ()

def cleanUpImport : Fallible Thrown World Unit := do
  let world ← Fallible.get
  cleanPath setting .cleanStaging world.stagedArtifactPath
  cleanPath setting .cleanArtifact world.createdArtifactPath

def importLocalArtifact : Fallible Thrown World OperationResult :=
  Fallible.recover (do
    match ← prepareImport setting input with
    | .inl result => return result
    | .inr prepared => publishImport setting input prepared)
    fun error => do
      cleanUpImport setting
      return failureResult .importing input.sourceId error

end Import

end DocumentLibrary
