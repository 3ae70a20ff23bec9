import MuniRag.Ingestion.Inspecting
import MuniRag.Lib.FileSystem
import MuniRag.Lib.PosixPath
import MuniRag.Lib.Replacing
import MuniRag.Library.Inventory

/-!
# Operations of the document library

What the operations of `documentLibraryOperations.ts` share: the paths of managed artifacts,
the inventory file, which is written beside itself and then renamed, the move of an artifact
that replaces nothing, and the result of a call that failed.

A disk holds regular files and directories; symbolic and hard links are left out.  Each
file-system step of a call has a name, and one of them may fail.  The parser and the printer
of the inventory file, the digest and the signature tests are parameters.
-/

namespace DocumentLibrary

open Api FileSystem PosixPath Fallible Replacing
open Ingestion (ContentProbe)

/-! ## Errors and results -/

/-- What is thrown: an `ArtifactSafetyError`, an `IngestionError`, an error of the file system
or another one. -/
inductive Thrown
  | safety (code message : JsString)
  | ingestion (code message : JsString)
  | system (errno : Errno)
  | plain (message : JsString)
  deriving DecidableEq, Repr

/-- The code with which the message of Node starts. -/
def errnoText : Errno → JsString
  | .noEntry => js "ENOENT"
  | .alreadyExists => js "EEXIST"
  | .isDirectory => js "EISDIR"
  | .notDirectory => js "ENOTDIR"
  | .notPermitted => js "EPERM"
  | .crossDevice => js "EXDEV"
  | .other => js "EIO"

def Thrown.message : Thrown → JsString
  | .safety _ message => message
  | .ingestion _ message => message
  | .system errno => errnoText errno
  | .plain message => message

inductive OperationName
  | importing | inspecting | ingesting
  deriving DecidableEq, Repr

def OperationName.text : OperationName → JsString
  | .importing => js "import"
  | .inspecting => js "inspect"
  | .ingesting => js "ingest"

/-- `DocumentLibraryOperationStatus`. -/
inductive OperationStatus
  | planned | imported | accepted | quarantined | ingested | noop | failed
  deriving DecidableEq, Repr

structure Failure where
  code : JsString
  message : JsString
  deriving DecidableEq, Repr

/-- `DocumentLibraryOperationResult`. -/
structure OperationResult where
  operation : OperationName
  status : OperationStatus
  sourceId : JsString
  documentKey : Option JsString
  documentVersion : Option JsString
  artifactPath : Option JsString
  contentSha256 : Option JsString
  sectionCount : ℚ
  chunkCount : ℚ
  artifactSafety : Option SafetyEvidence
  mutated : Bool
  failures : List Failure
  deriving DecidableEq, Repr

def emptyResult (operation : OperationName) (sourceId : JsString) (failures : List Failure) :
    OperationResult where
  operation := operation
  status := .failed
  sourceId := sourceId
  documentKey := none
  documentVersion := none
  artifactPath := none
  contentSha256 := none
  sectionCount := 0
  chunkCount := 0
  artifactSafety := none
  mutated := false
  failures := failures

/-- What follows a literal at the head of a text, whatever the case of its letters. -/
def afterLiteral (literal text : JsString) : Option JsString :=
  if (text.take literal.length).map lowerUnit = literal then some (text.drop literal.length)
  else none

/-- The match of a head and then of one unit or more that are no white space. -/
def redacted (replacement : JsString) (text afterHead : JsString) : Option (JsString × Nat) :=
  match afterHead.takeWhile fun u => !isWhitespace u with
  | [] => none
  | _ :: more => some (replacement, text.length - afterHead.length + more.length)

/-- `/postgres(?:ql)?:\/\/\S+/gi`. -/
def connectionRule : Rule UInt16 := fun text => do
  let rest ← afterLiteral (js "postgres") text
  let rest ← afterLiteral (js "://") ((afterLiteral (js "ql") rest).getD rest)
  redacted (js "[redacted]") text rest

/-- `/Bearer\s+\S+/gi`. -/
def bearerRule : Rule UInt16 := fun text => do
  let rest ← afterLiteral (js "bearer") text
  if rest.head?.any isWhitespace then
    redacted (js "Bearer [redacted]") text (rest.dropWhile isWhitespace)
  else none

/-- `/(?:api[_-]?key|token|password|secret)=\S+/gi`. -/
def secretRule : Rule UInt16 := fun text => do
  let rest ← [js "api_key", js "api-key", js "apikey", js "token", js "password",
    js "secret"].findSome? (afterLiteral · text)
  let rest ← afterLiteral (js "=") rest
  redacted (js "[redacted]") text rest

def sanitizeFailureMessage (value : JsString) : JsString :=
  replaceAll secretRule (replaceAll bearerRule (replaceAll connectionRule value))

def failureResult (operation : OperationName) (sourceId : JsString) (error : Thrown) :
    OperationResult :=
  emptyResult operation sourceId [{
    code := match error with
      | .safety code _ => code
      | .ingestion code _ => code
      | _ => js "document_library_" ++ operation.text ++ js "_failed"
    message := sanitizeFailureMessage error.message }]

/-! ## The setting of a call -/

/-- The two ways of a move: forward, and back when a call fails. -/
inductive Way
  | forward | back
  deriving DecidableEq, Repr

/-- The file-system steps of the operations.  No call takes a step twice. -/
inductive Step
  | readInventory | statInput | readInput | makeDirectory | statStaging | writeStaging
  | readStaging | link (way : Way) | unlinkSource (way : Way) | unlinkTarget (way : Way)
  | makeInventoryDirectory | writeTemporary | renameTemporary | cleanStaging | cleanArtifact
  | statManaged | resolveRoot | resolveArtifact | statArtifact | readArtifact | readAgain
  | statBeforeIngest | getManifest | putManifest | listManifest
  deriving DecidableEq, Repr

structure Policy where
  maxArtifactBytes : Nat
  malwareScanMaxAgeMs : Nat
  deriving DecidableEq, Repr

/-- What a call runs in.  `parse` and `print` read and write the inventory file, and `now`
gives the time of the first, the second and each later moment that a call asks for. -/
structure Setting where
  texts : Texts
  cwd : Path
  digest : List UInt8 → JsString
  probe : ContentProbe
  parse : List UInt8 → Except Thrown InventoryManifest
  print : InventoryManifest → List UInt8
  now : Nat → JsString
  policy : Policy
  failing : Option (Fault Step)
  cwdProper : ∀ segment ∈ cwd, Proper segment
  hexadecimal : ∀ content, Ingestion.isSha256Hex (digest content) = true
  nowShown : ∀ moment, isShown (now moment) = true

/-- The disk, and the paths that a call remembers for its clean-up. -/
structure World where
  disk : Disk JsString
  stagedArtifactPath : Option Path
  createdArtifactPath : Option Path
  moved : Option (Path × Path)

def World.start (disk : Disk JsString) : World := ⟨disk, none, none, none⟩

/-- The world with another disk. -/
def World.on (world : World) (disk : Disk JsString) : World := { world with disk := disk }

section Steps

variable (setting : Setting) {α : Type}

def perform (step : Step) (spoil : List UInt8 → Disk JsString → Disk JsString)
    (operation : FileSystem.Operation JsString α) : Fallible Thrown World α := fun world =>
  match attempt setting.failing step spoil operation world.disk with
  | (.ok a, disk) => (.ok a, world.on disk)
  | (.error errno, disk) => (.error (.system errno), world.on disk)

def readFile (step : Step) (path : Path) : Fallible Thrown World (List UInt8) :=
  perform setting step noSpoil (read path)

def lstat (step : Step) (path : Path) : Fallible Thrown World Entry :=
  perform setting step noSpoil (stat path)

def mkdir (step : Step) (path : Path) : Fallible Thrown World Unit :=
  perform setting step noSpoil (FileSystem.makeDirectory path)

def unlinkFile (step : Step) (path : Path) : Fallible Thrown World Unit :=
  perform setting step noSpoil (unlink path)

/-! ## Paths of artifacts -/

/-- A unit that `cleanSegment` keeps. -/
def isSegmentUnit (u : UInt16) : Bool :=
  isLowerLetter u || isUpperLetter u || isDecimalDigit u || u == 0x2e || u == 0x5f || u == 0x2d

/-- Each run of other units becomes one dash. -/
def dashOthers : Bool → JsString → JsString
  | _, [] => []
  | afterDash, u :: rest =>
      if isSegmentUnit u then u :: dashOthers false rest
      else if afterDash then dashOthers true rest else 0x2d :: dashOthers true rest

def cleanSegment (value : JsString) : Except Thrown JsString :=
  let cleaned := (((dashOthers false (trim value)).dropWhile (· == 0x2d)).reverse.dropWhile
    (· == 0x2d)).reverse
  if cleaned = [] then .error (.plain (js "Path segment is empty after sanitization."))
  else .ok cleaned

/-- `resolve(root, segment, fileName)`. -/
def resolveWithin (root : Path) (segment fileName : JsString) : Path :=
  resolve (resolve root segment) fileName

def boundedArtifactPath (libraryRoot sourceId documentVersion inputPath : JsString) :
    Except Thrown Path := do
  let root := resolve setting.cwd libraryRoot
  if root = [] then
    throw (.plain (js "Filesystem root cannot be used as the document library root."))
  let source ← cleanSegment sourceId
  let version ← cleanSegment documentVersion
  let fileName := source ++ js "--" ++ version ++ setting.probe.extension inputPath
  let target := resolveWithin root source fileName
  if isWithin root target then return target
  else throw (.plain (js "Artifact path escapes the configured library root."))

/-- The text of a path in the inventory: absolute where the root is. -/
def manifestArtifactPath (root : JsString) (path : Path) : JsString :=
  if isAbsolute root then absoluteText path else relativeText setting.cwd path

/-! ## The inventory file -/

/-- The codes of some failures, in a message. -/
def codesText (failures : List ValidationFailure) : JsString :=
  (js ", ").intercalate (failures.map (·.code))

def readInventory (inventoryPath : Path) : Fallible Thrown World InventoryManifest := do
  let content ← readFile setting .readInventory inventoryPath
  let manifest ← Fallible.lift (setting.parse content)
  let failures := validateSourceInventory setting.texts manifest.records
  if failures = [] then return manifest
  else Fallible.fail (.plain (js "Source inventory is invalid: " ++ codesText failures ++ js "."))

def temporaryPath (inventoryPath : Path) : Path := withSuffix inventoryPath (js ".tmp")

def writeInventory (inventoryPath : Path) (manifest : InventoryManifest) :
    Fallible Thrown World Unit := do
  mkdir setting .makeInventoryDirectory (parent inventoryPath)
  perform setting .writeTemporary (spoilFile (temporaryPath inventoryPath))
    (write (temporaryPath inventoryPath) (setting.print manifest))
  perform setting .renameTemporary noSpoil (rename (temporaryPath inventoryPath) inventoryPath)

def replaceRecord (manifest : InventoryManifest) (updated : SourceRecord) (generatedAt : JsString) :
    InventoryManifest :=
  { manifest with generatedAt := generatedAt, records := replaced manifest.records updated }

def findRecord (manifest : InventoryManifest) (sourceId : JsString) : Except Thrown SourceRecord :=
  match manifest.records.find? (·.sourceId = sourceId) with
  | some record => .ok record
  | none => .error (.plain (js "Unknown source inventory id: " ++ sourceId ++ js "."))

/-- The check of an updated inventory before it is written. -/
def checkUpdated (manifest : InventoryManifest) : Except Thrown Unit :=
  let failures := validateSourceInventory setting.texts manifest.records
  if failures = [] then .ok ()
  else .error (.plain (js "Updated inventory is invalid: " ++ codesText failures ++ js "."))

/-! ## Moving an artifact -/

def linkFailure : Thrown → Thrown
  | .system .alreadyExists => .plain (js "Managed artifact destination already exists.")
  | .system .crossDevice => .safety (js "artifact_roots_cross_device")
      (js "Managed artifact roots must share a filesystem for no-replace moves.")
  | error => error

def moveArtifactNoReplace (way : Way) (source target : Path) : Fallible Thrown World Unit := do
  Fallible.recover (perform setting (.link way) noSpoil (FileSystem.link source target))
    fun error => Fallible.fail (linkFailure error)
  Fallible.recover (unlinkFile setting (.unlinkSource way) source) fun error => do
    Fallible.recover (unlinkFile setting (.unlinkTarget way) target) fun _ => pure ()
    Fallible.fail error

/-! ## Inspecting contents -/

def assertArtifactByteLength (byteLength maxArtifactBytes : Nat) : Except Thrown Unit :=
  if byteLength = 0 then
    .error (.safety (js "artifact_empty") (js "Artifact must contain at least one byte."))
  else if maxArtifactBytes < byteLength then
    .error (.safety (js "artifact_size_exceeded")
      (js "Artifact exceeds the configured " ++ numberText maxArtifactBytes ++ js "-byte limit."))
  else .ok ()

/-- `ArtifactStructuralInspection`; its text encoding is not used. -/
structure Structural where
  byteLength : Nat
  declaredMediaType : JsString
  detectedMediaType : JsString
  signature : JsString
  deriving DecidableEq, Repr

/-- The media type without its parameters. -/
def normalizeMediaType (value : JsString) : JsString :=
  setting.texts.platform.toLowerCase (trim (value.takeWhile (· != 0x3b)))

def inspectArtifactContent (content : List UInt8) (sourcePath declared : JsString) :
    Except Thrown Structural := do
  assertArtifactByteLength content.length setting.policy.maxArtifactBytes
  let extension := setting.probe.extension sourcePath
  match Ingestion.mediaTypeByExtension.lookup extension with
  | none => throw (.safety (js "artifact_extension_unsupported") (js "Artifact extension " ++
      (if extension = [] then js "(none)" else extension) ++ js " is not supported."))
  | some expected =>
      let declaredMediaType := normalizeMediaType setting declared
      if declaredMediaType = [] then
        throw (.safety (js "artifact_media_type_missing")
          (js "A declared artifact media type is required."))
      else if declaredMediaType ≠ expected then
        throw (.safety (js "artifact_declared_media_type_mismatch")
          (js "Declared media type does not match the artifact extension."))
      else match setting.probe.detect content extension with
        | none => throw (.safety (js "artifact_signature_unrecognized")
            (js "Artifact bytes do not match a supported file signature."))
        | some detected =>
            if detected.detectedMediaType ≠ expected then
              throw (.safety (js "artifact_signature_mismatch") (js ("Detected artifact " ++
                "signature does not match the extension and declared media type.")))
            else return ⟨content.length, declaredMediaType, detected.detectedMediaType,
              detected.signature⟩

end Steps

end DocumentLibrary
