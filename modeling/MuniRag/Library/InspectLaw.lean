import MuniRag.Library.Examining
import MuniRag.Library.ImportLaw

/-!
# What an inspection leaves behind

After an inspection the stored record is to name the one copy of the artifact, evidence that says
clean is to come from a scan of these bytes, and a rejected artifact is to be in the quarantine.
A step that fails is undone.  The promise holds exactly where the temporary file of the inventory
is not the artifact and where the inventory takes the record of a rejected artifact
(`inspectHolds_iff`).
-/

namespace DocumentLibrary

open Api FileSystem PosixPath Fallible
open Ingestion (MalwareScanResult)

section Inspect

variable {setting : Setting} {scanner : Option Scanner} {input : InspectInput}
  {disk disk' : Disk JsString} {managed : Managed} {content : List UInt8} {findings : Findings}
  {settled : Settlement} {record record' : SourceRecord} {acquisition acquisition' : Acquisition}

/-! ## What a call promises -/

/-- The stored record of the source, with its acquisition. -/
structure Stored (setting : Setting) (input : InspectInput) (disk : Disk JsString)
    (record : SourceRecord) (acquisition : Acquisition) : Prop where
  inventory : ∃ bytes manifest, disk input.inventoryPath = some (.file bytes) ∧
    setting.parse bytes = .ok manifest ∧ Valid setting.texts manifest.records ∧
    findRecord manifest input.sourceId = .ok record
  acquired : record.acquisition = some acquisition

/-- The stored record, with the file that its acquisition names, which is not the inventory. -/
structure Recorded (setting : Setting) (input : InspectInput) (disk : Disk JsString)
    (record : SourceRecord) (acquisition : Acquisition) (content : List UInt8) : Prop
    extends Stored setting input disk record acquisition where
  content : disk (resolve setting.cwd acquisition.artifactPath) = some (.file content)
  apart : resolve setting.cwd acquisition.artifactPath ≠ input.inventoryPath

/-- The bytes have the acquired digest, pass the structural inspection and are scanned clean. -/
def ScannedClean (setting : Setting) (scanner : Option Scanner) (acquisition : Acquisition)
    (content : List UInt8) : Prop :=
  setting.digest content = acquisition.contentSha256 ∧
  (∃ mediaType structural, acquisition.mediaType = some mediaType ∧
    inspectArtifactContent setting content acquisition.artifactPath mediaType = .ok structural) ∧
  ∃ answer scan, scanner = some answer ∧
    answer content (resolve setting.cwd acquisition.artifactPath) = .ok scan ∧
    scan.verdict = .clean

/-- Nothing is in the way of a settlement. -/
structure Unobstructed (setting : Setting) (input : InspectInput) (disk : Disk JsString)
    (managed : Managed) (content : List UInt8) (settled : Settlement) : Prop where
  target : ∀ target, settled.target = some target →
    ¬ Blocked disk (parent target) ∧ disk target = none
  temporary : Valid setting.texts (updatedManifest setting managed settled).records →
    movedDisk disk managed.path content settled.target (temporaryPath input.inventoryPath) ≠
      some .directory

/-- A failure code is found of the artifact, and no step fails. -/
structure Rejects (setting : Setting) (scanner : Option Scanner) (input : InspectInput)
    (disk : Disk JsString) (managed : Managed) (content : List UInt8) (findings : Findings) :
    Prop where
  wet : input.dryRun = false
  steps : setting.failing = none
  inspectable : Inspectable setting input disk managed content
  examined : examination setting scanner managed content = .ok findings
  found : findings.failureCodes ≠ []
  unobstructed : ∀ settled, rejection setting input managed findings = .ok settled →
    Unobstructed setting input disk managed content settled

/-- What a call leaves of the record and its artifact. -/
structure InspectedAs (setting : Setting) (scanner : Option Scanner) (input : InspectInput)
    (disk disk' : Disk JsString) (record : SourceRecord) (acquisition : Acquisition)
    (content : List UInt8) (record' : SourceRecord) (acquisition' : Acquisition) : Prop where
  recorded : Recorded setting input disk' record' acquisition' content
  onlyCopy : ∀ path, path ≠ resolve setting.cwd acquisition'.artifactPath →
    path ≠ input.inventoryPath → path ≠ temporaryPath input.inventoryPath →
    fileAt disk' path =
      if path = resolve setting.cwd acquisition.artifactPath then none else fileAt disk path
  clean : ∀ evidence, record'.artifactSafety = some evidence → evidence.verdict = .clean →
    record'.artifactSafety = record.artifactSafety ∨
      ScannedClean setting scanner acquisition content
  quarantined : ∀ managed findings,
    Rejects setting scanner input disk managed content findings → record'.status = .failed ∧
      isWithin (quarantineRootPath setting input)
        (resolve setting.cwd acquisition'.artifactPath) = true

/-- What an inspection promises, for one call. -/
def InspectHolds (setting : Setting) (scanner : Option Scanner) (input : InspectInput)
    (disk : Disk JsString) : Prop :=
  ∀ record acquisition content, Recorded setting input disk record acquisition content →
    ∃ result world record' acquisition',
      inspectLibraryArtifact setting scanner input (World.start disk) = (.ok result, world) ∧
      InspectedAs setting scanner input disk world.disk record acquisition content record'
        acquisition'

/-! ## Where it holds -/

/-- The temporary file of the inventory is not the artifact. -/
structure TemporaryApart (setting : Setting) (input : InspectInput) (managed : Managed)
    (content : List UInt8) (settled : Settlement) : Prop where
  left : ∀ left, LeftBehind setting (updatedManifest setting managed settled) left →
    (temporaryPath input.inventoryPath = settled.place managed → left = content) ∧
    (settled.target ≠ none → temporaryPath input.inventoryPath ≠ managed.path)
  written : ¬ FailsAt setting.failing .writeTemporary →
    ¬ FailsAt setting.failing .renameTemporary →
    temporaryPath input.inventoryPath ≠ settled.place managed

/-- The settlement gets to the temporary file of the inventory. -/
structure Reached (setting : Setting) (input : InspectInput) (disk : Disk JsString)
    (managed : Managed) (content : List UInt8) (settled : Settlement) : Prop where
  move : ∀ target, settled.target = some target → CanMove setting disk target
  valid : Valid setting.texts (updatedManifest setting managed settled).records
  write : CanWrite setting input (movedDisk disk managed.path content settled.target)

/-- A path can be formed in the quarantine, and the artifact has already failed there or its
record is taken. -/
def Rejectable (setting : Setting) (scanner : Option Scanner) (input : InspectInput)
    (managed : Managed) (content : List UInt8) (findings : Findings) : Prop :=
  ∃ target, rejectionTarget setting input managed findings = .ok target ∧
    (managed.root = .quarantine ∧ managed.record.status = .failed ∨
      Recordable setting scanner input managed content target ∧
        OnlyVersion managed.manifest.records managed.record)

/-- Every inspection that gets to its first change is safe. -/
structure InspectSafe (setting : Setting) (scanner : Option Scanner) (input : InspectInput)
    (disk : Disk JsString) : Prop where
  temporary : input.dryRun = false → Findable setting.failing → ∀ managed content findings settled,
    Inspectable setting input disk managed content → managed.path ≠ input.inventoryPath →
    Examinable setting content → examination setting scanner managed content = .ok findings →
    settlement setting input managed findings = .ok settled →
    Reached setting input disk managed content settled →
    TemporaryApart setting input managed content settled
  rejected : ∀ managed content findings,
    Rejects setting scanner input disk managed content findings →
    managed.path ≠ input.inventoryPath →
    Rejectable setting scanner input managed content findings

/-! ## Settlements -/

theorem resolve_manifestArtifactPath {root : JsString} {path : Path}
    (h : ∀ segment ∈ path, Proper segment) :
    resolve setting.cwd (manifestArtifactPath setting root path) = path := by
  unfold manifestArtifactPath
  split_ifs
  · exact resolve_absoluteText h
  · exact resolve_relativeText h

theorem inspectableRecord_ok {manifest : InventoryManifest} {mediaType : JsString}
    (h : inspectableRecord input manifest = .ok (record, acquisition, mediaType)) :
    findRecord manifest input.sourceId = .ok record ∧ record.acquisition = some acquisition ∧
      acquisition.mediaType = some mediaType ∧
      record.status ∈ [.acquired, .ingestionPending, .failed] := by
  unfold inspectableRecord at h
  cases hfound : findRecord manifest input.sourceId with
  | error e =>
      rw [hfound] at h
      cases h
  | ok found =>
      rw [hfound] at h
      simp only [bind, Except.bind] at h
      cases hacquisition : found.acquisition with
      | none =>
          simp only [hacquisition] at h
          cases h
      | some evidence =>
          simp only [hacquisition] at h
          split_ifs at h with hstatus
          cases hmedia : evidence.mediaType with
          | none =>
              simp only [hmedia] at h
              cases h
          | some declared =>
              simp only [hmedia] at h
              split_ifs at h
              cases h
              exact ⟨rfl, hacquisition, hmedia, hstatus⟩

theorem findRecord_ok {manifest : InventoryManifest} {sourceId : JsString}
    (h : findRecord manifest sourceId = .ok record) :
    record ∈ manifest.records ∧ record.sourceId = sourceId := by
  unfold findRecord at h
  cases hfound : manifest.records.find? (·.sourceId = sourceId) with
  | none =>
      rw [hfound] at h
      cases h
  | some found =>
      rw [hfound] at h
      cases h
      exact ⟨List.mem_of_find?_eq_some hfound, by simpa using List.find?_some hfound⟩

/-- The record that replaces another is found instead of it. -/
theorem findRecord_replaced {manifest : InventoryManifest} {updated : SourceRecord}
    {generatedAt : JsString} (hmem : record ∈ manifest.records)
    (hsource : updated.sourceId = record.sourceId) :
    findRecord (replaceRecord manifest updated generatedAt) record.sourceId = .ok updated := by
  have hall : ∀ records : List SourceRecord, (∃ other ∈ records, other.sourceId = record.sourceId) →
      (replaced records updated).find? (·.sourceId = record.sourceId) = some updated := by
    intro records
    induction records with
    | nil => simp
    | cons other records ih =>
        intro h
        rw [replaced, List.map_cons]
        by_cases hsame : other.sourceId = record.sourceId
        · rw [if_pos (hsame.trans hsource.symm), List.find?_cons_of_pos]
          exact decide_eq_true hsource
        · rw [if_neg fun h => hsame (h.trans hsource),
            List.find?_cons_of_neg (by simpa using hsame)]
          refine ih ?_
          obtain ⟨found, hfound, hsource'⟩ := h
          rcases List.mem_cons.mp hfound with rfl | hfound
          · exact absurd hsource' hsame
          · exact ⟨found, hfound, hsource'⟩
  unfold findRecord
  have hfound := hall manifest.records ⟨record, hmem, rfl⟩
  simp only [replaceRecord, hfound]

/-- The settled record is of the same version, and names where the artifact goes. -/
structure SettledAs (setting : Setting) (managed : Managed) (settled : Settlement) : Prop where
  source : settled.updated.sourceId = managed.record.sourceId
  version : settled.updated.documentVersion = managed.record.documentVersion
  acquisition : ∃ acquisition, settled.updated.acquisition = some acquisition ∧
    resolve setting.cwd acquisition.artifactPath = settled.place managed

theorem acceptance_settledAs {observed : JsString} {structural : Structural}
    {scan : MalwareScanResult}
    (hpath : managed.path = resolve setting.cwd managed.acquisition.artifactPath)
    (h : acceptance setting input managed content observed structural scan = .ok settled) :
    SettledAs setting managed settled := by
  unfold acceptance at h
  cases haccepted : acceptedPath setting input managed with
  | error e =>
      rw [haccepted] at h
      cases h
  | ok found =>
      obtain ⟨artifactPath, target⟩ := found
      rw [haccepted] at h
      cases h
      refine ⟨rfl, rfl, _, rfl, ?_⟩
      unfold Settlement.place
      unfold acceptedPath at haccepted
      split at haccepted
      · cases haccepted
        exact hpath.symm
      · split at haccepted
        · cases haccepted
        · simp only at haccepted
          split_ifs at haccepted
          cases haccepted
          rfl

theorem rejectionTarget_ok {target : Option Path}
    (hpath : managed.path = resolve setting.cwd managed.acquisition.artifactPath)
    (hroot : selectRoot setting input managed.path = .ok managed.root)
    (h : rejectionTarget setting input managed findings = .ok target) :
    isWithin (quarantineRootPath setting input) (target.getD managed.path) = true ∧
      ∀ segment ∈ target.getD managed.path, Proper segment := by
  unfold rejectionTarget at h
  split at h
  · rename_i hquarantine
    cases h
    rw [hquarantine] at hroot
    refine ⟨(selectRoot_ok hroot).1, ?_⟩
    rw [Option.getD_none, hpath]
    exact proper_resolve setting.cwdProper _
  · cases hformed : quarantineArtifactPath setting input managed.record
        managed.acquisition.artifactPath
        (findings.observed.getD managed.acquisition.contentSha256) with
    | error e =>
        rw [hformed] at h
        cases h
    | ok path =>
        rw [hformed] at h
        cases h
        rw [Option.getD_some]
        unfold quarantineArtifactPath at hformed
        simp only [bind, Except.bind] at hformed
        split at hformed
        · cases hformed
        · split at hformed
          · cases hformed
          · split_ifs at hformed with hwithin
            cases hformed
            exact ⟨hwithin, proper_resolve (proper_resolve
              (proper_resolve setting.cwdProper _) _) _⟩

theorem rejection_ok (h : rejection setting input managed findings = .ok settled) :
    ∃ target, rejectionTarget setting input managed findings = .ok target ∧
      settled.target = target ∧
      settled.updated = rejectedRecord managed findings
        (manifestArtifactPath setting input.quarantineRoot (target.getD managed.path))
        (rejectedSafetyEvidence setting managed findings (setting.now 0)
          (manifestArtifactPath setting input.quarantineRoot (target.getD managed.path))
          (originalPath managed)) := by
  unfold rejection at h
  cases htarget : rejectionTarget setting input managed findings with
  | error e =>
      rw [htarget] at h
      cases h
  | ok target =>
      rw [htarget] at h
      cases h
      exact ⟨target, rfl, rfl, rfl⟩

theorem rejection_settledAs
    (hpath : managed.path = resolve setting.cwd managed.acquisition.artifactPath)
    (hroot : selectRoot setting input managed.path = .ok managed.root)
    (h : rejection setting input managed findings = .ok settled) :
    SettledAs setting managed settled := by
  obtain ⟨target, htarget, rfl, hupdated⟩ := rejection_ok h
  have hproper := (rejectionTarget_ok hpath hroot htarget).2
  rw [← Settlement.place] at hproper
  refine ⟨by rw [hupdated]; rfl, by rw [hupdated]; rfl, ?_⟩
  rw [hupdated]
  exact ⟨_, rfl, resolve_manifestArtifactPath hproper⟩

theorem settlement_cases (h : settlement setting input managed findings = .ok settled) :
    rejection setting input managed findings = .ok settled ∨
      findings.failureCodes = [] ∧ ∃ content observed structural scan,
        findings.content = some content ∧ findings.structural = some structural ∧
        findings.scan = some scan ∧ scan.verdict = .clean ∧
        acceptance setting input managed content observed structural scan = .ok settled := by
  unfold settlement at h
  split at h
  · rename_i content observed structural scan hcontent hobserved hstructural hscan
    split_ifs at h with hclean
    · exact .inr ⟨hclean.2.2, content, observed, structural, scan, hcontent, hstructural, hscan,
        hclean.2.1, h⟩
    · exact .inl h
  · exact .inl h

theorem settlement_rejection (hcodes : findings.failureCodes ≠ []) :
    settlement setting input managed findings = rejection setting input managed findings := by
  unfold settlement
  split
  · exact if_neg fun h => hcodes h.2.2
  · rfl

theorem settlement_settledAs
    (hpath : managed.path = resolve setting.cwd managed.acquisition.artifactPath)
    (hroot : selectRoot setting input managed.path = .ok managed.root)
    (h : settlement setting input managed findings = .ok settled) :
    SettledAs setting managed settled := by
  rcases settlement_cases h with h | ⟨-, content, observed, structural, scan, -, -, -, -, h⟩
  · exact rejection_settledAs hpath hroot h
  · exact acceptance_settledAs hpath h

/-- **Clean evidence** is of bytes that were scanned clean. -/
theorem settlement_clean
    (hpath : managed.path = resolve setting.cwd managed.acquisition.artifactPath)
    (hmedia : managed.acquisition.mediaType = some managed.mediaType)
    (hexamined : examination setting scanner managed content = .ok findings)
    (h : settlement setting input managed findings = .ok settled) {evidence : SafetyEvidence}
    (hevidence : settled.updated.artifactSafety = some evidence)
    (hclean : evidence.verdict = .clean) :
    ScannedClean setting scanner managed.acquisition content := by
  rcases settlement_cases h with h | ⟨hcodes, _, _, structural, scan, -, -, hscan, hverdict, -⟩
  · obtain ⟨target, -, -, hupdated⟩ := rejection_ok h
    rw [hupdated] at hevidence
    cases hevidence
    simp only [rejectedSafetyEvidence, rejectedVerdict] at hclean
    split at hclean
    · split_ifs at hclean
    · cases hclean
  · by_cases hscannable : ∃ structural, Scannable setting managed content structural
    · obtain ⟨structural, hscannable⟩ := hscannable
      rw [examination_scannable hscannable] at hexamined
      obtain rfl := Except.ok.inj hexamined
      refine ⟨hscannable.digest, ⟨_, structural, hmedia, hscannable.structural⟩, ?_⟩
      obtain rfl := Option.some.inj hscan
      cases scanner with
      | none => cases hverdict
      | some answer =>
          cases hanswer : answer content managed.path with
          | error e =>
              rw [scanArtifact_error hanswer] at hverdict
              cases hverdict
          | ok scan =>
              rw [scanArtifact_ok hanswer] at hverdict
              exact ⟨answer, scan, rfl, hpath ▸ hanswer, hverdict⟩
    · obtain ⟨_, _, codes, hfound, -, -, hne, -⟩ := @examination_unscannable setting scanner managed
        content fun structural h => hscannable ⟨structural, h⟩
      rw [hfound] at hexamined
      obtain rfl := Except.ok.inj hexamined
      exact absurd hcodes hne

/-! ## The record after the call -/

theorem stored_unique {record₁ record₂ : SourceRecord} {acquisition₁ acquisition₂ : Acquisition}
    (h₁ : Stored setting input disk record₁ acquisition₁)
    (h₂ : Stored setting input disk' record₂ acquisition₂)
    (hsame : fileAt disk input.inventoryPath = fileAt disk' input.inventoryPath) :
    record₁ = record₂ ∧ acquisition₁ = acquisition₂ := by
  obtain ⟨bytes₁, manifest₁, hbytes₁, hparse₁, -, hfound₁⟩ := h₁.inventory
  obtain ⟨bytes₂, manifest₂, hbytes₂, hparse₂, -, hfound₂⟩ := h₂.inventory
  rw [fileAt_eq_some.mpr hbytes₁, fileAt_eq_some.mpr hbytes₂] at hsame
  obtain rfl := Option.some.inj hsame
  rw [hparse₁] at hparse₂
  obtain rfl := Except.ok.inj hparse₂
  rw [hfound₁] at hfound₂
  obtain rfl := Except.ok.inj hfound₂
  exact ⟨rfl, Option.some.inj (h₁.acquired.symm.trans h₂.acquired)⟩

theorem stored_of_inspectable (h : Inspectable setting input disk managed content) :
    Stored setting input disk managed.record managed.acquisition := by
  obtain ⟨bytes, hbytes, hparse⟩ := h.parsed
  obtain ⟨hfound, hacquired, -, -⟩ := inspectableRecord_ok h.record
  exact ⟨⟨bytes, managed.manifest, hbytes, hparse, h.valid, hfound⟩, hacquired⟩

theorem inspectable_unique {managed₁ managed₂ : Managed} {content₁ content₂ : List UInt8}
    (h₁ : Inspectable setting input disk managed₁ content₁)
    (h₂ : Inspectable setting input disk managed₂ content₂) :
    managed₁ = managed₂ ∧ content₁ = content₂ := by
  obtain ⟨manifest₁, record₁, acquisition₁, mediaType₁, path₁, root₁⟩ := managed₁
  obtain ⟨manifest₂, record₂, acquisition₂, mediaType₂, path₂, root₂⟩ := managed₂
  obtain ⟨⟨bytes₁, hbytes₁, hparse₁⟩, -, hrecord₁, hpath₁, hroot₁, hcontent₁⟩ := h₁
  obtain ⟨⟨bytes₂, hbytes₂, hparse₂⟩, -, hrecord₂, hpath₂, hroot₂, hcontent₂⟩ := h₂
  simp only at *
  rw [hbytes₁] at hbytes₂
  cases hbytes₂
  rw [hparse₁] at hparse₂
  cases hparse₂
  rw [hrecord₁] at hrecord₂
  cases hrecord₂
  subst hpath₁ hpath₂
  rw [hroot₁] at hroot₂
  cases hroot₂
  rw [hcontent₁] at hcontent₂
  cases hcontent₂
  exact ⟨rfl, rfl⟩

section Kept

variable (hrecorded : Recorded setting input disk record acquisition content)

include hrecorded

/-- A call that keeps the inventory must keep the artifact. -/
theorem inspected_kept_iff
    (hinventory : fileAt disk' input.inventoryPath = fileAt disk input.inventoryPath) :
    (∃ record' acquisition', InspectedAs setting scanner input disk disk' record acquisition content
      record' acquisition') ↔
    fileAt disk' (resolve setting.cwd acquisition.artifactPath) = some content ∧
      (∀ path, path ≠ resolve setting.cwd acquisition.artifactPath →
        path ≠ input.inventoryPath → path ≠ temporaryPath input.inventoryPath →
        fileAt disk' path = fileAt disk path) ∧
      ∀ managed findings, Rejects setting scanner input disk managed content findings →
        record.status = .failed ∧ isWithin (quarantineRootPath setting input)
          (resolve setting.cwd acquisition.artifactPath) = true := by
  constructor
  · rintro ⟨record', acquisition', h⟩
    obtain ⟨rfl, rfl⟩ := stored_unique h.recorded.toStored hrecorded.toStored hinventory
    refine ⟨fileAt_eq_some.mpr h.recorded.content, fun path hpath hne htemporary => ?_,
      h.quarantined⟩
    rw [h.onlyCopy path hpath hne htemporary, if_neg hpath]
  · rintro ⟨hcontent, hothers, hquarantined⟩
    obtain ⟨bytes, manifest, hbytes, hparse, hvalid, hfound⟩ := hrecorded.inventory
    refine ⟨record, acquisition, ⟨⟨⟨bytes, manifest, ?_, hparse, hvalid, hfound⟩,
      hrecorded.acquired⟩, fileAt_eq_some.mp hcontent, hrecorded.apart⟩,
      fun path hpath hne htemporary => ?_, fun evidence _ _ => .inl rfl, hquarantined⟩
    · rw [← fileAt_eq_some, hinventory, fileAt_eq_some]
      exact hbytes
    · rw [hothers path hpath hne htemporary, if_neg hpath]

/-- A call that keeps every file keeps its promise where a rejected artifact was one before. -/
theorem inspected_unchanged_iff (hfiles : ∀ path, fileAt disk' path = fileAt disk path) :
    (∃ record' acquisition', InspectedAs setting scanner input disk disk' record acquisition content
      record' acquisition') ↔
    ∀ managed findings, Rejects setting scanner input disk managed content findings →
      record.status = .failed ∧ isWithin (quarantineRootPath setting input)
        (resolve setting.cwd acquisition.artifactPath) = true := by
  rw [inspected_kept_iff hrecorded (hfiles _)]
  refine ⟨fun h => h.2.2, fun h => ⟨?_, fun path _ _ _ => hfiles path, h⟩⟩
  rw [hfiles, fileAt_eq_some]
  exact hrecorded.content

end Kept

/-- The artifact of a record is in the quarantine exactly where its root is that. -/
theorem isWithin_quarantine_iff {path : Path} {root : ManagedRoot}
    (h : selectRoot setting input path = .ok root) :
    isWithin (quarantineRootPath setting input) path = true ↔ root = .quarantine := by
  obtain ⟨hwithin, hover, hunder⟩ := selectRoot_ok h
  cases root with
  | quarantine => exact iff_of_true hwithin rfl
  | library =>
      refine iff_of_false (fun hquarantine => ?_) (by simp)
      rw [isWithin_iff] at hwithin hquarantine hover hunder
      rcases List.prefix_or_prefix_of_prefix hwithin hquarantine with h | h
      · exact hover h
      · exact hunder h

/-- The updated inventory is valid exactly where the record of the rejected artifact is taken. -/
theorem valid_rejection_iff (hinspectable : Inspectable setting input disk managed content)
    (hexamined : examination setting scanner managed content = .ok findings)
    (hcodes : findings.failureCodes ≠ [])
    (h : rejection setting input managed findings = .ok settled) :
    Valid setting.texts (updatedManifest setting managed settled).records ↔
      Recordable setting scanner input managed content settled.target ∧
        OnlyVersion managed.manifest.records managed.record := by
  obtain ⟨target, -, htarget, hupdated⟩ := rejection_ok h
  have hfound := (inspectableRecord_ok hinspectable.record).1
  have hmem := (findRecord_ok hfound).1
  have hvalid := (valid_iff.mp hinspectable.valid).1 managed.record hmem
  rw [updatedManifest, replaceRecord, valid_replaced_iff hinspectable.valid hmem
    (by rw [hupdated]; rfl) (by rw [hupdated]; rfl), hupdated,
    valid_rejectedRecord_iff hvalid hexamined hcodes, htarget]

/-- A rejected artifact whose record is not written. -/
theorem rejects_kept_iff (hrejects : Rejects setting scanner input disk managed content findings)
    (h : ∀ settled, rejection setting input managed findings = .ok settled →
      ¬ Valid setting.texts (updatedManifest setting managed settled).records) :
    managed.record.status = .failed ∧
        isWithin (quarantineRootPath setting input) managed.path = true ↔
      Rejectable setting scanner input managed content findings := by
  rw [isWithin_quarantine_iff hrejects.inspectable.root]
  constructor
  · rintro ⟨hstatus, hroot⟩
    refine ⟨none, ?_, .inl ⟨hroot, hstatus⟩⟩
    unfold rejectionTarget
    rw [hroot]
  · rintro ⟨target, htarget, ⟨hroot, hstatus⟩ | hrecordable⟩
    · exact ⟨hstatus, hroot⟩
    · have hrejection : ∃ settled, rejection setting input managed findings = .ok settled ∧
          settled.target = target := by
        unfold rejection
        rw [htarget]
        exact ⟨_, rfl, rfl⟩
      obtain ⟨settled, hsettled, rfl⟩ := hrejection
      exact absurd ((valid_rejection_iff hrejects.inspectable hrejects.examined hrejects.found
        hsettled).mpr hrecordable) (h settled hsettled)

/-! ## One call -/

/-- The promise of a call for one artifact. -/
def Inspected (setting : Setting) (scanner : Option Scanner) (input : InspectInput)
    (disk : Disk JsString) (record : SourceRecord) (acquisition : Acquisition)
    (content : List UInt8) : Prop :=
  ∃ result world record' acquisition',
    inspectLibraryArtifact setting scanner input (World.start disk) = (.ok result, world) ∧
    InspectedAs setting scanner input disk world.disk record acquisition content record'
      acquisition'

theorem inspected_iff_of_run {result : OperationResult} {world : World}
    (h : inspectLibraryArtifact setting scanner input (World.start disk) = (.ok result, world)) :
    Inspected setting scanner input disk record acquisition content ↔
      ∃ record' acquisition', InspectedAs setting scanner input disk world.disk record acquisition
        content record' acquisition' := by
  constructor
  · rintro ⟨result', world', record', acquisition', hrun, hinspected⟩
    rw [h] at hrun
    cases hrun
    exact ⟨record', acquisition', hinspected⟩
  · rintro ⟨record', acquisition', hinspected⟩
    exact ⟨result, world, record', acquisition', h, hinspected⟩

/-- What the call needs for one artifact. -/
structure SafeFor (setting : Setting) (scanner : Option Scanner) (input : InspectInput)
    (disk : Disk JsString) (content : List UInt8) : Prop where
  temporary : input.dryRun = false → Findable setting.failing → ∀ managed findings settled,
    Inspectable setting input disk managed content → Examinable setting content →
    examination setting scanner managed content = .ok findings →
    settlement setting input managed findings = .ok settled →
    Reached setting input disk managed content settled →
    TemporaryApart setting input managed content settled
  rejected : ∀ managed findings,
    Rejects setting scanner input disk managed content findings →
    Rejectable setting scanner input managed content findings

theorem not_failsAt_of_none (h : setting.failing = none) (step : Step) :
    ¬ FailsAt setting.failing step := by
  rintro ⟨fault, hfault, -⟩
  rw [h] at hfault
  cases hfault

theorem examinable_of_none (h : setting.failing = none) : Examinable setting content :=
  ⟨not_failsAt_of_none h _, fun _ => ⟨not_failsAt_of_none h _, not_failsAt_of_none h _⟩⟩

theorem findable_of_none (h : setting.failing = none) : Findable setting.failing :=
  ⟨not_failsAt_of_none h _, not_failsAt_of_none h _, not_failsAt_of_none h _,
    not_failsAt_of_none h _⟩

/-- The artifact of a record, where it can be inspected, is the recorded one. -/
theorem managed_of_recorded (hrecorded : Recorded setting input disk record acquisition content)
    (h : Inspectable setting input disk managed content) :
    managed.record = record ∧ managed.acquisition = acquisition :=
  stored_unique (stored_of_inspectable h) hrecorded.toStored rfl

theorem found_and_examined (hrooted : Rooted disk)
    (hinspectable : Inspectable setting input disk managed content)
    (hexamined : examination setting scanner managed content = .ok findings)
    (hfindable : Findable setting.failing) (hexaminable : Examinable setting content) :
    findArtifact setting input (World.start disk) = (.ok managed, World.start disk) ∧
      examine setting scanner managed (World.start disk) = (.ok findings, World.start disk) := by
  have hfile : (World.start disk).disk managed.path = some (.file content) := hinspectable.content
  exact ⟨(findArtifact_ok_iff hrooted).mpr ⟨hfindable, ⟨content, hinspectable⟩, rfl⟩,
    (examine_ok_iff hfile).mpr ⟨hexaminable, hexamined, rfl⟩⟩

/-- A call that ends before its first change. -/
theorem inspected_early (hrooted : Rooted disk)
    (hrecorded : Recorded setting input disk record acquisition content)
    (h : ¬ ∃ managed findings settled,
      findArtifact setting input (World.start disk) = (.ok managed, World.start disk) ∧
      examine setting scanner managed (World.start disk) = (.ok findings, World.start disk) ∧
      input.dryRun = false ∧ settlement setting input managed findings = .ok settled) :
    Inspected setting scanner input disk record acquisition content ↔
      SafeFor setting scanner input disk content := by
  obtain ⟨result, hrun⟩ := inspectLibraryArtifact_early h
  refine (inspected_iff_of_run hrun).trans
    ((inspected_unchanged_iff hrecorded fun _ => rfl).trans ?_)
  constructor
  · intro hall
    refine ⟨fun hwet hfindable managed findings settled hinspectable hexaminable hexamined hsettled
      _ => ?_, fun managed findings hrejects => ?_⟩
    · obtain ⟨hfound, hexamine⟩ :=
        found_and_examined hrooted hinspectable hexamined hfindable hexaminable
      exact absurd ⟨managed, findings, settled, hfound, hexamine, hwet, hsettled⟩ h
    · obtain ⟨rfl, rfl⟩ := managed_of_recorded hrecorded hrejects.inspectable
      refine (rejects_kept_iff hrejects fun settled hsettled => ?_).mp ?_
      · obtain ⟨hfound, hexamine⟩ := found_and_examined hrooted hrejects.inspectable
          hrejects.examined (findable_of_none hrejects.steps) (examinable_of_none hrejects.steps)
        exact absurd ⟨managed, findings, settled, hfound, hexamine, hrejects.wet,
          (settlement_rejection hrejects.found).trans hsettled⟩ h
      · rw [hrejects.inspectable.path]
        exact hall managed findings hrejects
  · intro hsafe managed findings hrejects
    obtain ⟨rfl, rfl⟩ := managed_of_recorded hrecorded hrejects.inspectable
    rw [← hrejects.inspectable.path]
    refine (rejects_kept_iff hrejects fun settled hsettled => ?_).mpr
      (hsafe.rejected managed findings hrejects)
    obtain ⟨hfound, hexamine⟩ := found_and_examined hrooted hrejects.inspectable
      hrejects.examined (findable_of_none hrejects.steps) (examinable_of_none hrejects.steps)
    exact absurd ⟨managed, findings, settled, hfound, hexamine, hrejects.wet,
      (settlement_rejection hrejects.found).trans hsettled⟩ h

section Settling

variable (hrooted : Rooted disk)
  (hinspectable : Inspectable setting input disk managed content)
  (happart : managed.path ≠ input.inventoryPath)
  (hexamined : examination setting scanner managed content = .ok findings)
  (hwet : input.dryRun = false)
  (hsettled : settlement setting input managed findings = .ok settled)

include hinspectable hexamined hsettled in
/-- The settlement is the only one. -/
theorem safeFor_iff (hwet : input.dryRun = false) (hfindable : Findable setting.failing)
    (hexaminable : Examinable setting content) :
    SafeFor setting scanner input disk content ↔
      (Reached setting input disk managed content settled →
        TemporaryApart setting input managed content settled) ∧
      (Rejects setting scanner input disk managed content findings →
        Rejectable setting scanner input managed content findings) := by
  constructor
  · exact fun h => ⟨h.temporary hwet hfindable managed findings settled hinspectable hexaminable
      hexamined hsettled, h.rejected managed findings⟩
  · rintro ⟨htemporary, hrejected⟩
    constructor
    · intro _ _ managed' findings' settled' hinspectable' _ hexamined' hsettled'
      obtain ⟨rfl, -⟩ := inspectable_unique hinspectable hinspectable'
      obtain rfl := Except.ok.inj (hexamined.symm.trans hexamined')
      obtain rfl := Except.ok.inj (hsettled.symm.trans hsettled')
      exact htemporary
    · intro managed' findings' hrejects
      obtain ⟨rfl, -⟩ := inspectable_unique hinspectable hrejects.inspectable
      obtain rfl := Except.ok.inj (hexamined.symm.trans hrejects.examined)
      exact hrejected hrejects

include hinspectable in
theorem recorded_of_inspectable (happart : managed.path ≠ input.inventoryPath) :
    Recorded setting input disk managed.record managed.acquisition content :=
  ⟨stored_of_inspectable hinspectable, hinspectable.path ▸ hinspectable.content,
    hinspectable.path ▸ happart⟩

include hinspectable hexamined in
/-- What a call that keeps every file promises. -/
theorem unchanged_iff (happart : managed.path ≠ input.inventoryPath)
    (hfiles : ∀ path, fileAt disk' path = fileAt disk path) :
    (∃ record' acquisition', InspectedAs setting scanner input disk disk' managed.record
      managed.acquisition content record' acquisition') ↔
    (Rejects setting scanner input disk managed content findings →
      managed.record.status = .failed ∧
        isWithin (quarantineRootPath setting input) managed.path = true) := by
  rw [inspected_unchanged_iff (recorded_of_inspectable hinspectable happart) hfiles,
    hinspectable.path]
  constructor
  · exact fun h => h managed findings
  · intro h managed' findings' hrejects
    obtain ⟨rfl, -⟩ := inspectable_unique hinspectable hrejects.inspectable
    obtain rfl := Except.ok.inj (hexamined.symm.trans hrejects.examined)
    exact h hrejects

/-- What is printed of an updated inventory is read back. -/
def Reprinted (setting : Setting) (scanner : Option Scanner) (input : InspectInput)
    (disk : Disk JsString) : Prop :=
  ∀ managed content findings settled, Inspectable setting input disk managed content →
    examination setting scanner managed content = .ok findings →
    settlement setting input managed findings = .ok settled →
    Valid setting.texts (updatedManifest setting managed settled).records →
    setting.parse (setting.print (updatedManifest setting managed settled)) =
      .ok (updatedManifest setting managed settled)

theorem temporary_ne_inventory : temporaryPath input.inventoryPath ≠ input.inventoryPath :=
  withSuffix_ne_self (by decide)

/-- No step fails where an artifact is rejected. -/
theorem canMove_of_rejects (hrejects : Rejects setting scanner input disk managed content findings)
    (hsettled : rejection setting input managed findings = .ok settled) :
    ∀ target, settled.target = some target → CanMove setting disk target := by
  intro target htarget
  obtain ⟨hopen, hfree⟩ := (hrejects.unobstructed settled hsettled).target target htarget
  have hnone := not_failsAt_of_none hrejects.steps
  exact ⟨hnone _, hopen, hfree, hnone _, hnone _⟩

theorem canWrite_of_rejects (hrejects : Rejects setting scanner input disk managed content findings)
    (hsettled : rejection setting input managed findings = .ok settled)
    (hvalid : Valid setting.texts (updatedManifest setting managed settled).records) :
    CanWrite setting input (movedDisk disk managed.path content settled.target) :=
  ⟨not_failsAt_of_none hrejects.steps _,
    (hrejects.unobstructed settled hsettled).temporary hvalid⟩

section Moving

variable (hmove : ∀ target, settled.target = some target → CanMove setting disk target)

include hinspectable happart hmove

/-- The artifact is not moved onto the inventory. -/
theorem place_ne_inventory : settled.place managed ≠ input.inventoryPath := by
  obtain ⟨bytes, hbytes, -⟩ := hinspectable.parsed
  unfold Settlement.place
  cases htarget : settled.target with
  | none => exact happart
  | some target =>
      rintro hsame
      have hfree := (hmove target htarget).free
      rw [Option.getD_some] at hsame
      rw [hsame, hbytes] at hfree
      cases hfree

variable (hundo : ¬ FailsAt setting.failing (.link .back) ∧
  ¬ FailsAt setting.failing (.unlinkSource .back))

include hrooted hexamined hwet hsettled hundo in
/-- A settlement that is undone before the temporary file of the inventory is written. -/
theorem inspected_refused (hfindable : Findable setting.failing)
    (hexaminable : Examinable setting content)
    (hrefused : Refused setting input disk managed content settled) :
    Inspected setting scanner input disk managed.record managed.acquisition content ↔
      SafeFor setting scanner input disk content := by
  obtain ⟨hfound, hexamine⟩ := found_and_examined hrooted hinspectable hexamined hfindable
    hexaminable
  have hpath : disk managed.path = some (.file content) := hinspectable.content
  obtain ⟨bytes, hbytes, -⟩ := hinspectable.parsed
  obtain ⟨e, herror⟩ := settle_refused hrooted hpath hmove hbytes hrefused
  obtain ⟨world, hback, hfiles⟩ := moveBack_restores hpath hmove hundo.1 hundo.2
  have hrun := inspectLibraryArtifact_undone hfound hexamine hwet hsettled herror hback
  rw [inspected_iff_of_run hrun, unchanged_iff hinspectable hexamined happart hfiles,
    safeFor_iff hinspectable hexamined hsettled hwet hfindable hexaminable]
  have hapart : Reached setting input disk managed content settled →
      TemporaryApart setting input managed content settled := by
    intro hreached
    rcases hrefused with hinvalid | hblocked | ⟨fault, hfault, hstep, hleft⟩
    · exact absurd hreached.valid hinvalid
    · exact absurd hreached.write hblocked
    · refine ⟨fun left hbehind => ?_, fun hwritten => absurd ⟨fault, hfault, hstep⟩ hwritten⟩
      rcases hbehind with ⟨other, hother, -, hleft'⟩ | ⟨hrename, -⟩
      · obtain rfl := Option.some.inj (hfault.symm.trans hother)
        rw [hleft] at hleft'
        cases hleft'
      · have hsame := failsAt_unique ⟨fault, hfault, hstep⟩ hrename
        cases hsame
  rw [and_iff_right hapart]
  refine forall_congr' fun hrejects => rejects_kept_iff hrejects fun settled' hsettled' => ?_
  rw [settlement_rejection hrejects.found] at hsettled
  obtain rfl := Except.ok.inj (hsettled.symm.trans hsettled')
  intro hvalid
  rcases hrefused with hinvalid | hblocked | ⟨fault, hfault, -⟩
  · exact hinvalid hvalid
  · exact hblocked (canWrite_of_rejects hrejects hsettled hvalid)
  · rw [hrejects.steps] at hfault
    cases hfault

variable (hvalid : Valid setting.texts (updatedManifest setting managed settled).records)
  (hwrite : CanWrite setting input (movedDisk disk managed.path content settled.target))

include hrooted hexamined hwet hsettled hvalid hwrite

include hundo in
/-- A settlement that is undone with something in the temporary file of the inventory. -/
theorem inspected_left (hfindable : Findable setting.failing)
    (hexaminable : Examinable setting content) {left : List UInt8}
    (hbehind : LeftBehind setting (updatedManifest setting managed settled) left) :
    Inspected setting scanner input disk managed.record managed.acquisition content ↔
      SafeFor setting scanner input disk content := by
  obtain ⟨hfound, hexamine⟩ := found_and_examined hrooted hinspectable hexamined hfindable
    hexaminable
  have hpath : disk managed.path = some (.file content) := hinspectable.content
  have hrecorded := recorded_of_inspectable hinspectable happart
  have hnotRejects : ¬ Rejects setting scanner input disk managed content findings := by
    intro hrejects
    rcases hbehind with ⟨fault, hfault, -⟩ | ⟨hrename, -⟩
    · rw [hrejects.steps] at hfault
      cases hfault
    · exact not_failsAt_of_none hrejects.steps _ hrename
  have honly : ∀ other, LeftBehind setting (updatedManifest setting managed settled) other →
      other = left := by
    intro other hother
    rcases hbehind with ⟨fault, hfault, hstep, hleft⟩ | ⟨hrename, rfl⟩ <;>
      rcases hother with ⟨fault', hfault', hstep', hleft'⟩ | ⟨hrename', rfl⟩
    · obtain rfl := Option.some.inj (hfault.symm.trans hfault')
      exact Option.some.inj (hleft'.symm.trans hleft)
    · have hsame := failsAt_unique ⟨fault, hfault, hstep⟩ hrename'
      cases hsame
    · have hsame := failsAt_unique ⟨fault', hfault', hstep'⟩ hrename
      cases hsame
    · rfl
  have hsafe : SafeFor setting scanner input disk content ↔
      (temporaryPath input.inventoryPath = settled.place managed → left = content) ∧
        (settled.target ≠ none → temporaryPath input.inventoryPath ≠ managed.path) := by
    rw [safeFor_iff hinspectable hexamined hsettled hwet hfindable hexaminable]
    constructor
    · exact fun h => (h.1 ⟨hmove, hvalid, hwrite⟩).left left hbehind
    · refine fun h => ⟨fun _ => ⟨fun other hother => honly other hother ▸ h, ?_⟩,
        fun hrejects => absurd hrejects hnotRejects⟩
      intro hwritten hrenamed
      rcases hbehind with ⟨fault, hfault, hstep, -⟩ | ⟨hrename, -⟩
      · exact absurd ⟨fault, hfault, hstep⟩ hwritten
      · exact absurd hrename hrenamed
  obtain ⟨bytes, hbytes, -⟩ := hinspectable.parsed
  obtain ⟨e, herror⟩ := settle_left hrooted hpath hmove hbytes hvalid hwrite hbehind
  by_cases happarts : settled.target ≠ none → temporaryPath input.inventoryPath ≠ managed.path
  · obtain ⟨world, hback, hartifact, hothers⟩ :=
      moveBack_left hpath hmove hundo.1 hundo.2 happarts
    have hrun := inspectLibraryArtifact_undone hfound hexamine hwet hsettled herror hback
    have hinventory : fileAt world.disk input.inventoryPath = fileAt disk input.inventoryPath :=
      hothers _ (fun h => happart h.symm) fun h => temporary_ne_inventory h.symm
    rw [inspected_iff_of_run hrun, inspected_kept_iff hrecorded hinventory, hsafe,
      and_iff_left happarts, ← hinspectable.path, hartifact, Option.some.injEq]
    constructor
    · exact fun h hsame => by rw [← h.1, if_pos hsame]
    · intro h
      refine ⟨?_, fun path hne _ htemporary => hothers path hne htemporary, ?_⟩
      · split_ifs with hsame
        · exact h hsame
        · rfl
      · intro managed' findings' hrejects
        obtain ⟨rfl, -⟩ := inspectable_unique hinspectable hrejects.inspectable
        obtain rfl := Except.ok.inj (hexamined.symm.trans hrejects.examined)
        exact absurd hrejects hnotRejects
  · obtain ⟨htarget, hsame⟩ := Classical.not_imp.mp happarts
    rw [not_not] at hsame
    obtain ⟨target, htarget⟩ := Option.ne_none_iff_exists'.mp htarget
    have hne := target_ne_path hpath hmove htarget
    have hplace := place_ne_inventory hinspectable happart hmove
    rw [Settlement.place, htarget, Option.getD_some] at hplace
    have hback := @moveBack_taken setting content target
      ((movedWorld disk managed.path content settled.target).on
        (withFile (movedDisk disk managed.path content settled.target)
          (temporaryPath input.inventoryPath) left)) managed.path (by rw [htarget]; rfl)
      (by rw [on_disk, hsame, withFile_self]; simp)
      (by
        rw [on_disk, hsame, withFile_other hne, htarget]
        exact (put_other hne).trans withFile_self)
    have hrun := inspectLibraryArtifact_undone hfound hexamine hwet hsettled herror hback
    have hfileAt : ∀ path, path ≠ managed.path →
        fileAt (withFile (movedDisk disk managed.path content settled.target)
          (temporaryPath input.inventoryPath) left) path =
        if path = target then some content else fileAt disk path := by
      intro path hpath'
      rw [hsame, fileAt_put_other hpath']
      split_ifs with htaken
      · rw [htaken, ← fileAt_eq_some.mpr (movedDisk_place hpath hmove), Settlement.place, htarget,
          Option.getD_some]
      · rw [fileAt_movedDisk hmove (by rwa [Settlement.place, htarget, Option.getD_some]),
          if_neg hpath']
    rw [inspected_iff_of_run hrun, hsafe]
    refine iff_of_false ?_ fun h => h.2 (by simp [htarget]) hsame
    have hinventory : input.inventoryPath ≠ managed.path := fun h => happart h.symm
    rw [inspected_kept_iff hrecorded]
    · rintro ⟨-, hothers, -⟩
      have hadded := hothers target (hinspectable.path ▸ hne) hplace (hsame ▸ hne)
      rw [on_disk, hfileAt target hne, if_pos rfl, fileAt_none (hmove target htarget).free]
        at hadded
      cases hadded
    · rw [on_disk, hfileAt _ hinventory, if_neg fun h => hplace h.symm]

/-- A settlement whose record is written. -/
theorem inspected_written (hfindable : Findable setting.failing)
    (hexaminable : Examinable setting content)
    (hreprinted : Reprinted setting scanner input disk)
    (hwritten : ¬ FailsAt setting.failing .writeTemporary)
    (hrenamed : ¬ FailsAt setting.failing .renameTemporary) :
    Inspected setting scanner input disk managed.record managed.acquisition content ↔
      SafeFor setting scanner input disk content := by
  obtain ⟨hfound, hexamine⟩ := found_and_examined hrooted hinspectable hexamined hfindable
    hexaminable
  have hpath : disk managed.path = some (.file content) := hinspectable.content
  have hplace := place_ne_inventory hinspectable happart hmove
  have hparse := hreprinted managed content findings settled hinspectable hexamined hsettled hvalid
  obtain ⟨hsource, -, acquisition', hacquired, hresolve⟩ :=
    settlement_settledAs hinspectable.path hinspectable.root hsettled
  obtain ⟨hfindRecord, -, hmedia, -⟩ := inspectableRecord_ok hinspectable.record
  obtain ⟨hmem, hsourceId⟩ := findRecord_ok hfindRecord
  have hsafe : SafeFor setting scanner input disk content ↔
      temporaryPath input.inventoryPath ≠ settled.place managed := by
    rw [safeFor_iff hinspectable hexamined hsettled hwet hfindable hexaminable]
    constructor
    · exact fun h => (h.1 ⟨hmove, hvalid, hwrite⟩).written hwritten hrenamed
    · refine fun h => ⟨fun _ => ⟨fun left hbehind => ?_, fun _ _ => h⟩, fun hrejects => ?_⟩
      · rcases hbehind with ⟨fault, hfault, hstep, -⟩ | ⟨hrename, -⟩
        · exact absurd ⟨fault, hfault, hstep⟩ hwritten
        · exact absurd hrename hrenamed
      · rw [settlement_rejection hrejects.found] at hsettled
        obtain ⟨target, htarget, htarget', -⟩ := rejection_ok hsettled
        refine ⟨target, htarget, .inr ?_⟩
        rw [← htarget']
        exact (valid_rejection_iff hinspectable hexamined hrejects.found hsettled).mp hvalid
  obtain ⟨bytes, hbytes, -⟩ := hinspectable.parsed
  have hrun := inspectLibraryArtifact_settled hfound hexamine hwet hsettled
    (settle_written hrooted hpath hmove hbytes hvalid hwrite hwritten hrenamed)
  have hstored : Stored setting input (writtenDisk setting input disk managed content settled)
      settled.updated acquisition' :=
    ⟨⟨_, _, withFile_self, hparse, hvalid, hsourceId ▸ findRecord_replaced hmem hsource⟩,
      hacquired⟩
  rw [inspected_iff_of_run hrun, hsafe]
  constructor
  · rintro ⟨record', acquired', h⟩ hsame
    obtain ⟨rfl, rfl⟩ := stored_unique h.recorded.toStored hstored rfl
    have hcontent := h.recorded.content
    rw [hresolve] at hcontent
    have hgone : writtenDisk setting input disk managed content settled (settled.place managed) =
        none := (withFile_other hplace).trans (hsame ▸ put_self)
    exact absurd (hgone.symm.trans hcontent) (by simp)
  · intro hne
    refine ⟨settled.updated, acquisition', ⟨⟨hstored, ?_, hresolve ▸ hplace⟩, ?_, ?_, ?_⟩⟩
    · rw [hresolve]
      exact (withFile_other hplace).trans ((put_other fun h => hne h.symm).trans
        (movedDisk_place hpath hmove))
    · intro path hpath' hinventory htemporary
      rw [hresolve] at hpath'
      rw [← hinspectable.path]
      exact (fileAt_put_other hinventory).trans ((fileAt_put_other htemporary).trans
        (fileAt_movedDisk hmove hpath'))
    · intro evidence hevidence hclean
      exact .inr (settlement_clean hinspectable.path hmedia hexamined hsettled hevidence hclean)
    · intro managed' findings' hrejects
      obtain ⟨rfl, -⟩ := inspectable_unique hinspectable hrejects.inspectable
      obtain rfl := Except.ok.inj (hexamined.symm.trans hrejects.examined)
      rw [settlement_rejection hrejects.found] at hsettled
      obtain ⟨target, htarget, htarget', hupdated⟩ := rejection_ok hsettled
      refine ⟨by rw [hupdated]; rfl, ?_⟩
      rw [hresolve, Settlement.place, htarget']
      exact (rejectionTarget_ok hinspectable.path hinspectable.root htarget).1

end Moving

include hrooted hinspectable happart hexamined hwet hsettled in
/-- A call that has something to settle. -/
theorem inspected_settles (hfindable : Findable setting.failing)
    (hexaminable : Examinable setting content)
    (hreprinted : Reprinted setting scanner input disk)
    (hundo : ¬ FailsAt setting.failing (.link .back) ∧
      ¬ FailsAt setting.failing (.unlinkSource .back)) :
    Inspected setting scanner input disk managed.record managed.acquisition content ↔
      SafeFor setting scanner input disk content := by
  have hpath : disk managed.path = some (.file content) := hinspectable.content
  by_cases hmove : ∀ target, settled.target = some target → CanMove setting disk target
  · by_cases hrefused : Refused setting input disk managed content settled
    · exact inspected_refused hrooted hinspectable happart hexamined hwet hsettled hmove hundo
        hfindable hexaminable hrefused
    · obtain ⟨hvalid, hothers⟩ := not_or.mp hrefused
      obtain ⟨hwrite, hleft⟩ := not_or.mp hothers
      rw [not_not] at hvalid hwrite
      by_cases hwritten : FailsAt setting.failing .writeTemporary
      · obtain ⟨fault, hfault, hstep⟩ := hwritten
        cases hleftover : fault.leftover with
        | none => exact absurd ⟨fault, hfault, hstep, hleftover⟩ hleft
        | some left =>
            exact inspected_left hrooted hinspectable happart hexamined hwet hsettled hmove hundo
              hvalid hwrite hfindable hexaminable (.inl ⟨fault, hfault, hstep, hleftover⟩)
      · by_cases hrenamed : FailsAt setting.failing .renameTemporary
        · exact inspected_left hrooted hinspectable happart hexamined hwet hsettled hmove hundo
            hvalid hwrite hfindable hexaminable (.inr ⟨hrenamed, rfl⟩)
        · exact inspected_written hrooted hinspectable happart hexamined hwet hsettled hmove
            hvalid hwrite hfindable hexaminable hreprinted hwritten hrenamed
  · -- The artifact cannot be moved: nothing is to be undone.
    obtain ⟨target, htarget, hstuck⟩ : ∃ target, settled.target = some target ∧
        ¬ CanMove setting disk target := by
      simpa only [not_forall, exists_prop] using hmove
    obtain ⟨hfound, hexamine⟩ := found_and_examined hrooted hinspectable hexamined hfindable
      hexaminable
    obtain ⟨e, after, herror, hfiles⟩ := @settle_unmoved setting input disk managed content settled
      target hrooted hpath htarget hstuck
    have hrun := inspectLibraryArtifact_undone hfound hexamine hwet hsettled herror
      (moveBack_still rfl)
    have hnotRejects : ¬ Rejects setting scanner input disk managed content findings := by
      intro hrejects
      rw [settlement_rejection hrejects.found] at hsettled
      exact hmove (canMove_of_rejects hrejects hsettled)
    rw [inspected_iff_of_run hrun, on_disk, unchanged_iff hinspectable hexamined happart hfiles,
      safeFor_iff hinspectable hexamined hsettled hwet hfindable hexaminable]
    exact iff_of_true (fun h => absurd h hnotRejects)
      ⟨fun h => absurd h.move hmove, fun h => absurd h hnotRejects⟩

end Settling

/-- One call keeps its promise exactly where it is safe. -/
theorem inspected_iff (hrooted : Rooted disk)
    (hrecorded : Recorded setting input disk record acquisition content)
    (hreprinted : Reprinted setting scanner input disk)
    (hundo : ¬ FailsAt setting.failing (.link .back) ∧
      ¬ FailsAt setting.failing (.unlinkSource .back)) :
    Inspected setting scanner input disk record acquisition content ↔
      SafeFor setting scanner input disk content := by
  by_cases h : ∃ managed findings settled,
      findArtifact setting input (World.start disk) = (.ok managed, World.start disk) ∧
      examine setting scanner managed (World.start disk) = (.ok findings, World.start disk) ∧
      input.dryRun = false ∧ settlement setting input managed findings = .ok settled
  · obtain ⟨managed, findings, settled, hfound, hexamine, hwet, hsettled⟩ := h
    obtain ⟨hfindable, ⟨other, hinspectable⟩, -⟩ := (findArtifact_ok_iff hrooted).mp hfound
    have hinspectable : Inspectable setting input disk managed other := hinspectable
    obtain ⟨rfl, rfl⟩ := stored_unique (stored_of_inspectable hinspectable) hrecorded.toStored rfl
    have hcontent : some (Entry.file other) = some (.file content) := by
      rw [← hinspectable.content, hinspectable.path, hrecorded.content]
    cases hcontent
    have hfile : (World.start disk).disk managed.path = some (.file content) := hinspectable.content
    obtain ⟨hexaminable, hexamined, -⟩ := (examine_ok_iff hfile).mp hexamine
    exact inspected_settles hrooted hinspectable (hinspectable.path ▸ hrecorded.apart) hexamined
      hwet hsettled hfindable hexaminable hreprinted hundo
  · exact inspected_early hrooted hrecorded h

end Inspect

/-- **An inspection leaves one copy of the artifact, under its record.**  Evidence that says clean
is of these bytes, a rejected artifact is in the quarantine, and a step that fails is undone.
Where what is printed of an inventory is read back, and the undo itself does not fail, this is so
exactly when the inspection is safe. -/
theorem inspectHolds_iff (setting : Setting) (scanner : Option Scanner) (input : InspectInput)
    (disk : Disk JsString) (hrooted : Rooted disk)
    (hreprinted : Reprinted setting scanner input disk)
    (hundo : ¬ FailsAt setting.failing (.link .back) ∧
      ¬ FailsAt setting.failing (.unlinkSource .back)) :
    InspectHolds setting scanner input disk ↔ InspectSafe setting scanner input disk := by
  constructor
  · intro hholds
    have hsafe : ∀ managed content, Inspectable setting input disk managed content →
        managed.path ≠ input.inventoryPath → SafeFor setting scanner input disk content := by
      intro managed content hinspectable happart
      have hrecorded := recorded_of_inspectable hinspectable happart
      exact (inspected_iff hrooted hrecorded hreprinted hundo).mp (hholds _ _ _ hrecorded)
    constructor
    · intro hwet hfindable managed content findings settled hinspectable happart hexaminable
      exact (hsafe managed content hinspectable happart).temporary hwet hfindable managed findings
        settled hinspectable hexaminable
    · intro managed content findings hrejects happart
      exact (hsafe managed content hrejects.inspectable happart).rejected managed findings hrejects
  · intro hsafe record acquisition content hrecorded
    have happart : ∀ managed, Inspectable setting input disk managed content →
        managed.path ≠ input.inventoryPath := by
      intro managed hinspectable
      obtain ⟨rfl, rfl⟩ := managed_of_recorded hrecorded hinspectable
      rw [hinspectable.path]
      exact hrecorded.apart
    refine (inspected_iff hrooted hrecorded hreprinted hundo).mpr ⟨?_, ?_⟩
    · intro hwet hfindable managed findings settled hinspectable hexaminable
      exact hsafe.temporary hwet hfindable managed content findings settled hinspectable
        (happart managed hinspectable) hexaminable
    · intro managed findings hrejects
      exact hsafe.rejected managed content findings hrejects
        (happart managed hrejects.inspectable)

/-! ## An artifact that no scanner has seen -/

def sampleAcquisition : Acquisition where
  acquiredAt := js "2026-01-02T00:00:00.000Z"
  artifactPath := js "library/pot/pot--1.txt"
  contentSha256 := List.replicate 64 0x61
  mediaType := some (js "text/plain")
  byteLength := some 1

def acquiredRecord : SourceRecord :=
  { sampleRecord "1" with
    status := .acquired
    acquisition := some sampleAcquisition }

def acquiredManifest : InventoryManifest :=
  { sampleManifest with records := [acquiredRecord] }

def sampleInspect : InspectInput where
  inventoryPath := [js "inventory.json"]
  sourceId := js "pot"
  libraryRoot := js "library"
  quarantineRoot := js "quarantine"
  dryRun := false

def sampleManaged : Managed where
  manifest := acquiredManifest
  record := acquiredRecord
  acquisition := sampleAcquisition
  mediaType := js "text/plain"
  path := [js "library", js "pot", js "pot--1.txt"]
  root := .library

/-- What is found where no scanner is configured. -/
def unscanned : Findings where
  size := 1
  content := some [65]
  observed := some (List.replicate 64 0x61)
  structural := some ⟨1, js "text/plain", js "text/plain", js "utf8-text-v1"⟩
  scan := some (scanArtifact none [65] sampleManaged.path).2
  failureCodes := [js "malware_scanner_unconfigured"]

/-- The record of the artifact in the quarantine. -/
def quarantinedRecord : SourceRecord :=
  match rejection sampleSetting sampleInspect sampleManaged unscanned with
  | .ok settled => settled.updated
  | .error _ => acquiredRecord

/-- The inventory is printed as one byte, which is read back. -/
def inspectSetting : Setting :=
  { sampleSetting with
    parse := fun bytes => .ok (if bytes = [2] then
      replaceRecord acquiredManifest quarantinedRecord (sampleSetting.now 0)
      else acquiredManifest) }

def inspectDisk : Disk JsString := Disk.ofEntries [
  ([], .directory),
  ([js "inventory.json"], .file [1]),
  ([js "library"], .directory),
  ([js "library", js "pot"], .directory),
  ([js "library", js "pot", js "pot--1.txt"], .file [65])]

theorem inspectable_sample :
    Inspectable inspectSetting sampleInspect inspectDisk sampleManaged [65] :=
  ⟨⟨[1], by decide +kernel, rfl⟩, by decide +kernel, by decide +kernel, by decide +kernel,
    by decide +kernel, by decide +kernel⟩

theorem examination_sample :
    examination inspectSetting none sampleManaged [65] = .ok unscanned := by decide +kernel

theorem settlement_sample : ∃ settled,
    settlement inspectSetting sampleInspect sampleManaged unscanned = .ok settled ∧
      rejection inspectSetting sampleInspect sampleManaged unscanned = .ok settled ∧
      settled.updated = quarantinedRecord ∧
      settled.target = some [js "quarantine", js "pot", js "pot--1--aaaaaaaaaaaa.txt"] :=
  ⟨_, rfl, rfl, rfl, by decide +kernel⟩

theorem valid_sample : Valid inspectSetting.texts
    (replaceRecord acquiredManifest quarantinedRecord (inspectSetting.now 0)).records := by
  decide +kernel

theorem rooted_inspectDisk : Rooted inspectDisk :=
  rooted_ofEntries (by decide +kernel) (by decide +kernel)

theorem reprinted_sample : Reprinted inspectSetting none sampleInspect inspectDisk := by
  intro managed content findings settled hinspectable hexamined hsettled _
  obtain ⟨rfl, rfl⟩ := inspectable_unique inspectable_sample hinspectable
  obtain rfl := Except.ok.inj (examination_sample.symm.trans hexamined)
  obtain ⟨other, hother, -, hupdated, -⟩ := settlement_sample
  obtain rfl := Except.ok.inj (hother.symm.trans hsettled)
  rw [updatedManifest, hupdated]
  rfl

theorem inspectSafe_sample : InspectSafe inspectSetting none sampleInspect inspectDisk := by
  obtain ⟨other, hother, hrejection, hupdated, htarget⟩ := settlement_sample
  constructor
  · intro _ _ managed content findings settled hinspectable _ _ hexamined hsettled _
    obtain ⟨rfl, rfl⟩ := inspectable_unique inspectable_sample hinspectable
    obtain rfl := Except.ok.inj (examination_sample.symm.trans hexamined)
    obtain rfl := Except.ok.inj (hother.symm.trans hsettled)
    refine ⟨fun left hbehind => ?_, fun _ _ => ?_⟩
    · rcases hbehind with ⟨fault, hfault, -⟩ | ⟨hrename, -⟩
      · cases hfault
      · exact absurd hrename (not_failsAt_of_none rfl _)
    · rw [Settlement.place, htarget]
      decide +kernel
  · intro managed content findings hrejects _
    obtain ⟨rfl, rfl⟩ := inspectable_unique inspectable_sample hrejects.inspectable
    obtain rfl := Except.ok.inj (examination_sample.symm.trans hrejects.examined)
    obtain ⟨target, hformed, htarget', -⟩ := rejection_ok hrejection
    refine ⟨target, hformed, .inr ?_⟩
    rw [← htarget']
    refine (valid_rejection_iff inspectable_sample examination_sample hrejects.found
      hrejection).mp ?_
    rw [updatedManifest, hupdated]
    exact valid_sample

/-- An artifact that nothing has scanned goes to the quarantine. -/
theorem inspectHolds_iff_sample : InspectHolds inspectSetting none sampleInspect inspectDisk :=
  (inspectHolds_iff inspectSetting none sampleInspect inspectDisk rooted_inspectDisk
    reprinted_sample ⟨not_failsAt_of_none rfl _, not_failsAt_of_none rfl _⟩).mpr inspectSafe_sample

end DocumentLibrary
