import MuniRag.Library.ImportSteps
import MuniRag.Library.Inspecting

/-!
# Steps of an inspection

What an inspection finds before its first change (`findArtifact_ok_iff`, `examine_ok_iff`), and
the two ways out of it as one: a settlement says where the artifact goes and what its record
becomes, and the call moves the one and writes the other (`settleInspection_wet`).
-/

namespace DocumentLibrary

open Api FileSystem PosixPath Fallible
open Ingestion (MalwareScanResult)

section Inspect

variable {setting : Setting} {scanner : Option Scanner} {input : InspectInput} {world : World}
  {managed : Managed} {content : List UInt8} {findings : Findings}

/-! ## The artifact -/

/-- The artifact of a record that can be inspected. -/
structure Inspectable (setting : Setting) (input : InspectInput) (disk : Disk JsString)
    (managed : Managed) (content : List UInt8) : Prop where
  parsed : ∃ bytes, disk input.inventoryPath = some (.file bytes) ∧
    setting.parse bytes = .ok managed.manifest
  valid : Valid setting.texts managed.manifest.records
  record : inspectableRecord input managed.manifest =
    .ok (managed.record, managed.acquisition, managed.mediaType)
  path : managed.path = resolve setting.cwd managed.acquisition.artifactPath
  root : selectRoot setting input managed.path = .ok managed.root
  content : disk managed.path = some (.file content)

/-- No step fails that looks for the artifact. -/
def Findable (failing : Option (Fault Step)) : Prop :=
  ¬ FailsAt failing .readInventory ∧ ¬ FailsAt failing .statManaged ∧
    ¬ FailsAt failing .resolveRoot ∧ ¬ FailsAt failing .resolveArtifact

theorem selectRoot_ok {path : Path} {root : ManagedRoot}
    (h : selectRoot setting input path = .ok root) :
    isWithin (rootPath setting input root) path = true ∧
      ¬ isWithin (libraryRootPath setting input) (quarantineRootPath setting input) = true ∧
      ¬ isWithin (quarantineRootPath setting input) (libraryRootPath setting input) = true := by
  simp only [selectRoot] at h
  split_ifs at h with hbroad hoverlap hlibrary hquarantine
  · cases h
    exact ⟨hlibrary, fun h => hoverlap (.inl h), fun h => hoverlap (.inr h)⟩
  · cases h
    exact ⟨hquarantine, fun h => hoverlap (.inl h), fun h => hoverlap (.inr h)⟩

theorem realpath_ok_iff {step : Step} {path real : Path} {world' : World} :
    realpath setting step path world = (.ok real, world') ↔
      ¬ FailsAt setting.failing step ∧ world.disk path ≠ none ∧ real = path ∧ world' = world := by
  unfold realpath
  simp only [bind_ok_iff, lstat_ok_iff]
  constructor
  · rintro ⟨entry, world₁, ⟨hno, hentry, rfl⟩, hreturn⟩
    cases hreturn
    exact ⟨hno, by simp [hentry], rfl, rfl⟩
  · rintro ⟨hno, hentry, rfl, rfl⟩
    obtain ⟨entry, hsome⟩ := Option.ne_none_iff_exists'.mp hentry
    exact ⟨entry, world', ⟨hno, hsome, rfl⟩, rfl⟩

theorem resolveManagedArtifact_ok_iff (hrooted : Rooted world.disk) {artifactPath : JsString}
    {path : Path} {root : ManagedRoot} {world' : World} :
    resolveManagedArtifact setting input artifactPath world = (.ok (path, root), world') ↔
      (¬ FailsAt setting.failing .statManaged ∧ ¬ FailsAt setting.failing .resolveRoot ∧
        ¬ FailsAt setting.failing .resolveArtifact) ∧
      path = resolve setting.cwd artifactPath ∧ selectRoot setting input path = .ok root ∧
      (∃ content, world.disk path = some (.file content)) ∧ world' = world := by
  unfold resolveManagedArtifact
  simp only [bind_ok_iff, lift_ok_iff, lstat_ok_iff]
  constructor
  · rintro ⟨found, world₁, ⟨hroot, rfl⟩, entry, world₂, ⟨hstat, hentry, rfl⟩, hrest⟩
    cases entry with
    | directory => cases hrest
    | file content =>
        simp only [bind_ok_iff, realpath_ok_iff] at hrest
        obtain ⟨_, world₃, ⟨hroots, -, rfl, rfl⟩, _, world₄, ⟨hartifact, -, rfl, rfl⟩, hrest⟩ :=
          hrest
        split_ifs at hrest
        · cases hrest
        · cases hrest
          exact ⟨⟨hstat, hroots, hartifact⟩, rfl, hroot, ⟨content, hentry⟩, rfl⟩
  · rintro ⟨⟨hstat, hroots, hartifact⟩, rfl, hroot, ⟨content, hcontent⟩, rfl⟩
    have hwithin := (selectRoot_ok hroot).1
    have hdirectory : world'.disk (rootPath setting input root) ≠ none := by
      by_cases hsame : rootPath setting input root = resolve setting.cwd artifactPath
      · rw [hsame, hcontent]
        simp
      · rw [hrooted.above (by simp [hcontent]) (isWithin_iff.mp hwithin) hsame]
        simp
    refine ⟨root, world', ⟨hroot, rfl⟩, _, world', ⟨hstat, hcontent, rfl⟩, ?_⟩
    simp only [bind_ok_iff, realpath_ok_iff]
    refine ⟨_, world', ⟨hroots, hdirectory, rfl, rfl⟩, _, world',
      ⟨hartifact, by simp [hcontent], rfl, rfl⟩, ?_⟩
    rw [if_neg (by simp [hwithin])]
    rfl

/-- **Finding the artifact.** -/
theorem findArtifact_ok_iff (hrooted : Rooted world.disk) {world' : World} :
    findArtifact setting input world = (.ok managed, world') ↔ Findable setting.failing ∧
      (∃ content, Inspectable setting input world.disk managed content) ∧ world' = world := by
  unfold findArtifact
  simp only [bind_ok_iff, readInventory_ok_iff, lift_ok_iff]
  constructor
  · rintro ⟨manifest, world₁, ⟨hread, hparsed, hvalid, rfl⟩, ⟨record, acquisition, mediaType⟩,
      world₂, ⟨hrecord, rfl⟩, ⟨path, root⟩, world₃, hresolved, hreturn⟩
    obtain ⟨⟨hstat, hroots, hartifact⟩, hpath, hroot, ⟨content, hcontent⟩, rfl⟩ :=
      (resolveManagedArtifact_ok_iff hrooted).mp hresolved
    cases hreturn
    exact ⟨⟨hread, hstat, hroots, hartifact⟩,
      ⟨content, hparsed, hvalid, hrecord, hpath, hroot, hcontent⟩, rfl⟩
  · rintro ⟨⟨hread, hstat, hroots, hartifact⟩, ⟨content, h⟩, rfl⟩
    refine ⟨managed.manifest, world', ⟨hread, h.parsed, h.valid, rfl⟩, _, world', ⟨h.record, rfl⟩,
      (managed.path, managed.root), world', ?_, rfl⟩
    exact (resolveManagedArtifact_ok_iff hrooted).mpr
      ⟨⟨hstat, hroots, hartifact⟩, h.path, h.root, ⟨content, h.content⟩, rfl⟩

theorem steady_resolveManagedArtifact {artifactPath : JsString} :
    Steady (resolveManagedArtifact setting input artifactPath) := by
  have hreal : ∀ step path, Steady (realpath setting step path) := fun step path =>
    steady_bind steady_lstat fun _ => steady_pure _
  refine steady_bind (steady_lift _) fun root => steady_bind steady_lstat fun entry => ?_
  cases entry with
  | directory => exact steady_fail _
  | file content =>
      refine steady_bind (hreal _ _) fun realRoot => steady_bind (hreal _ _) fun realArtifact => ?_
      exact steady_ite (steady_fail _) (steady_pure _)

theorem steady_findArtifact : Steady (findArtifact setting input) := by
  refine steady_bind steady_readInventory fun manifest => ?_
  refine steady_bind (steady_lift _) fun found => ?_
  exact steady_bind steady_resolveManagedArtifact fun resolved => steady_pure _

/-! ## The examination -/

/-- What is found of an artifact that keeps its bytes. -/
def examination (setting : Setting) (scanner : Option Scanner) (managed : Managed)
    (content : List UInt8) : Except Thrown Findings := do
  let codes ← sizeCodes setting managed content.length
  if 0 < content.length ∧ content.length ≤ setting.policy.maxArtifactBytes then
    let observed := setting.digest content
    let codes := codes ++ if observed ≠ managed.acquisition.contentSha256 then
      [js "artifact_acquisition_hash_mismatch"] else []
    let (codes, structural, scan) ← inspectBytes setting scanner managed content codes
    return ⟨content.length, some content, some observed, structural, scan, codes⟩
  else return ⟨content.length, none, none, none, none, codes⟩

/-- No step fails that reads the artifact. -/
def Examinable (setting : Setting) (content : List UInt8) : Prop :=
  ¬ FailsAt setting.failing .statArtifact ∧
    (0 < content.length ∧ content.length ≤ setting.policy.maxArtifactBytes →
      ¬ FailsAt setting.failing .readArtifact ∧ ¬ FailsAt setting.failing .readAgain)

/-- **The examination.** -/
theorem examine_ok_iff (hcontent : world.disk managed.path = some (.file content))
    {world' : World} :
    examine setting scanner managed world = (.ok findings, world') ↔ Examinable setting content ∧
      examination setting scanner managed content = .ok findings ∧ world' = world := by
  unfold examine examination Examinable
  simp only [bind_ok_iff, lstat_ok_iff, lift_ok_iff]
  by_cases hsize : 0 < content.length ∧ content.length ≤ setting.policy.maxArtifactBytes
  · constructor
    · rintro ⟨entry, world₁, ⟨hstat, hentry, rfl⟩, codes, world₂, ⟨hcodes, rfl⟩, hrest⟩
      obtain rfl := Option.some.inj (hcontent.symm.trans hentry)
      rw [entrySize, if_pos hsize] at hrest
      simp only [bind_ok_iff, readFile_ok_iff, lift_ok_iff] at hrest
      obtain ⟨first, world₃, ⟨hread, hfirst, rfl⟩, found, world₄, ⟨hfound, rfl⟩, second, world₅,
        ⟨hagain, hsecond, rfl⟩, hreturn⟩ := hrest
      have hsame : first = content := by simpa using hfirst.symm.trans hcontent
      have hsame' : second = content := by simpa using hsecond.symm.trans hcontent
      subst hsame
      subst hsame'
      rw [if_neg (by simp)] at hreturn
      cases hreturn
      rw [entrySize] at hcodes
      refine ⟨⟨hstat, fun _ => ⟨hread, hagain⟩⟩, ?_, rfl⟩
      simp only [hcodes, bind, Except.bind, if_pos hsize, hfound]
      rfl
    · rintro ⟨⟨hstat, hreads⟩, hfound, rfl⟩
      obtain ⟨hread, hagain⟩ := hreads hsize
      cases hcodes : sizeCodes setting managed content.length with
      | error e =>
          rw [hcodes] at hfound
          cases hfound
      | ok codes =>
          simp only [hcodes, bind, Except.bind, if_pos hsize] at hfound
          split at hfound
          · cases hfound
          · rename_i found hbytes
            cases hfound
            refine ⟨_, world', ⟨hstat, hcontent, rfl⟩, codes, world', ⟨hcodes, rfl⟩, ?_⟩
            rw [entrySize, if_pos hsize]
            simp only [bind_ok_iff, readFile_ok_iff, lift_ok_iff]
            refine ⟨content, world', ⟨hread, hcontent, rfl⟩, _, world', ⟨hbytes, rfl⟩, content,
              world', ⟨hagain, hcontent, rfl⟩, ?_⟩
            rw [if_neg (by simp)]
            rfl
  · constructor
    · rintro ⟨entry, world₁, ⟨hstat, hentry, rfl⟩, codes, world₂, ⟨hcodes, rfl⟩, hrest⟩
      obtain rfl := Option.some.inj (hcontent.symm.trans hentry)
      rw [entrySize, if_neg hsize] at hrest
      cases hrest
      rw [entrySize] at hcodes
      refine ⟨⟨hstat, fun h => absurd h hsize⟩, ?_, rfl⟩
      simp only [hcodes, bind, Except.bind, if_neg hsize]
      rfl
    · rintro ⟨⟨hstat, -⟩, hfound, rfl⟩
      cases hcodes : sizeCodes setting managed content.length with
      | error e =>
          rw [hcodes] at hfound
          cases hfound
      | ok codes =>
          simp only [hcodes, bind, Except.bind, if_neg hsize] at hfound
          cases hfound
          refine ⟨_, world', ⟨hstat, hcontent, rfl⟩, codes, world', ⟨hcodes, rfl⟩, ?_⟩
          rw [entrySize, if_neg hsize]
          rfl

theorem steady_examine : Steady (examine setting scanner managed) := by
  refine steady_bind steady_lstat fun entry => steady_bind (steady_lift _) fun codes => ?_
  refine steady_ite ?_ (steady_pure _)
  refine steady_bind steady_readFile fun content => steady_bind (steady_lift _) fun found => ?_
  exact steady_bind steady_readFile fun again => steady_ite (steady_pure _) (steady_pure _)

/-! ## Settlements -/

/-- Where an inspection moves the artifact, what its record becomes, and the result. -/
structure Settlement where
  target : Option Path
  updated : SourceRecord
  result : OperationResult

def acceptance (setting : Setting) (input : InspectInput) (managed : Managed)
    (content : List UInt8) (observed : JsString) (structural : Structural)
    (scan : MalwareScanResult) : Except Thrown Settlement := do
  let (artifactPath, target) ← acceptedPath setting input managed
  let artifactSafety := cleanSafetyEvidence (setting.now 0) artifactPath observed structural scan
  let updated := acceptedRecord managed content artifactPath artifactSafety
  return ⟨target, updated,
    inspectionResult updated .accepted artifactPath observed artifactSafety true []⟩

/-- The path that a rejected artifact is moved to. -/
def rejectionTarget (setting : Setting) (input : InspectInput) (managed : Managed)
    (findings : Findings) : Except Thrown (Option Path) :=
  match managed.root with
  | .quarantine => .ok none
  | .library => (quarantineArtifactPath setting input managed.record
      managed.acquisition.artifactPath
      (findings.observed.getD managed.acquisition.contentSha256)).map some

/-- The path that the record of a rejected artifact keeps of it. -/
def originalPath (managed : Managed) : Option JsString :=
  match managed.root with
  | .library => some managed.acquisition.artifactPath
  | .quarantine => managed.record.artifactSafety.bind (·.originalArtifactPath)

def rejection (setting : Setting) (input : InspectInput) (managed : Managed)
    (findings : Findings) : Except Thrown Settlement := do
  let target ← rejectionTarget setting input managed findings
  let quarantinePath :=
    manifestArtifactPath setting input.quarantineRoot (target.getD managed.path)
  let artifactSafety := rejectedSafetyEvidence setting managed findings (setting.now 0)
    quarantinePath (originalPath managed)
  let updated := rejectedRecord managed findings quarantinePath artifactSafety
  return ⟨target, updated, inspectionResult updated .quarantined quarantinePath
    (findings.observed.getD managed.acquisition.contentSha256) artifactSafety true
    (rejectionFailures findings.failureCodes)⟩

def settlement (setting : Setting) (input : InspectInput) (managed : Managed)
    (findings : Findings) : Except Thrown Settlement :=
  match findings.content, findings.observed, findings.structural, findings.scan with
  | some content, some observed, some structural, some scan =>
      if observed ≠ [] ∧ scan.verdict = .clean ∧ findings.failureCodes = [] then
        acceptance setting input managed content observed structural scan
      else rejection setting input managed findings
  | _, _, _, _ => rejection setting input managed findings

/-- The changes of an inspection. -/
def settle (setting : Setting) (input : InspectInput) (managed : Managed) (settled : Settlement) :
    Fallible Thrown World Unit := do
  match settled.target with
  | none => pure ()
  | some target => moveArtifact setting managed.path target
  recordInspection setting input managed.manifest settled.updated (setting.now 0)

theorem acceptArtifact_wet (hwet : input.dryRun = false) {observed : JsString}
    {structural : Structural} {scan : MalwareScanResult} :
    acceptArtifact setting input managed content observed structural scan =
      (Fallible.lift (acceptance setting input managed content observed structural scan) >>=
        fun settled => settle setting input managed settled >>= fun _ => pure settled.result) := by
  unfold acceptArtifact acceptance settle
  rw [hwet]
  cases acceptedPath setting input managed with
  | error e => rfl
  | ok found =>
      obtain ⟨artifactPath, target⟩ := found
      cases target with
      | none => rfl
      | some target => exact (bind_bind _ _ _).symm

theorem rejectArtifact_wet (hwet : input.dryRun = false) :
    rejectArtifact setting input managed findings =
      (Fallible.lift (rejection setting input managed findings) >>=
        fun settled => settle setting input managed settled >>= fun _ => pure settled.result) := by
  unfold rejectArtifact rejection rejectionTarget originalPath settle
  rw [hwet]
  cases hroot : managed.root with
  | quarantine => rfl
  | library =>
      dsimp only
      cases quarantineArtifactPath setting input managed.record managed.acquisition.artifactPath
          (findings.observed.getD managed.acquisition.contentSha256) with
      | error e => rfl
      | ok target => exact (bind_bind _ _ _).symm

/-- **The changes of an inspection** are those of its settlement. -/
theorem settleInspection_wet (hwet : input.dryRun = false) :
    settleInspection setting input managed findings =
      (Fallible.lift (settlement setting input managed findings) >>=
        fun settled => settle setting input managed settled >>= fun _ => pure settled.result) := by
  obtain ⟨size, content, observed, structural, scan, codes⟩ := findings
  have hrejected := fun findings => @rejectArtifact_wet setting input managed findings hwet
  unfold settleInspection settlement
  cases content with
  | none => exact hrejected _
  | some content =>
      cases observed with
      | none => exact hrejected _
      | some observed =>
          cases structural with
          | none => exact hrejected _
          | some structural =>
              cases scan with
              | none => exact hrejected _
              | some scan =>
                  simp only
                  split_ifs
                  · exact acceptArtifact_wet hwet
                  · exact hrejected _

/-- A dry run changes nothing. -/
theorem steady_settleInspection (hdry : input.dryRun = true) :
    Steady (settleInspection setting input managed findings) := by
  have hrejected : Steady (rejectArtifact setting input managed findings) := by
    unfold rejectArtifact
    dsimp only
    cases managed.root with
    | quarantine =>
        refine steady_bind (steady_pure _) fun target => ?_
        rw [if_pos hdry]
        exact steady_pure _
    | library =>
        refine steady_bind (steady_lift _) fun target => ?_
        rw [if_pos hdry]
        exact steady_pure _
  have haccepted : ∀ content observed structural scan,
      Steady (acceptArtifact setting input managed content observed structural scan) := by
    intro content observed structural scan
    refine steady_bind (steady_lift _) fun found => ?_
    dsimp only
    rw [if_pos hdry]
    exact steady_pure _
  unfold settleInspection
  split
  · exact steady_ite (haccepted _ _ _ _) hrejected
  · exact hrejected

end Inspect

end DocumentLibrary
