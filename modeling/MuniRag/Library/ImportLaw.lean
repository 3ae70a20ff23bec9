import MuniRag.Library.ImportSteps

/-!
# What an import leaves behind

A failed import is to leave every file as it was, a successful one to add the artifact and to
change one record.  The clean-up goes by remembered paths: it removes a copy that another import
left, and the temporary file of the inventory is written whatever stands there.  The promise
holds exactly where neither does harm (`importHolds_iff`).
-/

namespace DocumentLibrary

open Api FileSystem PosixPath Fallible

section Import

variable {setting : Setting} {input : ImportInput} {world : World} {prepared : Prepared}

/-- The disk with the directory of the destination. -/
def Prepared.made (prepared : Prepared) (disk : Disk JsString) : Disk JsString :=
  disk.withDirectory (parent prepared.target)

/-- The world in which the artifact is copied. -/
def Prepared.begun (prepared : Prepared) (disk : Disk JsString) : World :=
  ⟨prepared.made disk, some (stagingPath prepared.target), none, none⟩

/-- The world with the artifact at its destination. -/
def Prepared.arrived (prepared : Prepared) (disk : Disk JsString) : World :=
  ⟨withFile (prepared.made disk) prepared.target prepared.content, none, some prepared.target,
    none⟩

/-- The disk after an import. -/
def importedDisk (setting : Setting) (input : ImportInput) (prepared : Prepared)
    (disk : Disk JsString) : Disk JsString :=
  withFile ((prepared.arrived disk).disk.put (temporaryPath input.inventoryPath) none)
    input.inventoryPath (setting.print (importedManifest setting prepared))

/-! ## What a call promises -/

/-- Every file is kept with its bytes, and no new one is left but the one that is exempt. -/
structure Restored (exempt : Path) (before after : Disk JsString) : Prop where
  kept : ∀ path content, fileAt before path = some content → fileAt after path = some content
  new : ∀ path, path ≠ exempt → fileAt before path = none → fileAt after path = none

/-- The destination got the bytes of the input, and of the inventory the record of the source
was changed; nothing else was. -/
def ImportedAs (setting : Setting) (input : ImportInput) (before after : Disk JsString) : Prop :=
  ∃ target content, boundedArtifactPath setting input.libraryRoot input.sourceId
      input.documentVersion input.inputPath = .ok target ∧
    before (resolve setting.cwd input.inputPath) = some (.file content) ∧
    before target = none ∧ fileAt after target = some content ∧
    (∀ path, path ≠ target → path ≠ input.inventoryPath →
      fileAt after path = fileAt before path) ∧
    ∃ bytes manifest manifest', fileAt before input.inventoryPath = some bytes ∧
      setting.parse bytes = .ok manifest ∧
      fileAt after input.inventoryPath = some (setting.print manifest') ∧
      ∃ older record acquisition newer, manifest.records = older ++ record :: newer ∧
        record.sourceId = input.sourceId ∧ record.documentVersion = input.documentVersion ∧
        manifest'.records = older ++ { record with
          status := .acquired
          acquisition := some acquisition
          artifactSafety := none
          extraction := none
          indexing := none
          failureCodes := none } :: newer ∧
        acquisition.contentSha256 = setting.digest content ∧
        acquisition.byteLength = some (content.length : ℚ)

/-- What the claim of a failed or a successful import is, for one call. -/
def ImportHolds (setting : Setting) (input : ImportInput) (disk : Disk JsString) : Prop :=
  ∃ result world, importLocalArtifact setting input (World.start disk) = (.ok result, world) ∧
    (result.status = .failed →
      Restored (temporaryPath input.inventoryPath) disk world.disk) ∧
    (result.status = .imported → ImportedAs setting input disk world.disk)

/-- The failing step, or a directory at its place, keeps the temporary file from being written. -/
def StopsBefore (setting : Setting) (input : ImportInput) (disk : Disk JsString)
    (prepared : Prepared) : Prop :=
  StopsStaging setting.failing ∨ FailsAt setting.failing (.link .forward) ∨
    FailsAt setting.failing (.unlinkSource .forward) ∨
    FailsAt setting.failing .makeInventoryDirectory ∨
    prepared.made disk (temporaryPath input.inventoryPath) = some .directory

/-- A call that gets to the temporary file of the inventory loses nothing there. -/
structure TemporaryKept (setting : Setting) (input : ImportInput) (disk : Disk JsString)
    (prepared : Prepared) : Prop where
  partly : ∀ fault content, setting.failing = some fault → fault.step = .writeTemporary →
    fault.leftover = some content → ∀ old,
      fileAt disk (temporaryPath input.inventoryPath) = some old → old = content
  unrenamed : FailsAt setting.failing .renameTemporary → ∀ old,
    fileAt disk (temporaryPath input.inventoryPath) = some old →
      old = setting.print (importedManifest setting prepared)
  renamed : ¬ FailsAt setting.failing .writeTemporary →
    ¬ FailsAt setting.failing .renameTemporary →
      fileAt disk (temporaryPath input.inventoryPath) = none ∧
        temporaryPath input.inventoryPath ≠ prepared.target

/-- Where the clean-up and the temporary file do no harm. -/
structure Undisturbed (setting : Setting) (input : ImportInput) (disk : Disk JsString)
    (prepared : Prepared) : Prop where
  staging : fileAt disk (stagingPath prepared.target) ≠ none →
    FailsAt setting.failing .cleanStaging
  destination : disk (stagingPath prepared.target) = none → disk prepared.target ≠ none →
    ¬ FailsAt setting.failing .cleanStaging
  invalid : disk (stagingPath prepared.target) = none → disk prepared.target = none →
    ¬ Valid setting.texts (importedManifest setting prepared).records →
    FailsAt setting.failing .cleanArtifact → temporaryPath input.inventoryPath = prepared.target
  unwritten : disk (stagingPath prepared.target) = none → disk prepared.target = none →
    Valid setting.texts (importedManifest setting prepared).records →
    prepared.made disk (temporaryPath input.inventoryPath) = some .directory →
    ¬ FailsAt setting.failing .cleanArtifact
  temporary : disk (stagingPath prepared.target) = none → disk prepared.target = none →
    Valid setting.texts (importedManifest setting prepared).records →
    ¬ StopsBefore setting input disk prepared → TemporaryKept setting input disk prepared

/-- Every import that gets to its first change is undisturbed. -/
def ImportUndisturbed (setting : Setting) (input : ImportInput) (disk : Disk JsString) : Prop :=
  ∀ prepared, Importable setting input disk prepared →
    ¬ FailsAt setting.failing .makeDirectory → ¬ Blocked disk (parent prepared.target) →
    Undisturbed setting input disk prepared

/-! ## Restored disks -/

section Restored

variable {exempt path : Path} {before after : Disk JsString} {content : List UInt8}

theorem restored_of_files (h : ∀ path, fileAt after path = fileAt before path) :
    Restored exempt before after :=
  ⟨fun path _ hkept => (h path).trans hkept, fun path _ hnone => (h path).trans hnone⟩

theorem not_restored_removed (hbefore : fileAt before path ≠ none)
    (hafter : fileAt after path = none) : ¬ Restored exempt before after := by
  intro h
  obtain ⟨content, hcontent⟩ := Option.ne_none_iff_exists'.mp hbefore
  rw [h.kept path content hcontent] at hafter
  exact absurd hafter (by simp)

theorem not_restored_added (hne : path ≠ exempt) (hbefore : fileAt before path = none)
    (hafter : fileAt after path = some content) : ¬ Restored exempt before after := by
  intro h
  rw [h.new path hne hbefore] at hafter
  exact absurd hafter (by simp)

/-- A file written to the exempt path: what stood there must be the same. -/
theorem restored_exempt_iff (h : ∀ path, path ≠ exempt → fileAt after path = fileAt before path)
    (hafter : fileAt after exempt = some content) :
    Restored exempt before after ↔ ∀ old, fileAt before exempt = some old → old = content := by
  constructor
  · intro hrestored old hold
    have hkept := hrestored.kept exempt old hold
    rw [hafter] at hkept
    exact (Option.some.inj hkept).symm
  · intro hsame
    refine ⟨fun path old hold => ?_, fun path hne hnone => (h path hne).trans hnone⟩
    by_cases hpath : path = exempt
    · subst hpath
      rw [hafter, hsame old hold]
    · exact (h path hpath).trans hold

end Restored

/-! ## Leaves of the call -/

section Publishing

variable {disk : Disk JsString} {e : Thrown}

theorem importHolds_of_failed {w : World} (h : importLocalArtifact setting input
      (World.start disk) = (.ok (failureResult .importing input.sourceId e), w)) :
    ImportHolds setting input disk ↔
      Restored (temporaryPath input.inventoryPath) disk w.disk := by
  constructor
  · rintro ⟨result, world, hrun, hfailed, -⟩
    rw [h] at hrun
    cases hrun
    exact hfailed rfl
  · exact fun hrestored => ⟨_, _, h, fun _ => hrestored, fun himported => by cases himported⟩

/-- What a failing call leaves is what its clean-up leaves. -/
theorem importLocalArtifact_of_error {w w' : World}
    (hprepared : Importable setting input disk prepared)
    (hpublish : publishImport setting input prepared (World.start disk) = (.error e, w))
    (hclean : cleanUpImport setting w = (.ok (), w')) :
    importLocalArtifact setting input (World.start disk) =
      (.ok (failureResult .importing input.sourceId e), w') := by
  have hprepare := (@prepareImport_inr_iff _ _ (World.start disk) _ _).mpr ⟨hprepared, rfl⟩
  unfold importLocalArtifact
  rw [recover_of_error ((bind_of_ok hprepare _).trans hpublish), bind_of_ok hclean]
  rfl

theorem cleanUp_staged {w w' : World} (hcreated : w.createdArtifactPath = none)
    (h : cleanPath setting .cleanStaging w.stagedArtifactPath w = (.ok (), w')) :
    cleanUpImport setting w = (.ok (), w') := by
  unfold cleanUpImport
  change (cleanPath setting .cleanStaging w.stagedArtifactPath >>= fun _ =>
    cleanPath setting .cleanArtifact w.createdArtifactPath) w = _
  rw [bind_of_ok h, hcreated]
  rfl

theorem cleanUp_created {w : World} (hstaged : w.stagedArtifactPath = none) :
    cleanUpImport setting w = cleanPath setting .cleanArtifact w.createdArtifactPath w := by
  unfold cleanUpImport
  change (cleanPath setting .cleanStaging w.stagedArtifactPath >>= fun _ =>
    cleanPath setting .cleanArtifact w.createdArtifactPath) w = _
  rw [hstaged]
  rfl

/-- A call that fails while its copy is remembered. -/
theorem importHolds_staged {w : World} (hprepared : Importable setting input disk prepared)
    (hpublish : publishImport setting input prepared (World.start disk) = (.error e, w))
    (hstaged : w.stagedArtifactPath = some (stagingPath prepared.target))
    (hcreated : w.createdArtifactPath = none) :
    (FailsAt setting.failing .cleanStaging ∨ fileAt w.disk (stagingPath prepared.target) = none →
      (ImportHolds setting input disk ↔
        Restored (temporaryPath input.inventoryPath) disk w.disk)) ∧
    (∀ content, ¬ FailsAt setting.failing .cleanStaging →
      w.disk (stagingPath prepared.target) = some (.file content) →
      (ImportHolds setting input disk ↔ Restored (temporaryPath input.inventoryPath) disk
        (w.disk.put (stagingPath prepared.target) none))) := by
  constructor
  · intro h
    have hclean := cleanUp_staged hcreated (hstaged ▸ cleanPath_stops h)
    exact importHolds_of_failed (importLocalArtifact_of_error hprepared hpublish hclean)
  · intro content hno hfile
    have hclean := cleanUp_staged hcreated (hstaged ▸ cleanPath_removes hno hfile)
    exact importHolds_of_failed (importLocalArtifact_of_error hprepared hpublish hclean)

/-- A call that fails while its artifact is remembered. -/
theorem importHolds_created {w : World} {content : List UInt8}
    (hprepared : Importable setting input disk prepared)
    (hpublish : publishImport setting input prepared (World.start disk) = (.error e, w))
    (hstaged : w.stagedArtifactPath = none)
    (hcreated : w.createdArtifactPath = some prepared.target)
    (hfile : w.disk prepared.target = some (.file content)) :
    (FailsAt setting.failing .cleanArtifact → (ImportHolds setting input disk ↔
        Restored (temporaryPath input.inventoryPath) disk w.disk)) ∧
    (¬ FailsAt setting.failing .cleanArtifact → (ImportHolds setting input disk ↔
        Restored (temporaryPath input.inventoryPath) disk (w.disk.put prepared.target none))) := by
  constructor
  · intro h
    have hclean := (cleanUp_created hstaged).trans (hcreated ▸ cleanPath_stops (.inl h))
    exact importHolds_of_failed (importLocalArtifact_of_error hprepared hpublish hclean)
  · intro hno
    have hclean := (cleanUp_created hstaged).trans (hcreated ▸ cleanPath_removes hno hfile)
    exact importHolds_of_failed (importLocalArtifact_of_error hprepared hpublish hclean)

/-! ### Up to the move -/

theorem made_staging : prepared.made disk (stagingPath prepared.target) =
    disk (stagingPath prepared.target) := by
  refine withDirectory_longer ?_
  simp [stagingPath, withSuffix]

theorem made_target (hrooted : Rooted disk) :
    prepared.made disk prepared.target = disk prepared.target := by
  by_cases hnil : prepared.target = []
  · rw [Prepared.made, Disk.withDirectory, hnil, if_pos (List.nil_prefix), hrooted.root]
  · refine withDirectory_longer ?_
    have hpos := List.length_pos_iff.mpr hnil
    rw [parent, List.length_dropLast]
    omega

theorem staging_ne_target : stagingPath prepared.target ≠ prepared.target :=
  withSuffix_ne_self (by decide)

theorem staging_ne_temporary : stagingPath prepared.target ≠ temporaryPath input.inventoryPath :=
  withSuffix_ne (by decide) (by decide) (by decide)

variable (input) in
/-- No directory can be made for the artifact. -/
theorem publishImport_unmade (h : FailsAt setting.failing .makeDirectory ∨
      Blocked disk (parent prepared.target)) : ∃ e,
    publishImport setting input prepared (World.start disk) = (.error e, World.start disk) := by
  have hrefused : FailsAt setting.failing .makeDirectory ∨ FileSystem.makeDirectory
      (parent prepared.target) (World.start disk).disk = .error .notDirectory :=
    h.imp_right fun hblocked => if_pos hblocked
  obtain ⟨errno, herror⟩ := perform_fails hrefused
  exact ⟨_, bind_of_error herror _⟩

section Made

variable (hprepared : Importable setting input disk prepared) (hrooted : Rooted disk)
  (hmake : ¬ FailsAt setting.failing .makeDirectory)
  (hopen : ¬ Blocked disk (parent prepared.target))

include hmake hopen

variable (input) in
theorem publishImport_begun : publishImport setting input prepared (World.start disk) =
    (stageArtifact setting prepared >>= fun _ =>
      moveArtifactNoReplace setting .forward (stagingPath prepared.target) prepared.target >>=
        fun _ => recordImport setting input prepared) (prepared.begun disk) := by
  have hmade : FileSystem.makeDirectory (parent prepared.target) (World.start disk).disk =
      .ok ((), prepared.made disk) := if_neg hopen
  unfold publishImport mkdir
  rw [bind_of_ok (perform_ok hmake hmade)]
  rfl

omit hmake in
theorem fileAt_made (path : Path) : fileAt (prepared.made disk) path = fileAt disk path :=
  fileAt_withDirectory hopen

omit hmake in
theorem restored_made {exempt : Path} : Restored exempt disk (prepared.made disk) :=
  restored_of_files (fileAt_made hopen)

include hprepared

theorem holds_taken (htaken : disk (stagingPath prepared.target) ≠ none) :
    ImportHolds setting input disk ↔ (fileAt disk (stagingPath prepared.target) ≠ none →
      FailsAt setting.failing .cleanStaging) := by
  have hstaging : (prepared.begun disk).disk (stagingPath prepared.target) =
      disk (stagingPath prepared.target) := made_staging
  obtain ⟨e, hstage⟩ := @stageArtifact_taken setting (prepared.begun disk) prepared
    (hstaging ▸ htaken)
  have hpublish := (publishImport_begun input hmake hopen).trans
    (bind_of_error hstage _)
  obtain ⟨hstill, hremoved⟩ := importHolds_staged hprepared hpublish rfl rfl
  have hfile : fileAt (prepared.begun disk).disk (stagingPath prepared.target) =
      fileAt disk (stagingPath prepared.target) := fileAt_congr hstaging
  by_cases hclean : FailsAt setting.failing .cleanStaging
  · exact iff_of_true ((hstill (.inl hclean)).mpr (restored_made hopen)) fun _ => hclean
  · by_cases hnone : fileAt disk (stagingPath prepared.target) = none
    · exact iff_of_true ((hstill (.inr (hfile.trans hnone))).mpr (restored_made hopen))
        fun hne => absurd hnone hne
    · obtain ⟨content, hcontent⟩ := Option.ne_none_iff_exists'.mp hnone
      rw [hremoved content hclean (fileAt_eq_some.mp (hfile.trans hcontent))]
      exact iff_of_false (not_restored_removed hnone fileAt_put_none)
        fun h => hclean (h hnone)

theorem holds_stopped (hfree : disk (stagingPath prepared.target) = none)
    (hstops : StopsStaging setting.failing) : ImportHolds setting input disk := by
  have hstaging : (prepared.begun disk).disk (stagingPath prepared.target) = none :=
    made_staging.trans hfree
  have hclean : ¬ FailsAt setting.failing .cleanStaging := by
    rintro ⟨fault, hfault, hstep⟩
    obtain ⟨other, hother, hsteps⟩ := hstops
    obtain rfl := Option.some.inj (hfault.symm.trans hother)
    rw [hstep] at hsteps
    simp at hsteps
  rcases @stageArtifact_free setting (prepared.begun disk) prepared hstaging with
    ⟨-, hno⟩ | ⟨e, after, hstage, -, hafter⟩
  · exact absurd hstops hno
  · have hpublish := (publishImport_begun input hmake hopen).trans
      (bind_of_error hstage _)
    obtain ⟨hstill, hremoved⟩ := importHolds_staged hprepared hpublish rfl rfl
    rcases hafter with rfl | ⟨content, rfl⟩
    · exact (hstill (.inr (fileAt_none hstaging))).mpr (restored_made hopen)
    · refine (hremoved content hclean withFile_self).mpr ?_
      rw [on_disk, withFile_put, put_same hstaging]
      exact restored_made hopen

include hrooted

theorem holds_unmoved (hfree : disk (stagingPath prepared.target) = none)
    (hstaged : ¬ StopsStaging setting.failing)
    (hstops : disk prepared.target ≠ none ∨ FailsAt setting.failing (.link .forward) ∨
      FailsAt setting.failing (.unlinkSource .forward)) :
    ImportHolds setting input disk ↔ ¬ FailsAt setting.failing .cleanStaging := by
  have hstaging : (prepared.begun disk).disk (stagingPath prepared.target) = none :=
    made_staging.trans hfree
  rcases @stageArtifact_free setting (prepared.begun disk) prepared hstaging with
    ⟨hstage, -⟩ | ⟨-, -, -, hno, -⟩
  · have htarget : withFile (prepared.made disk) (stagingPath prepared.target) prepared.content
        prepared.target = disk prepared.target :=
      (withFile_other staging_ne_target.symm).trans (made_target hrooted)
    obtain ⟨e, hmove⟩ := @moveArtifactNoReplace_stops setting ((prepared.begun disk).on
      (withFile (prepared.made disk) (stagingPath prepared.target) prepared.content)) .forward
      (stagingPath prepared.target) prepared.target prepared.content withFile_self
      (hstops.imp_left fun htaken hnone => htaken (htarget.symm.trans hnone))
    have hpublish := (publishImport_begun input hmake hopen).trans
      ((bind_of_ok hstage _).trans (bind_of_error hmove _))
    obtain ⟨hstill, hremoved⟩ := importHolds_staged hprepared hpublish rfl rfl
    by_cases hclean : FailsAt setting.failing .cleanStaging
    · rw [hstill (.inl hclean)]
      exact iff_of_false (not_restored_added staging_ne_temporary (fileAt_none hfree)
        fileAt_put_self) (not_not_intro hclean)
    · refine iff_of_true ((hremoved prepared.content hclean withFile_self).mpr ?_) hclean
      rw [on_disk, withFile_put]
      exact (put_same hstaging).symm ▸ restored_made hopen
  · exact absurd hno hstaged

/-! ### After the move -/

variable (hfree : disk (stagingPath prepared.target) = none)
  (hstaged : ¬ StopsStaging setting.failing) (hnew : disk prepared.target = none)
  (hlink : ¬ FailsAt setting.failing (.link .forward))
  (hunlink : ¬ FailsAt setting.failing (.unlinkSource .forward))

include hfree hstaged hnew hlink hunlink

variable (input) in
omit hprepared in
theorem publishImport_arrived : publishImport setting input prepared (World.start disk) =
    (Fallible.lift (checkUpdated setting (importedManifest setting prepared)) >>= fun _ =>
      writeInventory setting input.inventoryPath (importedManifest setting prepared) >>= fun _ =>
      Fallible.modify (fun world => { world with createdArtifactPath := none }) >>= fun _ =>
      pure { unchangedImport (importedRecord setting prepared) .imported prepared.artifactPath
        (setting.digest prepared.content) with mutated := true }) (prepared.arrived disk) := by
  have hstaging : (prepared.begun disk).disk (stagingPath prepared.target) = none :=
    made_staging.trans hfree
  rcases @stageArtifact_free setting (prepared.begun disk) prepared hstaging with
    ⟨hstage, -⟩ | ⟨-, -, -, hno, -⟩
  · have htarget : withFile (prepared.made disk) (stagingPath prepared.target) prepared.content
        prepared.target = none :=
      (withFile_other staging_ne_target.symm).trans ((made_target hrooted).trans hnew)
    have hmove := @moveArtifactNoReplace_ok setting ((prepared.begun disk).on
      (withFile (prepared.made disk) (stagingPath prepared.target) prepared.content)) .forward
      (stagingPath prepared.target) prepared.target prepared.content withFile_self htarget hlink
      hunlink
    have hdisk : (withFile (withFile (prepared.made disk) (stagingPath prepared.target)
        prepared.content) prepared.target prepared.content).put (stagingPath prepared.target) none =
        withFile (prepared.made disk) prepared.target prepared.content := by
      rw [withFile_comm staging_ne_target.symm, withFile_put]
      exact congrArg (withFile · prepared.target prepared.content) (put_same hstaging)
    rw [on_disk, hdisk] at hmove
    exact (publishImport_begun input hmake hopen).trans
      ((bind_of_ok hstage _).trans (bind_of_ok hmove _))
  · exact absurd hno hstaged

omit hmake hfree hstaged hlink hunlink in
/-- A call that fails with the artifact at its destination. -/
theorem holds_left {e : Thrown} (hpublish : publishImport setting input prepared
      (World.start disk) = (.error e, prepared.arrived disk)) :
    ImportHolds setting input disk ↔ (FailsAt setting.failing .cleanArtifact →
      temporaryPath input.inventoryPath = prepared.target) := by
  obtain ⟨hleft, hremoved⟩ := importHolds_created hprepared hpublish rfl rfl withFile_self
  have hmade : prepared.made disk prepared.target = none := (made_target hrooted).trans hnew
  by_cases hclean : FailsAt setting.failing .cleanArtifact
  · rw [hleft hclean]
    by_cases hsame : temporaryPath input.inventoryPath = prepared.target
    · refine iff_of_true ?_ fun _ => hsame
      rw [hsame]
      refine (restored_exempt_iff (fun path hne => (fileAt_put_other hne).trans
        (fileAt_made hopen path)) fileAt_put_self).mpr fun old hold => ?_
      rw [fileAt_none hnew] at hold
      exact absurd hold (by simp)
    · exact iff_of_false (not_restored_added (fun h => hsame h.symm) (fileAt_none hnew)
        fileAt_put_self) fun h => hsame (h hclean)
  · refine iff_of_true ((hremoved hclean).mpr ?_) fun h => absurd h hclean
    change Restored _ disk ((withFile (prepared.made disk) prepared.target prepared.content).put
      prepared.target none)
    rw [withFile_put, put_same hmade]
    exact restored_made hopen

omit hmake hfree hstaged hlink hunlink in
/-- A call that fails with some content in the temporary file. -/
theorem holds_spoiled {e : Thrown} {content : List UInt8} (hpublish : publishImport setting input
      prepared (World.start disk) = (.error e, (prepared.arrived disk).on
        (withFile (prepared.arrived disk).disk (temporaryPath input.inventoryPath) content)))
    (hclean : ¬ FailsAt setting.failing .cleanArtifact) : ImportHolds setting input disk ↔
      ∀ old, fileAt disk (temporaryPath input.inventoryPath) = some old → old = content := by
  have hmade : prepared.made disk prepared.target = none := (made_target hrooted).trans hnew
  by_cases hsame : temporaryPath input.inventoryPath = prepared.target
  · have hfile : ((prepared.arrived disk).on (withFile (prepared.arrived disk).disk
        (temporaryPath input.inventoryPath) content)).disk prepared.target =
        some (.file content) := by
      rw [on_disk, hsame, withFile_self]
    rw [(importHolds_created hprepared hpublish rfl rfl hfile).2 hclean, on_disk, hsame]
    refine iff_of_true ?_ fun old hold => ?_
    · change Restored _ disk ((withFile (withFile (prepared.made disk) prepared.target
        prepared.content) prepared.target content).put prepared.target none)
      rw [withFile_put, withFile_put, put_same hmade]
      exact restored_made hopen
    · rw [fileAt_none hnew] at hold
      exact absurd hold (by simp)
  · have hfile : ((prepared.arrived disk).on (withFile (prepared.arrived disk).disk
        (temporaryPath input.inventoryPath) content)).disk prepared.target =
        some (.file prepared.content) :=
      (withFile_other fun h => hsame h.symm).trans withFile_self
    have hdisk : (withFile (withFile (prepared.made disk) prepared.target prepared.content)
        (temporaryPath input.inventoryPath) content).put prepared.target none =
        withFile (prepared.made disk) (temporaryPath input.inventoryPath) content := by
      rw [withFile_comm hsame, withFile_put, put_same hmade]
    rw [(importHolds_created hprepared hpublish rfl rfl hfile).2 hclean]
    change Restored _ disk ((withFile (withFile (prepared.made disk) prepared.target
      prepared.content) (temporaryPath input.inventoryPath) content).put prepared.target none) ↔ _
    rw [hdisk]
    exact restored_exempt_iff (fun path hne =>
      (fileAt_put_other hne).trans (fileAt_made hopen path)) fileAt_put_self

theorem holds_invalid (hvalid : ¬ Valid setting.texts (importedManifest setting prepared).records) :
    ImportHolds setting input disk ↔ (FailsAt setting.failing .cleanArtifact →
      temporaryPath input.inventoryPath = prepared.target) := by
  have hrefused : ∃ e, checkUpdated setting (importedManifest setting prepared) = .error e :=
    ⟨_, if_neg hvalid⟩
  obtain ⟨e, he⟩ := hrefused
  exact holds_left hprepared hrooted hopen hnew
    ((publishImport_arrived input hrooted hmake hopen hfree hstaged hnew hlink
      hunlink).trans (bind_of_error (lift_of_error he) _))

variable (hvalid : Valid setting.texts (importedManifest setting prepared).records)

include hvalid

variable (input) in
omit hprepared in
theorem publishImport_checked : publishImport setting input prepared (World.start disk) =
    (writeInventory setting input.inventoryPath (importedManifest setting prepared) >>= fun _ =>
      Fallible.modify (fun world => { world with createdArtifactPath := none }) >>= fun _ =>
      pure { unchangedImport (importedRecord setting prepared) .imported prepared.artifactPath
        (setting.digest prepared.content) with mutated := true }) (prepared.arrived disk) := by
  have hchecked : checkUpdated setting (importedManifest setting prepared) = .ok () := if_pos hvalid
  rw [publishImport_arrived input hrooted hmake hopen hfree hstaged hnew hlink hunlink,
    bind_of_ok (lift_of_ok hchecked)]

omit hmake hopen hfree hstaged hlink hunlink hvalid in
/-- Directories stand above the inventory while the artifact is at its destination. -/
theorem settled_arrived : Settled (prepared.arrived disk).disk input.inventoryPath := by
  intro above habove
  obtain ⟨bytes, hbytes, -⟩ := hprepared.parsed
  have hne : above ≠ input.inventoryPath := by
    rintro rfl
    have hlength := habove.length_le
    rw [parent, List.length_dropLast] at hlength
    have hnil : input.inventoryPath = [] := List.eq_nil_of_length_eq_zero (by omega)
    rw [hnil, hrooted.root] at hbytes
    exact absurd hbytes (by simp)
  have hdirectory : disk above = some .directory :=
    hrooted.above (by simp [hbytes]) (habove.trans (List.dropLast_prefix _)) hne
  have hmade : prepared.made disk above = some .directory := by
    rw [Prepared.made, Disk.withDirectory]
    split_ifs
    · rfl
    · exact hdirectory
  have hother : above ≠ prepared.target := by
    rintro rfl
    rw [made_target hrooted, hnew] at hmade
    exact absurd hmade (by simp)
  exact (withFile_other hother).trans hmade

/-- The inventory cannot be written. -/
theorem holds_blocked (hstops : FailsAt setting.failing .makeInventoryDirectory ∨
      prepared.made disk (temporaryPath input.inventoryPath) = some .directory) :
    ImportHolds setting input disk ↔ ¬ FailsAt setting.failing .cleanArtifact := by
  have hmade : prepared.made disk prepared.target = none := (made_target hrooted).trans hnew
  have happart : prepared.made disk (temporaryPath input.inventoryPath) = some .directory →
      temporaryPath input.inventoryPath ≠ prepared.target := by
    intro hdirectory hsame
    rw [hsame, hmade] at hdirectory
    exact absurd hdirectory (by simp)
  have hblocked : FailsAt setting.failing .makeInventoryDirectory ∨
      (prepared.arrived disk).disk (temporaryPath input.inventoryPath) = some .directory :=
    hstops.imp_right fun hdirectory => (withFile_other (happart hdirectory)).trans hdirectory
  obtain ⟨e, hwrite⟩ := writeInventory_blocked (importedManifest setting prepared)
    (settled_arrived hprepared hrooted hnew) hblocked
  rw [holds_left hprepared hrooted hopen hnew ((publishImport_checked input hrooted
    hmake hopen hfree hstaged hnew hlink hunlink hvalid).trans (bind_of_error hwrite _))]
  refine imp_congr_right fun hclean => iff_of_false ?_ not_false
  rcases hstops with hfails | hdirectory
  · have hsteps := failsAt_unique hfails hclean
    cases hsteps
  · exact happart hdirectory

variable (hinventory : ¬ FailsAt setting.failing .makeInventoryDirectory)
  (hplace : prepared.made disk (temporaryPath input.inventoryPath) ≠ some .directory)

include hinventory hplace

omit hprepared hrooted hmake hopen hfree hstaged hnew hlink hunlink hvalid hinventory in
theorem place_arrived :
    (prepared.arrived disk).disk (temporaryPath input.inventoryPath) ≠ some .directory := by
  change withFile (prepared.made disk) prepared.target prepared.content _ ≠ _
  by_cases hsame : temporaryPath input.inventoryPath = prepared.target
  · rw [hsame, withFile_self]
    simp
  · rw [withFile_other hsame]
    exact hplace

/-- The step that writes the temporary file fails. -/
theorem holds_unwritten {fault : Fault Step} (hfault : setting.failing = some fault)
    (hstep : fault.step = .writeTemporary) : ImportHolds setting input disk ↔
      TemporaryKept setting input disk prepared := by
  have hwrite : FailsAt setting.failing .writeTemporary := ⟨fault, hfault, hstep⟩
  have hclean : ¬ FailsAt setting.failing .cleanArtifact := fun h => by
    have hsteps := failsAt_unique hwrite h
    cases hsteps
  obtain ⟨e, hfails⟩ := writeInventory_unwritten (importedManifest setting prepared)
    (settled_arrived hprepared hrooted hnew) hinventory (place_arrived hplace) hfault hstep
  have hpublish := (publishImport_checked input hrooted hmake hopen hfree hstaged hnew
    hlink hunlink hvalid).trans (bind_of_error hfails _)
  have hkept : TemporaryKept setting input disk prepared ↔
      ∀ content, fault.leftover = some content → ∀ old,
        fileAt disk (temporaryPath input.inventoryPath) = some old → old = content := by
    constructor
    · exact fun h content => h.partly fault content hfault hstep
    · refine fun h => ⟨fun other content hother _ => ?_, fun hrename => ?_,
        fun hno => absurd hwrite hno⟩
      · obtain rfl := Option.some.inj (hfault.symm.trans hother)
        exact h content
      · have hsteps := failsAt_unique hwrite hrename
        cases hsteps
  rw [hkept]
  cases hleft : fault.leftover with
  | none =>
      rw [hleft] at hpublish
      rw [holds_left hprepared hrooted hopen hnew hpublish]
      exact iff_of_true (fun h => absurd h hclean) fun content h => absurd h (by simp)
  | some content =>
      rw [hleft] at hpublish
      rw [holds_spoiled hprepared hrooted hopen hnew hpublish hclean]
      constructor
      · intro h other hsame
        rw [← Option.some.inj hsame]
        exact h
      · exact fun h => h content rfl

/-- The step that renames the temporary file fails. -/
theorem holds_unrenamed (hrename : FailsAt setting.failing .renameTemporary) :
    ImportHolds setting input disk ↔ TemporaryKept setting input disk prepared := by
  have hclean : ¬ FailsAt setting.failing .cleanArtifact := fun h => by
    have hsteps := failsAt_unique hrename h
    cases hsteps
  obtain ⟨e, hfails⟩ := writeInventory_unrenamed (importedManifest setting prepared)
    (settled_arrived hprepared hrooted hnew) hinventory (place_arrived hplace) hrename
  have hpublish := (publishImport_checked input hrooted hmake hopen hfree hstaged hnew
    hlink hunlink hvalid).trans (bind_of_error hfails _)
  rw [holds_spoiled hprepared hrooted hopen hnew hpublish hclean]
  constructor
  · refine fun h => ⟨fun fault content hfault hstep => ?_, fun _ => h,
      fun _ hno => absurd hrename hno⟩
    have hsteps := failsAt_unique hrename ⟨fault, hfault, hstep⟩
    cases hsteps
  · exact fun h => h.unrenamed hrename

variable (hwrite : ¬ FailsAt setting.failing .writeTemporary)
  (hrename : ¬ FailsAt setting.failing .renameTemporary)

omit hrooted hmake hopen hfree hstaged hlink hunlink hvalid hinventory hplace in
theorem inventory_ne_target : input.inventoryPath ≠ prepared.target := by
  obtain ⟨bytes, hbytes, -⟩ := hprepared.parsed
  rintro h
  rw [h, hnew] at hbytes
  exact absurd hbytes (by simp)

include hwrite hrename

theorem importLocalArtifact_imported : importLocalArtifact setting input (World.start disk) =
    (.ok { unchangedImport (importedRecord setting prepared) .imported prepared.artifactPath
        (setting.digest prepared.content) with mutated := true },
      ⟨importedDisk setting input prepared disk, none, none, none⟩) := by
  obtain ⟨bytes, hbytes, -⟩ := hprepared.parsed
  have hfile : (prepared.arrived disk).disk input.inventoryPath = some (.file bytes) :=
    (withFile_other (inventory_ne_target hprepared hnew)).trans (withDirectory_file hopen hbytes)
  have hwritten := writeInventory_ok (importedManifest setting prepared)
    (settled_arrived hprepared hrooted hnew) hinventory (place_arrived hplace) (by simp [hfile])
    hwrite hrename
  have hpublish := (publishImport_checked input hrooted hmake hopen hfree hstaged hnew
    hlink hunlink hvalid).trans (bind_of_ok hwritten _)
  have hprepare := (@prepareImport_inr_iff _ _ (World.start disk) _ _).mpr ⟨hprepared, rfl⟩
  unfold importLocalArtifact
  refine recover_of_ok ((bind_of_ok hprepare _).trans (hpublish.trans ?_)) _
  rfl

omit hrooted hmake hfree hstaged hlink hunlink hinventory hplace hwrite hrename in
/-- What a successful call changed, where the temporary file was not in the way. -/
theorem importedAs_importedDisk
    (htemporary : fileAt disk (temporaryPath input.inventoryPath) = none)
    (happart : temporaryPath input.inventoryPath ≠ prepared.target) :
    ImportedAs setting input disk (importedDisk setting input prepared disk) := by
  obtain ⟨bytes, hbytes, hparse⟩ := hprepared.parsed
  obtain ⟨hmem, hsource, hversion⟩ := importableRecord_ok hprepared.record
  have hvalid' := (@valid_replaced_iff _ _ _ (importedRecord setting prepared) hprepared.valid hmem
    rfl rfl).mp hvalid
  obtain ⟨older, newer, hrecords, hreplaced⟩ := @replaced_eq _ _
    (importedRecord setting prepared) (valid_iff.mp hprepared.valid).2 hmem hvalid'.2 rfl
  have htarget := hprepared.target
  rw [hsource, hversion] at htarget
  refine ⟨prepared.target, prepared.content, htarget, hprepared.content, hnew, ?_,
    fun path hpath hinventoryPath => ?_, bytes, prepared.manifest, importedManifest setting prepared,
    fileAt_eq_some.mpr hbytes, hparse, fileAt_put_self, older, prepared.record, _, newer, hrecords,
    hsource, hversion, hreplaced, rfl, rfl⟩
  · rw [importedDisk, fileAt_put_other (inventory_ne_target hprepared hnew).symm,
      fileAt_put_other fun h => happart h.symm]
    exact fileAt_put_self
  · rw [importedDisk, fileAt_put_other hinventoryPath]
    by_cases hsame : path = temporaryPath input.inventoryPath
    · rw [hsame, fileAt_put_none, htemporary]
    · rw [fileAt_put_other hsame]
      exact (fileAt_put_other hpath).trans (fileAt_made hopen path)

/-- No step fails. -/
theorem holds_written :
    ImportHolds setting input disk ↔ TemporaryKept setting input disk prepared := by
  have hrun := importLocalArtifact_imported hprepared hrooted hmake hopen hfree hstaged hnew hlink
    hunlink hvalid hinventory hplace hwrite hrename
  have hkept : TemporaryKept setting input disk prepared ↔
      fileAt disk (temporaryPath input.inventoryPath) = none ∧
        temporaryPath input.inventoryPath ≠ prepared.target := by
    constructor
    · exact fun h => h.renamed hwrite hrename
    · exact fun h => ⟨fun fault _ hfault hstep => absurd ⟨fault, hfault, hstep⟩ hwrite,
        fun hfails => absurd hfails hrename, fun _ _ => h⟩
  rw [hkept]
  constructor
  · rintro ⟨result, world, hresult, -, himported⟩
    rw [hrun] at hresult
    cases hresult
    obtain ⟨target, content, htarget, -, -, harrived, hothers, -⟩ := himported rfl
    obtain ⟨-, hsource, hversion⟩ := importableRecord_ok hprepared.record
    have hsame := hprepared.target
    rw [hsource, hversion, htarget] at hsame
    obtain rfl := Except.ok.inj hsame
    have hne : temporaryPath input.inventoryPath ≠ input.inventoryPath :=
      withSuffix_ne_self (by decide)
    have hgone : fileAt (importedDisk setting input prepared disk)
        (temporaryPath input.inventoryPath) = none := by
      rw [importedDisk, fileAt_put_other hne, fileAt_put_none]
    have happart : temporaryPath input.inventoryPath ≠ prepared.target := by
      intro h
      rw [h] at hgone
      rw [hgone] at harrived
      exact absurd harrived (by simp)
    exact ⟨(hothers _ happart hne).symm.trans hgone, happart⟩
  · rintro ⟨htemporary, happart⟩
    exact ⟨_, _, hrun, fun h => absurd h (by simp [unchangedImport]),
      fun _ => importedAs_importedDisk hprepared hopen hnew hvalid htemporary happart⟩

end Made

/-! ## The condition -/

theorem holds_undisturbed_iff (hprepared : Importable setting input disk prepared)
    (hrooted : Rooted disk) (hmake : ¬ FailsAt setting.failing .makeDirectory)
    (hopen : ¬ Blocked disk (parent prepared.target)) :
    ImportHolds setting input disk ↔ Undisturbed setting input disk prepared := by
  by_cases hfree : disk (stagingPath prepared.target) = none
  · have hvacuous : fileAt disk (stagingPath prepared.target) ≠ none →
        FailsAt setting.failing .cleanStaging := fun h => absurd (fileAt_none hfree) h
    by_cases hstaged : StopsStaging setting.failing
    · have hother : ∀ step, step ≠ .writeStaging → step ≠ .readStaging → step ≠ .statStaging →
          ¬ FailsAt setting.failing step := by
        rintro step hwrite hread hstat hfails
        obtain ⟨fault, hfault, hsteps⟩ := hstaged
        have hstep := failsAt_unique hfails ⟨fault, hfault, rfl⟩
        rcases hsteps with h | h | ⟨h, -⟩
        · exact hwrite (hstep.trans h)
        · exact hread (hstep.trans h)
        · exact hstat (hstep.trans h)
      refine iff_of_true (holds_stopped hprepared hmake hopen hfree hstaged)
        ⟨hvacuous, ?_, ?_, ?_, ?_⟩
      · exact fun _ _ => hother _ (by decide) (by decide) (by decide)
      · exact fun _ _ _ h => absurd h (hother _ (by decide) (by decide) (by decide))
      · exact fun _ _ _ _ => hother _ (by decide) (by decide) (by decide)
      · exact fun _ _ _ h => absurd (.inl hstaged) h
    · by_cases hmoves : disk prepared.target ≠ none ∨ FailsAt setting.failing (.link .forward) ∨
          FailsAt setting.failing (.unlinkSource .forward)
      · rw [holds_unmoved hprepared hrooted hmake hopen hfree hstaged hmoves]
        have hfails : disk prepared.target = none → FailsAt setting.failing (.link .forward) ∨
            FailsAt setting.failing (.unlinkSource .forward) :=
          fun hnew => hmoves.resolve_left (not_not_intro hnew)
        have hother : ∀ step, step ≠ .link .forward → step ≠ .unlinkSource .forward →
            disk prepared.target = none → ¬ FailsAt setting.failing step :=
          fun step hlink hunlink hnew h => (hfails hnew).elim
            (fun h' => hlink (failsAt_unique h h')) fun h' => hunlink (failsAt_unique h h')
        constructor
        · refine fun hclean => ⟨hvacuous, fun _ _ => hclean, ?_, ?_, ?_⟩
          · exact fun _ hnew _ h => absurd h (hother _ (by decide) (by decide) hnew)
          · exact fun _ hnew _ _ => hother _ (by decide) (by decide) hnew
          · exact fun _ hnew _ h => absurd (.inr ((hfails hnew).imp_right .inl)) h
        · intro h
          by_cases hnew : disk prepared.target = none
          · exact hother _ (by decide) (by decide) hnew
          · exact h.destination hfree hnew
      · obtain ⟨hnew, hsteps⟩ := not_or.mp hmoves
        obtain ⟨hlink, hunlink⟩ := not_or.mp hsteps
        rw [not_not] at hnew
        by_cases hvalid : Valid setting.texts (importedManifest setting prepared).records
        · by_cases hblocked : FailsAt setting.failing .makeInventoryDirectory ∨
              prepared.made disk (temporaryPath input.inventoryPath) = some .directory
          · rw [holds_blocked hprepared hrooted hmake hopen hfree hstaged hnew hlink hunlink hvalid
              hblocked]
            constructor
            · exact fun hclean => ⟨hvacuous, fun _ h => absurd hnew h, fun _ _ h => absurd hvalid h,
                fun _ _ _ _ => hclean, fun _ _ _ h => absurd (.inr (.inr (.inr hblocked))) h⟩
            · intro h
              rcases hblocked with hfails | hdirectory
              · exact fun hclean => absurd (failsAt_unique hfails hclean) (by decide)
              · exact h.unwritten hfree hnew hvalid hdirectory
          · obtain ⟨hinventory, hplace⟩ := not_or.mp hblocked
            have hreach : ¬ StopsBefore setting input disk prepared := by
              rintro (h | h | h | h | h)
              exacts [hstaged h, hlink h, hunlink h, hinventory h, hplace h]
            have hkept : ImportHolds setting input disk ↔
                TemporaryKept setting input disk prepared := by
              by_cases hwrite : FailsAt setting.failing .writeTemporary
              · obtain ⟨fault, hfault, hstep⟩ := hwrite
                exact holds_unwritten hprepared hrooted hmake hopen hfree hstaged hnew hlink hunlink
                  hvalid hinventory hplace hfault hstep
              · by_cases hrename : FailsAt setting.failing .renameTemporary
                · exact holds_unrenamed hprepared hrooted hmake hopen hfree hstaged hnew hlink
                    hunlink hvalid hinventory hplace hrename
                · exact holds_written hprepared hrooted hmake hopen hfree hstaged hnew hlink
                    hunlink hvalid hinventory hplace hwrite hrename
            rw [hkept]
            exact ⟨fun h => ⟨hvacuous, fun _ htaken => absurd hnew htaken,
              fun _ _ hno => absurd hvalid hno, fun _ _ _ hdirectory => absurd hdirectory hplace,
              fun _ _ _ _ => h⟩, fun h => h.temporary hfree hnew hvalid hreach⟩
        · rw [holds_invalid hprepared hrooted hmake hopen hfree hstaged hnew hlink hunlink hvalid]
          exact ⟨fun h => ⟨hvacuous, fun _ htaken => absurd hnew htaken, fun _ _ _ => h,
            fun _ _ hyes => absurd hyes hvalid, fun _ _ hyes => absurd hyes hvalid⟩,
            fun h => h.invalid hfree hnew hvalid⟩
  · rw [holds_taken hprepared hmake hopen hfree]
    exact ⟨fun h => ⟨h, fun hnone => absurd hnone hfree, fun hnone => absurd hnone hfree,
      fun hnone => absurd hnone hfree, fun hnone => absurd hnone hfree⟩, fun h => h.staging⟩

end Publishing

/-! ## A copy of a crashed import -/

def sampleTexts : Texts where
  platform := samplePlatform []
  protocolOf _ := none
  parseDate _ := some 0

/-- A source of which nothing was acquired. -/
def sampleRecord (documentVersion : String) : SourceRecord where
  sourceId := js "pot"
  documentKey := js "pot"
  documentVersion := js documentVersion
  title := js "Plan de ordenamiento"
  category := .planning
  status := .identified
  targetJurisdiction := js "Antigua Guatemala"
  sourceJurisdiction := js "Antigua Guatemala"
  municipality := none
  authorityClass := .officialMunicipal
  authorityLevel := .primary
  officialSource := true
  officialForTargetJurisdiction := true
  publicUrl := none
  verifiedAt := none
  publicationDate := none
  effectiveFrom := none
  effectiveTo := none
  acquisition := none
  artifactSafety := none
  extraction := none
  indexing := none
  failureCodes := none
  supersedesSourceId := none
  supersededBySourceId := none
  limitations := []
  provenanceNotes := []
  tags := none

def sampleManifest : InventoryManifest :=
  ⟨js "Antigua Guatemala", js "2026-01-01T00:00:00.000Z", [sampleRecord "1"]⟩

/-- An inventory file of one byte, a text of one byte, and no failing step. -/
def sampleSetting : Setting where
  texts := sampleTexts
  cwd := []
  digest _ := List.replicate 64 0x61
  probe := {
    extension _ := js ".txt"
    hasPdfSignature _ := false
    hasDocxSignature _ := false
    isUtf8Text _ := true }
  parse _ := .ok sampleManifest
  print _ := [2]
  now _ := js "2026-02-01T00:00:00.000Z"
  policy := ⟨1000, 1000⟩
  failing := none
  cwdProper := by simp
  hexadecimal _ := by decide
  nowShown _ := by decide

def sampleImport : ImportInput where
  inventoryPath := [js "inventory.json"]
  sourceId := js "pot"
  inputPath := js "/pot.txt"
  libraryRoot := js "/library"
  documentVersion := js "1"
  mediaType := js "text/plain"
  dryRun := false

/-- The inventory, the input, and the copy of an import that stopped before its move. -/
def sampleDisk : Disk JsString := Disk.ofEntries [
  ([], .directory),
  ([js "inventory.json"], .file [1]),
  ([js "pot.txt"], .file [65]),
  ([js "library"], .directory),
  ([js "library", js "pot"], .directory),
  ([js "library", js "pot", js "pot--1.txt.importing"], .file [66])]

theorem rooted_sampleDisk : Rooted sampleDisk :=
  rooted_ofEntries (by decide +kernel) (by decide +kernel)

def sampleOutcome : Except Thrown OperationResult × World :=
  importLocalArtifact sampleSetting sampleImport (World.start sampleDisk)

theorem sampleOutcome_failed : sampleOutcome.1.toOption.map (·.status) = some .failed := by
  decide +kernel

/-- The copy of the other import is gone. -/
theorem sampleOutcome_lost :
    fileAt sampleDisk [js "library", js "pot", js "pot--1.txt.importing"] = some [66] ∧
      fileAt sampleOutcome.2.disk [js "library", js "pot", js "pot--1.txt.importing"] = none := by
  decide +kernel

theorem not_importHolds_sample : ¬ ImportHolds sampleSetting sampleImport sampleDisk := by
  rintro ⟨result, world, hrun, hfailed, -⟩
  have hrun' : sampleOutcome = (.ok result, world) := hrun
  have hstatus := sampleOutcome_failed
  have hlost := sampleOutcome_lost
  rw [hrun'] at hstatus hlost
  exact not_restored_removed (by simp [hlost.1]) hlost.2
    (hfailed (by simpa [Except.toOption] using hstatus))

end Import

end DocumentLibrary
