import MuniRag.Library.InspectSteps

/-!
# How an inspection settles

The disk after each way a settlement can end: nothing moved, the artifact moved and its record
written, or the move undone, with or without something left in the temporary file of the
inventory.
-/

namespace DocumentLibrary

open Api FileSystem PosixPath Fallible

section Settle

variable {setting : Setting} {input : InspectInput} {disk : Disk JsString} {managed : Managed}
  {content : List UInt8} {settled : Settlement} {target : Path}

/-- Where the artifact is after its move. -/
def Settlement.place (settled : Settlement) (managed : Managed) : Path :=
  settled.target.getD managed.path

def updatedManifest (setting : Setting) (managed : Managed) (settled : Settlement) :
    InventoryManifest :=
  replaceRecord managed.manifest settled.updated (setting.now 0)

/-- The disk with the artifact moved. -/
def movedDisk (disk : Disk JsString) (path : Path) (content : List UInt8) :
    Option Path → Disk JsString
  | none => disk
  | some target =>
      (withFile (disk.withDirectory (parent target)) target content).put path none

/-- The world with the artifact moved. -/
def movedWorld (disk : Disk JsString) (path : Path) (content : List UInt8)
    (target : Option Path) : World :=
  ⟨movedDisk disk path content target, none, none, target.map (path, ·)⟩

/-- The target is free, and no step fails that moves an artifact there. -/
structure CanMove (setting : Setting) (disk : Disk JsString) (target : Path) : Prop where
  make : ¬ FailsAt setting.failing .makeDirectory
  unblocked : ¬ Blocked disk (parent target)
  free : disk target = none
  link : ¬ FailsAt setting.failing (.link .forward)
  unlink : ¬ FailsAt setting.failing (.unlinkSource .forward)

/-- The temporary file of the inventory can be written. -/
structure CanWrite (setting : Setting) (input : InspectInput) (disk : Disk JsString) : Prop where
  make : ¬ FailsAt setting.failing .makeInventoryDirectory
  place : disk (temporaryPath input.inventoryPath) ≠ some .directory

/-! ## The move -/

theorem withDirectory_target (hrooted : Rooted disk) :
    disk.withDirectory (parent target) target = disk target := by
  by_cases hnil : target = []
  · rw [Disk.withDirectory, hnil, if_pos (List.nil_prefix), hrooted.root]
  · refine withDirectory_longer ?_
    have hpos := List.length_pos_iff.mpr hnil
    rw [parent, List.length_dropLast]
    omega

theorem moveArtifact_ok (hrooted : Rooted disk) {path : Path}
    (hpath : disk path = some (.file content)) (h : CanMove setting disk target) :
    moveArtifact setting path target (World.start disk) =
      (.ok (), movedWorld disk path content (some target)) := by
  have hmade : FileSystem.makeDirectory (parent target) (World.start disk).disk =
      .ok ((), disk.withDirectory (parent target)) := if_neg h.unblocked
  have hsource : ((World.start disk).on (disk.withDirectory (parent target))).disk path =
      some (.file content) := withDirectory_file h.unblocked hpath
  have hfree : ((World.start disk).on (disk.withDirectory (parent target))).disk target = none :=
    (withDirectory_target hrooted).trans h.free
  unfold moveArtifact mkdir
  rw [bind_of_ok (perform_ok h.make hmade),
    bind_of_ok (moveArtifactNoReplace_ok hsource hfree h.link h.unlink)]
  rfl

/-- A move that stops leaves every file, and there is nothing to undo. -/
theorem moveArtifact_stops (hrooted : Rooted disk) {path : Path}
    (hpath : disk path = some (.file content)) (h : ¬ CanMove setting disk target) :
    ∃ e after, moveArtifact setting path target (World.start disk) =
      (.error e, (World.start disk).on after) ∧ ∀ other, fileAt after other = fileAt disk other := by
  unfold moveArtifact mkdir
  by_cases hmake : FailsAt setting.failing .makeDirectory ∨ Blocked disk (parent target)
  · have hrefused : FailsAt setting.failing .makeDirectory ∨ FileSystem.makeDirectory
        (parent target) (World.start disk).disk = .error .notDirectory :=
      hmake.imp_right fun hblocked => if_pos hblocked
    obtain ⟨errno, herror⟩ := perform_fails hrefused
    exact ⟨_, disk, bind_of_error herror _, fun _ => rfl⟩
  · obtain ⟨hmake, hopen⟩ := not_or.mp hmake
    have hmade : FileSystem.makeDirectory (parent target) (World.start disk).disk =
        .ok ((), disk.withDirectory (parent target)) := if_neg hopen
    have hsource : ((World.start disk).on (disk.withDirectory (parent target))).disk path =
        some (.file content) := withDirectory_file hopen hpath
    have hstops : ((World.start disk).on (disk.withDirectory (parent target))).disk target ≠ none ∨
        FailsAt setting.failing (.link .forward) ∨
        FailsAt setting.failing (.unlinkSource .forward) := by
      by_contra hno
      obtain ⟨hfree, hsteps⟩ := not_or.mp hno
      obtain ⟨hlink, hunlink⟩ := not_or.mp hsteps
      refine h ⟨hmake, hopen, ?_, hlink, hunlink⟩
      exact (withDirectory_target hrooted).symm.trans (not_not.mp hfree)
    obtain ⟨e, herror⟩ := moveArtifactNoReplace_stops hsource hstops
    refine ⟨e, disk.withDirectory (parent target), ?_, fun _ => fileAt_withDirectory hopen⟩
    rw [bind_of_ok (perform_ok hmake hmade), bind_of_error herror]

/-- The settlement is the write of the record once the artifact is moved. -/
theorem settle_moved (hrooted : Rooted disk) (hpath : disk managed.path = some (.file content))
    (h : ∀ target, settled.target = some target → CanMove setting disk target) :
    settle setting input managed settled (World.start disk) =
      recordInspection setting input managed.manifest settled.updated (setting.now 0)
        (movedWorld disk managed.path content settled.target) := by
  unfold settle
  cases htarget : settled.target with
  | none => rfl
  | some target => exact bind_of_ok (moveArtifact_ok hrooted hpath (h target htarget)) _

theorem settle_unmoved (hrooted : Rooted disk) (hpath : disk managed.path = some (.file content))
    (htarget : settled.target = some target) (h : ¬ CanMove setting disk target) :
    ∃ e after, settle setting input managed settled (World.start disk) =
      (.error e, (World.start disk).on after) ∧ ∀ other, fileAt after other = fileAt disk other := by
  obtain ⟨e, after, herror, hfiles⟩ := @moveArtifact_stops setting disk content target hrooted
    managed.path hpath h
  refine ⟨e, after, ?_, hfiles⟩
  unfold settle
  rw [htarget]
  exact bind_of_error herror _

/-! ## The moved artifact -/

section Moved

variable (hrooted : Rooted disk) (hpath : disk managed.path = some (.file content))
  (hmove : ∀ target, settled.target = some target → CanMove setting disk target)

include hpath hmove

theorem target_ne_path (htarget : settled.target = some target) : target ≠ managed.path := by
  rintro rfl
  rw [(hmove _ htarget).free] at hpath
  exact absurd hpath (by simp)

theorem movedDisk_place :
    movedDisk disk managed.path content settled.target (settled.place managed) =
      some (.file content) := by
  unfold Settlement.place
  cases htarget : settled.target with
  | none => exact hpath
  | some target =>
      exact (put_other (target_ne_path hpath hmove htarget)).trans withFile_self

omit hpath in
theorem fileAt_movedDisk {path : Path} (hplace : path ≠ settled.place managed) :
    fileAt (movedDisk disk managed.path content settled.target) path =
      if path = managed.path then none else fileAt disk path := by
  unfold Settlement.place at hplace
  cases htarget : settled.target with
  | none =>
      rw [htarget, Option.getD_none] at hplace
      rw [if_neg hplace]
      rfl
  | some target =>
      rw [htarget] at hplace
      split_ifs with hsame
      · rw [hsame]
        exact fileAt_put_none
      · refine (fileAt_put_other hsame).trans ((fileAt_put_other hplace).trans ?_)
        exact fileAt_withDirectory (hmove target htarget).unblocked

include hrooted in
/-- Directories stand above a file while the artifact is moved. -/
theorem settled_movedDisk {path : Path} {bytes : List UInt8}
    (hbytes : disk path = some (.file bytes)) :
    Settled (movedDisk disk managed.path content settled.target) path := by
  intro above habove
  have hne : above ≠ path := by
    rintro rfl
    have hlength := habove.length_le
    rw [parent, List.length_dropLast] at hlength
    have hnil : above = [] := List.eq_nil_of_length_eq_zero (by omega)
    rw [hnil, hrooted.root] at hbytes
    exact absurd hbytes (by simp)
  have hdirectory : disk above = some .directory :=
    hrooted.above (by simp [hbytes]) (habove.trans (List.dropLast_prefix _)) hne
  have hother : above ≠ managed.path := by
    rintro rfl
    rw [hpath] at hdirectory
    cases hdirectory
  cases htarget : settled.target with
  | none => exact hdirectory
  | some target =>
      have htaken : above ≠ target := by
        rintro rfl
        rw [(hmove _ htarget).free] at hdirectory
        cases hdirectory
      refine (put_other hother).trans ((withFile_other htaken).trans ?_)
      rw [Disk.withDirectory]
      split_ifs
      · rfl
      · exact hdirectory

/-- The inventory is a file, or it was the artifact and is moved. -/
theorem inventory_movedDisk {bytes : List UInt8}
    (hbytes : disk input.inventoryPath = some (.file bytes)) :
    movedDisk disk managed.path content settled.target input.inventoryPath ≠ some .directory := by
  by_cases hplace : input.inventoryPath = settled.place managed
  · rw [hplace, movedDisk_place hpath hmove]
    simp
  · intro hdirectory
    cases htarget : settled.target with
    | none =>
        rw [htarget, movedDisk, hbytes] at hdirectory
        cases hdirectory
    | some target =>
        rw [htarget] at hdirectory
        have hfile := withDirectory_file (hmove target htarget).unblocked hbytes
        by_cases hsame : input.inventoryPath = managed.path
        · rw [hsame, movedDisk, put_self] at hdirectory
          cases hdirectory
        · have htaken : input.inventoryPath ≠ target := by
            rintro rfl
            rw [(hmove _ htarget).free] at hbytes
            cases hbytes
          rw [movedDisk, put_other hsame, withFile_other htaken, hfile] at hdirectory
          cases hdirectory

end Moved

/-! ## The record -/

/-- The inventory is not changed, nor is its temporary file. -/
def Refused (setting : Setting) (input : InspectInput) (disk : Disk JsString) (managed : Managed)
    (content : List UInt8) (settled : Settlement) : Prop :=
  ¬ Valid setting.texts (updatedManifest setting managed settled).records ∨
    ¬ CanWrite setting input (movedDisk disk managed.path content settled.target) ∨
    ∃ fault, setting.failing = some fault ∧ fault.step = .writeTemporary ∧ fault.leftover = none

/-- What a failing step leaves in the temporary file of the inventory. -/
def LeftBehind (setting : Setting) (manifest : InventoryManifest) (left : List UInt8) : Prop :=
  (∃ fault, setting.failing = some fault ∧ fault.step = .writeTemporary ∧
    fault.leftover = some left) ∨
  FailsAt setting.failing .renameTemporary ∧ left = setting.print manifest

/-- The disk with the record written. -/
def writtenDisk (setting : Setting) (input : InspectInput) (disk : Disk JsString)
    (managed : Managed) (content : List UInt8) (settled : Settlement) : Disk JsString :=
  withFile ((movedDisk disk managed.path content settled.target).put
    (temporaryPath input.inventoryPath) none) input.inventoryPath
    (setting.print (updatedManifest setting managed settled))

section Recording

variable (hrooted : Rooted disk) (hpath : disk managed.path = some (.file content))
  (hmove : ∀ target, settled.target = some target → CanMove setting disk target)
  {bytes : List UInt8} (hinventory : disk input.inventoryPath = some (.file bytes))

include hrooted hpath hmove hinventory

theorem settle_refused (h : Refused setting input disk managed content settled) :
    ∃ e, settle setting input managed settled (World.start disk) =
      (.error e, movedWorld disk managed.path content settled.target) := by
  rw [settle_moved hrooted hpath hmove]
  have hsettled : Settled (movedWorld disk managed.path content settled.target).disk
      input.inventoryPath := settled_movedDisk hrooted hpath hmove hinventory
  unfold recordInspection
  by_cases hvalid : Valid setting.texts (updatedManifest setting managed settled).records
  · have hchecked : checkUpdated setting (updatedManifest setting managed settled) = .ok () :=
      if_pos hvalid
    have herror : ∃ e, writeInventory setting input.inventoryPath
        (updatedManifest setting managed settled)
        (movedWorld disk managed.path content settled.target) =
        (.error e, movedWorld disk managed.path content settled.target) := by
      by_cases hwrite : CanWrite setting input (movedDisk disk managed.path content settled.target)
      · obtain ⟨fault, hfault, hstep, hleft⟩ :=
          (h.resolve_left (not_not_intro hvalid)).resolve_left (not_not_intro hwrite)
        obtain ⟨e, he⟩ := writeInventory_unwritten (updatedManifest setting managed settled)
          hsettled hwrite.make hwrite.place hfault hstep
        rw [hleft] at he
        exact ⟨e, he⟩
      · refine writeInventory_blocked (updatedManifest setting managed settled) hsettled ?_
        by_contra hno
        obtain ⟨hmake, hplace⟩ := not_or.mp hno
        exact hwrite ⟨hmake, hplace⟩
    obtain ⟨e, he⟩ := herror
    exact ⟨e, (bind_of_ok (lift_of_ok hchecked) _).trans (bind_of_error he _)⟩
  · have hchecked : ∃ e, checkUpdated setting (updatedManifest setting managed settled) =
        .error e := ⟨_, if_neg hvalid⟩
    obtain ⟨e, he⟩ := hchecked
    exact ⟨e, bind_of_error (lift_of_error he) _⟩

variable (hvalid : Valid setting.texts (updatedManifest setting managed settled).records)
  (hwrite : CanWrite setting input (movedDisk disk managed.path content settled.target))

include hvalid hwrite

theorem settle_left {left : List UInt8}
    (h : LeftBehind setting (updatedManifest setting managed settled) left) :
    ∃ e, settle setting input managed settled (World.start disk) =
      (.error e, (movedWorld disk managed.path content settled.target).on
        (withFile (movedDisk disk managed.path content settled.target)
          (temporaryPath input.inventoryPath) left)) := by
  rw [settle_moved hrooted hpath hmove]
  have hsettled : Settled (movedWorld disk managed.path content settled.target).disk
      input.inventoryPath := settled_movedDisk hrooted hpath hmove hinventory
  have hchecked : checkUpdated setting (updatedManifest setting managed settled) = .ok () :=
    if_pos hvalid
  unfold recordInspection
  rcases h with ⟨fault, hfault, hstep, hleft⟩ | ⟨hrename, rfl⟩
  · obtain ⟨e, he⟩ := writeInventory_unwritten (updatedManifest setting managed settled)
      hsettled hwrite.make hwrite.place hfault hstep
    rw [hleft] at he
    exact ⟨e, (bind_of_ok (lift_of_ok hchecked) _).trans (bind_of_error he _)⟩
  · obtain ⟨e, he⟩ := writeInventory_unrenamed (updatedManifest setting managed settled)
      hsettled hwrite.make hwrite.place hrename
    exact ⟨e, (bind_of_ok (lift_of_ok hchecked) _).trans (bind_of_error he _)⟩

theorem settle_written (htemporary : ¬ FailsAt setting.failing .writeTemporary)
    (hrename : ¬ FailsAt setting.failing .renameTemporary) :
    settle setting input managed settled (World.start disk) =
      (.ok (), World.start (writtenDisk setting input disk managed content settled)) := by
  rw [settle_moved hrooted hpath hmove]
  have hchecked : checkUpdated setting (updatedManifest setting managed settled) = .ok () :=
    if_pos hvalid
  have hsettled : Settled (movedWorld disk managed.path content settled.target).disk
      input.inventoryPath := settled_movedDisk hrooted hpath hmove hinventory
  have hwritten := writeInventory_ok (updatedManifest setting managed settled) hsettled
    hwrite.make hwrite.place (inventory_movedDisk hpath hmove hinventory) htemporary hrename
  exact (bind_of_ok (lift_of_ok hchecked) _).trans (bind_of_ok hwritten _)

end Recording

/-! ## Undoing the move -/

section Back

variable (hrooted : Rooted disk) (hpath : disk managed.path = some (.file content))
  (hmove : ∀ target, settled.target = some target → CanMove setting disk target)
  (hlink : ¬ FailsAt setting.failing (.link .back))
  (hunlink : ¬ FailsAt setting.failing (.unlinkSource .back))

theorem moveBack_still {world : World} (h : world.moved = none) :
    moveBack setting world = (.ok (), world) := by
  have hget : (Fallible.get : Fallible Thrown World World) world = (.ok world, world) := rfl
  unfold moveBack
  rw [bind_of_ok hget, h]
  rfl

theorem moveBack_moves {world : World} {path : Path} (hmoved : world.moved = some (path, target))
    (hfree : world.disk path = none) (htarget : world.disk target = some (.file content))
    (hlink : ¬ FailsAt setting.failing (.link .back))
    (hunlink : ¬ FailsAt setting.failing (.unlinkSource .back)) :
    moveBack setting world =
      (.ok (), world.on ((withFile world.disk path content).put target none)) := by
  have hget : (Fallible.get : Fallible Thrown World World) world = (.ok world, world) := rfl
  unfold moveBack
  rw [bind_of_ok hget, hmoved]
  exact recover_of_ok (moveArtifactNoReplace_ok htarget hfree hlink hunlink) _

/-- The path of the artifact is taken: the move is not undone. -/
theorem moveBack_taken {world : World} {path : Path} (hmoved : world.moved = some (path, target))
    (htaken : world.disk path ≠ none) (htarget : world.disk target = some (.file content)) :
    moveBack setting world = (.ok (), world) := by
  have hget : (Fallible.get : Fallible Thrown World World) world = (.ok world, world) := rfl
  obtain ⟨e, herror⟩ := @moveArtifactNoReplace_stops setting world .back target path content htarget
    (.inl htaken)
  unfold moveBack
  rw [bind_of_ok hget, hmoved]
  exact recover_of_error herror _

include hpath hmove hlink hunlink

/-- A move that is undone leaves every file. -/
theorem moveBack_restores : ∃ world,
    moveBack setting (movedWorld disk managed.path content settled.target) = (.ok (), world) ∧
      ∀ path, fileAt world.disk path = fileAt disk path := by
  cases htarget : settled.target with
  | none => exact ⟨_, moveBack_still rfl, fun _ => rfl⟩
  | some target =>
      have hne := target_ne_path hpath hmove htarget
      refine ⟨_, moveBack_moves rfl put_self ((put_other hne).trans withFile_self) hlink hunlink,
        fun path => ?_⟩
      change fileAt ((withFile (movedDisk disk managed.path content (some target)) managed.path
        content).put target none) path = _
      by_cases hsame : path = target
      · rw [hsame, fileAt_put_none, fileAt_none (hmove target htarget).free]
      · rw [fileAt_put_other hsame]
        by_cases hsource : path = managed.path
        · rw [hsource, fileAt_put_self, fileAt_eq_some.mpr hpath]
        · rw [fileAt_put_other hsource]
          exact (fileAt_put_other hsource).trans ((fileAt_put_other hsame).trans
            (fileAt_withDirectory (hmove target htarget).unblocked))

/-- A move that is undone with something in the temporary file, which may be the artifact. -/
theorem moveBack_left {temporary : Path} {left : List UInt8}
    (happart : settled.target ≠ none → temporary ≠ managed.path) : ∃ world,
    moveBack setting ((movedWorld disk managed.path content settled.target).on
        (withFile (movedDisk disk managed.path content settled.target) temporary left)) =
      (.ok (), world) ∧
    fileAt world.disk managed.path =
      some (if temporary = settled.place managed then left else content) ∧
    ∀ path, path ≠ managed.path → path ≠ temporary →
      fileAt world.disk path = fileAt disk path := by
  unfold Settlement.place
  cases htarget : settled.target with
  | none =>
      refine ⟨_, moveBack_still rfl, ?_, fun path _ hpath => fileAt_put_other hpath⟩
      change fileAt (withFile disk temporary left) managed.path = _
      rw [Option.getD_none]
      split_ifs with hsame
      · rw [← hsame, fileAt_put_self]
      · rw [fileAt_put_other fun h => hsame h.symm, fileAt_eq_some.mpr hpath]
  | some target =>
      have hne := target_ne_path hpath hmove htarget
      have hother : temporary ≠ managed.path := happart (by simp [htarget])
      have hfree : ((movedWorld disk managed.path content (some target)).on (withFile
          (movedDisk disk managed.path content (some target)) temporary left)).disk managed.path =
          none := (withFile_other fun h => hother h.symm).trans put_self
      have hheld : ((movedWorld disk managed.path content (some target)).on (withFile
          (movedDisk disk managed.path content (some target)) temporary left)).disk target =
          some (.file (if temporary = target then left else content)) := by
        rw [on_disk]
        split_ifs with hsame
        · rw [hsame, withFile_self]
        · rw [withFile_other fun h => hsame h.symm]
          exact (put_other hne).trans withFile_self
      refine ⟨_, moveBack_moves rfl hfree hheld hlink hunlink, ?_, fun path hsource hplace => ?_⟩
      · rw [on_disk, fileAt_put_other fun h => hne h.symm, fileAt_put_self]
        rfl
      · rw [on_disk]
        by_cases hsame : path = target
        · rw [hsame, fileAt_put_none, fileAt_none (hmove target htarget).free]
        · rw [fileAt_put_other hsame, fileAt_put_other hsource, on_disk, fileAt_put_other hplace]
          exact (fileAt_put_other hsource).trans ((fileAt_put_other hsame).trans
            (fileAt_withDirectory (hmove target htarget).unblocked))

end Back

/-! ## The call -/

section Call

variable {scanner : Option Scanner} {findings : Findings} {e : Thrown} {world : World}

/-- A call that finds nothing to settle changes nothing. -/
theorem inspectLibraryArtifact_early (h : ¬ ∃ managed findings settled,
      findArtifact setting input (World.start disk) = (.ok managed, World.start disk) ∧
      examine setting scanner managed (World.start disk) = (.ok findings, World.start disk) ∧
      input.dryRun = false ∧ settlement setting input managed findings = .ok settled) :
    ∃ result, inspectLibraryArtifact setting scanner input (World.start disk) =
      (.ok result, World.start disk) := by
  have hfailed : ∀ e, (moveBack setting >>= fun _ =>
      (pure (failureResult .inspecting input.sourceId e) : Fallible Thrown World OperationResult))
        (World.start disk) = (.ok (failureResult .inspecting input.sourceId e), World.start disk) :=
    fun e => bind_of_ok (moveBack_still rfl) _
  unfold inspectLibraryArtifact
  have hfind := @steady_findArtifact setting input (World.start disk)
  rcases hfound : findArtifact setting input (World.start disk) with ⟨answer, world⟩
  rw [hfound] at hfind
  obtain rfl : world = World.start disk := hfind
  cases answer with
  | error e =>
      rw [recover_of_error (bind_of_error hfound _)]
      exact ⟨_, hfailed e⟩
  | ok managed =>
      have hexamine := @steady_examine setting scanner managed (World.start disk)
      rcases hexamined : examine setting scanner managed (World.start disk) with ⟨answer, world⟩
      rw [hexamined] at hexamine
      obtain rfl : world = World.start disk := hexamine
      cases answer with
      | error e =>
          rw [recover_of_error ((bind_of_ok hfound _).trans (bind_of_error hexamined _))]
          exact ⟨_, hfailed e⟩
      | ok findings =>
          have hsteps := (bind_of_ok hfound fun managed => examine setting scanner managed >>=
            fun findings => settleInspection setting input managed findings).trans
              (bind_of_ok hexamined _)
          cases hdry : input.dryRun with
          | true =>
              have hsettle := @steady_settleInspection setting input managed findings hdry
                (World.start disk)
              rcases hsettled : settleInspection setting input managed findings
                (World.start disk) with ⟨answer, world⟩
              rw [hsettled] at hsettle hsteps
              obtain rfl : world = World.start disk := hsettle
              cases answer with
              | error e =>
                  rw [recover_of_error hsteps]
                  exact ⟨_, hfailed e⟩
              | ok result => exact ⟨result, recover_of_ok hsteps _⟩
          | false =>
              cases hsettlement : settlement setting input managed findings with
              | error e =>
                  rw [settleInspection_wet hdry, bind_of_error (lift_of_error hsettlement)] at hsteps
                  rw [recover_of_error hsteps]
                  exact ⟨_, hfailed e⟩
              | ok settled =>
                  exact absurd ⟨managed, findings, settled, hfound, hexamined, hdry, hsettlement⟩ h

variable (hfound : findArtifact setting input (World.start disk) = (.ok managed, World.start disk))
  (hexamined : examine setting scanner managed (World.start disk) =
    (.ok findings, World.start disk))
  (hwet : input.dryRun = false) (hsettled : settlement setting input managed findings = .ok settled)

include hfound hexamined hwet hsettled

theorem inspectLibraryArtifact_settled (h : settle setting input managed settled
      (World.start disk) = (.ok (), world)) :
    inspectLibraryArtifact setting scanner input (World.start disk) =
      (.ok settled.result, world) := by
  have hsteps := (bind_of_ok hfound fun managed => examine setting scanner managed >>=
    fun findings => settleInspection setting input managed findings).trans (bind_of_ok hexamined _)
  rw [settleInspection_wet hwet, bind_of_ok (lift_of_ok hsettled), bind_of_ok h] at hsteps
  exact recover_of_ok hsteps _

theorem inspectLibraryArtifact_undone {world' : World}
    (h : settle setting input managed settled (World.start disk) = (.error e, world))
    (hback : moveBack setting world = (.ok (), world')) :
    inspectLibraryArtifact setting scanner input (World.start disk) =
      (.ok (failureResult .inspecting input.sourceId e), world') := by
  have hsteps := (bind_of_ok hfound fun managed => examine setting scanner managed >>=
    fun findings => settleInspection setting input managed findings).trans (bind_of_ok hexamined _)
  rw [settleInspection_wet hwet, bind_of_ok (lift_of_ok hsettled), bind_of_error h] at hsteps
  unfold inspectLibraryArtifact
  rw [recover_of_error hsteps, bind_of_ok hback]
  rfl

end Call

end Settle

end DocumentLibrary
