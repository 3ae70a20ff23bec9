import MuniRag.Library.Operations

/-!
# Steps of the document library

What a single step, the move of an artifact and the write of the inventory file do, by what
the disk holds and by the failing step.  A move that stops leaves both of its paths as they
were, and the inventory file changes only as a whole.
-/

namespace DocumentLibrary

open Api FileSystem PosixPath Fallible

/-! ## Single steps -/

section Steps

variable {setting : Setting} {step : Step} {α : Type}
  {spoil : List UInt8 → Disk JsString → Disk JsString}
  {operation : FileSystem.Operation JsString α} {world : World} {disk : Disk JsString} {a : α}
  {errno : Errno} {fault : Fault Step} {path source target : Path} {content : List UInt8}

@[simp] theorem on_self : world.on world.disk = world := rfl

@[simp] theorem on_disk : (world.on disk).disk = disk := rfl

@[simp] theorem on_on {disk' : Disk JsString} : (world.on disk).on disk' = world.on disk' := rfl

theorem perform_ok (hno : ¬ FailsAt setting.failing step)
    (h : operation world.disk = .ok (a, disk)) :
    perform setting step spoil operation world = (.ok a, world.on disk) := by
  rw [perform, attempt_ok hno h]

theorem perform_error (hno : ¬ FailsAt setting.failing step)
    (h : operation world.disk = .error errno) :
    perform setting step spoil operation world = (.error (.system errno), world) := by
  rw [perform, attempt_error hno h]
  rfl

theorem perform_fault (h : setting.failing = some fault) (hstep : fault.step = step) :
    perform setting step spoil operation world = (.error (.system fault.errno),
      world.on (fault.leftover.elim world.disk (spoil · world.disk))) := by
  rw [perform, attempt_fault h hstep]

/-- A step that writes nothing and fails leaves the world. -/
theorem perform_fails (h : FailsAt setting.failing step ∨ operation world.disk = .error errno) :
    ∃ errno', perform setting step noSpoil operation world =
      (.error (.system errno'), world) := by
  by_cases hfails : FailsAt setting.failing step
  · obtain ⟨fault, hfault, hstep⟩ := hfails
    refine ⟨fault.errno, ?_⟩
    rw [perform_fault hfault hstep]
    cases fault.leftover <;> rfl
  · exact ⟨errno, perform_error hfails (h.resolve_left hfails)⟩

theorem steady_perform (hoperation : ∀ disk a disk', operation disk = .ok (a, disk') →
    disk' = disk) : Steady (perform setting step noSpoil operation) := by
  intro world
  by_cases hfails : FailsAt setting.failing step
  · obtain ⟨fault, hfault, hstep⟩ := hfails
    rw [perform_fault hfault hstep]
    cases fault.leftover <;> rfl
  · cases h : operation world.disk with
    | error errno => rw [perform_error hfails h]
    | ok result =>
        obtain ⟨a, disk⟩ := result
        rw [perform_ok hfails h, hoperation _ _ _ h]
        rfl

theorem read_disk {disk disk' : Disk JsString}
    (h : FileSystem.read path disk = .ok (content, disk')) :
    disk' = disk ∧ disk path = some (.file content) := by
  unfold FileSystem.read at h
  split at h
  · cases h
    exact ⟨rfl, by assumption⟩
  · cases h
  · cases h

theorem steady_readFile : Steady (readFile setting step path) :=
  steady_perform fun _ _ _ h => (read_disk h).1

theorem steady_lstat : Steady (lstat setting step path) := by
  refine steady_perform fun disk a disk' h => ?_
  unfold stat at h
  split at h
  · cases h
    rfl
  · cases h

end Steps

section Parts

variable {setting : Setting} {world : World}

theorem steady_readInventory {path : Path} : Steady (readInventory setting path) := by
  refine steady_bind steady_readFile fun content => ?_
  refine steady_bind (steady_lift _) fun manifest => ?_
  exact steady_ite (steady_pure _) (steady_fail _)

/-! ## The move -/

section Move

variable {way : Way} {source target : Path} {content : List UInt8}

/-- A taken target stops the move, and so does a failing step; both paths keep what they
hold. -/
theorem moveArtifactNoReplace_stops (hsource : world.disk source = some (.file content))
    (h : world.disk target ≠ none ∨ FailsAt setting.failing (.link way) ∨
      FailsAt setting.failing (.unlinkSource way)) :
    ∃ e, moveArtifactNoReplace setting way source target world = (.error e, world) := by
  unfold moveArtifactNoReplace
  by_cases hstop : FailsAt setting.failing (.link way) ∨ world.disk target ≠ none
  · have hlink : FailsAt setting.failing (.link way) ∨
        link source target world.disk = .error .alreadyExists := by
      refine hstop.imp_right fun htaken => ?_
      obtain ⟨entry, hentry⟩ := Option.ne_none_iff_exists'.mp htaken
      rw [link, hsource]
      simp only [hentry]
    obtain ⟨errno, herror⟩ := perform_fails hlink
    refine ⟨linkFailure (.system errno), bind_of_error ?_ _⟩
    rw [recover_of_error herror]
    rfl
  · obtain ⟨hlink, hfree⟩ := not_or.mp hstop
    rw [not_not] at hfree
    have hne : source ≠ target := by
      rintro rfl
      rw [hfree] at hsource
      exact absurd hsource (by simp)
    have hunlink : FailsAt setting.failing (.unlinkSource way) := by
      rcases h with h | h | h
      · exact absurd hfree h
      · exact absurd h hlink
      · exact h
    have hlinked : link source target world.disk =
        .ok ((), withFile world.disk target content) := by
      rw [link, hsource]
      simp only [hfree]
    rw [bind_of_ok (recover_of_ok (perform_ok hlink hlinked) _)]
    obtain ⟨errno, herror⟩ := @perform_fails setting _ _ (unlink source)
      (world.on (withFile world.disk target content)) .other (.inl hunlink)
    have hother : ¬ FailsAt setting.failing (.unlinkTarget way) := fun h => by
      have hsame := failsAt_unique hunlink h
      cases hsame
    have hback : unlink target (withFile world.disk target content) = .ok ((), world.disk) := by
      rw [unlink, withFile_self]
      simp only [withFile_put, put_same hfree]
    refine ⟨.system errno, ?_⟩
    rw [unlinkFile, recover_of_error herror]
    have hrolled : perform setting (.unlinkTarget way) noSpoil (unlink target)
        (world.on (withFile world.disk target content)) = (.ok (), world) := by
      rw [perform_ok hother (by simpa using hback)]
      rfl
    rw [unlinkFile, bind_of_ok (recover_of_ok hrolled _)]
    rfl

/-- **The move.** -/
theorem moveArtifactNoReplace_ok (hsource : world.disk source = some (.file content))
    (hfree : world.disk target = none) (hlink : ¬ FailsAt setting.failing (.link way))
    (hunlink : ¬ FailsAt setting.failing (.unlinkSource way)) :
    moveArtifactNoReplace setting way source target world =
      (.ok (), world.on ((withFile world.disk target content).put source none)) := by
  have hne : source ≠ target := by
    rintro rfl
    rw [hfree] at hsource
    exact absurd hsource (by simp)
  have hlinked : link source target world.disk = .ok ((), withFile world.disk target content) := by
    rw [link, hsource]
    simp only [hfree]
  have hunlinked : unlink source (withFile world.disk target content) =
      .ok ((), (withFile world.disk target content).put source none) := by
    rw [unlink, withFile_other hne, hsource]
  unfold moveArtifactNoReplace
  rw [bind_of_ok (recover_of_ok (perform_ok hlink hlinked) _)]
  rw [unlinkFile, recover_of_ok (perform_ok hunlink (by simpa using hunlinked))]
  rfl

end Move

/-! ## The inventory file -/

section Inventory

variable {inventoryPath : Path} (manifest : InventoryManifest)

/-- Directories stand above a path. -/
def Settled (disk : Disk JsString) (path : Path) : Prop :=
  ∀ above, above <+: parent path → disk above = some .directory

theorem mkdir_settled {disk : Disk JsString} {path : Path} (h : Settled disk path) :
    FileSystem.makeDirectory (parent path) disk = .ok ((), disk) := by
  have hfree : ¬ Blocked disk (parent path) := by
    rintro ⟨above, habove, hfile⟩
    rw [fileAt, h above ((List.mem_inits _ _).mp habove)] at hfile
    exact absurd hfile (by simp)
  have hself : disk.withDirectory (parent path) = disk := by
    funext other
    unfold Disk.withDirectory
    split_ifs with habove
    · exact (h other habove).symm
    · rfl
  rw [FileSystem.makeDirectory, if_neg hfree, hself]

/-- Nothing is written where the directory fails or a directory stands in the way. -/
theorem writeInventory_blocked (hsettled : Settled world.disk inventoryPath)
    (h : FailsAt setting.failing .makeInventoryDirectory ∨
      world.disk (temporaryPath inventoryPath) = some .directory) :
    ∃ e, writeInventory setting inventoryPath manifest world = (.error e, world) := by
  unfold writeInventory
  by_cases hfails : FailsAt setting.failing .makeInventoryDirectory
  · obtain ⟨errno, herror⟩ := @perform_fails setting _ _
      (FileSystem.makeDirectory (parent inventoryPath)) world .other (.inl hfails)
    exact ⟨_, bind_of_error herror _⟩
  · have hdirectory := h.resolve_left hfails
    rw [mkdir, bind_of_ok (perform_ok hfails (mkdir_settled hsettled)), on_self]
    have hrefused : write (temporaryPath inventoryPath) (setting.print manifest) world.disk =
        .error .isDirectory := by
      rw [write, if_pos hdirectory]
    by_cases hwrite : FailsAt setting.failing .writeTemporary
    · obtain ⟨fault, hfault, hstep⟩ := hwrite
      refine ⟨.system fault.errno, bind_of_error ?_ _⟩
      rw [perform_fault hfault hstep]
      cases fault.leftover with
      | none => rfl
      | some content => simp [spoilFile, hdirectory]
    · exact ⟨_, bind_of_error (perform_error hwrite hrefused) _⟩

variable (hsettled : Settled world.disk inventoryPath)
  (hmake : ¬ FailsAt setting.failing .makeInventoryDirectory)
  (hplace : world.disk (temporaryPath inventoryPath) ≠ some .directory)

include hsettled hmake hplace

theorem writeInventory_unwritten {fault : Fault Step} (hfault : setting.failing = some fault)
    (hstep : fault.step = .writeTemporary) : ∃ e,
    writeInventory setting inventoryPath manifest world = (.error e, world.on
      (fault.leftover.elim world.disk (withFile world.disk (temporaryPath inventoryPath)))) := by
  unfold writeInventory
  rw [mkdir, bind_of_ok (perform_ok hmake (mkdir_settled hsettled)), on_self]
  refine ⟨.system fault.errno, bind_of_error ?_ _⟩
  rw [perform_fault hfault hstep]
  cases fault.leftover with
  | none => rfl
  | some content => simp [spoilFile, hplace]

theorem write_temporary (hwrite : ¬ FailsAt setting.failing .writeTemporary) :
    writeInventory setting inventoryPath manifest world =
      perform setting .renameTemporary noSpoil (rename (temporaryPath inventoryPath) inventoryPath)
        (world.on (withFile world.disk (temporaryPath inventoryPath) (setting.print manifest))) := by
  have hwritten : write (temporaryPath inventoryPath) (setting.print manifest) world.disk =
      .ok ((), withFile world.disk (temporaryPath inventoryPath) (setting.print manifest)) := by
    rw [write, if_neg hplace]
  unfold writeInventory
  rw [mkdir, bind_of_ok (perform_ok hmake (mkdir_settled hsettled)), on_self,
    bind_of_ok (perform_ok hwrite hwritten)]

theorem writeInventory_unrenamed (hrename : FailsAt setting.failing .renameTemporary) : ∃ e,
    writeInventory setting inventoryPath manifest world = (.error e, world.on
      (withFile world.disk (temporaryPath inventoryPath) (setting.print manifest))) := by
  have hwrite : ¬ FailsAt setting.failing .writeTemporary := fun h => by
    have hsame := failsAt_unique hrename h
    cases hsame
  rw [write_temporary manifest hsettled hmake hplace hwrite]
  obtain ⟨errno, herror⟩ := @perform_fails setting .renameTemporary _
    (rename (temporaryPath inventoryPath) inventoryPath)
    (world.on (withFile world.disk (temporaryPath inventoryPath) (setting.print manifest)))
    .other (.inl hrename)
  exact ⟨_, herror⟩

omit hplace in
/-- **The inventory file is replaced.** -/
theorem writeInventory_ok
    (hplace : world.disk (temporaryPath inventoryPath) ≠ some .directory)
    (hinventory : world.disk inventoryPath ≠ some .directory)
    (hwrite : ¬ FailsAt setting.failing .writeTemporary)
    (hrename : ¬ FailsAt setting.failing .renameTemporary) :
    writeInventory setting inventoryPath manifest world = (.ok (), world.on (withFile
      (world.disk.put (temporaryPath inventoryPath) none) inventoryPath
      (setting.print manifest))) := by
  have hne : inventoryPath ≠ temporaryPath inventoryPath :=
    (withSuffix_ne_self (by decide)).symm
  rw [write_temporary manifest hsettled hmake hplace hwrite]
  refine perform_ok hrename ?_
  rw [on_disk, rename, withFile_self]
  simp only [withFile_other hne, withFile_put]
  rw [if_neg hinventory]

end Inventory

end Parts

end DocumentLibrary
