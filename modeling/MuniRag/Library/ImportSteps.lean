import MuniRag.Library.Importing
import MuniRag.Library.StepLaws

/-!
# Steps of an import

What an import finds before its first change (`prepareImport_inr_iff`), what copying the
artifact does by what stands at the path of the copy, and what removing a remembered path does.
-/

namespace DocumentLibrary

open Api FileSystem PosixPath Fallible

/-! ## Before the first change -/

section Import

variable {setting : Setting} {input : ImportInput} {world : World} {prepared : Prepared}

theorem steady_readInput : Steady (readInput setting input) := by
  refine steady_bind steady_lstat fun entry => ?_
  cases entry with
  | directory => exact steady_fail _
  | file metadata =>
      refine steady_bind (steady_lift _) fun _ => steady_bind steady_readFile fun content => ?_
      exact steady_ite (steady_fail _) (steady_pure _)

theorem steady_prepareImport : Steady (prepareImport setting input) := by
  refine steady_bind steady_readInventory fun manifest => ?_
  refine steady_bind (steady_lift _) fun record => ?_
  refine steady_bind steady_readInput fun content => ?_
  refine steady_bind (steady_lift _) fun structural => ?_
  refine steady_bind (steady_lift _) fun target => ?_
  cases record.acquisition with
  | none => exact steady_ite (steady_pure _) (steady_pure _)
  | some acquisition => exact steady_ite (steady_fail _) (steady_pure _)

/-! ## The copy beside the destination -/

/-- The failing step stops the copy of an artifact to a free path. -/
def StopsStaging (failing : Option (Fault Step)) : Prop :=
  ∃ fault, failing = some fault ∧ (fault.step = .writeStaging ∨ fault.step = .readStaging ∨
    fault.step = .statStaging ∧ fault.errno ≠ .noEntry)

theorem ensureDestinationAbsent_taken {path : Path} (h : world.disk path ≠ none) :
    (∃ e, ensureDestinationAbsent setting path world = (.error e, world)) ∨
      ensureDestinationAbsent setting path world = (.ok (), world) := by
  have hsteady : ∀ answer, lstat setting .statStaging path world = answer → answer.2 = world :=
    fun _ h => h ▸ steady_lstat world
  unfold ensureDestinationAbsent
  match hstat : lstat setting .statStaging path world with
  | (.ok entry, world') =>
      obtain rfl : world' = world := hsteady _ hstat
      rw [recover_of_error (bind_of_ok hstat _)]
      exact .inl ⟨_, rfl⟩
  | (.error e, world') =>
      obtain rfl : world' = world := hsteady _ hstat
      rw [recover_of_error (bind_of_error hstat _)]
      split_ifs
      · exact .inr rfl
      · exact .inl ⟨e, rfl⟩

/-- A path that is taken stops the copy, and keeps what it holds. -/
theorem stageArtifact_taken (h : world.disk (stagingPath prepared.target) ≠ none) :
    ∃ e, stageArtifact setting prepared world = (.error e, world) := by
  unfold stageArtifact
  rcases @ensureDestinationAbsent_taken setting _ _ h with ⟨e, herror⟩ | hok
  · exact ⟨e, bind_of_error herror _⟩
  · obtain ⟨entry, hentry⟩ := Option.ne_none_iff_exists'.mp h
    have htaken : writeNew (stagingPath prepared.target) prepared.content world.disk =
        .error .alreadyExists := by
      rw [writeNew, hentry]
    rw [bind_of_ok hok]
    by_cases hfails : FailsAt setting.failing .writeStaging
    · obtain ⟨fault, hfault, hstep⟩ := hfails
      refine ⟨.system fault.errno, bind_of_error ?_ _⟩
      rw [perform_fault hfault hstep]
      cases fault.leftover with
      | none => rfl
      | some content => simp [spoilNew, h]
    · exact ⟨_, bind_of_error (perform_error hfails htaken) _⟩

theorem ensureDestinationAbsent_free {path : Path} (h : world.disk path = none) :
    (ensureDestinationAbsent setting path world = (.ok (), world) ∧
        ∀ fault, setting.failing = some fault → fault.step = .statStaging →
          fault.errno = .noEntry) ∨
      ∃ e, ensureDestinationAbsent setting path world = (.error e, world) ∧
        StopsStaging setting.failing := by
  have hnone : stat path world.disk = .error .noEntry := by rw [stat, h]
  unfold ensureDestinationAbsent lstat
  by_cases hfails : FailsAt setting.failing .statStaging
  · obtain ⟨fault, hfault, hstep⟩ := hfails
    have herror : perform setting .statStaging noSpoil (stat path) world =
        (.error (.system fault.errno), world) := by
      rw [perform_fault hfault hstep]
      cases fault.leftover <;> rfl
    rw [recover_of_error (bind_of_error herror _)]
    by_cases herrno : fault.errno = .noEntry
    · rw [if_pos (congrArg _ herrno)]
      refine .inl ⟨rfl, fun other hother _ => ?_⟩
      rw [← Option.some.inj (hfault.symm.trans hother), herrno]
    · rw [if_neg fun hsame => herrno (Thrown.system.inj hsame)]
      exact .inr ⟨_, rfl, fault, hfault, .inr (.inr ⟨hstep, herrno⟩)⟩
  · rw [recover_of_error (bind_of_error (perform_error hfails hnone) _), if_pos rfl]
    exact .inl ⟨rfl, fun fault hfault hstep => absurd ⟨fault, hfault, hstep⟩ hfails⟩

/-- **The copy.**  At a free path the artifact is copied, or the failing step stops that; then
the path holds nothing or some file. -/
theorem stageArtifact_free (h : world.disk (stagingPath prepared.target) = none) :
    (stageArtifact setting prepared world =
        (.ok (), world.on (withFile world.disk (stagingPath prepared.target) prepared.content)) ∧
        ¬ StopsStaging setting.failing) ∨
      ∃ e disk, stageArtifact setting prepared world = (.error e, world.on disk) ∧
        StopsStaging setting.failing ∧ (disk = world.disk ∨
          ∃ content, disk = withFile world.disk (stagingPath prepared.target) content) := by
  unfold stageArtifact
  rcases @ensureDestinationAbsent_free setting _ _ h with ⟨hok, hstat⟩ | ⟨e, herror, hstops⟩
  · rw [bind_of_ok hok]
    have hnew : writeNew (stagingPath prepared.target) prepared.content world.disk =
        .ok ((), withFile world.disk (stagingPath prepared.target) prepared.content) := by
      rw [writeNew, h]
    by_cases hwrite : FailsAt setting.failing .writeStaging
    · obtain ⟨fault, hfault, hstep⟩ := hwrite
      refine .inr ⟨_, _, bind_of_error (perform_fault hfault hstep) _,
        ⟨fault, hfault, .inl hstep⟩, ?_⟩
      cases fault.leftover with
      | none => exact .inl rfl
      | some content =>
          refine .inr ⟨content, ?_⟩
          simp [spoilNew, h]
    · rw [bind_of_ok (perform_ok hwrite hnew)]
      by_cases hread : FailsAt setting.failing .readStaging
      · obtain ⟨fault, hfault, hstep⟩ := hread
        refine .inr ⟨.system fault.errno, _, bind_of_error ?_ _,
          ⟨fault, hfault, .inr (.inl hstep)⟩, .inr ⟨prepared.content, rfl⟩⟩
        rw [readFile, perform_fault hfault hstep]
        cases fault.leftover <;> rfl
      · have hcopied : readFile setting .readStaging (stagingPath prepared.target)
            (world.on (withFile world.disk (stagingPath prepared.target) prepared.content)) =
            (.ok prepared.content,
              world.on (withFile world.disk (stagingPath prepared.target) prepared.content)) := by
          refine perform_ok hread ?_
          simp [FileSystem.read]
        rw [bind_of_ok hcopied]
        refine .inl ⟨by simp [pure], ?_⟩
        rintro ⟨fault, hfault, hstep | hstep | ⟨hstep, herrno⟩⟩
        · exact hwrite ⟨fault, hfault, hstep⟩
        · exact hread ⟨fault, hfault, hstep⟩
        · exact herrno (hstat fault hfault hstep)
  · exact .inr ⟨e, world.disk, bind_of_error herror _, hstops, .inl rfl⟩

/-! ## The clean-up -/

section CleanUp

variable {step : Step} {path : Path}

theorem cleanPath_stops (h : FailsAt setting.failing step ∨ fileAt world.disk path = none) :
    cleanPath setting step (some path) world = (.ok (), world) := by
  unfold cleanPath unlinkFile
  by_cases hfails : FailsAt setting.failing step
  · obtain ⟨errno, herror⟩ := @perform_fails setting step _ (unlink path) world .other (.inl hfails)
    exact recover_of_error herror _
  · have hnone := h.resolve_left hfails
    have hrefused : ∃ errno, unlink path world.disk = .error errno := by
      unfold unlink
      unfold fileAt at hnone
      split <;> simp_all
    obtain ⟨errno, herror⟩ := hrefused
    exact recover_of_error (perform_error hfails herror) _

theorem cleanPath_removes {content : List UInt8} (hno : ¬ FailsAt setting.failing step)
    (h : world.disk path = some (.file content)) :
    cleanPath setting step (some path) world = (.ok (), world.on (world.disk.put path none)) := by
  refine recover_of_ok (perform_ok hno ?_) _
  rw [unlink, h]

end CleanUp

/-! ## Preparing -/

/-- What an import can be made of. -/
structure Importable (setting : Setting) (input : ImportInput) (disk : Disk JsString)
    (prepared : Prepared) : Prop where
  parsed : ∃ bytes, disk input.inventoryPath = some (.file bytes) ∧
    setting.parse bytes = .ok prepared.manifest
  valid : Valid setting.texts prepared.manifest.records
  record : importableRecord input prepared.manifest = .ok prepared.record
  content : disk (resolve setting.cwd input.inputPath) = some (.file prepared.content)
  accepted : inspectArtifactContent setting prepared.content input.inputPath input.mediaType =
    .ok prepared.structural
  target : boundedArtifactPath setting input.libraryRoot prepared.record.sourceId
    prepared.record.documentVersion input.inputPath = .ok prepared.target
  artifactPath : prepared.artifactPath =
    manifestArtifactPath setting input.libraryRoot prepared.target
  new : prepared.record.acquisition = none
  wet : input.dryRun = false
  readable : ¬ FailsAt setting.failing .readInventory ∧ ¬ FailsAt setting.failing .statInput ∧
    ¬ FailsAt setting.failing .readInput

theorem perform_ok_iff {step : Step} {α : Type} {spoil : List UInt8 → Disk JsString → Disk JsString}
    {operation : FileSystem.Operation JsString α} {a : α} {world' : World} :
    perform setting step spoil operation world = (.ok a, world') ↔
      ¬ FailsAt setting.failing step ∧ ∃ disk, operation world.disk = .ok (a, disk) ∧
        world' = world.on disk := by
  by_cases hfails : FailsAt setting.failing step
  · obtain ⟨fault, hfault, hstep⟩ := hfails
    rw [perform_fault hfault hstep]
    simp only [Prod.mk.injEq, reduceCtorEq, false_and, false_iff, not_and]
    exact fun hno => absurd ⟨fault, hfault, hstep⟩ hno
  · cases h : operation world.disk with
    | error errno =>
        rw [perform_error hfails h]
        simp
    | ok result =>
        obtain ⟨b, after⟩ := result
        rw [perform_ok hfails h]
        simp only [Prod.mk.injEq, Except.ok.injEq, hfails, not_false_eq_true, true_and]
        constructor
        · rintro ⟨rfl, rfl⟩
          exact ⟨after, ⟨rfl, rfl⟩, rfl⟩
        · rintro ⟨disk, ⟨rfl, rfl⟩, rfl⟩
          exact ⟨rfl, rfl⟩

theorem readFile_ok_iff {step : Step} {path : Path} {content : List UInt8} {world' : World} :
    readFile setting step path world = (.ok content, world') ↔
      ¬ FailsAt setting.failing step ∧ world.disk path = some (.file content) ∧
        world' = world := by
  rw [readFile, perform_ok_iff]
  refine and_congr_right fun _ => ?_
  constructor
  · rintro ⟨disk, hread, rfl⟩
    obtain ⟨rfl, hfile⟩ := read_disk hread
    exact ⟨hfile, rfl⟩
  · rintro ⟨hfile, rfl⟩
    exact ⟨world'.disk, by rw [FileSystem.read, hfile], rfl⟩

theorem lstat_ok_iff {step : Step} {path : Path} {entry : Entry} {world' : World} :
    lstat setting step path world = (.ok entry, world') ↔
      ¬ FailsAt setting.failing step ∧ world.disk path = some entry ∧ world' = world := by
  rw [lstat, perform_ok_iff]
  refine and_congr_right fun _ => ?_
  unfold stat
  cases h : world.disk path with
  | none => simp
  | some other =>
      constructor
      · rintro ⟨disk, hstat, rfl⟩
        cases hstat
        exact ⟨rfl, rfl⟩
      · rintro ⟨hentry, rfl⟩
        cases hentry
        exact ⟨world'.disk, rfl, rfl⟩

theorem readInventory_ok_iff {path : Path} {manifest : InventoryManifest} {world' : World} :
    readInventory setting path world = (.ok manifest, world') ↔
      ¬ FailsAt setting.failing .readInventory ∧
      (∃ bytes, world.disk path = some (.file bytes) ∧ setting.parse bytes = .ok manifest) ∧
      Valid setting.texts manifest.records ∧ world' = world := by
  unfold readInventory
  simp only [bind_ok_iff, readFile_ok_iff, lift_ok_iff]
  constructor
  · rintro ⟨bytes, world₁, ⟨hno, hfile, rfl⟩, parsed, world₂, ⟨hparse, rfl⟩, hcheck⟩
    split_ifs at hcheck with hvalid
    · cases hcheck
      exact ⟨hno, ⟨bytes, hfile, hparse⟩, hvalid, rfl⟩
    · cases hcheck
  · rintro ⟨hno, ⟨bytes, hfile, hparse⟩, hvalid, rfl⟩
    refine ⟨bytes, world', ⟨hno, hfile, rfl⟩, manifest, world', ⟨hparse, rfl⟩, ?_⟩
    have hnone : validateSourceInventory setting.texts manifest.records = [] := hvalid
    rw [if_pos hnone]
    rfl

/-- The bytes of an accepted artifact are within the limits. -/
theorem length_of_accepted {content : List UInt8} {path declared : JsString}
    {structural : Structural}
    (h : inspectArtifactContent setting content path declared = .ok structural) :
    assertArtifactByteLength content.length setting.policy.maxArtifactBytes = .ok () := by
  unfold inspectArtifactContent at h
  cases hlength : assertArtifactByteLength content.length setting.policy.maxArtifactBytes with
  | ok done => rfl
  | error e =>
      rw [hlength] at h
      exact absurd h (by simp [bind, Except.bind])

theorem readInput_ok_iff {content : List UInt8} {world' : World} :
    readInput setting input world = (.ok content, world') ↔
      (¬ FailsAt setting.failing .statInput ∧ ¬ FailsAt setting.failing .readInput) ∧
      world.disk (resolve setting.cwd input.inputPath) = some (.file content) ∧
      assertArtifactByteLength content.length setting.policy.maxArtifactBytes = .ok () ∧
      world' = world := by
  unfold readInput
  simp only [bind_ok_iff, lstat_ok_iff]
  constructor
  · rintro ⟨entry, world₁, ⟨hstat, hentry, rfl⟩, hrest⟩
    cases entry with
    | directory => cases hrest
    | file metadata =>
        simp only [bind_ok_iff, lift_ok_iff, readFile_ok_iff] at hrest
        obtain ⟨done, world₂, ⟨hlength, rfl⟩, bytes, world₃, ⟨hread, hfile, rfl⟩, hcheck⟩ := hrest
        split_ifs at hcheck with hchanged
        · cases hcheck
        · cases hcheck
          obtain rfl : metadata = content := by
            rw [hentry] at hfile
            simpa using hfile
          exact ⟨⟨hstat, hread⟩, hfile, hlength, rfl⟩
  · rintro ⟨⟨hstat, hread⟩, hfile, hlength, rfl⟩
    refine ⟨.file content, world', ⟨hstat, hfile, rfl⟩, ?_⟩
    simp only [bind_ok_iff, lift_ok_iff, readFile_ok_iff]
    refine ⟨(), world', ⟨hlength, rfl⟩, content, world', ⟨hread, hfile, rfl⟩, ?_⟩
    rw [if_neg (by simp)]
    rfl

/-- **Preparing.**  What the call finds before its first change. -/
theorem prepareImport_inr_iff {world' : World} :
    prepareImport setting input world = (.ok (.inr prepared), world') ↔
      Importable setting input world.disk prepared ∧ world' = world := by
  unfold prepareImport
  simp only [bind_ok_iff, readInventory_ok_iff, lift_ok_iff, readInput_ok_iff]
  constructor
  · rintro ⟨manifest, world₁, ⟨hinventory, hparsed, hvalid, rfl⟩, record, world₂, ⟨hrecord, rfl⟩,
      content, world₃, ⟨⟨hstat, hread⟩, hcontent, -, rfl⟩, structural, world₄, ⟨haccepted, rfl⟩,
      target, world₅, ⟨htarget, rfl⟩, hrest⟩
    cases hnew : record.acquisition with
    | some acquisition =>
        simp only [hnew] at hrest
        split_ifs at hrest <;> cases hrest
    | none =>
        simp only [hnew] at hrest
        split_ifs at hrest with hdry
        · cases hrest
        · cases hrest
          exact ⟨⟨hparsed, hvalid, hrecord, hcontent, haccepted, htarget, rfl, hnew,
            by simpa using hdry, hinventory, hstat, hread⟩, rfl⟩
  · rintro ⟨h, rfl⟩
    obtain ⟨hinventory, hstat, hread⟩ := h.readable
    refine ⟨prepared.manifest, world', ⟨hinventory, h.parsed, h.valid, rfl⟩, prepared.record,
      world', ⟨h.record, rfl⟩, prepared.content, world', ⟨⟨hstat, hread⟩, h.content,
      length_of_accepted h.accepted, rfl⟩, prepared.structural, world', ⟨h.accepted, rfl⟩,
      prepared.target, world', ⟨h.target, rfl⟩, ?_⟩
    simp only [h.new, h.wet, Bool.false_eq_true, if_false]
    rw [← h.artifactPath]
    rfl

/-- A call that ends before its first change has imported nothing. -/
theorem prepareImport_inl {result : OperationResult} {world' : World}
    (h : prepareImport setting input world = (.ok (.inl result), world')) :
    result.status ≠ .imported := by
  unfold prepareImport at h
  simp only [bind_ok_iff, lift_ok_iff] at h
  obtain ⟨manifest, world₁, -, record, world₂, -, content, world₃, -, structural, world₄, -, target,
    world₅, -, hrest⟩ := h
  cases hnew : record.acquisition with
  | some acquisition =>
      simp only [hnew] at hrest
      split_ifs at hrest
      · cases hrest
      · cases hrest
        simp [unchangedImport]
  | none =>
      simp only [hnew] at hrest
      split_ifs at hrest
      · cases hrest
        simp [unchangedImport]
      · cases hrest

theorem importableRecord_ok {manifest : InventoryManifest} {record : SourceRecord}
    (h : importableRecord input manifest = .ok record) :
    record ∈ manifest.records ∧ record.sourceId = input.sourceId ∧
      record.documentVersion = input.documentVersion := by
  unfold importableRecord findRecord at h
  cases hfound : manifest.records.find? (·.sourceId = input.sourceId) with
  | none =>
      rw [hfound] at h
      exact absurd h (by simp [bind, Except.bind])
  | some found =>
      rw [hfound] at h
      simp only [bind, Except.bind] at h
      split_ifs at h with hstatus hversion hmedia
      all_goals cases h
      exact ⟨List.mem_of_find?_eq_some hfound, by simpa using List.find?_some hfound,
        not_not.mp hversion⟩

end Import

end DocumentLibrary
