import MuniRag.Ingestion.System

/-!
# Generation fencing of accepted artifacts

After every run of the system an accepted object is proven by the scan of its
current inspection generation, and a version has at most one accepted object.
A completion that comes too late, for a generation that was restarted or that
is already completed, is refused and changes nothing.
-/

namespace Ingestion

open Results Table Runs

/-- The accepted objects of the tables are proven, one for each version. -/
structure Guarded (tables : Tables) : Prop where
  ids : (tables.objects.map (·.id)).Nodup
  proven : ∀ object ∈ tables.objects, object.status = .accepted →
    ∃ scan ∈ tables.scans, object.ProvenBy scan
  exclusive : ∀ a ∈ tables.objects, ∀ b ∈ tables.objects, a.status = .accepted →
    b.status = .accepted → a.version = b.version → a.id = b.id

variable {tables tables' : Tables}

/-- Tables with the same objects and no fewer scans. -/
theorem Guarded.same (h : Guarded tables) (hobjects : tables'.objects = tables.objects)
    (hscans : tables.scans ⊆ tables'.scans) : Guarded tables' := by
  refine ⟨?_, ?_, ?_⟩
  · rw [hobjects]
    exact h.ids
  · rw [hobjects]
    intro object hobject haccepted
    obtain ⟨scan, hscan, hproven⟩ := h.proven object hobject haccepted
    exact ⟨scan, hscans hscan, hproven⟩
  · rw [hobjects]
    exact h.exclusive

/-- An update that leaves no accepted object among the rows it rewrites. -/
theorem Guarded.withdraw {p : ObjectRow → Prop} [DecidablePred p] {f : ObjectRow → ObjectRow}
    (h : Guarded tables) (hobjects : tables'.objects = updateWhere p f tables.objects)
    (hscans : tables'.scans = tables.scans)
    (hf : ∀ object ∈ tables.objects, p object →
      (f object).id = object.id ∧ (f object).status ≠ .accepted) : Guarded tables' := by
  have hold : ∀ object ∈ tables'.objects, object.status = .accepted →
      object ∈ tables.objects := by
    rw [hobjects]
    intro object hobject haccepted
    rcases mem_updateWhere.mp hobject with ⟨old, hmem, hp, rfl⟩ | ⟨hmem, -⟩
    · exact absurd haccepted (hf old hmem hp).2
    · exact hmem
  refine ⟨?_, ?_, ?_⟩
  · rw [hobjects, map_updateWhere fun object hobject hp => (hf object hobject hp).1]
    exact h.ids
  · intro object hobject haccepted
    rw [hscans]
    exact h.proven object (hold object hobject haccepted) haccepted
  · intro a ha b hb haccepted hbaccepted hversion
    exact h.exclusive a (hold a ha haccepted) b (hold b hb hbaccepted) haccepted hbaccepted hversion

/-- An object that becomes accepted, proven and the only one of its version. -/
theorem Guarded.accept {object new : ObjectRow} (h : Guarded tables)
    (hobjects : tables'.objects = updateWhere (·.id = object.id) (fun _ => new) tables.objects)
    (hscans : tables.scans ⊆ tables'.scans) (hid : new.id = object.id)
    (hproven : ∃ scan ∈ tables'.scans, new.ProvenBy scan)
    (hroom : ∀ row ∈ tables.objects, row.status = .accepted → row.version = new.version →
      row.id = object.id) : Guarded tables' := by
  have hcases : ∀ row ∈ tables'.objects, row = new ∨ row ∈ tables.objects := by
    rw [hobjects]
    intro row hrow
    rcases mem_updateWhere.mp hrow with ⟨_, _, _, rfl⟩ | ⟨hmem, -⟩
    · exact .inl rfl
    · exact .inr hmem
  have hids : ∀ row ∈ tables.objects, row.status = .accepted → row.version = new.version →
      row.id = new.id := fun row hrow haccepted hversion =>
    (hroom row hrow haccepted hversion).trans hid.symm
  refine ⟨?_, ?_, ?_⟩
  · rw [hobjects, map_updateWhere fun row _ hrow => hid.trans hrow.symm]
    exact h.ids
  · intro row hrow haccepted
    rcases hcases row hrow with rfl | hmem
    · exact hproven
    · obtain ⟨scan, hscan, hrowProven⟩ := h.proven row hmem haccepted
      exact ⟨scan, hscans hscan, hrowProven⟩
  · intro a ha b hb haccepted hbaccepted hversion
    rcases hcases a ha with rfl | ha
    · rcases hcases b hb with rfl | hb
      · rfl
      · exact (hids b hb hbaccepted hversion.symm).symm
    · rcases hcases b hb with rfl | hb
      · exact hids a ha haccepted hversion
      · exact h.exclusive a ha b hb haccepted hbaccepted hversion

/-- A newly registered object is being scanned. -/
theorem Guarded.register {new : ObjectRow} (h : Guarded tables)
    (hobjects : tables'.objects = tables.objects ++ [new]) (hscans : tables'.scans = tables.scans)
    (hfresh : ∀ row ∈ tables.objects, row.id ≠ new.id) (hstatus : new.status = .scanning) :
    Guarded tables' := by
  have hold : ∀ object ∈ tables'.objects, object.status = .accepted →
      object ∈ tables.objects := by
    rw [hobjects]
    intro object hobject haccepted
    rcases List.mem_append.mp hobject with hmem | hlast
    · exact hmem
    · rw [List.mem_singleton.mp hlast, hstatus] at haccepted
      cases haccepted
  refine ⟨?_, ?_, ?_⟩
  · rw [hobjects, List.map_append, List.map_singleton, List.nodup_append_comm]
    refine List.nodup_cons.mpr ⟨fun hmem => ?_, h.ids⟩
    obtain ⟨row, hrow, hid⟩ := List.mem_map.mp hmem
    exact hfresh row hrow hid
  · intro object hobject haccepted
    rw [hscans]
    exact h.proven object (hold object hobject haccepted) haccepted
  · intro a ha b hb haccepted hbaccepted hversion
    exact h.exclusive a (hold a ha haccepted) b (hold b hb hbaccepted) haccepted hbaccepted hversion

/-- Making room for an acceptance keeps the objects guarded. -/
theorem Guarded.makeRoom (h : Guarded tables) (object : ObjectRow) (verdict : Verdict)
    (now : Time) : Guarded (makeRoom tables object verdict now) := by
  rw [Ingestion.makeRoom]
  split
  · exact h.withdraw rfl rfl fun row _ _ => ⟨rfl, by simp⟩
  · exact h

/-- After room was made no other object of the version is accepted. -/
theorem accepted_makeRoom {object row : ObjectRow} {now : Time}
    (hrow : row ∈ (makeRoom tables object .clean now).objects) (haccepted : row.status = .accepted)
    (hversion : row.version = object.version) : row.id = object.id := by
  rcases mem_updateWhere.mp hrow with ⟨old, _, _, rfl⟩ | ⟨_, hkept⟩
  · cases haccepted
  · by_contra hother
    exact hkept ⟨hversion, hother, haccepted⟩

/-! ## One step -/

variable {platform : Platform}

/-- A call that is no inspection leaves objects and scans alone. -/
theorem guarded_effect {command : Command} {answer : Answer} (h : Guarded tables)
    (heffect : Effect platform tables command tables' answer) : Guarded tables' := by
  cases heffect with
  | begun mediaType hfresh hunbound hid => exact h.register rfl rfl hfresh rfl
  | restarted object hobject hreference hversion hid =>
      exact h.withdraw rfl rfl fun row _ hrow => ⟨hrow.symm, by simp [ObjectRow.restart]⟩
  | @inspected inspection outcome scanId now record object scan hobject hkey hversion hrecord
      hscanning hgeneration hscan hunscanned hproof =>
      have hroom : Guarded { makeRoom tables object outcome.verdict now with
          scans := tables.scans ++ [scan] } :=
        (h.makeRoom object outcome.verdict now).same rfl (by
          rw [Ingestion.makeRoom]
          split <;> exact List.subset_append_left _ _)
      by_cases hclean : outcome.verdict = .clean
      · refine hroom.accept rfl (List.Subset.refl _) rfl (hproof hclean).1 ?_
        intro row hrow haccepted hversion
        rw [hclean] at hrow
        exact accepted_makeRoom hrow haccepted hversion
      · refine hroom.withdraw rfl rfl fun row _ hrow => ⟨hrow.symm, ?_⟩
        simp [ObjectRow.decide, hclean]
  | _ => exact h.same rfl (List.Subset.refl _)

theorem guarded_step {ledger : Ledger} (h : Guarded ledger.tables) (command : Command) :
    Guarded (ledger.step platform command).tables := by
  rcases ledger.step_cases platform command with hsame | ⟨_, _, heffect, hstep⟩
  · rwa [hsame]
  · rw [hstep]
    exact guarded_effect h heffect

theorem guarded_empty : Guarded .empty where
  ids := List.nodup_nil
  proven := by simp [Tables.empty]
  exclusive := by simp [Tables.empty]

theorem guarded_run (commands : List Command) :
    Guarded (run (Ledger.step platform) .opening commands).tables :=
  run_invariant (fun ledger : Ledger => Guarded ledger.tables)
    (fun _ command h => guarded_step h command) guarded_empty commands

/-! ## Late completions -/

/-- Scans are only ever added. -/
theorem scans_step (ledger : Ledger) (command : Command) :
    ledger.tables.scans ⊆ (ledger.step platform command).tables.scans := by
  rcases ledger.step_cases platform command with hsame | ⟨_, _, heffect, hstep⟩
  · rw [hsame]
    exact List.Subset.refl _
  · rw [hstep]
    cases heffect with
    | inspected object scan => exact List.subset_append_left _ _
    | _ => exact List.Subset.refl _

theorem scans_run (ledger : Ledger) (commands : List Command) :
    ledger.tables.scans ⊆ (run (Ledger.step platform) ledger commands).tables.scans :=
  run_invariant (fun other : Ledger => ledger.tables.scans ⊆ other.tables.scans)
    (fun other command hsubset => List.Subset.trans hsubset (scans_step other command))
    (List.Subset.refl _) commands

/-- The object that an inspection is of. -/
def Inspection.key (inspection : Inspection) : Key :=
  (inspection.tenantId, inspection.artifactObjectId)

/-- A completion that comes too late: the object is under a later generation,
or the generation already has its scan. -/
def Inspection.IsLate (inspection : Inspection) (tables : Tables) : Prop :=
  (∃ object ∈ tables.objects, object.key = inspection.key ∧
      inspection.inspectionGeneration < object.inspectionGeneration) ∨
    ∃ scan ∈ tables.scans, scan.object = inspection.key ∧
      scan.inspectionGeneration = inspection.inspectionGeneration

theorem late_refused {ledger : Ledger} {inspection : Inspection} (h : Guarded ledger.tables)
    (hlate : inspection.IsLate ledger.tables) (outcome : InspectionOutcome) (scanId : Uuid)
    (now : Time) :
    ledger.step platform (.completeInspection inspection outcome scanId now) = ledger := by
  rcases ledger.step_cases platform (.completeInspection inspection outcome scanId now) with
    hsame | ⟨_, _, heffect, hstep⟩
  · exact hsame
  cases heffect with
  | inspected object scan hobject hkey hversion hrecord hscanning hgeneration hscan hunscanned
      hproof =>
      rcases hlate with ⟨other, hother, hotherKey, hbehind⟩ | ⟨old, hold, holdKey, hdone⟩
      · have hsame : other = object :=
          List.inj_on_of_nodup_map h.ids hother hobject
            (congrArg Prod.snd (hotherKey.trans hkey.symm))
        rw [hsame, hgeneration] at hbehind
        exact absurd hbehind (Nat.lt_irrefl _)
      · exact absurd ⟨holdKey.trans hkey.symm, hdone.trans hgeneration.symm⟩
          (hunscanned old hold).2

/-- A completion that returns stores the scan of its generation. -/
theorem scan_of_completion {ledger : Ledger} {inspection : Inspection}
    {outcome : InspectionOutcome} {scanId : Uuid} {now : Time} {answer : Answer}
    (h : call platform ledger.tables (.completeInspection inspection outcome scanId now) =
      .ok (tables', answer)) :
    ∃ scan ∈ (ledger.step platform (.completeInspection inspection outcome scanId now)).tables.scans,
      scan.object = inspection.key ∧
        scan.inspectionGeneration = inspection.inspectionGeneration := by
  rw [Ledger.step_of_call h]
  cases call_effect h with
  | inspected object scan hobject hkey hversion hrecord hscanning hgeneration hscan hunscanned
      hproof =>
      exact ⟨scan, List.mem_append_right _ (List.mem_singleton_self scan),
        hscan.2.1.trans hkey, hscan.2.2.trans hgeneration⟩

/-! ## The law -/

/-- The accepted objects of a version. -/
def Tables.acceptedObjects (tables : Tables) (version : Key) : List ObjectRow :=
  tables.objects.filter fun object => object.status = .accepted ∧ object.version = version

/-- A list of one repeated id without repetitions has at most one entry. -/
theorem length_le_one {rows : List ObjectRow} (hids : (rows.map (·.id)).Nodup)
    (hsame : ∀ a ∈ rows, ∀ b ∈ rows, a.id = b.id) : rows.length ≤ 1 := by
  match rows with
  | [] => exact Nat.zero_le 1
  | [_] => exact le_refl 1
  | a :: b :: rest =>
      have hid : a.id = b.id := hsame a List.mem_cons_self b (by simp)
      simp [hid] at hids

theorem Guarded.acceptedObjects_length (h : Guarded tables) (version : Key) :
    (tables.acceptedObjects version).length ≤ 1 := by
  have hsublist : ((tables.acceptedObjects version).map (·.id)).Sublist
      (tables.objects.map (·.id)) := List.filter_sublist.map _
  refine length_le_one (h.ids.sublist hsublist) fun a ha b hb => ?_
  simp only [Tables.acceptedObjects, List.mem_filter, decide_eq_true_eq] at ha hb
  exact h.exclusive a ha.1 b hb.1 ha.2.1 hb.2.1 (ha.2.2.trans hb.2.2.symm)

/-- **Generation fencing**, as a law on one state of the system: every accepted
object is proven, a version has at most one accepted object, and a late
completion changes nothing. -/
structure GenerationFenced (platform : Platform) (ledger : Ledger) : Prop where
  proven : ∀ object ∈ ledger.tables.objects, object.status = .accepted →
    ∃ scan ∈ ledger.tables.scans, object.ProvenBy scan
  exclusive : ∀ version, (ledger.tables.acceptedObjects version).length ≤ 1
  late : ∀ inspection : Inspection, inspection.IsLate ledger.tables →
    ∀ outcome scanId now,
      ledger.step platform (.completeInspection inspection outcome scanId now) = ledger

/-- **Accepted artifacts are fenced by their generation.**  The law holds after
every run of the system; and once the completion of a generation has returned,
every later completion of that generation changes nothing, whatever happened
in between. -/
theorem generations_fenced (platform : Platform) :
    (∀ commands : List Command,
      GenerationFenced platform (run (Ledger.step platform) .opening commands)) ∧
    ∀ (before after : List Command) (inspection again : Inspection)
      (outcome : InspectionOutcome) (scanId : Uuid) (now : Time) (out : Tables × Answer),
      call platform (run (Ledger.step platform) .opening before).tables
          (.completeInspection inspection outcome scanId now) = .ok out →
      again.key = inspection.key →
      again.inspectionGeneration = inspection.inspectionGeneration →
      ∀ (late : InspectionOutcome) (lateId : Uuid) (later : Time),
        let ledger := run (Ledger.step platform) .opening
          (before ++ .completeInspection inspection outcome scanId now :: after)
        ledger.step platform (.completeInspection again late lateId later) = ledger := by
  refine ⟨fun commands => ?_, ?_⟩
  · have h : Guarded (run (Ledger.step platform) .opening commands).tables := guarded_run commands
    exact {
      proven := h.proven
      exclusive := h.acceptedObjects_length
      late := fun _ hlate outcome scanId now => late_refused h hlate outcome scanId now }
  · intro before after inspection again outcome scanId now out hdone hkey hgeneration late lateId
      later
    obtain ⟨scan, hscan, hobject, hscanned⟩ := scan_of_completion hdone
    refine late_refused (guarded_run _) (.inr ⟨scan, ?_, hobject.trans hkey.symm,
      hscanned.trans hgeneration.symm⟩) late lateId later
    rw [run_append]
    exact scans_run _ after hscan

/-- A clean completion of the sample inspection returns, and its repetition
after a restart changes nothing. -/
theorem generations_fenced_sample :
    let before := sampleAccepted.take 3
    let ledger := run (Ledger.step samplePlatform) .opening
      (before ++ .completeInspection (sampleInspection 1) (sampleClean 1500) (sampleId 6) 2000 ::
        [.beginInspection sampleBegin (sampleId 9) 3000])
    GenerationFenced samplePlatform ledger ∧
      ledger.step samplePlatform
        (.completeInspection (sampleInspection 1) (sampleClean 3500) (sampleId 8) 4000) = ledger ∧
      (ledger.tables.objects.map ObjectRow.inspectionGeneration) = [2] := by
  refine ⟨(generations_fenced samplePlatform).1 _, ?_, by decide +kernel⟩
  have hreturns : (call samplePlatform (run (Ledger.step samplePlatform) .opening
      (sampleAccepted.take 3)).tables (.completeInspection (sampleInspection 1) (sampleClean 1500)
        (sampleId 6) 2000)).isOk = true := by decide +kernel
  cases hcall : call samplePlatform (run (Ledger.step samplePlatform) .opening
      (sampleAccepted.take 3)).tables (.completeInspection (sampleInspection 1) (sampleClean 1500)
        (sampleId 6) 2000) with
  | error refusal => simp [hcall, Except.isOk, Except.toBool] at hreturns
  | ok out =>
      exact (generations_fenced samplePlatform).2 (sampleAccepted.take 3)
        [.beginInspection sampleBegin (sampleId 9) 3000] (sampleInspection 1) (sampleInspection 1)
        (sampleClean 1500) (sampleId 6) 2000 out hcall rfl rfl (sampleClean 3500) (sampleId 8) 4000

end Ingestion
