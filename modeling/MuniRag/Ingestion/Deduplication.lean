import MuniRag.Ingestion.AcceptanceFencing
import MuniRag.Ingestion.LeaseFencing

/-!
# What a duplicate answer is worth

`enqueue` answers `duplicate_work` when the work of a request is queued, being
processed or processed.  For a processed job the answer is true as long as no
other job of the version was completed after it, the object it is bound to was
not inspected again, and the acceptance has not run out; each of these can
happen while the job stays processed, and then no enqueue of the same work
publishes it again.
-/

namespace Ingestion

open Results Table Runs

/-! ## What search reads -/

/-- The vectors of the version are those of the job. -/
def Tables.Publishes (tables : Tables) (job : JobRow) : Prop :=
  published tables.vectors job.version ≠ [] ∧
    ∀ row ∈ published tables.vectors job.version, row.ingestionJobId = job.id

/-- The join of the search: the job is bound to the object and the scan that
are accepted at `now`. -/
def Tables.BindsAccepted (tables : Tables) (job : JobRow) (now : Time) : Prop :=
  ∃ binding ∈ tables.acceptances job.version job.artifactSha256 now,
    job.artifactObjectId = some binding.1.id ∧ job.artifactScanId = some binding.2.id

/-- What a truthful `duplicate_work` says about a processed job. -/
def Tables.Serves (tables : Tables) (job : JobRow) (now : Time) : Prop :=
  tables.Publishes job ∧ tables.BindsAccepted job now

instance (tables : Tables) (job : JobRow) (now : Time) : Decidable (tables.Serves job now) := by
  unfold Tables.Serves Tables.Publishes Tables.BindsAccepted
  infer_instance

/-! ## What has happened since a completion -/

/-- The latest job of the version that was completed. -/
def lastCompletion (version : Key) : List Answer → Option JobRow
  | [] => none
  | .completed job :: rest => if job.version = version then some job else lastCompletion version rest
  | _ :: rest => lastCompletion version rest

/-- Since the completion of the job, the inspection of the object it is bound
to was restarted, or an object of its version was accepted. -/
def Reinspected (job : JobRow) : List Answer → Prop
  | [] => False
  | .completed other :: rest => other.key ≠ job.key ∧ Reinspected job rest
  | .inspecting inspection :: rest =>
      job.artifactObjectId = some inspection.artifactObjectId ∨ Reinspected job rest
  | .inspected inspection record :: rest =>
      record.status = .accepted ∧
          (inspection.tenantId, inspection.documentVersionId) = job.version ∨
        Reinspected job rest
  | _ :: rest => Reinspected job rest

/-- The acceptance of the object the job is bound to has not run out. -/
def Tables.Unexpired (tables : Tables) (job : JobRow) (now : Time) : Prop :=
  ∃ object ∈ tables.objects, job.artifactObjectId = some object.id ∧
    object.acceptedUntil.any (now < ·) = true

/-- **When a duplicate is true**: the job is the last one completed for its
version, its object was not inspected again since, and the acceptance has not
run out. -/
def Ledger.IsCurrent (ledger : Ledger) (job : JobRow) (now : Time) : Prop :=
  (lastCompletion job.version ledger.history).map JobRow.key = some job.key ∧
    ¬ Reinspected job ledger.history ∧ ledger.tables.Unexpired job now

/-! ## Answers that change nothing of this -/

/-- Answers that are neither a completion nor about an inspection. -/
def Answer.isNeutral : Answer → Bool
  | .completed _ | .inspecting _ | .inspected _ _ => false
  | _ => true

variable {answer : Answer} {history : List Answer} {version : Key} {job : JobRow}

theorem lastCompletion_neutral (h : answer.isNeutral = true) :
    lastCompletion version (answer :: history) = lastCompletion version history := by
  cases answer <;> first | rfl | cases h

theorem reinspected_neutral (h : answer.isNeutral = true) :
    Reinspected job (answer :: history) ↔ Reinspected job history := by
  cases answer <;> first | exact Iff.rfl | cases h

theorem lastCompletion_version {last : JobRow} (h : lastCompletion version history = some last) :
    last.version = version := by
  induction history with
  | nil => cases h
  | cons answer history ih =>
      cases answer with
      | completed job =>
          rw [lastCompletion] at h
          split_ifs at h with hversion
          · obtain rfl := Option.some.inj h
            exact hversion
          · exact ih h
      | _ => exact ih h

/-! ## The tables and the history -/

/-- The object the job is bound to is still accepted, for the same scan. -/
def Tables.StillAccepted (tables : Tables) (job : JobRow) : Prop :=
  ∃ object ∈ tables.objects, job.artifactObjectId = some object.id ∧
    object.status = .accepted ∧ object.acceptedScanId = job.artifactScanId

/-- The object and the scan that the job was leased with are in the tables. -/
structure Tables.Binds (tables : Tables) (job : JobRow) : Prop where
  object : ∃ object ∈ tables.objects, job.artifactObjectId = some object.id ∧
    object.version = job.version ∧ object.expectedSha256 = job.artifactSha256
  scan : ∃ scan ∈ tables.scans, job.artifactScanId = some scan.id

/-- The vectors, the bindings and the acceptances agree with the history. -/
structure Lineage (ledger : Ledger) : Prop where
  unpublished : ∀ version, lastCompletion version ledger.history = none →
    published ledger.tables.vectors version = []
  published : ∀ version last, lastCompletion version ledger.history = some last →
    Ingestion.published ledger.tables.vectors version ≠ [] ∧
      ∀ row ∈ Ingestion.published ledger.tables.vectors version, row.ingestionJobId = last.id
  bound : ∀ job ∈ ledger.tables.jobs, job.status = .processing ∨ job.status = .processed →
    ledger.tables.Binds job
  current : ∀ job ∈ ledger.tables.jobs, job.status = .processed →
    (ledger.tables.StillAccepted job ↔ ¬ Reinspected job ledger.history)

variable {tables tables' : Tables} {ledger : Ledger}

theorem Tables.Binds.mono (h : tables.Binds job)
    (hobjects : ∀ object ∈ tables.objects, ∃ other ∈ tables'.objects, other.id = object.id ∧
      other.version = object.version ∧ other.expectedSha256 = object.expectedSha256)
    (hscans : tables.scans ⊆ tables'.scans) : tables'.Binds job := by
  obtain ⟨⟨object, hobject, hid, hversion, hsha⟩, scan, hscan, hscanId⟩ := h
  obtain ⟨other, hother, hsameId, hsameVersion, hsameSha⟩ := hobjects object hobject
  exact ⟨⟨other, hother, hsameId ▸ hid, hsameVersion.trans hversion, hsameSha.trans hsha⟩,
    scan, hscans hscan, hscanId⟩

/-- A call that touches at most jobs, documents and versions, completes no job,
and leaves every job it brings into processing bound. -/
theorem Lineage.jobs (h : Lineage ledger) (hneutral : answer.isNeutral = true)
    (hobjects : tables'.objects = ledger.tables.objects)
    (hscans : tables'.scans = ledger.tables.scans)
    (hvectors : tables'.vectors = ledger.tables.vectors)
    (hbound : ∀ job ∈ tables'.jobs, job.status = .processing → ledger.tables.Binds job)
    (hprocessed : ∀ job ∈ tables'.jobs, job.status = .processed → job ∈ ledger.tables.jobs) :
    Lineage { tables := tables', history := answer :: ledger.history } := by
  have hbinds : ∀ job, ledger.tables.Binds job → tables'.Binds job := by
    intro job hjob
    refine hjob.mono (fun object hobject => ⟨object, hobjects ▸ hobject, rfl, rfl, rfl⟩) ?_
    rw [hscans]
    exact List.Subset.refl _
  refine ⟨?_, ?_, ?_, ?_⟩
  · intro version hnone
    rw [lastCompletion_neutral hneutral] at hnone
    rw [hvectors]
    exact h.unpublished version hnone
  · intro version last hlast
    rw [lastCompletion_neutral hneutral] at hlast
    rw [hvectors]
    exact h.published version last hlast
  · intro job hjob hstatus
    rcases hstatus with hprocessing | hdone
    · exact hbinds job (hbound job hjob hprocessing)
    · exact hbinds job (h.bound job (hprocessed job hjob hdone) (.inr hdone))
  · intro job hjob hdone
    rw [reinspected_neutral hneutral, ← h.current job (hprocessed job hjob hdone) hdone]
    simp only [Tables.StillAccepted, hobjects]

/-! ## Inspections -/

/-- The id of an object determines its row. -/
theorem eq_of_object_id (hids : (tables.objects.map (·.id)).Nodup) {a b : ObjectRow}
    (ha : a ∈ tables.objects) (hb : b ∈ tables.objects) (hid : a.id = b.id) : a = b :=
  List.inj_on_of_nodup_map hids ha hb hid

/-- Whether a job is still accepted can be read off its one object row. -/
theorem stillAccepted_iff (hids : (tables.objects.map (·.id)).Nodup) {object : ObjectRow}
    (hobject : object ∈ tables.objects) (hid : job.artifactObjectId = some object.id) :
    tables.StillAccepted job ↔
      object.status = .accepted ∧ object.acceptedScanId = job.artifactScanId := by
  constructor
  · rintro ⟨other, hother, hotherId, haccepted⟩
    rw [hid, Option.some.injEq] at hotherId
    rwa [eq_of_object_id hids hobject hother hotherId]
  · intro haccepted
    exact ⟨object, hobject, hid, haccepted⟩

/-- A call about an inspection: every object keeps its identity, and what it
does to a bound object is what the history says of the job. -/
theorem Lineage.inspection (h : Lineage ledger) (hids : (ledger.tables.objects.map (·.id)).Nodup)
    (hids' : (tables'.objects.map (·.id)).Nodup) (hjobs : tables'.jobs = ledger.tables.jobs)
    (hvectors : tables'.vectors = ledger.tables.vectors)
    (hlast : ∀ version, lastCompletion version (answer :: ledger.history) =
      lastCompletion version ledger.history)
    (hscans : ledger.tables.scans ⊆ tables'.scans)
    (hobjects : ∀ object ∈ ledger.tables.objects, ∃ other ∈ tables'.objects,
      (other.id = object.id ∧ other.version = object.version ∧
        other.expectedSha256 = object.expectedSha256) ∧
      ∀ job, job.artifactObjectId = some object.id → job.version = object.version →
        (∃ scan ∈ ledger.tables.scans, job.artifactScanId = some scan.id) →
        (object.status = .accepted ∧ object.acceptedScanId = job.artifactScanId ↔
          ¬ Reinspected job ledger.history) →
        (other.status = .accepted ∧ other.acceptedScanId = job.artifactScanId ↔
          ¬ Reinspected job (answer :: ledger.history))) :
    Lineage { tables := tables', history := answer :: ledger.history } := by
  refine ⟨?_, ?_, ?_, ?_⟩
  · intro version hnone
    rw [hlast] at hnone
    rw [hvectors]
    exact h.unpublished version hnone
  · intro version last hsome
    rw [hlast] at hsome
    rw [hvectors]
    exact h.published version last hsome
  · intro job hjob hstatus
    rw [hjobs] at hjob
    refine (h.bound job hjob hstatus).mono (fun object hobject => ?_) hscans
    obtain ⟨other, hother, hsame, -⟩ := hobjects object hobject
    exact ⟨other, hother, hsame⟩
  · intro job hjob hdone
    rw [hjobs] at hjob
    obtain ⟨⟨object, hobject, hid, hversion, -⟩, hscan⟩ := h.bound job hjob (.inr hdone)
    obtain ⟨other, hother, ⟨hotherId, -, -⟩, hrow⟩ := hobjects object hobject
    have hbefore := h.current job hjob hdone
    rw [stillAccepted_iff hids hobject hid] at hbefore
    rw [stillAccepted_iff hids' hother (hotherId ▸ hid)]
    exact hrow job hid hversion.symm hscan hbefore

theorem Lineage.begin (h : Lineage ledger) (hguarded : Guarded ledger.tables)
    (hguarded' : Guarded tables') {new : ObjectRow} {inspection : Inspection}
    (htables : tables' = { ledger.tables with objects := ledger.tables.objects ++ [new] })
    (hfresh : ∀ row ∈ ledger.tables.objects, row.id ≠ new.id)
    (hid : inspection.artifactObjectId = new.id) :
    Lineage { tables := tables', history := .inspecting inspection :: ledger.history } := by
  subst htables
  refine h.inspection hguarded.ids hguarded'.ids rfl rfl (fun _ => rfl) (List.Subset.refl _) ?_
  intro object hobject
  refine ⟨object, List.mem_append_left _ hobject, ⟨rfl, rfl, rfl⟩,
    fun job hbound _ _ hbefore => ?_⟩
  have hother : job.artifactObjectId ≠ some inspection.artifactObjectId := by
    rw [hbound, hid]
    exact fun hsame => hfresh object hobject (Option.some.inj hsame)
  simpa [Reinspected, hother] using hbefore

theorem Lineage.restart (h : Lineage ledger) (hguarded : Guarded ledger.tables)
    (hguarded' : Guarded tables') {object : ObjectRow} {inspection : Inspection}
    {principalId : Uuid} {now : Time} (hobject : object ∈ ledger.tables.objects)
    (htables : tables' = { ledger.tables with
      objects := updateWhere (·.id = object.id) (fun _ => object.restart principalId now)
        ledger.tables.objects })
    (hid : inspection.artifactObjectId = object.id) :
    Lineage { tables := tables', history := .inspecting inspection :: ledger.history } := by
  subst htables
  refine h.inspection hguarded.ids hguarded'.ids rfl rfl (fun _ => rfl) (List.Subset.refl _) ?_
  intro row hrow
  by_cases hsame : row.id = object.id
  · obtain rfl := eq_of_object_id hguarded.ids hrow hobject hsame
    refine ⟨row.restart principalId now, mem_updateWhere.mpr (.inl ⟨row, hrow, rfl, rfl⟩),
      ⟨rfl, rfl, rfl⟩, fun job hbound _ _ _ => ?_⟩
    have hrestarted : job.artifactObjectId = some inspection.artifactObjectId := by
      rw [hbound, hid]
    simp [Reinspected, hrestarted, ObjectRow.restart]
  · refine ⟨row, mem_updateWhere.mpr (.inr ⟨hrow, hsame⟩), ⟨rfl, rfl, rfl⟩,
      fun job hbound _ _ hbefore => ?_⟩
    have hother : job.artifactObjectId ≠ some inspection.artifactObjectId := by
      rw [hbound, hid]
      exact fun heq => hsame (Option.some.inj heq)
    simpa [Reinspected, hother] using hbefore

/-- What making room for an acceptance does to one other row. -/
theorem mem_makeRoom {object row : ObjectRow} (verdict : Verdict) (now : Time)
    (hrow : row ∈ tables.objects) (hother : row.id ≠ object.id) :
    ∃ kept ∈ (makeRoom tables object verdict now).objects,
      (kept.id = row.id ∧ kept.version = row.version ∧
        kept.expectedSha256 = row.expectedSha256) ∧
      (kept = row ∨ kept.status ≠ .accepted) ∧
      (verdict = .clean → row.version = object.version → kept.status ≠ .accepted) ∧
      (verdict = .clean → row.version ≠ object.version → kept = row) ∧
      (verdict ≠ .clean → kept = row) := by
  by_cases hclean : verdict = .clean
  · subst hclean
    by_cases htaken : row.version = object.version ∧ row.id ≠ object.id ∧ row.status = .accepted
    · refine ⟨_, mem_updateWhere.mpr (.inl ⟨row, hrow, htaken, rfl⟩), ⟨rfl, rfl, rfl⟩,
        .inr (by simp), fun _ _ => by simp, fun _ hversion => absurd htaken.1 hversion,
        fun hnot => absurd rfl hnot⟩
    · refine ⟨row, mem_updateWhere.mpr (.inr ⟨hrow, htaken⟩), ⟨rfl, rfl, rfl⟩, .inl rfl, ?_,
        fun _ _ => rfl, fun _ => rfl⟩
      intro _ hversion haccepted
      exact htaken ⟨hversion, hother, haccepted⟩
  · have hsame : makeRoom tables object verdict now = tables := if_neg hclean
    rw [hsame]
    exact ⟨row, hrow, ⟨rfl, rfl, rfl⟩, .inl rfl, fun h => absurd h hclean, fun _ _ => rfl,
      fun _ => rfl⟩

theorem self_mem_makeRoom {object : ObjectRow} {verdict : Verdict} {now : Time}
    (hobject : object ∈ tables.objects) :
    object ∈ (makeRoom tables object verdict now).objects := by
  rw [makeRoom]
  split
  · exact mem_updateWhere.mpr (.inr ⟨hobject, fun htaken => htaken.2.1 rfl⟩)
  · exact hobject

theorem Lineage.complete (h : Lineage ledger) (hguarded : Guarded ledger.tables)
    (hguarded' : Guarded tables') {object : ObjectRow} {scan : ScanRow} {inspection : Inspection}
    {outcome : InspectionOutcome} {scanId : Uuid} {now : Time} {record : AcceptanceRecord}
    (hobject : object ∈ ledger.tables.objects)
    (htables : tables' = { ledger.tables with
      scans := ledger.tables.scans ++ [scan]
      objects := updateWhere (·.id = object.id) (fun _ => object.decide outcome scanId now)
        (makeRoom ledger.tables object outcome.verdict now).objects })
    (hversion : (inspection.tenantId, inspection.documentVersionId) = object.version)
    (hrecord : record.status = if outcome.verdict = .clean then .accepted else .rejected)
    (hscanning : object.status = .scanning)
    (hfresh : ∀ row ∈ ledger.tables.scans, row.id ≠ scanId) :
    Lineage { tables := tables', history := .inspected inspection record :: ledger.history } := by
  subst htables
  refine h.inspection hguarded.ids hguarded'.ids rfl rfl (fun _ => rfl)
    (List.subset_append_left _ _) ?_
  intro row hrow
  by_cases hsame : row.id = object.id
  · obtain rfl := eq_of_object_id hguarded.ids hrow hobject hsame
    refine ⟨row.decide outcome scanId now,
      mem_updateWhere.mpr (.inl ⟨row, self_mem_makeRoom hrow, rfl, rfl⟩), ⟨rfl, rfl, rfl⟩, ?_⟩
    intro job hbound hjobVersion ⟨old, hold, hscanId⟩ hbefore
    have hreinspected : Reinspected job ledger.history := by
      simpa [hscanning] using hbefore
    have hnot : ¬ ((row.decide outcome scanId now).status = .accepted ∧
        (row.decide outcome scanId now).acceptedScanId = job.artifactScanId) := by
      rintro ⟨haccepted, hscanned⟩
      by_cases hclean : outcome.verdict = .clean
      · have hid : some scanId = some old.id := by
          rw [← hscanId, ← hscanned]
          exact (if_pos hclean).symm
        exact hfresh old hold (Option.some.inj hid).symm
      · simp [ObjectRow.decide, hclean] at haccepted
    exact iff_of_false hnot (not_not.mpr (.inr hreinspected))
  · obtain ⟨kept, hkept, hidentity, hkeeps, htaken, hfree, hrejected⟩ :=
      mem_makeRoom outcome.verdict now hrow hsame
    refine ⟨kept, mem_updateWhere.mpr (.inr ⟨hkept, hidentity.1 ▸ hsame⟩), hidentity, ?_⟩
    intro job hbound hjobVersion _ hbefore
    by_cases hclean : outcome.verdict = .clean
    · by_cases hmine : row.version = object.version
      · refine iff_of_false (fun haccepted => htaken hclean hmine haccepted.1) (not_not.mpr ?_)
        exact .inl ⟨by rw [hrecord, if_pos hclean], by rw [hversion, ← hmine, hjobVersion]⟩
      · have hother : (inspection.tenantId, inspection.documentVersionId) ≠ job.version := by
          rw [hversion, hjobVersion]
          exact Ne.symm hmine
        rw [hfree hclean hmine]
        simpa [Reinspected, hother] using hbefore
    · have hstatus : record.status ≠ .accepted := by
        rw [hrecord, if_neg hclean]
        decide
      rw [hrejected hclean]
      simpa [Reinspected, hstatus] using hbefore

/-! ## Completions -/

/-- A binding that a job was leased with is in the tables. -/
theorem Tables.binds_of_acceptance {object : ObjectRow} {scan : ScanRow} {now : Time}
    (hmem : (object, scan) ∈ tables.acceptances job.version job.artifactSha256 now)
    (hobject : job.artifactObjectId = some object.id) (hscan : job.artifactScanId = some scan.id) :
    tables.Binds job := by
  obtain ⟨hrow, hversion, hsha, -, hscanRow, -⟩ := mem_acceptances.mp hmem
  exact ⟨⟨object, hrow, hobject, hversion, hsha⟩, scan, hscanRow, hscan⟩

/-- A binding that is accepted at some instant is still accepted. -/
theorem Tables.stillAccepted_of_acceptance {object : ObjectRow} {scan : ScanRow} {now : Time}
    (hmem : (object, scan) ∈ tables.acceptances job.version job.artifactSha256 now)
    (hobject : job.artifactObjectId = some object.id) (hscan : job.artifactScanId = some scan.id) :
    tables.StillAccepted job := by
  obtain ⟨hrow, -, -, haccepted, -, hproven⟩ := mem_acceptances.mp hmem
  rw [ObjectRow.acceptedAt, Bool.and_eq_true, decide_eq_true_eq] at haccepted
  exact ⟨object, hrow, hobject, haccepted.1, hproven.reference.trans hscan.symm⟩

/-- A completed job is the one its version now has the vectors of, and it is
bound to what is accepted; the other versions and jobs are as they were. -/
theorem Lineage.finish (h : Lineage ledger) {now : Time} {binding : ObjectRow × ScanRow}
    {identity : DocumentIdentity} {records : List VectorRecord} {vectors : List VectorRow}
    (hjobs : tables'.jobs = (ledger.tables.rewriteJob job (job.complete now)).jobs)
    (hobjects : tables'.objects = ledger.tables.objects)
    (hscans : tables'.scans = ledger.tables.scans) (hvectors : tables'.vectors = vectors)
    (hbinding : binding ∈ ledger.tables.acceptances job.version job.artifactSha256 now)
    (hbound : job.artifactObjectId = some binding.1.id ∧ job.artifactScanId = some binding.2.id)
    (hreplaced : replaceDocumentVersion ledger.tables.vectors job identity records = .ok vectors) :
    Lineage { tables := tables', history := .completed (job.complete now) :: ledger.history } := by
  obtain ⟨hsome, hmine, hothers⟩ := replaceDocumentVersion_ok hreplaced
  have hversion : (job.complete now).version = job.version := rfl
  have hbinds : ∀ row, ledger.tables.Binds row → tables'.Binds row := by
    intro row hrow
    refine hrow.mono (fun object hobject => ⟨object, hobjects ▸ hobject, rfl, rfl, rfl⟩) ?_
    rw [hscans]
    exact List.Subset.refl _
  have hcases : ∀ row ∈ tables'.jobs, row = job.complete now ∨
      row ∈ ledger.tables.jobs ∧ row.key ≠ job.key := by
    rw [hjobs]
    intro row hrow
    rcases mem_updateWhere.mp hrow with ⟨_, _, _, rfl⟩ | hkept
    · exact .inl rfl
    · exact .inr hkept
  refine ⟨?_, ?_, ?_, ?_⟩
  · intro version hnone
    rw [lastCompletion] at hnone
    split_ifs at hnone with hsame
    have hold : Ingestion.published ledger.tables.vectors version = [] :=
      h.unpublished version hnone
    rw [hvectors, List.eq_nil_iff_forall_not_mem]
    intro row hrow
    rw [hothers version (Ne.symm hsame) row, hold] at hrow
    exact absurd hrow (by simp)
  · intro version last hlast
    rw [lastCompletion] at hlast
    rw [hvectors]
    split_ifs at hlast with hsame
    · obtain rfl := Option.some.inj hlast
      rw [← hsame]
      exact ⟨hsome, hmine⟩
    · obtain ⟨hold, hrows⟩ := h.published version last hlast
      refine ⟨fun hnil => hold ?_, fun row hrow => ?_⟩
      · rw [List.eq_nil_iff_forall_not_mem] at hnil ⊢
        intro row hrow
        exact hnil row ((hothers version (Ne.symm hsame) row).mpr hrow)
      · exact hrows row ((hothers version (Ne.symm hsame) row).mp hrow)
  · intro row hrow hstatus
    rcases hcases row hrow with rfl | ⟨hold, -⟩
    · exact hbinds _ (Tables.binds_of_acceptance hbinding hbound.1 hbound.2)
    · exact hbinds row (h.bound row hold hstatus)
  · intro row hrow hdone
    rcases hcases row hrow with rfl | ⟨hold, hkey⟩
    · refine iff_of_true ?_ (fun hreinspected => hreinspected.1 rfl)
      have haccepted : ledger.tables.StillAccepted (job.complete now) :=
        Tables.stillAccepted_of_acceptance hbinding hbound.1 hbound.2
      simpa only [Tables.StillAccepted, hobjects] using haccepted
    · have hother : (job.complete now).key ≠ row.key := Ne.symm hkey
      have hbefore := h.current row hold hdone
      simpa only [Tables.StillAccepted, hobjects, Reinspected, ne_eq, hother, not_false_eq_true,
        true_and] using hbefore

/-! ## Every run -/

/-- The rows of the tables agree with the answers, and the answers with each
other. -/
structure Recorded (platform : Platform) (ledger : Ledger) : Prop where
  fenced : Fenced platform ledger
  guarded : Guarded ledger.tables
  lineage : Lineage ledger

variable {platform : Platform}

theorem lineage_step (h : Recorded platform ledger) (command : Command) :
    Lineage (ledger.step platform command) := by
  obtain ⟨hfenced, hguarded, hlineage⟩ := h
  have hguarded' : Guarded (ledger.step platform command).tables := guarded_step hguarded command
  have hprocessing : ∀ job ∈ ledger.tables.jobs, job.status = .processing →
      ledger.tables.Binds job := fun job hjob hstatus => hlineage.bound job hjob (.inl hstatus)
  rcases ledger.step_cases platform command with hsame | ⟨_, _, heffect, hstep⟩
  · rwa [hsame]
  rw [hstep] at hguarded' ⊢
  cases heffect with
  | begun mediaType hfresh hunbound hid =>
      exact hlineage.begin hguarded hguarded' rfl hfresh hid
  | restarted object hobject hreference hversion hid =>
      exact hlineage.restart hguarded hguarded' hobject rfl hid
  | inspected object scan hobject hkey hversion hrecord hscanning hgeneration hscan hunscanned
      hproof =>
      exact hlineage.complete hguarded hguarded' hobject rfl hversion hrecord hscanning
        fun row hrow => (hunscanned row hrow).1
  | admitted identity version hidentity hversion hcontent hadmits =>
      refine hlineage.jobs rfl rfl rfl rfl (fun job hjob hstatus => ?_) fun job hjob hstatus => ?_
      · rcases List.mem_append.mp hjob with hold | hlast
        · exact hprocessing job hold hstatus
        · rw [List.mem_singleton.mp hlast] at hstatus
          cases hstatus
      · rcases List.mem_append.mp hjob with hold | hlast
        · exact hold
        · rw [List.mem_singleton.mp hlast] at hstatus
          cases hstatus
  | exhausted versions hfound hversions =>
      refine hlineage.jobs rfl rfl rfl rfl (fun job hjob hstatus => ?_) fun job hjob hstatus => ?_
      · rcases mem_updateWhere.mp hjob with ⟨old, _, _, rfl⟩ | ⟨hold, _⟩
        · cases hstatus
        · exact hprocessing job hold hstatus
      · rcases mem_updateWhere.mp hjob with ⟨old, _, _, rfl⟩ | ⟨hold, _⟩
        · cases hstatus
        · exact hold
  | leased old binding owner duration lease hleasable hfirst hlease =>
      obtain ⟨-, -, hbinding⟩ := mem_leasable.mp hleasable
      refine hlineage.jobs rfl rfl rfl rfl (fun job hjob hstatus => ?_) fun job hjob hstatus => ?_
      · rcases mem_updateWhere.mp hjob with ⟨_, _, _, rfl⟩ | ⟨hold, _⟩
        · rw [hlease.1]
          exact Tables.binds_of_acceptance hbinding rfl rfl
        · exact hprocessing job hold hstatus
      · rcases mem_updateWhere.mp hjob with ⟨_, _, _, rfl⟩ | ⟨hold, _⟩
        · rw [hlease.1] at hstatus
          cases hstatus
        · exact hold
  | extended old duration hheld =>
      obtain ⟨hmem, -, hfrom, -⟩ := held_some hheld
      refine hlineage.jobs rfl rfl rfl rfl (fun job hjob hstatus => ?_) fun job hjob hstatus => ?_
      · rcases mem_updateWhere.mp hjob with ⟨_, _, _, rfl⟩ | ⟨hold, _⟩
        · obtain ⟨hobject, hscan⟩ := hprocessing old hmem hfrom
          exact ⟨hobject, hscan⟩
        · exact hprocessing job hold hstatus
      · rcases mem_updateWhere.mp hjob with ⟨_, _, _, rfl⟩ | ⟨hold, _⟩
        · exact absurd (hfrom.symm.trans hstatus) (by decide)
        · exact hold
  | completed old version binding vectors hheld hversion hbinding hbound hvectors =>
      exact hlineage.finish rfl rfl rfl rfl hbinding hbound hvectors
  | @failed input now old hshape hdelay hheld hversion =>
      have hout : (input.outcome old now).status ≠ .processing ∧
          (input.outcome old now).status ≠ .processed := by
        rw [FailInput.outcome]
        split <;> simp [JobRow.retry, JobRow.fail]
      refine hlineage.jobs rfl rfl rfl rfl (fun job hjob hstatus => ?_) fun job hjob hstatus => ?_
      · rcases mem_updateWhere.mp hjob with ⟨_, _, _, rfl⟩ | ⟨hold, _⟩
        · exact absurd hstatus hout.1
        · exact hprocessing job hold hstatus
      · rcases mem_updateWhere.mp hjob with ⟨_, _, _, rfl⟩ | ⟨hold, _⟩
        · exact absurd hstatus hout.2
        · exact hold
  | _ => exact hlineage.jobs rfl rfl rfl rfl hprocessing fun _ hjob _ => hjob

theorem recorded_step (h : Recorded platform ledger) (command : Command) :
    Recorded platform (ledger.step platform command) where
  fenced := fenced_step h.fenced command
  guarded := guarded_step h.guarded command
  lineage := lineage_step h command

theorem recorded_opening : Recorded platform .opening where
  fenced := fenced_opening
  guarded := guarded_empty
  lineage := by
    refine ⟨fun _ _ => rfl, ?_, ?_, ?_⟩
    · intro version last hlast
      cases hlast
    · simp [Ledger.opening, Tables.empty]
    · simp [Ledger.opening, Tables.empty]

theorem recorded_run (commands : List Command) :
    Recorded platform (run (Ledger.step platform) .opening commands) :=
  run_invariant (Recorded platform) (fun _ command h => recorded_step h command) recorded_opening
    commands

/-! ## What a processed job serves -/

theorem Lineage.publishes_iff (h : Lineage ledger) :
    ledger.tables.Publishes job ↔
      (lastCompletion job.version ledger.history).map JobRow.key = some job.key := by
  constructor
  · rintro ⟨hsome, hmine⟩
    cases hlast : lastCompletion job.version ledger.history with
    | none => exact absurd (h.unpublished job.version hlast) hsome
    | some last =>
        obtain ⟨row, hrow⟩ := List.exists_mem_of_ne_nil _ hsome
        have hid : last.id = job.id :=
          ((h.published job.version last hlast).2 row hrow).symm.trans (hmine row hrow)
        have htenant : last.tenantId = job.tenantId :=
          congrArg Prod.fst (lastCompletion_version hlast)
        rw [Option.map_some, JobRow.key, JobRow.key, hid, htenant]
  · intro hkey
    obtain ⟨last, hlast, hsame⟩ := Option.map_eq_some_iff.mp hkey
    obtain ⟨hsome, hrows⟩ := h.published job.version last hlast
    have hid : last.id = job.id := congrArg Prod.snd hsame
    exact ⟨hsome, fun row hrow => (hrows row hrow).trans hid⟩

theorem Recorded.bindsAccepted_iff (h : Recorded platform ledger) {now : Time}
    (hjob : job ∈ ledger.tables.jobs) (hdone : job.status = .processed) :
    ledger.tables.BindsAccepted job now ↔
      ¬ Reinspected job ledger.history ∧ ledger.tables.Unexpired job now := by
  rw [← h.lineage.current job hjob hdone]
  constructor
  · rintro ⟨⟨object, scan⟩, hmem, hobject, hscan⟩
    refine ⟨Tables.stillAccepted_of_acceptance hmem hobject hscan, ?_⟩
    obtain ⟨hrow, -, -, haccepted, -⟩ := mem_acceptances.mp hmem
    rw [ObjectRow.acceptedAt, Bool.and_eq_true] at haccepted
    exact ⟨object, hrow, hobject, haccepted.2⟩
  · rintro ⟨⟨object, hobject, hid, hstatus, hscan⟩, other, hother, hotherId, hexpiry⟩
    have hids : (ledger.tables.objects.map (·.id)).Nodup := h.guarded.ids
    obtain ⟨⟨row, hrow, hrowId, hversion, hsha⟩, -⟩ := h.lineage.bound job hjob (.inr hdone)
    have hsameRow : row = object :=
      eq_of_object_id hids hrow hobject (Option.some.inj (hrowId.symm.trans hid))
    have hsameOther : other = object :=
      eq_of_object_id hids hother hobject (Option.some.inj (hotherId.symm.trans hid))
    subst hsameRow hsameOther
    obtain ⟨scan, hscanRow, hproven⟩ := h.guarded.proven _ hobject hstatus
    refine ⟨(_, scan), mem_acceptances.mpr ⟨hobject, hversion, hsha, ?_, hscanRow, hproven⟩, hid,
      hscan.symm.trans hproven.reference⟩
    rw [ObjectRow.acceptedAt, hstatus, hexpiry]
    rfl

/-- **What a processed job is worth.**  It serves its version exactly as long
as it is current. -/
theorem Recorded.serves_iff (h : Recorded platform ledger) {now : Time}
    (hjob : job ∈ ledger.tables.jobs) (hdone : job.status = .processed) :
    ledger.tables.Serves job now ↔ ledger.IsCurrent job now :=
  and_congr h.lineage.publishes_iff (h.bindsAccepted_iff hjob hdone)

/-! ## Duplicate answers -/

/-- The law of one call: a `duplicate_work` that names a processed job is
answered only while that job serves its version. -/
def Ledger.AnswersTruly (platform : Platform) (ledger : Ledger) (command : Command) : Prop :=
  ∀ tables' job, call platform ledger.tables command =
      .ok (tables', .enqueued (.duplicateWork job)) → job.status = .processed →
    match command with
    | .enqueue _ _ now => ledger.tables.Serves job now
    | _ => True

/-- **The request that is misled.**  Under a fresh key it names a work whose
live job is processed and no longer current. -/
def Ledger.Misleads (platform : Platform) (ledger : Ledger) : Command → Prop
  | .enqueue input _ now => ∃ identity version job,
      buildIngestionJobIdentity platform input = .ok identity ∧
      ledger.tables.activeVersion? (identity.tenantId, identity.documentVersionId) =
        some version ∧
      version.1.contentSha256 = identity.artifactSha256 ∧
      ledger.tables.byIdempotency? identity = none ∧
      ledger.tables.byWork? identity = some job ∧ job.status = .processed ∧
      ¬ ledger.IsCurrent job now
  | _ => False

theorem byWork?_some {identity : JobIdentity} (h : tables.byWork? identity = some job) :
    job ∈ tables.jobs ∧ job.tenantId = identity.tenantId ∧
      job.workSha256 = identity.workSha256 ∧ job.status.isLive = true := by
  have hmatches := List.find?_some h
  simp only [decide_eq_true_eq] at hmatches
  exact ⟨List.mem_of_find?_eq_some h, hmatches⟩

/-- A work with a live job is not admitted again. -/
theorem not_admits_of_byWork? {identity : JobIdentity} (h : tables.byWork? identity = some job)
    (config : PipelineConfig) (jobId : Uuid) (now : Time) :
    ¬ tables.admits (identity.job config jobId now) := by
  intro hadmits
  obtain ⟨hjob, hlive⟩ := byWork?_some h
  exact (hadmits job hjob).2.2 hlive

/-- What a `duplicate_work` has read. -/
theorem duplicateWork_iff {input : EnqueueInput} {jobId : Uuid} {now : Time} :
    (∃ tables', call platform tables (.enqueue input jobId now) =
        .ok (tables', .enqueued (.duplicateWork job))) ↔
      ∃ identity version, buildIngestionJobIdentity platform input = .ok identity ∧
        tables.activeVersion? (identity.tenantId, identity.documentVersionId) = some version ∧
        version.1.contentSha256 = identity.artifactSha256 ∧
        tables.byIdempotency? identity = none ∧ tables.byWork? identity = some job := by
  constructor
  · rintro ⟨tables', hcall⟩
    cases call_effect hcall with
    | resolved identity version hidentity hversion hcontent hconflict hanswer =>
        refine ⟨identity, version, hidentity, hversion, hcontent, ?_⟩
        rw [Tables.resolveConflict] at hanswer
        split at hanswer
        case h_1 found _ =>
            split_ifs at hanswer with hrequest
            · cases return_ok.mp hanswer
            · cases return_ok.mp hanswer
        case h_2 hnone =>
            simp only [then_ok, orRefuse_ok, return_ok] at hanswer
            obtain ⟨other, hother, hsame⟩ := hanswer
            obtain rfl := EnqueueAnswer.duplicateWork.inj hsame
            exact ⟨hnone, hother⟩
  · rintro ⟨identity, version, hidentity, hversion, hcontent, hfresh, hwork⟩
    have hconflict : ¬ tables.admits (identity.job input.pipelineConfig jobId now) :=
      not_admits_of_byWork? hwork input.pipelineConfig jobId now
    have hanswer : tables.resolveConflict identity = .ok (.duplicateWork job) := by
      simp only [Tables.resolveConflict, hfresh, then_ok, orRefuse_ok, return_ok]
      exact ⟨job, hwork, rfl⟩
    have hresolved : tables.admitOrResolve identity
        (identity.job input.pipelineConfig jobId now) = .ok (tables, .duplicateWork job) := by
      rw [Tables.admitOrResolve, if_neg hconflict, hanswer]
      rfl
    refine ⟨tables, ?_⟩
    simp only [call, enqueue, then_ok, orRefuse_ok, require_ok, return_ok]
    exact ⟨_, ⟨identity, hidentity, version, hversion, (), hcontent, hresolved⟩, rfl⟩

/-- **One call.**  It answers truly exactly when it misleads nobody. -/
theorem Recorded.answersTruly_iff (h : Recorded platform ledger) (command : Command) :
    ledger.AnswersTruly platform command ↔ ¬ ledger.Misleads platform command := by
  cases command with
  | enqueue input jobId now =>
      constructor
      · rintro htrue ⟨identity, version, job, hidentity, hversion, hcontent, hfresh, hwork, hdone,
          hstale⟩
        obtain ⟨tables', hcall⟩ := duplicateWork_iff.mpr
          ⟨identity, version, hidentity, hversion, hcontent, hfresh, hwork⟩
        exact hstale ((h.serves_iff (byWork?_some hwork).1 hdone).mp (htrue tables' job hcall hdone))
      · intro hgood tables' job hcall hdone
        obtain ⟨identity, version, hidentity, hversion, hcontent, hfresh, hwork⟩ :=
          duplicateWork_iff.mp ⟨tables', hcall⟩
        refine (h.serves_iff (byWork?_some hwork).1 hdone).mpr ?_
        by_contra hstale
        exact hgood ⟨identity, version, job, hidentity, hversion, hcontent, hfresh, hwork, hdone,
          hstale⟩
  | _ => exact iff_of_true (fun _ _ _ _ => trivial) (fun hfalse => hfalse)

end Ingestion
