import Mathlib.Data.Rat.Encodable
import MuniRag.Corpus.Backfill
import MuniRag.Ingestion.JobIdentity
import MuniRag.Lib.LimitedSearch

/-!
# Backfilling twice

After a run in which no document failed, a second one skips every document, for a store that
gives back what is put under the keys of the documents (`Keeps`).  Memory gives a record back as
it is, so a dimension that is `NaN` is the only one that is not found again; the file gives back
what JSON keeps of it, and nothing at all once a blank key is in it.
-/

namespace Corpus

open Fallible
open Retrieval (JsNumber)

/-- What a store promises in the states `Inv`, for the records under the keys `Kept`: it gives a
record back as its `view`, and leaves those under other keys. -/
structure Keeps {σ : Type} (store : CorpusManifestStore σ) (Inv : σ → Prop)
    (Kept : JsString → Prop) (view : CorpusManifestRecord → CorpusManifestRecord) : Prop where
  put : ∀ record {documentKey found state}, Inv state →
    store.get documentKey state = .ok found → ∃ state', store.put record state = .ok state'
  inv : ∀ {record state state'}, Inv state → store.put record state = .ok state' → Inv state'
  same : ∀ {record state state'}, Inv state → Kept record.documentKey →
    store.put record state = .ok state' →
    store.get record.documentKey state' = .ok (some (view record))
  other : ∀ {record state state' documentKey}, Inv state → Kept record.documentKey →
    store.put record state = .ok state' → documentKey ≠ record.documentKey →
    store.get documentKey state' = store.get documentKey state
  held : ∀ {documentKey record state}, Inv state →
    store.get documentKey state = .ok (some record) →
    record.documentKey = documentKey ∧ Kept documentKey ∧ view record = record
  skipped : ∀ {record indexedAt}, view record = record →
    view (skippedRecordFromExisting record indexedAt) = skippedRecordFromExisting record indexedAt

section Runs

variable {σ E : Type} {dependencies : CorpusBackfillDependencies σ E} {Inv : σ → Prop}
  {Kept : JsString → Prop} {view : CorpusManifestRecord → CorpusManifestRecord}
  {document : CorpusBackfillDocumentInput} {documents : List CorpusBackfillDocumentInput}
  {result result' : CorpusBackfillResult} {progress progress' : Progress σ} {manifest : σ}
  {record : CorpusManifestRecord} {documentKey : JsString}

/-! ## The parts of a turn -/

theorem getRecord_ok {found : Option CorpusManifestRecord} :
    getRecord dependencies documentKey progress = (.ok found, progress') ↔
      dependencies.manifestStore.get documentKey progress.manifest = .ok found ∧
        progress' = progress := by
  rw [getRecord]
  cases dependencies.manifestStore.get documentKey progress.manifest <;> simp [eq_comm]

theorem putRecord_ok :
    putRecord dependencies record progress = (.ok (), progress') ↔
      ∃ manifest, dependencies.manifestStore.put record progress.manifest = .ok manifest ∧
        progress' = { progress with manifest := manifest } := by
  rw [putRecord]
  cases dependencies.manifestStore.put record progress.manifest <;> simp [eq_comm]

theorem callIndexer_ok {input : VectorIndexingInput} {answer : VectorIndexingResult}
    (h : callIndexer dependencies input progress = (.ok answer, progress')) :
    progress'.manifest = progress.manifest := by
  rw [callIndexer] at h
  cases hcall : dependencies.indexVectorSource progress.indexerCalls input with
  | ok found =>
      simp only [hcall, Prod.mk.injEq] at h
      rw [← h.2]
  | error error => simp [hcall] at h

/-- The store has a record under the key of the document that lets it be skipped. -/
def Recorded (dependencies : CorpusBackfillDependencies σ E)
    (document : CorpusBackfillDocumentInput) (manifest : σ) : Prop :=
  ∃ record, dependencies.manifestStore.get document.documentKey manifest = .ok (some record) ∧
    UpToDate dependencies.numbers record document (dependencies.contentSha256 document.content)

/-- What the store gives back of a document that was indexed lets it be skipped. -/
structure Recallable (dependencies : CorpusBackfillDependencies σ E) (Kept : JsString → Prop)
    (view : CorpusManifestRecord → CorpusManifestRecord)
    (document : CorpusBackfillDocumentInput) : Prop where
  key : Kept document.documentKey
  upToDate : ∀ indexingResult indexedAt,
    UpToDate dependencies.numbers (view (recordFromIndexingResult document
      (dependencies.contentSha256 document.content) indexingResult .indexed indexedAt)) document
      (dependencies.contentSha256 document.content)

theorem UpToDate.skipped {numbers : Json.NumberText ℚ} {contentSha256 indexedAt : JsString}
    (h : UpToDate numbers record document contentSha256) :
    UpToDate numbers (skippedRecordFromExisting record indexedAt) document contentSha256 where
  settled := by simp [skippedRecordFromExisting]
  content := h.content
  version := h.version
  provider := h.provider
  model := h.model
  dimension := h.dimension
  metadata := h.metadata

/-! ## The first run -/

/-- What a turn says of the store it leaves. -/
structure Turned (dependencies : CorpusBackfillDependencies σ E) (Inv : σ → Prop)
    (document : CorpusBackfillDocumentInput) (status : CorpusManifestStatus)
    (before after : σ) : Prop where
  inv : Inv after
  recorded : status ≠ .failed → Recorded dependencies document after
  other : ∀ documentKey, documentKey ≠ document.documentKey →
    dependencies.manifestStore.get documentKey after =
      dependencies.manifestStore.get documentKey before

theorem indexDocument_turned (hkeeps : Keeps dependencies.manifestStore Inv Kept view)
    (hdocument : Recallable dependencies Kept view document) (hinv : Inv progress.manifest)
    {decision : CorpusBackfillDecision} {indexedAt : JsString}
    (hrun : indexDocument dependencies document decision indexedAt result progress =
      (.ok result', progress')) :
    ∃ answer, result'.results = result.results ++ [answer] ∧
      Turned dependencies Inv document answer.status progress.manifest progress'.manifest := by
  unfold indexDocument at hrun
  obtain ⟨indexingResult, called, hcall, hstored⟩ := bind_ok_iff.mp hrun
  obtain ⟨_, written, hwrite, hanswer⟩ := bind_ok_iff.mp hstored
  obtain ⟨manifest, hput, rfl⟩ := putRecord_ok.mp hwrite
  obtain ⟨hresult, rfl⟩ := Prod.mk.inj hanswer
  rw [callIndexer_ok hcall] at hput
  refine ⟨_, by rw [← Except.ok.inj hresult], hkeeps.inv hinv hput, ?_, ?_⟩
  · intro hstatus
    by_cases hindexed : indexingResult.status = .indexed
    · rw [if_pos hindexed] at hput
      exact ⟨_, hkeeps.same hinv hdocument.key hput, hdocument.upToDate indexingResult indexedAt⟩
    · exact absurd (if_neg hindexed) hstatus
  · intro documentKey hne
    exact hkeeps.other hinv hdocument.key hput hne

/-- The record of a document that is skipped is put again, marked as skipped. -/
theorem skipDocument_found (hkeeps : Keeps dependencies.manifestStore Inv Kept view)
    (hinv : Inv progress.manifest) {indexedAt : JsString}
    (hget : dependencies.manifestStore.get documentKey progress.manifest = .ok (some record))
    (hput : dependencies.manifestStore.put (skippedRecordFromExisting record indexedAt)
      progress.manifest = .ok manifest) :
    dependencies.manifestStore.get documentKey manifest =
        .ok (some (skippedRecordFromExisting record indexedAt)) ∧
      ∀ other, other ≠ documentKey → dependencies.manifestStore.get other manifest =
        dependencies.manifestStore.get other progress.manifest := by
  obtain ⟨hkey, hkept, hview⟩ := hkeeps.held hinv hget
  have hown : (skippedRecordFromExisting record indexedAt).documentKey = documentKey := hkey
  have hsame := hkeeps.same hinv (hown ▸ hkept) hput
  rw [hown, hkeeps.skipped hview] at hsame
  exact ⟨hsame, fun other hne => hkeeps.other hinv (hown ▸ hkept) hput (hown ▸ hne)⟩

theorem settleDocument_turned (hkeeps : Keeps dependencies.manifestStore Inv Kept view)
    (hdocument : Recallable dependencies Kept view document) (hinv : Inv progress.manifest)
    {existingRecord : Option CorpusManifestRecord} {decision : CorpusBackfillDecision}
    {indexedAt : JsString} (hdecision : decisionFor dependencies document existingRecord = decision)
    (hget : dependencies.manifestStore.get document.documentKey progress.manifest =
      .ok existingRecord)
    (hrun : settleDocument dependencies document existingRecord decision indexedAt result progress =
      (.ok result', progress')) :
    ∃ answer, result'.results = result.results ++ [answer] ∧
      Turned dependencies Inv document answer.status progress.manifest progress'.manifest := by
  cases existingRecord with
  | none => cases decision <;> exact indexDocument_turned hkeeps hdocument hinv hrun
  | some existing =>
      cases decision with
      | skip =>
          obtain ⟨found, hfound, hup⟩ := decideCorpusBackfill_skip_iff.mp hdecision
          cases hfound
          obtain ⟨_, written, hwrite, hanswer⟩ := bind_ok_iff.mp hrun
          obtain ⟨manifest, hput, rfl⟩ := putRecord_ok.mp hwrite
          obtain ⟨hresult, rfl⟩ := Prod.mk.inj hanswer
          obtain ⟨hsame, hother⟩ := skipDocument_found hkeeps hinv hget hput
          exact ⟨_, by rw [← Except.ok.inj hresult], hkeeps.inv hinv hput,
            fun _ => ⟨_, hsame, hup.skipped⟩, hother⟩
      | index => exact indexDocument_turned hkeeps hdocument hinv hrun
      | reindex => exact indexDocument_turned hkeeps hdocument hinv hrun
      | retry => exact indexDocument_turned hkeeps hdocument hinv hrun

theorem nowIso_run : nowIso dependencies progress = (.ok (dependencies.now progress.moments),
    { progress with moments := progress.moments + 1 }) := rfl

theorem backfillDocument_turned (hkeeps : Keeps dependencies.manifestStore Inv Kept view)
    (hdocument : Recallable dependencies Kept view document) (hinv : Inv progress.manifest)
    (hrun : backfillDocument dependencies document result progress = (.ok result', progress')) :
    ∃ answer, result'.results = result.results ++ [answer] ∧
      Turned dependencies Inv document answer.status progress.manifest progress'.manifest := by
  unfold backfillDocument at hrun
  obtain ⟨existingRecord, read, hread, htimed⟩ := bind_ok_iff.mp hrun
  obtain ⟨hget, rfl⟩ := getRecord_ok.mp hread
  rw [bind_of_ok nowIso_run] at htimed
  have hinv' : Inv { read with moments := read.moments + 1 : Progress σ }.manifest := hinv
  have hturned := settleDocument_turned hkeeps hdocument hinv' rfl hget htimed
  exact hturned

/-- The run lemma of the first run, over documents with keys of their own. -/
theorem backfillFrom_recorded (hkeeps : Keeps dependencies.manifestStore Inv Kept view)
    (hdocuments : ∀ document ∈ documents, Recallable dependencies Kept view document)
    (hkeys : (documents.map (·.documentKey)).Nodup) (hinv : Inv progress.manifest)
    (hrun : backfillFrom dependencies documents result progress = (.ok result', progress')) :
    ∃ answers, result'.results = result.results ++ answers ∧ Inv progress'.manifest ∧
      ((∀ answer ∈ answers, answer.status ≠ .failed) →
        ∀ document ∈ documents, Recorded dependencies document progress'.manifest) ∧
      ∀ documentKey, documentKey ∉ documents.map (·.documentKey) →
        dependencies.manifestStore.get documentKey progress'.manifest =
          dependencies.manifestStore.get documentKey progress.manifest := by
  induction documents generalizing result progress with
  | nil =>
      obtain ⟨hresult, rfl⟩ := Prod.mk.inj hrun
      exact ⟨[], by rw [← Except.ok.inj hresult, List.append_nil], hinv, by simp, by simp⟩
  | cons document documents ih =>
      obtain ⟨hdocument, hrest⟩ := List.forall_mem_cons.mp hdocuments
      obtain ⟨hfresh, hdistinct⟩ := List.nodup_cons.mp hkeys
      obtain ⟨turned, reached, hturn, hrun⟩ := bind_ok_iff.mp hrun
      obtain ⟨answer, hanswer, hturned⟩ := backfillDocument_turned hkeeps hdocument hinv hturn
      obtain ⟨answers, hanswers, hinv', hrecorded, hother⟩ := ih hrest hdistinct hturned.inv hrun
      refine ⟨answer :: answers, by rw [hanswers, hanswer, List.append_assoc]; rfl, hinv', ?_, ?_⟩
      · intro hsettled
        obtain ⟨hfirst, hothers⟩ := List.forall_mem_cons.mp hsettled
        refine List.forall_mem_cons.mpr ⟨?_, hrecorded hothers⟩
        -- No later turn writes under the key of the first document.
        obtain ⟨record, hget, hup⟩ := hturned.recorded hfirst
        exact ⟨record, (hother _ hfresh).trans hget, hup⟩
      · intro documentKey hmem
        obtain ⟨hne, hmem⟩ := not_or.mp fun h => hmem (List.mem_cons.mpr h)
        exact (hother documentKey hmem).trans (hturned.other documentKey hne)

/-! ## The second run -/

def skippedAnswer (document : CorpusBackfillDocumentInput) : CorpusBackfillDocumentResult :=
  ⟨document.documentKey, .skip, .skipped, []⟩

theorem backfillDocument_skips (hkeeps : Keeps dependencies.manifestStore Inv Kept view)
    (hinv : Inv progress.manifest) (hrecorded : Recorded dependencies document progress.manifest) :
    ∃ result' progress',
      backfillDocument dependencies document result progress = (.ok result', progress') ∧
      result'.results = result.results ++ [skippedAnswer document] ∧
      progress'.indexerCalls = progress.indexerCalls ∧ Inv progress'.manifest ∧
      ∀ other, Recorded dependencies other progress.manifest →
        Recorded dependencies other progress'.manifest := by
  obtain ⟨record, hget, hup⟩ := hrecorded
  have hdecision : decisionFor dependencies document (some record) = .skip :=
    decideCorpusBackfill_skip_iff.mpr ⟨record, rfl, hup⟩
  obtain ⟨manifest, hput⟩ :=
    hkeeps.put (skippedRecordFromExisting record (dependencies.now progress.moments)) hinv hget
  obtain ⟨hsame, hother⟩ := skipDocument_found hkeeps hinv hget hput
  have hwrite : putRecord dependencies
      (skippedRecordFromExisting record (dependencies.now progress.moments))
      { progress with moments := progress.moments + 1 } =
        (.ok (), { progress with manifest := manifest, moments := progress.moments + 1 }) :=
    putRecord_ok.mpr ⟨manifest, hput, rfl⟩
  let skipped : CorpusBackfillResult := { result with
    documentsConsidered := result.documentsConsidered + 1
    documentsSkipped := result.documentsSkipped + 1
    results := result.results ++ [skippedAnswer document] }
  refine ⟨skipped, { progress with manifest := manifest, moments := progress.moments + 1 }, ?_,
    rfl, rfl, hkeeps.inv hinv hput, ?_⟩
  · unfold backfillDocument
    rw [bind_of_ok (getRecord_ok.mpr ⟨hget, rfl⟩), bind_of_ok nowIso_run, hdecision,
      settleDocument, bind_of_ok hwrite]
    rfl
  · rintro other ⟨found, hfound, hup'⟩
    by_cases hkey : other.documentKey = document.documentKey
    · -- Two documents under one key have one record.
      rw [hkey] at hfound
      obtain rfl := Option.some.inj (Except.ok.inj (hget.symm.trans hfound))
      exact ⟨_, hkey ▸ hsame, hup'.skipped⟩
    · exact ⟨found, (hother _ hkey).trans hfound, hup'⟩

/-- The run lemma of the second run. -/
theorem backfillFrom_skips (hkeeps : Keeps dependencies.manifestStore Inv Kept view)
    (hinv : Inv progress.manifest)
    (hrecorded : ∀ document ∈ documents, Recorded dependencies document progress.manifest) :
    ∃ result' progress',
      backfillFrom dependencies documents result progress = (.ok result', progress') ∧
      result'.results = result.results ++ documents.map skippedAnswer ∧
      progress'.indexerCalls = progress.indexerCalls := by
  induction documents generalizing result progress with
  | nil => exact ⟨result, progress, rfl, (List.append_nil _).symm, rfl⟩
  | cons document documents ih =>
      obtain ⟨hdocument, hrest⟩ := List.forall_mem_cons.mp hrecorded
      obtain ⟨turned, reached, hturn, hanswer, hcalls, hinv', hkept⟩ :=
        @backfillDocument_skips _ _ _ _ _ _ _ result _ hkeeps hinv hdocument
      obtain ⟨result', progress', hrun, hanswers, hsame⟩ :=
        @ih turned reached hinv' fun other hother => hkept other (hrest other hother)
      refine ⟨result', progress', ?_, ?_, hsame.trans hcalls⟩
      · rw [backfillFrom, bind_of_ok hturn]
        exact hrun
      · rw [hanswers, hanswer, List.append_assoc]
        rfl

/-- After a run in which no document failed, the next one skips all and calls no indexer. -/
def SkipsAgain (dependencies : CorpusBackfillDependencies σ E)
    (documents : List CorpusBackfillDocumentInput) (progress : Progress σ) : Prop :=
  ∀ result progress', backfillCorpusManifest dependencies documents progress =
      (.ok result, progress') → (∀ answer ∈ result.results, answer.status ≠ .failed) →
    ∃ result' progress'', backfillCorpusManifest dependencies documents progress' =
        (.ok result', progress'') ∧
      result'.results = documents.map skippedAnswer ∧
      progress''.indexerCalls = progress'.indexerCalls

theorem Keeps.skipsAgain (hkeeps : Keeps dependencies.manifestStore Inv Kept view)
    (hdocuments : ∀ document ∈ documents, Recallable dependencies Kept view document)
    (hkeys : (documents.map (·.documentKey)).Nodup) (hinv : Inv progress.manifest) :
    SkipsAgain dependencies documents progress := by
  intro result progress' hrun hsettled
  obtain ⟨answers, hanswers, hinv', hrecorded, -⟩ :=
    backfillFrom_recorded hkeeps hdocuments hkeys hinv hrun
  have hnone : ∀ answer ∈ answers, answer.status ≠ .failed := fun answer hanswer =>
    hsettled answer (by rw [hanswers]; exact List.mem_append_right _ hanswer)
  exact backfillFrom_skips hkeeps hinv' (hrecorded hnone)

end Runs

/-! ## The store in memory -/

/-- Each record is held under its own key. -/
def Filed (records : ManifestMap) : Prop := ∀ entry ∈ records, entry.2.documentKey = entry.1

theorem filed_of (initialRecords : List CorpusManifestRecord) :
    Filed (ManifestMap.of initialRecords) := by
  intro entry hentry
  obtain ⟨record, -, rfl⟩ := List.mem_map.mp (JsMap.mem_of_mem_ofEntries hentry)
  rfl

theorem keeps_inMemory :
    Keeps inMemoryCorpusManifestStore Filed (fun _ => True) id where
  put record _ _ _ _ _ := ⟨_, rfl⟩
  inv := by
    intro record state state' hfiled hput entry hentry
    obtain rfl := Except.ok.inj hput
    rcases JsMap.mem_of_mem_set hentry with rfl | hentry
    · rfl
    · exact hfiled entry hentry
  same := by
    intro record state state' _ _ hput
    obtain rfl := Except.ok.inj hput
    exact congrArg Except.ok ((JsMap.get_set _ _ _ _).trans (if_pos rfl))
  other := by
    intro record state state' documentKey _ _ hput hne
    obtain rfl := Except.ok.inj hput
    exact congrArg Except.ok ((JsMap.get_set _ _ _ _).trans (if_neg hne))
  held := by
    intro documentKey record state hfiled hget
    exact ⟨hfiled _ (JsMap.mem_of_get (Except.ok.inj hget)), trivial, rfl⟩
  skipped _ := rfl

/-! ## The store in a file -/

section FileStore

variable (collation : CanonicalJson.Collation) {file file' : ManifestFile}
  {record : CorpusManifestRecord} {documentKey : JsString}

theorem readManifestFile_ok {records : List CorpusManifestRecord} :
    readManifestFile collation file = .ok records ↔
      (∀ record ∈ file.records, isBlank record.documentKey = false) ∧
        records = sortManifestRecords collation file.records := by
  unfold readManifestFile
  split_ifs with hblank
  · obtain ⟨record, hmem, hkey⟩ := List.any_eq_true.mp hblank
    exact iff_of_false (by simp) fun h => by simp [h.1 record hmem] at hkey
  · have hall : ∀ record ∈ file.records, isBlank record.documentKey = false := by
      intro record hmem
      exact eq_false_of_ne_true fun h => hblank (List.any_eq_true.mpr ⟨record, hmem, h⟩)
    constructor
    · intro h
      exact ⟨hall, (Except.ok.inj h).symm⟩
    · rintro ⟨-, rfl⟩
      rfl

/-- The records under one key stay in their order when the file is sorted. -/
theorem filter_sortManifestRecords (records : List CorpusManifestRecord) :
    (sortManifestRecords collation records).filter (·.documentKey = documentKey) =
      records.filter (·.documentKey = documentKey) := by
  let r : CorpusManifestRecord → CorpusManifestRecord → Prop := fun left right =>
    collation.localeCompare left.documentKey right.documentKey ≠ .gt
  have htotal : Std.Total r := ⟨fun left right => CanonicalJson.localeCompare_total _ _⟩
  have htrans : IsTrans _ r := ⟨fun left middle right => collation.trans _ _ _⟩
  have hsame : (records.filter (·.documentKey = documentKey)).Pairwise r := by
    refine List.Pairwise.imp_of_mem ?_ (List.pairwise_of_forall fun _ _ => trivial)
    intro left right hleft hright _
    have hkey : left.documentKey = right.documentKey :=
      (of_decide_eq_true (List.mem_filter.mp hleft).2).trans
        (of_decide_eq_true (List.mem_filter.mp hright).2).symm
    have hself : r left left := (htotal.total left left).elim id id
    change collation.localeCompare left.documentKey right.documentKey ≠ .gt
    rw [← hkey]
    exact hself
  exact (LimitedSearch.filter_insertionSort _ records).trans (List.Pairwise.insertionSort_eq hsame)

theorem get_of_readable (hreadable : ∀ record ∈ file.records, isBlank record.documentKey = false)
    (documentKey : JsString) :
    (jsonFileCorpusManifestStore collation).get documentKey file =
      .ok (file.records.filter (·.documentKey = documentKey)).head? := by
  simp only [jsonFileCorpusManifestStore, (readManifestFile_ok collation).mpr ⟨hreadable, rfl⟩]
  change Except.ok ((sortManifestRecords collation file.records).find? _) = _
  rw [← List.head?_filter, filter_sortManifestRecords]

theorem readable_of_get {found : Option CorpusManifestRecord}
    (h : (jsonFileCorpusManifestStore collation).get documentKey file = .ok found) :
    ∀ record ∈ file.records, isBlank record.documentKey = false := by
  simp only [jsonFileCorpusManifestStore] at h
  cases hread : readManifestFile collation file with
  | error error =>
      rw [hread] at h
      cases h
  | ok records => exact ((readManifestFile_ok collation).mp hread).1

/-- What a file holds after a record was put. -/
theorem put_jsonFile_iff :
    (jsonFileCorpusManifestStore collation).put record file = .ok file' ↔
      (∀ record ∈ file.records, isBlank record.documentKey = false) ∧
      file' = writeManifestFile collation (sortManifestRecords collation
        ((sortManifestRecords collation file.records).filter
          (·.documentKey ≠ record.documentKey) ++ [record])) := by
  simp only [jsonFileCorpusManifestStore]
  cases hread : readManifestFile collation file with
  | error error =>
      refine iff_of_false (fun h => by cases h) fun h => ?_
      rw [(readManifestFile_ok collation).mpr ⟨h.1, rfl⟩] at hread
      cases hread
  | ok records =>
      obtain ⟨hreadable, rfl⟩ := (readManifestFile_ok collation).mp hread
      constructor
      · intro h
        exact ⟨hreadable, (Except.ok.inj h).symm⟩
      · rintro ⟨-, rfl⟩
        rfl

theorem ManifestFile.throughJson_eq (file : ManifestFile) (h : record ∈ file.records) :
    throughJson record = record := by
  cases file with
  | none => exact absurd h List.not_mem_nil
  | some records => exact records.2 record h

/-- A file in which a record under a shown key was put can be read again. -/
theorem readable_of_put (hput : (jsonFileCorpusManifestStore collation).put record file = .ok file')
    (hkey : isBlank record.documentKey = false) :
    ∀ held ∈ file'.records, isBlank held.documentKey = false := by
  obtain ⟨hreadable, rfl⟩ := (put_jsonFile_iff collation).mp hput
  intro held hheld
  obtain ⟨written, hwritten, rfl⟩ := List.mem_map.mp hheld
  have hmem := (sort_perm collation).mem_iff.mp ((sort_perm collation).mem_iff.mp hwritten)
  rcases List.mem_append.mp hmem with hold | hnew
  · exact hreadable written ((sort_perm collation).mem_iff.mp (List.mem_of_mem_filter hold))
  · obtain rfl := List.mem_singleton.mp hnew
    exact hkey

theorem filter_put (hput : (jsonFileCorpusManifestStore collation).put record file = .ok file')
    (documentKey : JsString) :
    file'.records.filter (·.documentKey = documentKey) =
      if documentKey = record.documentKey then [throughJson record]
      else file.records.filter (·.documentKey = documentKey) := by
  obtain ⟨-, rfl⟩ := (put_jsonFile_iff collation).mp hput
  have hwritten : ∀ records, (writeManifestFile collation records).records.filter
      (·.documentKey = documentKey) =
        (records.filter (·.documentKey = documentKey)).map throughJson := by
    intro records
    change ((sortManifestRecords collation records).map throughJson).filter _ = _
    rw [List.filter_map]
    exact congrArg _ (filter_sortManifestRecords collation records)
  rw [hwritten, filter_sortManifestRecords, List.filter_append, List.filter_filter]
  split_ifs with hkey
  · have hnone : (sortManifestRecords collation file.records).filter (fun held =>
        decide (held.documentKey = documentKey) &&
          decide (held.documentKey ≠ record.documentKey)) = [] := by
      refine List.filter_eq_nil_iff.mpr fun held _ => ?_
      simp [hkey]
    rw [hnone, List.nil_append, List.filter_cons_of_pos (by simp [hkey])]
    rfl
  · have hothers : (sortManifestRecords collation file.records).filter (fun held =>
        decide (held.documentKey = documentKey) &&
          decide (held.documentKey ≠ record.documentKey)) =
        file.records.filter (·.documentKey = documentKey) := by
      rw [← filter_sortManifestRecords collation]
      refine List.filter_congr fun held _ => ?_
      by_cases hheld : held.documentKey = documentKey <;> simp [hheld, hkey]
    rw [hothers, List.filter_cons_of_neg (by simpa using Ne.symm hkey), List.filter_nil,
      List.append_nil]
    refine (List.map_congr_left fun held hheld => ?_).trans (List.map_id _)
    exact file.throughJson_eq (List.mem_of_mem_filter hheld)

theorem keeps_jsonFile : Keeps (jsonFileCorpusManifestStore collation) (fun _ => True)
    (fun documentKey => isBlank documentKey = false) throughJson where
  put record _ _ _ _ hget :=
    ⟨_, (put_jsonFile_iff collation).mpr ⟨readable_of_get collation hget, rfl⟩⟩
  inv _ _ := trivial
  same := by
    intro record file file' _ hkey hput
    rw [get_of_readable collation (readable_of_put collation hput hkey),
      filter_put collation hput, if_pos rfl]
    rfl
  other := by
    intro record file file' documentKey _ hkey hput hne
    have hreadable := ((put_jsonFile_iff collation).mp hput).1
    rw [get_of_readable collation (readable_of_put collation hput hkey),
      filter_put collation hput, if_neg hne, get_of_readable collation hreadable]
  held := by
    intro documentKey record file _ hget
    have hreadable := readable_of_get collation hget
    rw [get_of_readable collation hreadable] at hget
    have hmem := List.mem_filter.mp (List.mem_of_mem_head? (Option.mem_def.mpr (Except.ok.inj hget)))
    have hkey : record.documentKey = documentKey := of_decide_eq_true hmem.2
    exact ⟨hkey, hkey ▸ hreadable record hmem.1, file.throughJson_eq hmem.1⟩
  skipped := by
    intro record indexedAt h
    have hcount := congrArg CorpusManifestRecord.chunkCount h
    have hdimension := congrArg CorpusManifestRecord.embeddingDimension h
    have hmetadata := congrArg CorpusManifestRecord.documentMetadata h
    simp only [throughJson] at hcount hdimension hmetadata
    simp only [throughJson, skippedRecordFromExisting, hcount, hdimension, hmetadata]
    rfl

end FileStore

/-! ## Metadata through JSON -/

section Metadata

variable (numbers : Json.NumberText ℚ)

/-- Numbers that are not finite are written as `null` on both sides of the comparison. -/
abbrev Written : JsValue JsNumber → Prop := JsValue.Plain fun _ => true

mutual

theorem stableJson_stored : ∀ value : JsValue JsNumber, Written value →
    ∃ other, JsValue.stored isFinite value = some other ∧
      stableJson numbers other = stableJson numbers value
  | .undefined, h => h.elim
  | .null, _ => ⟨_, rfl, rfl⟩
  | .bool _, _ => ⟨_, rfl, rfl⟩
  | .number .nan, _ => ⟨_, rfl, rfl⟩
  | .number .negInfinity, _ => ⟨_, rfl, rfl⟩
  | .number .posInfinity, _ => ⟨_, rfl, rfl⟩
  | .number (.finite _), _ => ⟨_, rfl, rfl⟩
  | .text _, _ => ⟨_, rfl, rfl⟩
  | .array items, h => by
      refine ⟨_, rfl, ?_⟩
      simp only [stableJson, stableItems_stored items h]
  | .object members, h => by
      refine ⟨_, rfl, ?_⟩
      simp only [stableJson, stableMembers_stored members h]
  | .date _, h => h.elim

theorem stableItems_stored : ∀ items : List (JsValue JsNumber),
    JsValue.PlainItems (fun _ => true) items →
    stableItems numbers (JsValue.storedItems isFinite items) = stableItems numbers items
  | [], _ => rfl
  | item :: items, h => by
      obtain ⟨other, hstored, htext⟩ := stableJson_stored item h.1
      simp only [JsValue.storedItems, stableItems, hstored, Option.getD_some, htext,
        stableItems_stored items h.2]

theorem stableMembers_stored : ∀ members : DomainMetadata,
    JsValue.PlainMembers (fun _ => true) members →
    stableMembers numbers (JsValue.storedMembers isFinite members) = stableMembers numbers members
  | [], _ => rfl
  | (key, value) :: members, h => by
      obtain ⟨other, hstored, htext⟩ := stableJson_stored value h.1
      simp only [JsValue.storedMembers, stableMembers, hstored, htext,
        stableMembers_stored members h.2]

end

end Metadata

/-! ## Which documents are skipped again -/

/-- A document that a file store finds again. -/
structure FoundInFile (document : CorpusBackfillDocumentInput) : Prop where
  key : isBlank document.documentKey = false
  dimension : isFinite document.embeddingDimension = true
  metadata : ∀ members, document.metadata = some members →
    JsValue.PlainMembers (fun _ => true) members

section Documents

variable {σ E : Type} {dependencies : CorpusBackfillDependencies σ E}
  {document : CorpusBackfillDocumentInput}

theorem recallable_inMemory (h : document.embeddingDimension ≠ .nan) :
    Recallable dependencies (fun _ => True) id document where
  key := trivial
  upToDate _ _ := ⟨by simp [recordFromIndexingResult], rfl, rfl, rfl, rfl,
    by simp [recordFromIndexingResult, sameNumber, h], rfl⟩

theorem recallable_jsonFile (h : FoundInFile document) :
    Recallable dependencies (fun documentKey => isBlank documentKey = false) throughJson
      document where
  key := h.key
  upToDate := by
    intro indexingResult indexedAt
    have hfinite : document.embeddingDimension ≠ .nan := fun hnan => by
      have hdimension := h.dimension
      rw [hnan] at hdimension
      cases hdimension
    refine ⟨by simp [throughJson, recordFromIndexingResult], rfl, rfl, rfl, rfl, ?_, ?_⟩
    · simp [throughJson, recordFromIndexingResult, storedNumber, Option.filter, h.dimension,
        sameNumber, hfinite]
    · simp only [throughJson, recordFromIndexingResult]
      cases hmetadata : document.metadata with
      | none => rfl
      | some members =>
          simp only [Option.map_some, metadataValue, Option.getD_some, stableJson,
            stableMembers_stored dependencies.numbers members (h.metadata members hmetadata)]

end Documents

/-! ## Both stores -/

/-- **The two manifest stores.**  They answer alike in every run of storable records, and
after a backfill without failures the next one skips every document: in memory where no
dimension is `NaN`, in a file where each document is found in it again. -/
theorem manifest_stores_agree (collation : CanonicalJson.Collation) {E : Type}
    (memory : CorpusBackfillDependencies ManifestMap E)
    (file : CorpusBackfillDependencies ManifestFile E)
    (hmemory : memory.manifestStore = inMemoryCorpusManifestStore)
    (hfile : file.manifestStore = jsonFileCorpusManifestStore collation)
    (calls : List StoreCall) (hcalls : ∀ record, .put record ∈ calls → Storable record)
    (documents : List CorpusBackfillDocumentInput)
    (hkeys : (documents.map (·.documentKey)).Nodup) (initialRecords : List CorpusManifestRecord)
    (content : ManifestFile) :
    List.Forall₂ StoreAnswer.Alike (answers inMemoryCorpusManifestStore calls [])
        (answers (jsonFileCorpusManifestStore collation) calls none) ∧
      ((∀ document ∈ documents, document.embeddingDimension ≠ .nan) →
        SkipsAgain memory documents ⟨ManifestMap.of initialRecords, 0, 0⟩) ∧
      ((∀ document ∈ documents, FoundInFile document) →
        SkipsAgain file documents ⟨content, 0, 0⟩) := by
  refine ⟨answers_agree collation hcalls agrees_empty, fun hdocuments => ?_, fun hdocuments => ?_⟩
  · have hkeeps := keeps_inMemory
    rw [← hmemory] at hkeeps
    exact hkeeps.skipsAgain (fun document hmem => recallable_inMemory (hdocuments document hmem))
      hkeys (filed_of initialRecords)
  · have hkeeps := keeps_jsonFile collation
    rw [← hfile] at hkeeps
    exact hkeeps.skipsAgain (fun document hmem => recallable_jsonFile (hdocuments document hmem))
      hkeys trivial

/-- Numbers of a sample, which have texts of their own. -/
def encodedNumbers : Json.NumberText ℚ where
  text n := Ingestion.integerText.text (Encodable.encode n)
  injective _ _ h :=
    Encodable.encode_injective (Int.ofNat_inj.mp (Ingestion.integerText.injective h))
  units _ := Ingestion.integerText.units _
  nonempty _ := Ingestion.integerText.nonempty _

/-- An indexer that makes one chunk of everything. -/
def sampleDependencies {σ : Type} (store : CorpusManifestStore σ) :
    CorpusBackfillDependencies σ Empty where
  manifestStore := store
  indexVectorSource _ _ := .ok ⟨.indexed, none, none, .finite 1, []⟩
  now _ := js "2026-01-01T00:00:00.000Z"
  contentSha256 _ := js "00"
  numbers := encodedNumbers

def sampleDocument (documentKey : String) : CorpusBackfillDocumentInput where
  inputPath := js "pot.txt"
  title := none
  documentKey := js documentKey
  documentVersion := js "1"
  sourceFormat := none
  content := [65]
  embeddingProvider := js "local"
  embeddingModel := js "small"
  embeddingDimension := .finite 2
  metadata := none

theorem found_sampleDocument : FoundInFile (sampleDocument "pot") :=
  ⟨by decide, rfl, by simp [sampleDocument]⟩

/-- A document is skipped again in both stores. -/
theorem manifest_stores_agree_sample :
    SkipsAgain (sampleDependencies inMemoryCorpusManifestStore) [sampleDocument "pot"]
        ⟨ManifestMap.of [], 0, 0⟩ ∧
      SkipsAgain (sampleDependencies (jsonFileCorpusManifestStore CanonicalJson.sampleCollation))
        [sampleDocument "pot"] ⟨none, 0, 0⟩ := by
  obtain ⟨-, hmemory, hfile⟩ := manifest_stores_agree CanonicalJson.sampleCollation
    (sampleDependencies inMemoryCorpusManifestStore)
    (sampleDependencies (jsonFileCorpusManifestStore CanonicalJson.sampleCollation)) rfl rfl
    [.get (js "pot")] (by simp) [sampleDocument "pot"] (by simp) [] none
  exact ⟨hmemory (by simp [sampleDocument]), hfile (by simpa using found_sampleDocument)⟩

/-! ## A blank key -/

def sampleManifestRecord (documentKey : String) : CorpusManifestRecord where
  documentKey := js documentKey
  documentTitle := none
  sourcePath := js "pot.txt"
  sourceFormat := none
  documentVersion := js "1"
  contentSha256 := js "00"
  chunkCount := some (.finite 1)
  embeddingProvider := js "local"
  embeddingModel := js "small"
  embeddingDimension := some (.finite 2)
  documentMetadata := none
  status := .indexed
  indexedAt := js "2026-01-01T00:00:00.000Z"
  failureCount := some (.finite 0)
  failureCodes := []

/-- The file store cannot read a file in which it put a blank key. -/
theorem blank_key_unreadable : ¬ ∀ (collation : CanonicalJson.Collation) (calls : List StoreCall),
    List.Forall₂ StoreAnswer.Alike (answers inMemoryCorpusManifestStore calls [])
      (answers (jsonFileCorpusManifestStore collation) calls none) := by
  intro hall
  have hpair := hall CanonicalJson.sampleCollation
    [.put (sampleManifestRecord " "), .get (js " ")]
  have hmemory : answers inMemoryCorpusManifestStore
      [.put (sampleManifestRecord " "), .get (js " ")] [] =
        [.done, .found (some (sampleManifestRecord " "))] := rfl
  have hfile : answers (jsonFileCorpusManifestStore CanonicalJson.sampleCollation)
      [.put (sampleManifestRecord " "), .get (js " ")] none = [.done, .thrown (.invalidFile
        (js "Corpus manifest record documentKey must be a non-empty string."))] := rfl
  rw [hmemory, hfile] at hpair
  cases hpair with
  | cons _ hrest =>
      cases hrest with
      | cons halike _ => cases halike

end Corpus
