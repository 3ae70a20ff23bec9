import MuniRag.Corpus.Manifest

/-!
# The two stores of the corpus manifest

Runs of calls on the store in memory and on the one in a file.  As long as every record that is
put comes back from JSON as it was, under a key that is not blank, the two answer alike
(`answers_agree`).  A blank key is written and refused by every call after that.
-/

namespace Corpus

/-! ## Calls -/

inductive StoreCall
  | get (documentKey : JsString)
  | put (record : CorpusManifestRecord)
  | list

/-- What a call returns or throws. -/
inductive StoreAnswer
  | found (record : Option CorpusManifestRecord)
  | done
  | records (records : List CorpusManifestRecord)
  | thrown (error : StoreError)

/-- Alike are the same answers, and lists of the same records. -/
inductive StoreAnswer.Alike : StoreAnswer → StoreAnswer → Prop
  | found (record) : Alike (.found record) (.found record)
  | done : Alike .done .done
  | records {left right} (h : left.Perm right) : Alike (.records left) (.records right)
  | thrown (error) : Alike (.thrown error) (.thrown error)

section Runs

variable {σ : Type} (store : CorpusManifestStore σ)

/-- A call that throws leaves the store as it was. -/
def answer (call : StoreCall) (state : σ) : StoreAnswer × σ :=
  match call with
  | .get documentKey =>
      match store.get documentKey state with
      | .ok record => (.found record, state)
      | .error error => (.thrown error, state)
  | .put record =>
      match store.put record state with
      | .ok state => (.done, state)
      | .error error => (.thrown error, state)
  | .list =>
      match store.list state with
      | .ok records => (.records records, state)
      | .error error => (.thrown error, state)

/-- The answers of a run of calls. -/
def answers : List StoreCall → σ → List StoreAnswer
  | [], _ => []
  | call :: calls, state =>
      (answer store call state).1 :: answers calls (answer store call state).2

end Runs

/-! ## Lists of records with distinct keys -/

section Keyed

variable {records others : List CorpusManifestRecord} {record : CorpusManifestRecord}
  {documentKey : JsString}

theorem find?_eq_some_of_mem (hnodup : (records.map (·.documentKey)).Nodup)
    (hmem : record ∈ records) :
    records.find? (·.documentKey = record.documentKey) = some record := by
  cases hfound : records.find? (·.documentKey = record.documentKey) with
  | none =>
      have hnone := List.find?_eq_none.mp hfound record hmem
      exact absurd (decide_eq_true rfl) hnone
  | some other =>
      have hkey : other.documentKey = record.documentKey := by simpa using List.find?_some hfound
      rw [List.inj_on_of_nodup_map hnodup (List.mem_of_find?_eq_some hfound) hmem hkey]

theorem find?_perm (hnodup : (records.map (·.documentKey)).Nodup) (hperm : records.Perm others) :
    records.find? (·.documentKey = documentKey) = others.find? (·.documentKey = documentKey) := by
  have hothers : (others.map (·.documentKey)).Nodup := (hperm.map _).nodup_iff.mp hnodup
  cases hfound : others.find? (·.documentKey = documentKey) with
  | none =>
      rw [List.find?_eq_none] at hfound ⊢
      exact fun record hmem => hfound record (hperm.mem_iff.mp hmem)
  | some record =>
      have hkey : record.documentKey = documentKey := by simpa using List.find?_some hfound
      have hmem := hperm.mem_iff.mpr (List.mem_of_find?_eq_some hfound)
      rw [← hkey]
      exact find?_eq_some_of_mem hnodup hmem

theorem sort_perm (collation : CanonicalJson.Collation) :
    (sortManifestRecords collation records).Perm records :=
  List.perm_insertionSort _ _

end Keyed

/-! ## The relation of the stores -/

/-- The file holds the records of the map, each of which can be read again. -/
structure Agrees (records : ManifestMap) (file : ManifestFile) : Prop where
  same : file.records.Perm (JsMap.values records)
  keyed : ∀ entry ∈ records, entry.2.documentKey = entry.1
  nodup : (records.map Prod.fst).Nodup
  storable : ∀ record ∈ JsMap.values records, Storable record

section Agreement

variable (collation : CanonicalJson.Collation) {records : ManifestMap} {file : ManifestFile}
  {record : CorpusManifestRecord}

theorem Agrees.keys (h : Agrees records file) :
    (JsMap.values records).map (·.documentKey) = records.map Prod.fst := by
  rw [JsMap.values, List.map_map]
  exact List.map_congr_left h.keyed

theorem Agrees.readable (h : Agrees records file) :
    readManifestFile collation file = .ok (sortManifestRecords collation file.records) := by
  refine if_neg fun hblank => ?_
  obtain ⟨record, hmem, hkey⟩ := List.any_eq_true.mp hblank
  rw [(h.storable record (h.same.mem_iff.mp hmem)).key] at hkey
  exact absurd hkey (by simp)

theorem Agrees.get (h : Agrees records file) (documentKey : JsString) :
    (jsonFileCorpusManifestStore collation).get documentKey file =
      inMemoryCorpusManifestStore.get documentKey records := by
  have hperm : (sortManifestRecords collation file.records).Perm (JsMap.values records) :=
    (sort_perm collation).trans h.same
  have hnodup : ((sortManifestRecords collation file.records).map (·.documentKey)).Nodup := by
    rw [(hperm.map _).nodup_iff, h.keys]
    exact h.nodup
  have hfound := JsMap.find?_values h.keyed documentKey
  simp only [jsonFileCorpusManifestStore, h.readable collation, inMemoryCorpusManifestStore]
  change Except.ok ((sortManifestRecords collation file.records).find? _) = _
  rw [find?_perm hnodup hperm, hfound]

theorem values_set_perm (hkeyed : ∀ entry ∈ records, entry.2.documentKey = entry.1)
    (hnodup : (records.map Prod.fst).Nodup) :
    (JsMap.values (JsMap.set records record.documentKey record)).Perm
      ((JsMap.values records).filter (·.documentKey ≠ record.documentKey) ++ [record]) := by
  induction records with
  | nil => exact List.Perm.refl _
  | cons entry rest ih =>
      obtain ⟨hentry, hrest⟩ := List.forall_mem_cons.mp hkeyed
      obtain ⟨hfresh, hdistinct⟩ := List.nodup_cons.mp hnodup
      by_cases hkey : entry.1 = record.documentKey
      · -- The record takes the place of the one with its key, which is the only one.
        have hkept : (JsMap.values rest).filter (·.documentKey ≠ record.documentKey) =
            JsMap.values rest := by
          refine List.filter_eq_self.mpr fun other hother => ?_
          obtain ⟨held, hheld, rfl⟩ := List.mem_map.mp hother
          have hne : held.1 ≠ entry.1 := fun hsame =>
            hfresh (hsame ▸ List.mem_map_of_mem hheld)
          simpa [hrest held hheld, ← hkey] using hne
        rw [JsMap.set, if_pos hkey]
        simp only [JsMap.values, List.map_cons]
        rw [List.filter_cons_of_neg (by simp [hentry, hkey])]
        exact (List.perm_append_singleton _ _).symm.trans
          (List.Perm.of_eq (congrArg (· ++ [record]) hkept.symm))
      · rw [JsMap.set, if_neg hkey]
        simp only [JsMap.values, List.map_cons]
        rw [List.filter_cons_of_pos (by simpa [hentry] using hkey), List.cons_append]
        exact (ih hrest hdistinct).cons _

theorem Agrees.put (h : Agrees records file) (hrecord : Storable record) :
    ∃ file', (jsonFileCorpusManifestStore collation).put record file = .ok file' ∧
      Agrees (JsMap.set records record.documentKey record) file' := by
  have hfilter : ((sortManifestRecords collation file.records).filter
      (·.documentKey ≠ record.documentKey) ++ [record]).Perm
      (JsMap.values (JsMap.set records record.documentKey record)) :=
    ((((sort_perm collation).trans h.same).filter _).append_right _).trans
      (values_set_perm h.keyed h.nodup).symm
  have hstorable : ∀ other ∈ JsMap.values (JsMap.set records record.documentKey record),
      Storable other := by
    intro other hother
    rcases JsMap.mem_values_set hother with rfl | hother
    · exact hrecord
    · exact h.storable other hother
  refine ⟨_, by simp only [jsonFileCorpusManifestStore, h.readable collation]; rfl, ?_, ?_,
    JsMap.nodup_keys_set h.nodup _ _, hstorable⟩
  · change (List.map throughJson _).Perm _
    have hsorted := (sort_perm collation).trans ((sort_perm collation).trans hfilter)
    refine (List.Perm.of_eq ((List.map_congr_left fun other hother => ?_).trans
      (List.map_id _))).trans hsorted
    exact (hstorable other (hsorted.mem_iff.mp hother)).json
  · intro entry hentry
    rcases JsMap.mem_of_mem_set hentry with rfl | hentry
    · rfl
    · exact h.keyed entry hentry

theorem Agrees.list (h : Agrees records file) : ∃ listed,
    (jsonFileCorpusManifestStore collation).list file = .ok listed ∧
      (JsMap.values records).Perm listed :=
  ⟨_, by simp only [jsonFileCorpusManifestStore, h.readable collation]; rfl,
    (((sort_perm collation).trans ((sort_perm collation).trans h.same))).symm⟩

/-- One call on stores that agree. -/
theorem Agrees.answer (h : Agrees records file) (call : StoreCall)
    (hcall : ∀ record, call = .put record → Storable record) :
    (answer inMemoryCorpusManifestStore call records).1.Alike
        (answer (jsonFileCorpusManifestStore collation) call file).1 ∧
      Agrees (answer inMemoryCorpusManifestStore call records).2
        (answer (jsonFileCorpusManifestStore collation) call file).2 := by
  cases call with
  | get documentKey =>
      simp only [Corpus.answer, h.get collation]
      exact ⟨.found _, h⟩
  | put record =>
      obtain ⟨file', hput, hagrees⟩ := h.put collation (hcall record rfl)
      simp only [Corpus.answer, hput]
      exact ⟨.done, hagrees⟩
  | list =>
      obtain ⟨listed, hlist, hperm⟩ := h.list collation
      simp only [Corpus.answer, hlist]
      exact ⟨.records hperm, h⟩

/-- **The stores answer alike** in every run in which each record that is put is storable. -/
theorem answers_agree {calls : List StoreCall}
    (hcalls : ∀ record, .put record ∈ calls → Storable record) (h : Agrees records file) :
    List.Forall₂ StoreAnswer.Alike (answers inMemoryCorpusManifestStore calls records)
      (answers (jsonFileCorpusManifestStore collation) calls file) := by
  induction calls generalizing records file with
  | nil => exact .nil
  | cons call calls ih =>
      have hstep := h.answer collation call fun record hrecord =>
        hcalls record (hrecord ▸ List.mem_cons_self)
      exact .cons hstep.1
        (ih (fun record hrecord => hcalls record (List.mem_cons_of_mem _ hrecord)) hstep.2)

theorem agrees_empty : Agrees [] none :=
  ⟨List.Perm.refl _, by simp, List.nodup_nil, by simp [JsMap.values]⟩

end Agreement

end Corpus
