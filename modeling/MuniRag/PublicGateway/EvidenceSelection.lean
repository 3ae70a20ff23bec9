import MuniRag.PublicGateway.PublicEvidence
import MuniRag.SearchEvidence.Authority

/-!
# What the public gateways keep

An answer should show each section once, in the order of the rounds, and no more than its
limit; when it shows fewer, everything retrieved that may be published should be in it and
every planned fallback query should have been run (`Keeps`).

The order and the limit are always kept.  The candidates that may not be published are
dropped only after the limit was applied, and count when the fallback is decided on.  So an
answer keeps the rest exactly when every selected candidate may be published, or the
fallback was run and nothing that may be published was left out (`gateways_keep_iff`).  The
query gateway plans its expansions only when its query found nothing.
-/

namespace PublicGateway

open Api Results SearchEvidence LimitedSearch RoundRobin

/-! ## The statement -/

section Keeping

variable {σ π : Type} (newUrl : JsString → Option UrlParts)

/-- A text with something to show and no control character. -/
structure SafeText (value : JsString) : Prop where
  shown : trim (collapseSpaces value) ≠ []
  plain : ∀ u ∈ trim (collapseSpaces value), Ingestion.isControl u = false

structure Publishable (candidate : ClassifiedSearchCandidate σ) : Prop where
  title : SafeText candidate.documentTitle
  sourceType : SafeText (typeText candidate.documentType)
  label : SafeText candidate.citationLabel
  excerpt : SafeText candidate.excerpt
  url : safePublicUrl newUrl candidate.sourceUrl = true

/-- The rounds in which batches of several kinds are read, kind after kind. -/
def roundsOf (kinds : List (List (List (ClassifiedSearchCandidate σ)))) :
    List (List (ClassifiedSearchCandidate σ)) :=
  kinds.flatMap rounds

/-- `shown` are the candidates of an answer, `place` tells sections or chunks apart and `key`
is what the gateway tells them apart by. -/
structure Keeps (place : ClassifiedSearchCandidate σ → π)
    (key : ClassifiedSearchCandidate σ → JsString) (limit : Nat)
    (kinds : List (List (List (ClassifiedSearchCandidate σ)))) (allRun : Prop)
    (shown : List (ClassifiedSearchCandidate σ)) : Prop where
  retrieved : ∀ candidate ∈ shown, ∃ batches ∈ kinds, ∃ batch ∈ batches, candidate ∈ batch
  publishable : ∀ candidate ∈ shown, Publishable newUrl candidate
  once : (shown.map place).Nodup
  bounded : shown.length ≤ limit
  complete : shown.length < limit → ∀ batches ∈ kinds, ∀ batch ∈ batches, ∀ candidate ∈ batch,
    Publishable newUrl candidate → ∃ other ∈ shown, key other = key candidate
  fallbackRun : shown.length < limit → allRun
  ordered : shown.Pairwise fun left right =>
    ∀ n, SeenWithin place (roundsOf kinds) n right → SeenWithin place (roundsOf kinds) n left

/-- The candidates that are selected before any is dropped. -/
def selectedOf (key : ClassifiedSearchCandidate σ → JsString) (limit : Nat)
    (kinds : List (List (List (ClassifiedSearchCandidate σ)))) :
    List (ClassifiedSearchCandidate σ) :=
  (firstBy key (roundsOf kinds).flatten).take limit

/-- Every selected candidate may be published, or the fallback was run and each retrieved
candidate that may be published is selected, or another one of its section that may be. -/
def NothingDropped (key : ClassifiedSearchCandidate σ → JsString) (limit : Nat)
    (kinds : List (List (List (ClassifiedSearchCandidate σ)))) (allRun : Prop) : Prop :=
  (∀ candidate ∈ selectedOf key limit kinds, Publishable newUrl candidate) ∨
    allRun ∧ ∀ batches ∈ kinds, ∀ batch ∈ batches, ∀ candidate ∈ batch,
      Publishable newUrl candidate → ∃ other ∈ selectedOf key limit kinds,
        Publishable newUrl other ∧ key other = key candidate

/-! ## Which candidates become items -/

variable {newUrl} {candidate : ClassifiedSearchCandidate σ}

theorem safeText_isSome {value : JsString} {maximum : Nat} :
    (safeText value maximum).isSome ↔ SafeText value := by
  have hplain : (trim (collapseSpaces value)).any Ingestion.isControl = true ↔
      ¬ ∀ u ∈ trim (collapseSpaces value), Ingestion.isControl u = false := by
    simp
  unfold safeText
  by_cases hempty : value = []
  · subst hempty
    simp only [if_true, Option.isSome_none, Bool.false_eq_true, false_iff]
    exact fun h => h.shown rfl
  · rw [if_neg hempty]
    by_cases hunsafe : trim (collapseSpaces value) = [] ∨
        (trim (collapseSpaces value)).any Ingestion.isControl = true
    · simp only [if_pos hunsafe, Option.isSome_none, Bool.false_eq_true, false_iff]
      rintro ⟨hshown, hcontrol⟩
      exact hunsafe.elim hshown fun hany => hplain.mp hany hcontrol
    · obtain ⟨hshown, hcontrol⟩ := not_or.mp hunsafe
      simp only [if_neg hunsafe, Option.isSome_some, true_iff]
      exact ⟨hshown, not_not.mp fun h => hcontrol (hplain.mpr h)⟩

/-- Whatever the maxima are at which the texts are cut. -/
theorem publishable_iff (title sourceType label excerpt : Nat) : Publishable newUrl candidate ↔
    (safeText candidate.documentTitle title).isSome ∧
      (safeText (typeText candidate.documentType) sourceType).isSome ∧
      (safeText candidate.citationLabel label).isSome ∧
      (safeText candidate.excerpt excerpt).isSome ∧
      safePublicUrl newUrl candidate.sourceUrl = true := by
  simp only [safeText_isSome]
  exact ⟨fun h => ⟨h.title, h.sourceType, h.label, h.excerpt, h.url⟩,
    fun ⟨htitle, htype, hlabel, hexcerpt, hurl⟩ => ⟨htitle, htype, hlabel, hexcerpt, hurl⟩⟩

theorem evidenceFrom_isSome {mode : ProcedureMode} :
    (evidenceFrom newUrl candidate mode).isSome ↔ Publishable newUrl candidate := by
  rw [publishable_iff 500 80 300 900]
  unfold evidenceFrom
  cases safeText candidate.documentTitle 500 <;>
    cases safeText (typeText candidate.documentType) 80 <;>
    cases safeText candidate.citationLabel 300 <;> cases safeText candidate.excerpt 900 <;> simp

theorem citationFrom_isSome :
    (citationFrom newUrl candidate).isSome ↔ Publishable newUrl candidate := by
  rw [publishable_iff 300 64 300 700]
  unfold citationFrom
  cases safeText candidate.documentTitle 300 <;>
    cases safeText (typeText candidate.documentType) 64 <;>
    cases safeText candidate.citationLabel 300 <;> cases safeText candidate.excerpt 700 <;> simp

instance : DecidablePred (@Publishable σ newUrl) := fun _ =>
  decidable_of_iff _ citationFrom_isSome

/-- The candidates that become items. -/
def published (newUrl : JsString → Option UrlParts)
    (candidates : List (ClassifiedSearchCandidate σ)) : List (ClassifiedSearchCandidate σ) :=
  candidates.filter fun candidate => Publishable newUrl candidate

theorem mem_published {candidates : List (ClassifiedSearchCandidate σ)} :
    candidate ∈ published newUrl candidates ↔
      candidate ∈ candidates ∧ Publishable newUrl candidate := by
  simp [published]

/-- One item for each candidate that may be published. -/
theorem filterMap_published {α : Type} {itemOf : ClassifiedSearchCandidate σ → Option α}
    (hitem : ∀ candidate, (itemOf candidate).isSome ↔ Publishable newUrl candidate)
    (candidates : List (ClassifiedSearchCandidate σ)) :
    (candidates.filterMap itemOf).map some = (published newUrl candidates).map itemOf := by
  induction candidates with
  | nil => rfl
  | cons candidate candidates ih =>
      by_cases hpublishable : Publishable newUrl candidate
      · obtain ⟨item, hsome⟩ := Option.isSome_iff_exists.mp ((hitem candidate).mpr hpublishable)
        simp only [published] at ih ⊢
        rw [List.filterMap_cons_some hsome, List.filter_cons_of_pos (by simpa using hpublishable),
          List.map_cons, List.map_cons, ih, hsome]
      · have hnone : itemOf candidate = none := by
          rw [← Option.not_isSome_iff_eq_none, hitem]
          exact hpublishable
        simp only [published] at ih ⊢
        rw [List.filterMap_cons_none hnone, List.filter_cons_of_neg (by simpa using hpublishable),
          ih]

/-! ## What a selection keeps -/

variable {place : ClassifiedSearchCandidate σ → π} {key : ClassifiedSearchCandidate σ → JsString}
  {limit : Nat} {kinds : List (List (List (ClassifiedSearchCandidate σ)))} {allRun : Prop}

theorem mem_roundsOf : candidate ∈ (roundsOf kinds).flatten ↔
    ∃ batches ∈ kinds, ∃ batch ∈ batches, candidate ∈ batch := by
  constructor
  · intro h
    obtain ⟨list, hlist, hcandidate⟩ := List.mem_flatten.mp h
    obtain ⟨batches, hbatches, hround⟩ := List.mem_flatMap.mp hlist
    exact ⟨batches, hbatches, mem_rounds.mp (List.mem_flatten.mpr ⟨list, hround, hcandidate⟩)⟩
  · rintro ⟨batches, hbatches, hbatch⟩
    obtain ⟨list, hlist, hcandidate⟩ := List.mem_flatten.mp (mem_rounds.mpr hbatch)
    exact List.mem_flatten.mpr ⟨list, List.mem_flatMap.mpr ⟨batches, hbatches, hlist⟩, hcandidate⟩

theorem mem_of_selectedOf (h : candidate ∈ selectedOf key limit kinds) :
    candidate ∈ (roundsOf kinds).flatten :=
  (firstBy_sublist _ _).subset (List.mem_of_mem_take h)

/-- Below the limit, all keys are selected. -/
theorem exists_selectedOf (hroom : (selectedOf key limit kinds).length < limit)
    (h : candidate ∈ (roundsOf kinds).flatten) :
    ∃ other ∈ selectedOf key limit kinds, key other = key candidate := by
  have hall : selectedOf key limit kinds = firstBy key (roundsOf kinds).flatten := by
    refine List.take_of_length_le ?_
    rw [selectedOf, List.length_take] at hroom
    omega
  rw [hall]
  exact exists_firstBy h

theorem length_selectedOf_le : (selectedOf key limit kinds).length ≤ limit :=
  List.length_take_le _ _

/-- **Selection and publication.**  What is shown of a selection is kept exactly when nothing
that may be published was dropped. -/
theorem keeps_selectedOf_iff
    (hplace : ∀ left right, place left = place right → key left = key right)
    (hrun : (selectedOf key limit kinds).length < limit → allRun) :
    Keeps newUrl place key limit kinds allRun (published newUrl (selectedOf key limit kinds)) ↔
      NothingDropped newUrl key limit kinds allRun := by
  have hsub : (published newUrl (selectedOf key limit kinds)).Sublist
      (firstBy key (roundsOf kinds).flatten) :=
    List.filter_sublist.trans (List.take_sublist _ _)
  have hbounded : (published newUrl (selectedOf key limit kinds)).length ≤ limit :=
    (List.length_filter_le _ _).trans length_selectedOf_le
  constructor
  · intro h
    by_cases hall : ∀ candidate ∈ selectedOf key limit kinds, Publishable newUrl candidate
    · exact .inl hall
    · have hshort : (published newUrl (selectedOf key limit kinds)).length < limit := by
        refine (List.length_filter_lt_length_iff_exists.mpr ?_).trans_le length_selectedOf_le
        push Not at hall
        simpa using hall
      refine .inr ⟨h.fallbackRun hshort, fun batches hbatches batch hbatch candidate hcandidate
        hpublishable => ?_⟩
      obtain ⟨other, hother, hkey⟩ :=
        h.complete hshort batches hbatches batch hbatch candidate hcandidate hpublishable
      exact ⟨other, (mem_published.mp hother).1, (mem_published.mp hother).2, hkey⟩
  · intro h
    refine ⟨fun candidate hcandidate => ?_, fun candidate hcandidate => ?_, ?_, hbounded,
      fun hshort batches hbatches batch hbatch candidate hcandidate hpublishable => ?_,
      fun hshort => ?_, ?_⟩
    · exact mem_roundsOf.mp (mem_of_selectedOf (mem_published.mp hcandidate).1)
    · exact (mem_published.mp hcandidate).2
    · have hkeys : ((published newUrl (selectedOf key limit kinds)).map key).Nodup :=
        (nodup_firstBy key _).sublist (hsub.map key)
      exact List.pairwise_map.mpr ((List.pairwise_map.mp hkeys).imp
        fun hne hsame => hne (hplace _ _ hsame))
    · have hmem := mem_roundsOf.mpr ⟨batches, hbatches, batch, hbatch, hcandidate⟩
      rcases h with hall | ⟨-, hcomplete⟩
      · have hself : published newUrl (selectedOf key limit kinds) = selectedOf key limit kinds :=
          List.filter_eq_self.mpr fun other hother => by simpa using hall other hother
        rw [hself] at hshort ⊢
        exact exists_selectedOf hshort hmem
      · obtain ⟨other, hother, hmay, hkey⟩ :=
          hcomplete batches hbatches batch hbatch candidate hcandidate hpublishable
        exact ⟨other, mem_published.mpr ⟨hother, hmay⟩, hkey⟩
    · rcases h with hall | ⟨hran, -⟩
      · have hself : published newUrl (selectedOf key limit kinds) = selectedOf key limit kinds :=
          List.filter_eq_self.mpr fun other hother => by simpa using hall other hother
        rw [hself] at hshort
        exact hrun hshort
      · exact hran
    · exact (pairwise_firstBy_rounds hplace (roundsOf kinds)).sublist hsub

end Keeping

/-! ## The procedure gateway -/

section Gateways

variable {σ : Type} {gateway : SearchGateway σ} {requestId : JsString} {limit : Nat}

/-- The fallback queries that are run after these batches. -/
def fallbackAfter (gateway : SearchGateway σ) (limit : Nat) (queryPlan : QueryPlan)
    (precise : List (List (ClassifiedSearchCandidate σ))) : List JsString :=
  if uniqueCount gateway precise < limit then queryPlan.fallback else []

theorem retrieveEvidence_selected {mode : ProcedureMode} {queryPlan : QueryPlan}
    {precise fallback : List (List (ClassifiedSearchCandidate σ))}
    (hprecise : runQueries gateway requestId mode limit queryPlan.precise = .ok precise)
    (hfallback : runQueries gateway requestId mode limit
      (fallbackAfter gateway limit queryPlan precise) = .ok fallback) :
    ∃ retrieval, retrieveEvidence gateway requestId mode limit queryPlan = .ok retrieval ∧
      retrieval.selected = selectedOf (sectionOf gateway) limit [precise, fallback] ∧
      retrieval.evidence =
        retrieval.selected.filterMap (evidenceFrom gateway.newUrl · mode) ∧
      retrieval.executedQueries = (queryPlan.precise ++ fallbackAfter gateway limit queryPlan
        precise).map (normalizeRetrievalQuery gateway.platform) := by
  refine ⟨_, then_ok.mpr ⟨precise, hprecise, then_ok.mpr ⟨fallback, hfallback, rfl⟩⟩, ?_, rfl, rfl⟩
  have hprecise := @append_upto _ _ _ _ _ precise _ _ (@upto_nil _ _ _ (sectionOf gateway) limit)
  have hupto := @append_upto _ _ _ _ _ fallback _ _ hprecise
  rw [hupto.selected]
  simp [selectedOf, roundsOf]

/-- When fewer sections are selected than wanted, the fallback was due. -/
theorem uniqueCount_lt {precise fallback : List (List (ClassifiedSearchCandidate σ))}
    (h : (selectedOf (sectionOf gateway) limit [precise, fallback]).length < limit) :
    uniqueCount gateway precise < limit := by
  refine lt_of_le_of_lt ?_ h
  rw [← List.length_map (sectionOf gateway)]
  refine List.Nodup.length_le_of_subset (List.nodup_dedup _) fun key hkey => ?_
  obtain ⟨candidate, hcandidate, rfl⟩ := List.mem_map.mp (List.mem_dedup.mp hkey)
  obtain ⟨batch, hbatch, hcandidate⟩ := List.mem_flatten.mp hcandidate
  obtain ⟨other, hother, hsame⟩ := exists_selectedOf h
    (mem_roundsOf.mpr ⟨precise, List.mem_cons_self, batch, hbatch, hcandidate⟩)
  exact hsame ▸ List.mem_map_of_mem hother

/-- What the procedure gateway should keep. -/
def ProcedureKeeps (gateway : SearchGateway σ) (mode : ProcedureMode) (limit : Nat)
    (queryPlan : QueryPlan) (kinds : List (List (List (ClassifiedSearchCandidate σ))))
    (retrieval : Retrieval σ) : Prop :=
  retrieval.evidence.map some =
      (published gateway.newUrl retrieval.selected).map (evidenceFrom gateway.newUrl · mode) ∧
    Keeps gateway.newUrl (sectionOf gateway) (sectionOf gateway) limit kinds
      (∀ query ∈ queryPlan.fallback,
        normalizeRetrievalQuery gateway.platform query ∈ retrieval.executedQueries)
      (published gateway.newUrl retrieval.selected)

/-- The fallback is run, or each of its queries is a precise one too. -/
def FallbackRuns (gateway : SearchGateway σ) (limit : Nat) (queryPlan : QueryPlan)
    (precise : List (List (ClassifiedSearchCandidate σ))) : Prop :=
  uniqueCount gateway precise < limit ∨ ∀ query ∈ queryPlan.fallback,
    normalizeRetrievalQuery gateway.platform query ∈
      queryPlan.precise.map (normalizeRetrievalQuery gateway.platform)

theorem procedure_keeps_iff {mode : ProcedureMode} {queryPlan : QueryPlan}
    {precise fallback : List (List (ClassifiedSearchCandidate σ))}
    (hprecise : runQueries gateway requestId mode limit queryPlan.precise = .ok precise)
    (hfallback : runQueries gateway requestId mode limit
      (fallbackAfter gateway limit queryPlan precise) = .ok fallback) :
    ∃ retrieval, retrieveEvidence gateway requestId mode limit queryPlan = .ok retrieval ∧
      (ProcedureKeeps gateway mode limit queryPlan [precise, fallback] retrieval ↔
        NothingDropped gateway.newUrl (sectionOf gateway) limit [precise, fallback]
          (FallbackRuns gateway limit queryPlan precise)) := by
  obtain ⟨retrieval, hretrieval, hselected, hevidence, hexecuted⟩ :=
    retrieveEvidence_selected hprecise hfallback
  refine ⟨retrieval, hretrieval, ?_⟩
  have hran : (∀ query ∈ queryPlan.fallback, normalizeRetrievalQuery gateway.platform query ∈
      retrieval.executedQueries) ↔ FallbackRuns gateway limit queryPlan precise := by
    rw [hexecuted, FallbackRuns, fallbackAfter]
    by_cases hdue : uniqueCount gateway precise < limit
    · rw [if_pos hdue, List.map_append]
      exact iff_of_true (fun query hquery => List.mem_append_right _ (List.mem_map_of_mem hquery))
        (.inl hdue)
    · rw [if_neg hdue, List.append_nil]
      exact (or_iff_right hdue).symm
  have hitems := @filterMap_published σ gateway.newUrl _ (evidenceFrom gateway.newUrl · mode)
    (fun _ => evidenceFrom_isSome) retrieval.selected
  rw [← hevidence] at hitems
  rw [ProcedureKeeps, hran, hselected] at *
  rw [and_iff_right hitems]
  exact keeps_selectedOf_iff (fun _ _ => id) fun hroom => .inl (uniqueCount_lt hroom)

/-! ## The query gateway -/

section Executor

variable {platform : Platform} {scores : Scores σ}

/-- The entries of the deduplication stand under their sections, each once. -/
theorem keyed_keepBest (candidates : List (ClassifiedSearchCandidate σ))
    {byIdentity : JsMap JsString (ClassifiedSearchCandidate σ)}
    (hnodup : (byIdentity.map Prod.fst).Nodup)
    (hkeyed : ∀ entry ∈ byIdentity,
      candidateIdentity platform entry.2.toStoredSearchCandidate = entry.1) :
    ((candidates.foldl (keepBest platform scores) byIdentity).map Prod.fst).Nodup ∧
      ∀ entry ∈ candidates.foldl (keepBest platform scores) byIdentity,
        candidateIdentity platform entry.2.toStoredSearchCandidate = entry.1 := by
  induction candidates generalizing byIdentity with
  | nil => exact ⟨hnodup, hkeyed⟩
  | cons candidate candidates ih =>
      have hset : ∀ entry ∈ JsMap.set byIdentity
          (candidateIdentity platform candidate.toStoredSearchCandidate) candidate,
          candidateIdentity platform entry.2.toStoredSearchCandidate = entry.1 := by
        intro entry hentry
        rcases JsMap.mem_of_mem_set hentry with rfl | hentry
        · rfl
        · exact hkeyed entry hentry
      have hnodupSet := JsMap.nodup_keys_set hnodup
        (candidateIdentity platform candidate.toStoredSearchCandidate) candidate
      rw [List.foldl_cons]
      unfold keepBest
      simp only
      split
      · exact ih hnodupSet hset
      · split_ifs
        · exact ih hnodupSet hset
        · exact ih hnodup hkeyed

/-- **A search names each section once**, and no more sections than its limit. -/
theorem executeSearch_once {repository : SearchRepository σ} {request : SearchRequest}
    {prepared : Option (PreparedSemanticQuery σ)} {result : SearchExecutionResult σ}
    (h : executeSearch platform scores repository request prepared = .ok result) :
    (result.candidates.map fun candidate =>
      candidateIdentity platform candidate.toStoredSearchCandidate).Nodup ∧
      result.candidates.length ≤ request.limit := by
  obtain ⟨ranked, -, h⟩ := then_ok.mp h
  obtain rfl := return_ok.mp h
  refine ⟨?_, List.length_take_le _ _⟩
  refine List.Nodup.sublist (((List.take_sublist _ _).trans List.filter_sublist).map _) ?_
  obtain ⟨hnodup, hkeyed⟩ := @keyed_keepBest σ platform scores ranked.1 [] List.nodup_nil (by simp)
  refine ((List.perm_insertionSort _ _).map _).nodup_iff.mpr ?_
  rw [JsMap.values, List.map_map]
  refine (List.map_congr_left fun entry hentry => ?_) ▸ hnodup
  exact (hkeyed entry hentry).symm

end Executor

section Query

variable {request : QueryRequest} {primary : SearchExecutionResult σ}
  {expansions : List (SearchExecutionResult σ)}

/-- Two candidates of one place are of one section or, where they have chunks, of one chunk. -/
def chunkOf (candidate : ClassifiedSearchCandidate σ) :
    JsString × JsString × JsString × Option JsString :=
  (candidate.tenantId, candidate.documentVersionId, candidate.sectionId, candidate.chunkId)

theorem candidateKey_of_chunkOf (left right : ClassifiedSearchCandidate σ)
    (h : chunkOf left = chunkOf right) : candidateKey left = candidateKey right := by
  simp only [chunkOf, Prod.mk.injEq] at h
  obtain ⟨htenant, hversion, hsection, hchunk⟩ := h
  rw [candidateKey, candidateKey, htenant, hversion, hsection, hchunk]

/-- The expansions are planned when the query itself found nothing. -/
def plannedExpansions (gateway : SearchGateway σ) (request : QueryRequest)
    (primary : SearchExecutionResult σ) : List JsString :=
  if primary.candidates = [] then expandedQueriesFor gateway request else []

/-- The batches that are merged, or the one of the query itself. -/
def queryKinds (primary : SearchExecutionResult σ) (expansions : List (SearchExecutionResult σ)) :
    List (List (List (ClassifiedSearchCandidate σ))) :=
  if primary.candidates = [] then [(primary :: expansions).map (·.candidates)]
  else [[primary.candidates]]

/-- What the query gateway should keep. -/
def QueryKeeps (gateway : SearchGateway σ) (request : QueryRequest) (primary : SearchExecutionResult σ)
    (kinds : List (List (List (ClassifiedSearchCandidate σ))))
    (answer : SearchExecutionResult σ × List JsString) : Prop :=
  ∃ shown, shown = (published gateway.newUrl answer.1.candidates).take
      (answerLimit gateway request) ∧
    (citationsOf gateway request answer.1).map some =
      shown.map (citationFrom gateway.newUrl) ∧
    Keeps gateway.newUrl chunkOf candidateKey (answerLimit gateway request) kinds
      (∀ query ∈ plannedExpansions gateway request primary, query ∈ answer.2) shown

/-- The result of one search is kept as it is. -/
theorem keeps_primary {batch : List (ClassifiedSearchCandidate σ)}
    (honce : (batch.map fun candidate =>
      candidateIdentity gateway.platform candidate.toStoredSearchCandidate).Nodup)
    (hbounded : batch.length ≤ limit) {allRun : Prop} (hrun : allRun) :
    Keeps gateway.newUrl chunkOf candidateKey limit [[batch]] allRun
      ((published gateway.newUrl batch).take limit) := by
  have hshort : (published gateway.newUrl batch).length ≤ limit :=
    (List.length_filter_le _ _).trans hbounded
  have hdistinct : (batch.map chunkOf).Nodup := by
    refine List.pairwise_map.mpr ((List.pairwise_map.mp honce).imp fun hne hsame => hne ?_)
    simp only [chunkOf, Prod.mk.injEq] at hsame
    simp only [candidateIdentity, hsame.2.1, hsame.2.2.1]
  have hself : firstBy chunkOf (roundsOf [[batch]]).flatten = batch := by
    have hflat : (roundsOf [[batch]]).flatten = batch := by
      simpa [roundsOf] using rounds_singleton batch
    rw [hflat]
    exact firstBy_of_nodup hdistinct
  rw [List.take_of_length_le hshort]
  refine ⟨fun candidate hcandidate => ?_, fun candidate hcandidate => ?_, ?_, hshort, ?_,
    fun _ => hrun, ?_⟩
  · exact ⟨_, List.mem_singleton_self _, _, List.mem_singleton_self _,
      (mem_published.mp hcandidate).1⟩
  · exact (mem_published.mp hcandidate).2
  · exact hdistinct.sublist (List.filter_sublist.map _)
  · intro _ batches hbatches other hother candidate hcandidate hpublishable
    obtain rfl := List.mem_singleton.mp hbatches
    obtain rfl := List.mem_singleton.mp hother
    exact ⟨candidate, mem_published.mpr ⟨hcandidate, hpublishable⟩, rfl⟩
  · have hordered := @pairwise_firstBy_rounds _ _ _ chunkOf _ chunkOf (fun _ _ => id)
      (roundsOf [[batch]])
    rw [hself] at hordered
    exact hordered.sublist List.filter_sublist

theorem mergeExpandedExecutions_selected (executions : List (SearchExecutionResult σ))
    (limit : Nat) : (mergeExpandedExecutions executions limit).candidates =
      selectedOf candidateKey limit [executions.map (·.candidates)] := by
  have hupto := @append_upto _ _ _ _ _ (executions.map (·.candidates)) _ _
    (@upto_nil _ _ _ (@candidateKey σ) limit)
  rw [mergeExpandedExecutions, hupto.selected]
  simp [selectedOf, roundsOf]

theorem executePublicSearch_empty
    (hprimary : executeSearch gateway.platform gateway.scores gateway.repository
      (internalSearchRequest gateway requestId request) none = .ok primary)
    (hempty : primary.candidates = [])
    (hexpansions : runExpansions gateway requestId request = .ok expansions) :
    ∃ executedModes, executePublicSearch gateway requestId request =
      .ok (⟨(mergeExpandedExecutions (primary :: expansions)
        (answerLimit gateway request)).candidates, executedModes⟩,
        expandedQueriesFor gateway request) := by
  have hnone : ¬ 0 < primary.candidates.length := by simp [hempty]
  by_cases hplanned : (expandedQueriesFor gateway request).length = 0
  · have hqueries := List.length_eq_zero_iff.mp hplanned
    obtain rfl : [] = expansions := by
      rw [runExpansions, hqueries] at hexpansions
      exact return_ok.mp hexpansions
    refine ⟨primary.executedModes, then_ok.mpr ⟨primary, hprimary, ?_⟩⟩
    rw [if_neg hnone, if_pos hplanned, hqueries]
    have hcandidates : (mergeExpandedExecutions [primary]
        (answerLimit gateway request)).candidates = primary.candidates := by
      rw [mergeExpandedExecutions_selected, hempty]
      simp [selectedOf, roundsOf, hempty, rounds_singleton, firstBy]
    rw [hcandidates]
    rfl
  · refine ⟨(mergeExpandedExecutions (primary :: expansions)
      (answerLimit gateway request)).executedModes, then_ok.mpr ⟨primary, hprimary, ?_⟩⟩
    rw [if_neg hnone, if_neg hplanned]
    exact then_ok.mpr ⟨expansions, hexpansions, rfl⟩

theorem query_keeps_iff
    (hprimary : executeSearch gateway.platform gateway.scores gateway.repository
      (internalSearchRequest gateway requestId request) none = .ok primary)
    (hexpansions : primary.candidates = [] →
      runExpansions gateway requestId request = .ok expansions) :
    ∃ answer, executePublicSearch gateway requestId request = .ok answer ∧
      (QueryKeeps gateway request primary (queryKinds primary expansions) answer ↔
        (primary.candidates = [] → NothingDropped gateway.newUrl candidateKey
          (answerLimit gateway request) (queryKinds primary expansions) True)) := by
  have hitems : ∀ execution : SearchExecutionResult σ,
      (citationsOf gateway request execution).map some =
        ((published gateway.newUrl execution.candidates).take (answerLimit gateway request)).map
          (citationFrom gateway.newUrl) := by
    intro execution
    rw [citationsOf, List.map_take, List.map_take]
    exact congrArg _ (filterMap_published (fun _ => citationFrom_isSome) execution.candidates)
  by_cases hempty : primary.candidates = []
  · obtain ⟨executedModes, hanswer⟩ :=
      executePublicSearch_empty hprimary hempty (hexpansions hempty)
    refine ⟨_, hanswer, ?_⟩
    have hmerged := mergeExpandedExecutions_selected (primary :: expansions)
      (answerLimit gateway request)
    have hshort : (published gateway.newUrl (mergeExpandedExecutions (primary :: expansions)
        (answerLimit gateway request)).candidates).length ≤ answerLimit gateway request := by
      rw [hmerged]
      exact (List.length_filter_le _ _).trans length_selectedOf_le
    have hran : (∀ query ∈ plannedExpansions gateway request primary,
        query ∈ expandedQueriesFor gateway request) ↔ True := by
      simp [plannedExpansions, hempty]
    rw [QueryKeeps, hran, queryKinds, if_pos hempty]
    simp only [exists_eq_left, hitems, true_and, forall_prop_of_true hempty]
    rw [List.take_of_length_le hshort, hmerged]
    exact keeps_selectedOf_iff candidateKey_of_chunkOf fun _ => trivial
  · have hsome : 0 < primary.candidates.length := List.length_pos_iff.mpr hempty
    have hanswer : executePublicSearch gateway requestId request = .ok (primary, []) := by
      refine then_ok.mpr ⟨primary, hprimary, ?_⟩
      rw [if_pos hsome]
      rfl
    refine ⟨_, hanswer, iff_of_true ?_ fun h => absurd h hempty⟩
    obtain ⟨honce, hbounded⟩ := executeSearch_once hprimary
    rw [queryKinds, if_neg hempty]
    refine ⟨_, rfl, hitems primary, keeps_primary honce hbounded ?_⟩
    simp [plannedExpansions, hempty]

end Query

/-- **What the gateways keep.**  The answer of the procedure gateway, for every plan and all
results of its searches, keeps what it should exactly when nothing that may be published was
dropped; the one of the query gateway always does when its query found something, and
exactly when nothing was dropped from its expansions else. -/
theorem gateways_keep_iff (gateway : SearchGateway σ) (requestId : JsString) (mode : ProcedureMode)
    (limit : Nat) (queryPlan : QueryPlan)
    (precise fallback : List (List (ClassifiedSearchCandidate σ))) (request : QueryRequest)
    (primary : SearchExecutionResult σ) (expansions : List (SearchExecutionResult σ))
    (hprecise : runQueries gateway requestId mode limit queryPlan.precise = .ok precise)
    (hfallback : runQueries gateway requestId mode limit
      (fallbackAfter gateway limit queryPlan precise) = .ok fallback)
    (hprimary : executeSearch gateway.platform gateway.scores gateway.repository
      (internalSearchRequest gateway requestId request) none = .ok primary)
    (hexpansions : primary.candidates = [] →
      runExpansions gateway requestId request = .ok expansions) :
    (∃ retrieval, retrieveEvidence gateway requestId mode limit queryPlan = .ok retrieval ∧
      (ProcedureKeeps gateway mode limit queryPlan [precise, fallback] retrieval ↔
        NothingDropped gateway.newUrl (sectionOf gateway) limit [precise, fallback]
          (FallbackRuns gateway limit queryPlan precise))) ∧
    ∃ answer, executePublicSearch gateway requestId request = .ok answer ∧
      (QueryKeeps gateway request primary (queryKinds primary expansions) answer ↔
        (primary.candidates = [] → NothingDropped gateway.newUrl candidateKey
          (answerLimit gateway request) (queryKinds primary expansions) True)) :=
  ⟨procedure_keeps_iff hprecise hfallback, query_keeps_iff hprimary hexpansions⟩

end Gateways

/-! ## A dropped section -/

section Sample

/-- A section with a plain address, or one whose address has a query. -/
def sampleSource (plain : Bool) : StoredSearchCandidate ℚ :=
  let row := sampleRow .validated (if plain then 5 else 6) "Articulo 1" "Toda licencia." (some 1) none
  { row with sourceUrl := if plain then row.sourceUrl else row.sourceUrl ++ js "?id=6" }

/-- The first query finds the section whose address has a query, others the plain one. -/
def sampleSearchGateway : SearchGateway ℚ where
  platform := samplePlatform []
  scores := exactScores
  repository := {
    searchKeyword := fun input => .ok [sampleSource (input.query ≠ js "obra")]
    searchPhrase := fun _ => .ok []
    searchSemantic := fun _ _ => .ok [] }
  newUrl := fun text => some {
    protocol := js "https:"
    username := []
    password := []
    search := if 0x3f ∈ text then js "?id=6" else []
    hash := [] }
  normalizedIntentText := id
  namesPriorities := fun _ => false
  tenantId := sampleUuid 1
  jurisdiction := js "La Antigua Guatemala"
  asOfDate := js "2026-01-01"
  maxLimit := 20

def samplePlan : QueryPlan := ⟨[js "obra", js "licencia"], []⟩

def sampleCandidate (plain : Bool) : ClassifiedSearchCandidate ℚ :=
  classify sampleSearchGateway.platform exactScores (sampleSource plain)
    (searchRequest sampleSearchGateway [] [] .keyword 1) [.keyword] 1 .tsRankCd

theorem runQueries_sample : runQueries sampleSearchGateway [] .keyword 1 samplePlan.precise =
    .ok [[sampleCandidate false], [sampleCandidate true]] := by
  decide +kernel

theorem runQueries_none :
    runQueries sampleSearchGateway [] .keyword 1 (fallbackAfter sampleSearchGateway 1 samplePlan
      [[sampleCandidate false], [sampleCandidate true]]) = .ok [] := by
  decide +kernel

def samplePrimary : SearchExecutionResult ℚ := ⟨[sampleCandidate true], [.keyword]⟩

theorem gateways_keep_sample :
    (∃ retrieval, retrieveEvidence sampleSearchGateway [] .keyword 1 samplePlan = .ok retrieval ∧
      (ProcedureKeeps sampleSearchGateway .keyword 1 samplePlan
        [[[sampleCandidate false], [sampleCandidate true]], []] retrieval ↔
        NothingDropped sampleSearchGateway.newUrl (sectionOf sampleSearchGateway) 1
          [[[sampleCandidate false], [sampleCandidate true]], []]
          (FallbackRuns sampleSearchGateway 1 samplePlan
            [[sampleCandidate false], [sampleCandidate true]]))) ∧
    ∃ answer, executePublicSearch sampleSearchGateway [] ⟨js "licencia", .keyword, 1⟩ = .ok answer ∧
      (QueryKeeps sampleSearchGateway ⟨js "licencia", .keyword, 1⟩ samplePrimary
          (queryKinds samplePrimary []) answer ↔
        (samplePrimary.candidates = [] → NothingDropped sampleSearchGateway.newUrl candidateKey
          (answerLimit sampleSearchGateway ⟨js "licencia", .keyword, 1⟩)
          (queryKinds samplePrimary []) True)) :=
  gateways_keep_iff sampleSearchGateway [] .keyword 1 samplePlan _ _ _ samplePrimary [] runQueries_sample
    runQueries_none (by decide +kernel) (fun h => absurd h (by simp [samplePrimary]))

/-- The limit is reached by the section that may not be published: the answer is empty
though the other one was retrieved. -/
theorem publishable_section_lost :
    ∃ retrieval, retrieveEvidence sampleSearchGateway [] .keyword 1 samplePlan = .ok retrieval ∧
      retrieval.evidence = [] ∧ ¬ ProcedureKeeps sampleSearchGateway .keyword 1 samplePlan
        [[[sampleCandidate false], [sampleCandidate true]], []] retrieval := by
  obtain ⟨retrieval, hretrieval, hselected, hevidence, -⟩ :=
    retrieveEvidence_selected runQueries_sample runQueries_none
  have hnone : published sampleSearchGateway.newUrl retrieval.selected = [] := by
    rw [hselected]
    decide +kernel
  have hpublishable : Publishable sampleSearchGateway.newUrl (sampleCandidate true) := by
    decide +kernel
  have hempty : retrieval.evidence = [] := by
    rw [hevidence, hselected]
    decide +kernel
  refine ⟨retrieval, hretrieval, hempty, fun hkeeps => ?_⟩
  have hkept := hkeeps.2.complete (by simp [hnone]) _ List.mem_cons_self [sampleCandidate true]
    (by simp) _ List.mem_cons_self hpublishable
  simp [hnone] at hkept

end Sample

end PublicGateway
