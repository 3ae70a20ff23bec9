import MuniRag.SearchEvidence.Candidates
import MuniRag.Lib.JsMap
import MuniRag.Lib.Results

/-!
# The search

`executeSearch` of `searchEvidence/service.ts` over a repository that answers the three
searches.  A single mode ranks the rows it gets; the hybrid mode fuses three lists by
reciprocal rank.  One candidate for each section of a version is kept, the filters are
applied and the first ones are returned.

The repository is a parameter: it may return any rows, and the three searches of a hybrid
run, each a statement of its own, need not see the same data.
-/

namespace SearchEvidence

open Api Results

/-! ## The repository -/

/-- `SearchExecutionInput`. -/
structure SearchInput where
  tenantId : JsString
  query : JsString
  jurisdiction : JsString
  asOfDate : JsString
  limit : Nat
  filters : SearchFilters
  deriving DecidableEq, Repr

structure PreparedSemanticQuery (σ : Type) where
  queryVector : List σ
  embeddingProvider : JsString
  embeddingModel : JsString
  embeddingDimension : Int
  deriving DecidableEq, Repr

inductive SearchFailure
  | capability
  | repository (code : JsString)
  | other (message : JsString)
  deriving DecidableEq, Repr

structure SearchRepository (σ : Type) where
  searchKeyword : SearchInput → Except SearchFailure (List (StoredSearchCandidate σ))
  searchPhrase : SearchInput → Except SearchFailure (List (StoredSearchCandidate σ))
  searchSemantic : SearchInput → PreparedSemanticQuery σ →
    Except SearchFailure (List (StoredSearchCandidate σ))

def maxRepositoryResults : Nat := 200

def inputFor (request : SearchRequest) : SearchInput where
  tenantId := request.tenantId
  query := request.query
  jurisdiction := request.jurisdiction
  asOfDate := request.asOfDate
  limit := min maxRepositoryResults (max request.limit (request.limit * 4))
  filters := request.filters

/-! ## Ranking -/

section Search

variable (platform : Platform) {σ : Type} (scores : Scores σ)

def requirePreparedSemanticQuery (prepared : Option (PreparedSemanticQuery σ)) :
    Except SearchFailure (PreparedSemanticQuery σ) :=
  match prepared with
  | none => .error .capability
  | some semantic =>
      if semantic.embeddingDimension ≠ 1536 ∨ semantic.queryVector.length ≠ 1536 then
        .error .capability
      else .ok semantic

/-- Every failure but the repository's own is reported as a missing capability. -/
def semanticRows (repository : SearchRepository σ) (request : SearchRequest)
    (prepared : Option (PreparedSemanticQuery σ)) :
    Except SearchFailure (List (StoredSearchCandidate σ)) := do
  let semantic ← requirePreparedSemanticQuery prepared
  match repository.searchSemantic (inputFor request) semantic with
  | .ok rows => .ok rows
  | .error (.repository code) => .error (.repository code)
  | .error _ => .error .capability

/-- The modes that rank the rows of one search alone. -/
def rankSingleMode (rows : List (StoredSearchCandidate σ)) (request : SearchRequest)
    (mode : ExecutedSearchMode) : List (ClassifiedSearchCandidate σ) :=
  rows.map fun candidate =>
    match mode with
    | .keyword => classify platform scores candidate request [.keyword]
        (finiteScore scores candidate.keywordScore) .tsRankCd
    | .phrase => classify platform scores candidate request [.phrase]
        (if candidate.phraseMatched then scores.one else scores.zero) .phraseMatch
    | .semantic => classify platform scores candidate request [.semantic]
        (finiteScore scores candidate.semanticScore) .cosineSimilarity

def candidateIdentity (candidate : StoredSearchCandidate σ) : JsString :=
  platform.toLowerCase candidate.documentVersionId ++ js ":" ++
    platform.toLowerCase candidate.sectionId

/-- `right.score - left.score || identity(left).localeCompare(identity(right))`, for finite
scores. -/
def rankOrder (left right : ClassifiedSearchCandidate σ) : Ordering :=
  if scores.above right.score left.score then .gt
  else if scores.above left.score right.score then .lt
  else platform.collation.localeCompare
    (candidateIdentity platform left.toStoredSearchCandidate)
    (candidateIdentity platform right.toStoredSearchCandidate)

def sortRanked (candidates : List (ClassifiedSearchCandidate σ)) :
    List (ClassifiedSearchCandidate σ) :=
  candidates.insertionSort fun left right => rankOrder platform scores left right ≠ .gt

/-- What the fusion keeps of a section: the first candidate found for it. -/
structure Aggregate (σ : Type) where
  candidate : StoredSearchCandidate σ
  score : σ
  matchedModes : List ExecutedSearchMode
  deriving DecidableEq, Repr

def reciprocalRankConstant : Nat := 60

def addCandidate (mode : ExecutedSearchMode) (aggregate : JsMap JsString (Aggregate σ))
    (row : StoredSearchCandidate σ × Nat) : JsMap JsString (Aggregate σ) :=
  let identity := candidateIdentity platform row.1
  let current := (JsMap.get aggregate identity).getD ⟨row.1, scores.zero, []⟩
  JsMap.set aggregate identity { current with
    score := scores.add current.score (scores.reciprocal (reciprocalRankConstant + row.2 + 1))
    matchedModes :=
      if mode ∈ current.matchedModes then current.matchedModes else current.matchedModes ++ [mode] }

def addRows (aggregate : JsMap JsString (Aggregate σ)) (mode : ExecutedSearchMode)
    (rows : List (StoredSearchCandidate σ)) : JsMap JsString (Aggregate σ) :=
  rows.zipIdx.foldl (addCandidate platform scores mode) aggregate

def mergeHybrid (keywordRows phraseRows semanticRows : List (StoredSearchCandidate σ))
    (request : SearchRequest) : List (ClassifiedSearchCandidate σ) :=
  let aggregate := addRows platform scores [] .keyword keywordRows
  let aggregate := addRows platform scores aggregate .phrase phraseRows
  let aggregate := addRows platform scores aggregate .semantic semanticRows
  sortRanked platform scores ((JsMap.values aggregate).map fun item =>
    classify platform scores item.candidate request item.matchedModes item.score
      .reciprocalRankFusion)

def keepBest (byIdentity : JsMap JsString (ClassifiedSearchCandidate σ))
    (candidate : ClassifiedSearchCandidate σ) : JsMap JsString (ClassifiedSearchCandidate σ) :=
  let identity := candidateIdentity platform candidate.toStoredSearchCandidate
  match JsMap.get byIdentity identity with
  | none => JsMap.set byIdentity identity candidate
  | some existing =>
      if scores.above candidate.score existing.score then
        JsMap.set byIdentity identity candidate
      else byIdentity

def dedupeCandidates (candidates : List (ClassifiedSearchCandidate σ)) :
    List (ClassifiedSearchCandidate σ) :=
  sortRanked platform scores (JsMap.values (candidates.foldl (keepBest platform scores) []))

def filterCandidate (candidate : ClassifiedSearchCandidate σ) (filters : SearchFilters) : Bool :=
  (filters.documentTypes.isEmpty || filters.documentTypes.contains candidate.documentType) &&
  (filters.sourceRelations.isEmpty || filters.sourceRelations.contains candidate.sourceRelation) &&
  (filters.authorityStatuses.isEmpty ||
    filters.authorityStatuses.contains candidate.authorityStatus) &&
  (filters.temporalStatuses.isEmpty ||
    filters.temporalStatuses.contains candidate.temporalStatus) &&
  (filters.sourceIds.isEmpty || filters.sourceIds.any fun id =>
    platform.toLowerCase id = platform.toLowerCase candidate.sourceId)

structure SearchExecutionResult (σ : Type) where
  candidates : List (ClassifiedSearchCandidate σ)
  executedModes : List ExecutedSearchMode
  deriving DecidableEq, Repr

/-- The ranked candidates before the filters, with the modes that were run. -/
def runModes (repository : SearchRepository σ) (request : SearchRequest)
    (prepared : Option (PreparedSemanticQuery σ)) :
    Except SearchFailure (List (ClassifiedSearchCandidate σ) × List ExecutedSearchMode) :=
  match request.mode with
  | .keyword => do
      let rows ← repository.searchKeyword (inputFor request)
      return (rankSingleMode platform scores rows request .keyword, [.keyword])
  | .phrase => do
      let rows ← repository.searchPhrase (inputFor request)
      return (rankSingleMode platform scores rows request .phrase, [.phrase])
  | .semantic => do
      let rows ← semanticRows repository request prepared
      return (rankSingleMode platform scores rows request .semantic, [.semantic])
  | .hybrid => do
      -- The semantic search comes first, so that no lexical work is done without it.
      let semantic ← semanticRows repository request prepared
      let keywordRows ← repository.searchKeyword (inputFor request)
      let phraseRows ← repository.searchPhrase (inputFor request)
      return (mergeHybrid platform scores keywordRows phraseRows semantic request,
        [.keyword, .phrase, .semantic])

def executeSearch (repository : SearchRepository σ) (request : SearchRequest)
    (prepared : Option (PreparedSemanticQuery σ)) :
    Except SearchFailure (SearchExecutionResult σ) := do
  let (classified, executedModes) ← runModes platform scores repository request prepared
  let candidates := ((dedupeCandidates platform scores classified).filter fun item =>
    filterCandidate platform item request.filters).take request.limit
  return { candidates, executedModes }

end Search

/-! ## Where the candidates come from -/

section Provenance

variable {platform : Platform} {σ : Type} {scores : Scores σ}
  {repository : SearchRepository σ} {request : SearchRequest}
  {prepared : Option (PreparedSemanticQuery σ)}

/-- A row that one of the searches of this request returned. -/
def Returned (repository : SearchRepository σ) (request : SearchRequest)
    (prepared : Option (PreparedSemanticQuery σ)) (row : StoredSearchCandidate σ) : Prop :=
  (∃ rows, repository.searchKeyword (inputFor request) = .ok rows ∧ row ∈ rows) ∨
  (∃ rows, repository.searchPhrase (inputFor request) = .ok rows ∧ row ∈ rows) ∨
  ∃ rows, semanticRows repository request prepared = .ok rows ∧ row ∈ rows

/-- A candidate classified for this request, with some score, from a row that satisfies `P`. -/
def ClassifiedFrom (platform : Platform) (scores : Scores σ) (request : SearchRequest)
    (P : StoredSearchCandidate σ → Prop) (candidate : ClassifiedSearchCandidate σ) : Prop :=
  ∃ row modes score scoreType, P row ∧
    candidate = classify platform scores row request modes score scoreType

theorem ClassifiedFrom.stored {P : StoredSearchCandidate σ → Prop}
    {candidate : ClassifiedSearchCandidate σ}
    (h : ClassifiedFrom platform scores request P candidate) :
    P candidate.toStoredSearchCandidate := by
  obtain ⟨row, modes, score, scoreType, hrow, rfl⟩ := h
  exact hrow

/-- **Statuses of a result.**  A classified candidate is supported exactly when it is
authoritative for the request. -/
theorem ClassifiedFrom.supported_iff {P : StoredSearchCandidate σ → Prop}
    {candidate : ClassifiedSearchCandidate σ}
    (h : ClassifiedFrom platform scores request P candidate) :
    candidate.evidenceStatus = .supported ↔
      Authoritative platform request candidate.toStoredSearchCandidate := by
  obtain ⟨row, modes, score, scoreType, -, rfl⟩ := h
  exact supported_iff_authoritative

theorem mem_sortRanked {candidates : List (ClassifiedSearchCandidate σ)}
    {candidate : ClassifiedSearchCandidate σ} :
    candidate ∈ sortRanked platform scores candidates ↔ candidate ∈ candidates :=
  (List.perm_insertionSort _ candidates).mem_iff

theorem classifiedFrom_rankSingleMode {rows : List (StoredSearchCandidate σ)}
    (mode : ExecutedSearchMode) {candidate : ClassifiedSearchCandidate σ}
    (h : candidate ∈ rankSingleMode platform scores rows request mode) :
    ClassifiedFrom platform scores request (· ∈ rows) candidate := by
  obtain ⟨row, hrow, hcandidate⟩ := List.mem_map.mp h
  cases mode with
  | keyword => exact ⟨row, _, _, _, hrow, hcandidate.symm⟩
  | phrase => exact ⟨row, _, _, _, hrow, hcandidate.symm⟩
  | semantic => exact ⟨row, _, _, _, hrow, hcandidate.symm⟩

/-- Whatever holds of the rows holds of the candidates that the fusion keeps. -/
theorem addCandidate_kept {P : StoredSearchCandidate σ → Prop} {mode : ExecutedSearchMode}
    {aggregate : JsMap JsString (Aggregate σ)} {row : StoredSearchCandidate σ × Nat}
    (hkept : ∀ item ∈ JsMap.values aggregate, P item.candidate) (hrow : P row.1) :
    ∀ item ∈ JsMap.values (addCandidate platform scores mode aggregate row), P item.candidate := by
  intro item hitem
  have hcurrent : P ((JsMap.get aggregate (candidateIdentity platform row.1)).getD
      ⟨row.1, scores.zero, []⟩).candidate := by
    cases hget : JsMap.get aggregate (candidateIdentity platform row.1) with
    | none => exact hrow
    | some current => exact hkept current (JsMap.get_values hget)
  rcases JsMap.mem_values_set hitem with rfl | hitem
  · exact hcurrent
  · exact hkept item hitem

theorem addRows_kept {P : StoredSearchCandidate σ → Prop} {mode : ExecutedSearchMode}
    {rows : List (StoredSearchCandidate σ)} {aggregate : JsMap JsString (Aggregate σ)}
    (hkept : ∀ item ∈ JsMap.values aggregate, P item.candidate) (hrows : ∀ row ∈ rows, P row) :
    ∀ item ∈ JsMap.values (addRows platform scores aggregate mode rows), P item.candidate := by
  have hfold : ∀ (numbered : List (StoredSearchCandidate σ × Nat))
      (aggregate : JsMap JsString (Aggregate σ)),
      (∀ item ∈ JsMap.values aggregate, P item.candidate) → (∀ row ∈ numbered, P row.1) →
      ∀ item ∈ JsMap.values (numbered.foldl (addCandidate platform scores mode) aggregate),
        P item.candidate := by
    intro numbered
    induction numbered with
    | nil => exact fun aggregate hkept _ => hkept
    | cons row numbered ih =>
        intro aggregate hkept hrows
        obtain ⟨hrow, hrest⟩ := List.forall_mem_cons.mp hrows
        exact ih _ (addCandidate_kept hkept hrow) hrest
  refine hfold rows.zipIdx aggregate hkept fun row hrow => hrows row.1 ?_
  exact List.fst_mem_of_mem_zipIdx hrow

theorem classifiedFrom_mergeHybrid {P : StoredSearchCandidate σ → Prop}
    {keywordRows phraseRows semanticRows : List (StoredSearchCandidate σ)}
    (hkeyword : ∀ row ∈ keywordRows, P row) (hphrase : ∀ row ∈ phraseRows, P row)
    (hsemantic : ∀ row ∈ semanticRows, P row) {candidate : ClassifiedSearchCandidate σ}
    (h : candidate ∈ mergeHybrid platform scores keywordRows phraseRows semanticRows request) :
    ClassifiedFrom platform scores request P candidate := by
  obtain ⟨item, hitem, hcandidate⟩ := List.mem_map.mp (mem_sortRanked.mp h)
  have hnone : ∀ item ∈ JsMap.values ([] : JsMap JsString (Aggregate σ)), P item.candidate := by
    simp [JsMap.values]
  have hitem := addRows_kept (addRows_kept (addRows_kept hnone hkeyword) hphrase) hsemantic
    item hitem
  exact ⟨item.candidate, _, _, _, hitem, hcandidate.symm⟩

theorem mem_keepBest {byIdentity : JsMap JsString (ClassifiedSearchCandidate σ)}
    {first candidate : ClassifiedSearchCandidate σ}
    (h : candidate ∈ JsMap.values (keepBest platform scores byIdentity first)) :
    candidate = first ∨ candidate ∈ JsMap.values byIdentity := by
  simp only [keepBest] at h
  split at h
  · exact JsMap.mem_values_set h
  · split_ifs at h with hbetter
    · exact JsMap.mem_values_set h
    · exact .inr h

theorem mem_dedupeCandidates {candidates : List (ClassifiedSearchCandidate σ)}
    {candidate : ClassifiedSearchCandidate σ}
    (h : candidate ∈ dedupeCandidates platform scores candidates) : candidate ∈ candidates := by
  have hfold : ∀ (rest : List (ClassifiedSearchCandidate σ))
      (byIdentity : JsMap JsString (ClassifiedSearchCandidate σ)),
      candidate ∈ JsMap.values (rest.foldl (keepBest platform scores) byIdentity) →
      candidate ∈ JsMap.values byIdentity ∨ candidate ∈ rest := by
    intro rest
    induction rest with
    | nil => exact fun byIdentity h => .inl h
    | cons first rest ih =>
        intro byIdentity h
        rcases ih _ h with h | h
        · rcases mem_keepBest h with rfl | hkept
          · exact .inr List.mem_cons_self
          · exact .inl hkept
        · exact .inr (List.mem_cons_of_mem _ h)
  rcases hfold candidates [] (mem_sortRanked.mp h) with hnone | h
  · simp [JsMap.values] at hnone
  · exact h

theorem classifiedFrom_runModes
    {ranked : List (ClassifiedSearchCandidate σ) × List ExecutedSearchMode}
    (h : runModes platform scores repository request prepared = .ok ranked)
    {candidate : ClassifiedSearchCandidate σ} (hcandidate : candidate ∈ ranked.1) :
    ClassifiedFrom platform scores request (Returned repository request prepared) candidate := by
  have hwiden : ∀ {rows : List (StoredSearchCandidate σ)},
      (∀ row ∈ rows, Returned repository request prepared row) →
      ClassifiedFrom platform scores request (· ∈ rows) candidate →
      ClassifiedFrom platform scores request (Returned repository request prepared) candidate := by
    rintro rows hrows ⟨row, modes, score, scoreType, hrow, hfrom⟩
    exact ⟨row, modes, score, scoreType, hrows row hrow, hfrom⟩
  unfold runModes at h
  split at h
  · obtain ⟨rows, hrows, h⟩ := then_ok.mp h
    obtain rfl := return_ok.mp h
    exact hwiden (fun row hrow => .inl ⟨rows, hrows, hrow⟩)
      (classifiedFrom_rankSingleMode .keyword hcandidate)
  · obtain ⟨rows, hrows, h⟩ := then_ok.mp h
    obtain rfl := return_ok.mp h
    exact hwiden (fun row hrow => .inr (.inl ⟨rows, hrows, hrow⟩))
      (classifiedFrom_rankSingleMode .phrase hcandidate)
  · obtain ⟨rows, hrows, h⟩ := then_ok.mp h
    obtain rfl := return_ok.mp h
    exact hwiden (fun row hrow => .inr (.inr ⟨rows, hrows, hrow⟩))
      (classifiedFrom_rankSingleMode .semantic hcandidate)
  · obtain ⟨semantic, hsemantic, h⟩ := then_ok.mp h
    obtain ⟨keywordRows, hkeyword, h⟩ := then_ok.mp h
    obtain ⟨phraseRows, hphrase, h⟩ := then_ok.mp h
    obtain rfl := return_ok.mp h
    exact classifiedFrom_mergeHybrid (fun row hrow => .inl ⟨_, hkeyword, hrow⟩)
      (fun row hrow => .inr (.inl ⟨_, hphrase, hrow⟩))
      (fun row hrow => .inr (.inr ⟨_, hsemantic, hrow⟩)) hcandidate

/-- **Provenance.**  Every candidate of a search is a returned row, classified for the
request. -/
theorem classifiedFrom_executeSearch {result : SearchExecutionResult σ}
    (h : executeSearch platform scores repository request prepared = .ok result)
    {candidate : ClassifiedSearchCandidate σ} (hcandidate : candidate ∈ result.candidates) :
    ClassifiedFrom platform scores request (Returned repository request prepared) candidate := by
  obtain ⟨ranked, hranked, h⟩ := then_ok.mp h
  obtain rfl := return_ok.mp h
  have hkept := List.mem_of_mem_filter (List.mem_of_mem_take hcandidate)
  exact classifiedFrom_runModes hranked (mem_dedupeCandidates hkept)

end Provenance

end SearchEvidence
