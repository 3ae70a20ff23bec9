import MuniRag.Lib.LimitedSearch
import MuniRag.SearchEvidence.Fusion
import MuniRag.Ingestion.Identity

/-!
# Searches with filters

`executeSearch` in a single mode.  The repository applies some of the filters and a limit of
four times that of the request; the others are applied to what it returned.  So the result
is complete exactly when each row that it should contain is the first one of its section
within the limit of the repository (`filtered_search_iff`).  A row may miss that place
because better ones were filtered out afterwards, or because the repository compares source
ids otherwise, as the one in memory does with letter case.
-/

namespace SearchEvidence

open Api Results LimitedSearch

section FilteredSearch

variable (platform : Platform) (request : SearchRequest) (mode : ExecutedSearchMode)

/-! ## What a search should return -/

def singleMode : SearchMode → Option ExecutedSearchMode
  | .keyword => some .keyword
  | .phrase => some .phrase
  | .semantic => some .semantic
  | .hybrid => none

/-- The answer of the repository to the search of a single mode. -/
def answerOf (repository : SearchRepository ℚ) (prepared : Option (PreparedSemanticQuery ℚ)) :
    ExecutedSearchMode → Except SearchFailure (List (StoredSearchCandidate ℚ))
  | .keyword => repository.searchKeyword (inputFor request)
  | .phrase => repository.searchPhrase (inputFor request)
  | .semantic => semanticRows repository request prepared

/-- A row as `rankSingleMode` classifies it. -/
def classifiedAs (row : StoredSearchCandidate ℚ) : ClassifiedSearchCandidate ℚ :=
  match mode with
  | .keyword => classify platform exactScores row request [.keyword]
      (finiteScore exactScores row.keywordScore) .tsRankCd
  | .phrase => classify platform exactScores row request [.phrase]
      (if row.phraseMatched then exactScores.one else exactScores.zero) .phraseMatch
  | .semantic => classify platform exactScores row request [.semantic]
      (finiteScore exactScores row.semanticScore) .cosineSimilarity

/-- A row satisfies every filter of the request. -/
def Satisfies (row : StoredSearchCandidate ℚ) : Prop :=
  filterCandidate platform (classifiedAs platform request mode row) request.filters = true

/-- The first rows, up to the limit of the request, of all that satisfy the filters. -/
def completeSearch (ranked : List (StoredSearchCandidate ℚ)) :
    List (ClassifiedSearchCandidate ℚ) :=
  (dedupeCandidates platform exactScores ((rankSingleMode platform exactScores ranked request
    mode).filter fun item => filterCandidate platform item request.filters)).take request.limit

/-- The repository's search is the ranked list of the rows of its content that match the mode,
as far as the repository admits them, up to the limit it is given. -/
structure RanksAll (repository : SearchRepository ℚ)
    (prepared : Option (PreparedSemanticQuery ℚ)) (content ranked : List (StoredSearchCandidate ℚ))
    (matching admits : StoredSearchCandidate ℚ → Bool) : Prop where
  all : ranked.Perm (content.filter matching)
  descending : ranked.Pairwise fun left right =>
    (classifiedAs platform request mode right).score ≤ (classifiedAs platform request mode left).score
  answers : answerOf request repository prepared mode =
    .ok ((ranked.filter admits).take (inputFor request).limit)

/-- The candidates are the first ones of all matching rows that satisfy the filters, and a row
is omitted only for a full page of rows that rank before it. -/
structure Complete (content ranked : List (StoredSearchCandidate ℚ))
    (matching : StoredSearchCandidate ℚ → Bool)
    (candidates : List (ClassifiedSearchCandidate ℚ)) : Prop where
  first : candidates = completeSearch platform request mode ranked
  omitted : ∀ row ∈ content, matching row = true → Satisfies platform request mode row →
    (∀ candidate ∈ candidates, identityOf platform candidate ≠ candidateIdentity platform row) →
    candidates.length = request.limit ∧ ∀ candidate ∈ candidates,
      RanksBefore platform candidate (classifiedAs platform request mode row)

/-- Each row that should be returned is the first one of its section in the repository's list,
at a place within the limit. -/
def WithinLimit (ranked : List (StoredSearchCandidate ℚ))
    (admits : StoredSearchCandidate ℚ → Bool) : Prop :=
  ∀ candidate ∈ completeSearch platform request mode ranked, ∃ before after,
    ranked.filter admits = before ++ candidate.toStoredSearchCandidate :: after ∧
    before.length < (inputFor request).limit ∧
    ∀ other ∈ before, candidateIdentity platform other ≠ identityOf platform candidate

variable {platform request mode}

theorem classifiedAs_stored (row : StoredSearchCandidate ℚ) :
    (classifiedAs platform request mode row).toStoredSearchCandidate = row := by
  cases mode <;> rfl

theorem rankSingleMode_eq (rows : List (StoredSearchCandidate ℚ)) :
    rankSingleMode platform exactScores rows request mode =
      rows.map (classifiedAs platform request mode) := by
  cases mode <;> rfl

/-! ## One candidate for each section -/

/-- On rows of falling scores the best of a section is the first. -/
theorem keepBest_eq {candidates : List (ClassifiedSearchCandidate ℚ)}
    (h : candidates.Pairwise fun left right => right.score ≤ left.score) :
    candidates.foldl (keepBest platform exactScores) [] =
      (firstBy (identityOf platform) candidates).map fun candidate =>
        (identityOf platform candidate, candidate) := by
  induction candidates using List.reverseRecOn with
  | nil => rfl
  | append_singleton candidates last ih =>
      obtain ⟨hinit, -, hlast⟩ := List.pairwise_append.mp h
      rw [List.foldl_concat, ih hinit]
      have hget : JsMap.get ((firstBy (identityOf platform) candidates).map fun candidate =>
          (identityOf platform candidate, candidate)) (identityOf platform last) =
            (firstBy (identityOf platform) candidates).find?
              (identityOf platform · = identityOf platform last) := by
        rw [JsMap.get, List.find?_map, Option.map_map]
        exact Option.map_id'
      by_cases hseen : identityOf platform last ∈ candidates.map (identityOf platform)
      · obtain ⟨earlier, hearlier, hsame⟩ := List.mem_map.mp hseen
        obtain ⟨first, hfirst, hkey⟩ := @exists_firstBy _ _ _ (identityOf platform) _ _ hearlier
        have hfound : ((firstBy (identityOf platform) candidates).find?
            (identityOf platform · = identityOf platform last)).isSome = true :=
          List.find?_isSome.mpr ⟨first, hfirst, decide_eq_true (hkey.trans hsame)⟩
        obtain ⟨best, hbest⟩ := Option.isSome_iff_exists.mp hfound
        have hscore : last.score ≤ best.score :=
          hlast best ((firstBy_sublist _ _).subset (List.mem_of_find?_eq_some hbest)) last
            (List.mem_singleton_self last)
        have hkept : ¬ exactScores.above last.score best.score = true := by
          simpa [exactScores] using hscore
        rw [hbest] at hget
        simp only [keepBest, hget]
        rw [if_neg hkept, firstBy_concat_seen hseen]
      · have hfound : (firstBy (identityOf platform) candidates).find?
            (identityOf platform · = identityOf platform last) = none := by
          refine List.find?_eq_none.mpr fun first hfirst hsame => hseen ?_
          rw [← of_decide_eq_true hsame]
          exact List.mem_map_of_mem ((firstBy_sublist _ _).subset hfirst)
        rw [hfound] at hget
        simp only [keepBest, hget]
        rw [JsMap.set_of_get_none hget, firstBy_concat_new hseen, List.map_append]
        rfl

theorem dedupeCandidates_eq {candidates : List (ClassifiedSearchCandidate ℚ)}
    (h : candidates.Pairwise fun left right => right.score ≤ left.score) :
    dedupeCandidates platform exactScores candidates =
      (firstBy (identityOf platform) candidates).insertionSort (RanksBefore platform) := by
  rw [dedupeCandidates, keepBest_eq h, JsMap.values, List.map_map]
  exact congrArg _ (List.map_id' _)

/-- Rows of one section stand in the order of their scores. -/
theorem ranksBefore_of_score {left right : ClassifiedSearchCandidate ℚ}
    (hscore : right.score ≤ left.score)
    (hsame : identityOf platform left = identityOf platform right) :
    RanksBefore platform left right := by
  rw [ranksBefore_iff]
  rcases hscore.lt_or_eq with hlt | heq
  · exact .inl hlt
  · refine .inr ⟨heq.symm, ?_⟩
    rw [hsame, CanonicalJson.localeCompare_refl]
    decide

/-! ## The two searches -/

variable {repository : SearchRepository ℚ} {prepared : Option (PreparedSemanticQuery ℚ)}
  {content ranked : List (StoredSearchCandidate ℚ)}
  {matching admits : StoredSearchCandidate ℚ → Bool}

/-- The filters of the request, on classified candidates. -/
abbrev passesFilters (platform : Platform) (request : SearchRequest)
    (candidate : ClassifiedSearchCandidate ℚ) : Bool :=
  filterCandidate platform candidate request.filters

theorem completeSearch_eq (h : ranked.Pairwise fun left right =>
    (classifiedAs platform request mode right).score ≤
      (classifiedAs platform request mode left).score) :
    completeSearch platform request mode ranked =
      wanted (RanksBefore platform) (identityOf platform)
        (ranked.map (classifiedAs platform request mode)) (passesFilters platform request)
        request.limit := by
  rw [completeSearch, rankSingleMode_eq, dedupeCandidates_eq]
  · rfl
  · exact (List.pairwise_map.mpr h).filter _

theorem runModes_single (hmode : singleMode request.mode = some mode)
    {rows : List (StoredSearchCandidate ℚ)}
    (h : answerOf request repository prepared mode = .ok rows) :
    runModes platform exactScores repository request prepared =
      .ok (rows.map (classifiedAs platform request mode), [mode]) := by
  rw [← rankSingleMode_eq]
  unfold runModes
  cases hrequested : request.mode with
  | keyword =>
      obtain rfl : ExecutedSearchMode.keyword = mode := by simpa [singleMode, hrequested] using hmode
      exact then_ok.mpr ⟨rows, h, rfl⟩
  | phrase =>
      obtain rfl : ExecutedSearchMode.phrase = mode := by simpa [singleMode, hrequested] using hmode
      exact then_ok.mpr ⟨rows, h, rfl⟩
  | semantic =>
      obtain rfl : ExecutedSearchMode.semantic = mode := by simpa [singleMode, hrequested] using hmode
      exact then_ok.mpr ⟨rows, h, rfl⟩
  | hybrid => simp [singleMode, hrequested] at hmode

theorem filter_classified (rows : List (StoredSearchCandidate ℚ)) :
    ((rows.map (classifiedAs platform request mode)).filter fun candidate =>
      admits candidate.toStoredSearchCandidate) =
        (rows.filter admits).map (classifiedAs platform request mode) := by
  rw [List.filter_map]
  refine congrArg _ (List.filter_congr fun row _ => ?_)
  rw [Function.comp_apply, classifiedAs_stored]

theorem executeSearch_eq (hmode : singleMode request.mode = some mode)
    (h : RanksAll platform request mode repository prepared content ranked matching admits) :
    executeSearch platform exactScores repository request prepared = .ok {
      candidates := found (RanksBefore platform) (identityOf platform)
        (ranked.map (classifiedAs platform request mode))
        (fun candidate => admits candidate.toStoredSearchCandidate)
        (passesFilters platform request) (inputFor request).limit request.limit
      executedModes := [mode] } := by
  have hmapped : ((ranked.filter admits).take (inputFor request).limit).map
      (classifiedAs platform request mode) =
      ((ranked.map (classifiedAs platform request mode)).filter fun candidate =>
        admits candidate.toStoredSearchCandidate).take (inputFor request).limit := by
    rw [filter_classified, List.map_take]
  have hdescending : (((ranked.filter admits).take (inputFor request).limit).map
      (classifiedAs platform request mode)).Pairwise fun left right => right.score ≤ left.score :=
    List.pairwise_map.mpr ((h.descending.filter _).sublist (List.take_sublist _ _))
  rw [executeSearch, then_ok]
  refine ⟨_, runModes_single hmode h.answers, return_ok.mpr ?_⟩
  rw [dedupeCandidates_eq hdescending, hmapped]
  rfl

/-- Among the rows that a limit leaves. -/
theorem mem_firstBy_take {candidate : ClassifiedSearchCandidate ℚ}
    {candidates : List (ClassifiedSearchCandidate ℚ)} {n : Nat} :
    candidate ∈ firstBy (identityOf platform) (candidates.take n) ↔
      ∃ before after, candidates = before ++ candidate :: after ∧ before.length < n ∧
        ∀ other ∈ before, identityOf platform other ≠ identityOf platform candidate := by
  rw [mem_firstBy]
  constructor
  · rintro ⟨before, after, htaken, hbefore⟩
    refine ⟨before, after ++ candidates.drop n, ?_, ?_, hbefore⟩
    · rw [← List.cons_append, ← List.append_assoc, ← htaken, List.take_append_drop]
    · have hlength : (before ++ candidate :: after).length ≤ n :=
        htaken ▸ List.length_take_le n candidates
      rw [List.length_append, List.length_cons] at hlength
      omega
  · rintro ⟨before, after, rfl, hlength, hbefore⟩
    refine ⟨before, after.take (n - before.length - 1), ?_, hbefore⟩
    have hrest : n - before.length = (n - before.length - 1) + 1 := by omega
    rw [List.take_append, List.take_of_length_le hlength.le, hrest, List.take_succ_cons]
    rfl

/-- A place in the repository's list is one among the classified rows. -/
theorem mem_firstBy_classified {row : StoredSearchCandidate ℚ} {n : Nat} :
    classifiedAs platform request mode row ∈ firstBy (identityOf platform)
        (((ranked.map (classifiedAs platform request mode)).filter fun candidate =>
          admits candidate.toStoredSearchCandidate).take n) ↔
      ∃ before after, ranked.filter admits = before ++ row :: after ∧ before.length < n ∧
        ∀ other ∈ before, candidateIdentity platform other ≠ candidateIdentity platform row := by
  rw [mem_firstBy_take, filter_classified]
  constructor
  · rintro ⟨before, after, hrows, hlength, hbefore⟩
    obtain ⟨rowsBefore, rowsAfter, hsplit, rfl, hafter⟩ := List.map_eq_append_iff.mp hrows
    obtain ⟨same, rest, rfl, hsame, rfl⟩ := List.map_eq_cons_iff.mp hafter
    obtain rfl : same = row := by
      rw [← @classifiedAs_stored platform request mode same, hsame, classifiedAs_stored]
    refine ⟨rowsBefore, rest, hsplit, by simpa using hlength, fun other hother => ?_⟩
    have hne := hbefore _ (List.mem_map_of_mem hother)
    simpa only [identityOf, classifiedAs_stored] using hne
  · rintro ⟨before, after, hrows, hlength, hbefore⟩
    refine ⟨before.map (classifiedAs platform request mode),
      after.map (classifiedAs platform request mode), ?_, by simpa using hlength, ?_⟩
    · rw [hrows, List.map_append, List.map_cons]
    · rintro candidate hcandidate
      obtain ⟨other, hother, rfl⟩ := List.mem_map.mp hcandidate
      simpa only [identityOf, classifiedAs_stored] using hbefore other hother

/-- Rows of one section are in the order of their ranks. -/
theorem RanksAll.ordered
    (h : RanksAll platform request mode repository prepared content ranked matching admits) :
    (ranked.map (classifiedAs platform request mode)).Pairwise fun left right =>
      identityOf platform left = identityOf platform right → RanksBefore platform left right :=
  List.pairwise_map.mpr (h.descending.imp fun hscore => ranksBefore_of_score hscore)

/-- What is wanted are classified rows that satisfy the filters. -/
theorem mem_completeSearch
    (h : RanksAll platform request mode repository prepared content ranked matching admits)
    {candidate : ClassifiedSearchCandidate ℚ}
    (hwanted : candidate ∈ completeSearch platform request mode ranked) :
    candidate = classifiedAs platform request mode candidate.toStoredSearchCandidate := by
  rw [completeSearch_eq h.descending] at hwanted
  obtain ⟨row, -, rfl⟩ := List.mem_map.mp (mem_wanted hwanted).1
  rw [classifiedAs_stored]

/-- The first rows of all that satisfy the filters are complete. -/
theorem complete_completeSearch
    (h : RanksAll platform request mode repository prepared content ranked matching admits) :
    Complete platform request mode content ranked matching
      (completeSearch platform request mode ranked) := by
  refine ⟨rfl, fun row hrow hmatching hsatisfies hnone => ?_⟩
  have htotal : Std.Total (RanksBefore platform) := ⟨fun _ _ => ranksBefore_total⟩
  have htrans : IsTrans _ (RanksBefore platform) := ⟨fun _ _ _ => RanksBefore.trans⟩
  have hmem : classifiedAs platform request mode row ∈
      ranked.map (classifiedAs platform request mode) :=
    List.mem_map_of_mem (h.all.mem_iff.mpr (List.mem_filter.mpr ⟨hrow, hmatching⟩))
  rw [completeSearch_eq h.descending] at hnone ⊢
  refine omitted h.ordered hmem hsatisfies fun candidate hcandidate => ?_
  have hne := hnone candidate hcandidate
  simpa only [identityOf, classifiedAs_stored] using hne

/-- **Filtered search.**  A search in a single mode answers, and its answer is complete exactly
when each row that should be returned is the first one of its section within the limit of the
repository. -/
theorem filtered_search_iff (hmode : singleMode request.mode = some mode)
    (h : RanksAll platform request mode repository prepared content ranked matching admits) :
    ∃ result, executeSearch platform exactScores repository request prepared = .ok result ∧
      result.executedModes = [mode] ∧
      (Complete platform request mode content ranked matching result.candidates ↔
        WithinLimit platform request mode ranked admits) := by
  have htotal : Std.Total (RanksBefore platform) := ⟨fun _ _ => ranksBefore_total⟩
  have htrans : IsTrans _ (RanksBefore platform) := ⟨fun _ _ _ => RanksBefore.trans⟩
  refine ⟨_, executeSearch_eq hmode h, rfl, ?_⟩
  calc Complete platform request mode content ranked matching _
      ↔ _ = completeSearch platform request mode ranked :=
        ⟨Complete.first, fun hfirst => hfirst ▸ complete_completeSearch h⟩
    _ ↔ _ = wanted _ _ _ _ _ := by rw [completeSearch_eq h.descending]
    _ ↔ _ := found_eq_wanted_iff h.ordered
    _ ↔ WithinLimit platform request mode ranked admits := by
        rw [WithinLimit, completeSearch_eq h.descending]
        refine forall₂_congr fun candidate hcandidate => ?_
        rw [← completeSearch_eq h.descending] at hcandidate
        rw [mem_completeSearch h hcandidate, mem_firstBy_classified, classifiedAs_stored]
        simp only [identityOf, classifiedAs_stored]

end FilteredSearch

/-! ## The repository in memory -/

section InMemory

/-- What `new URL` reads of a text, and the names of its query parameters. -/
structure ParsedUrl where
  protocol : JsString
  username : JsString
  password : JsString
  parameterNames : List JsString
  deriving DecidableEq, Repr

/-- The names of the parameters that carry a credential. -/
def credentialNames : List JsString :=
  ["access_token", "token", "sig", "signature", "api_key", "key", "auth", "se", "sp"].map js

variable (platform : Platform) (newUrl : JsString → Option ParsedUrl)

def namesCredential (parameterName : JsString) : Bool :=
  let name := platform.toLowerCase parameterName
  credentialNames.contains name || (js "x-amz-").isPrefixOf name || (js "x-goog-").isPrefixOf name

def safelyPublicUrl (value : JsString) : Bool :=
  decide (8 ≤ value.length ∧ value.length ≤ 2048) &&
    (newUrl value).any fun url =>
      (url.protocol == js "https:" || url.protocol == js "http:") &&
        url.username.isEmpty && url.password.isEmpty &&
        !url.parameterNames.any (namesCredential platform)

/-- The rows of `eligibleInMemory` whatever the filters are. -/
def publishedInMemory (candidate : StoredSearchCandidate ℚ) (input : SearchInput) : Bool :=
  decide (platform.toLowerCase candidate.tenantId = platform.toLowerCase input.tenantId) &&
    decide (candidate.acquisitionState = .acquired) &&
    decide (candidate.sourceIngestionState = .ingested) &&
    decide (candidate.sourceRetrievalState = .indexed) &&
    decide (candidate.documentStatus = .active) &&
    decide (candidate.confidentiality = .isPublic) &&
    decide (candidate.extractionStatus = .processed) &&
    !(trim candidate.citationLabel).isEmpty && !(trim candidate.excerpt).isEmpty &&
    Ingestion.isSha256Hex candidate.contentSha256 && safelyPublicUrl platform newUrl candidate.sourceUrl

/-- The filters of `eligibleInMemory`; the ids of the filter are taken as they are. -/
def admittedInMemory (candidate : StoredSearchCandidate ℚ) (input : SearchInput) : Bool :=
  (input.filters.documentTypes.isEmpty ||
    input.filters.documentTypes.contains candidate.documentType) &&
  (input.filters.sourceRelations.isEmpty ||
    input.filters.sourceRelations.contains candidate.sourceRelation) &&
  (input.filters.sourceIds.isEmpty ||
    input.filters.sourceIds.contains (platform.toLowerCase candidate.sourceId))

def eligibleInMemory (candidate : StoredSearchCandidate ℚ) (input : SearchInput) : Bool :=
  publishedInMemory platform newUrl candidate input && admittedInMemory platform candidate input

/-- Rows by falling scores, with `0` for a missing one; equal ones stay in order. -/
def sortByScore (scoreOf : StoredSearchCandidate ℚ → Option ℚ)
    (rows : List (StoredSearchCandidate ℚ)) : List (StoredSearchCandidate ℚ) :=
  rows.insertionSort fun left right => (scoreOf right).getD 0 ≤ (scoreOf left).getD 0

/-- `InMemorySearchEvidenceRepository` with its candidates. -/
def inMemoryRepository (content : List (StoredSearchCandidate ℚ)) : SearchRepository ℚ where
  searchKeyword input := .ok ((sortByScore (·.keywordScore) ((content.filter
    (eligibleInMemory platform newUrl · input)).filter (·.keywordScore.isSome))).take input.limit)
  searchPhrase input := .ok (((content.filter
    (eligibleInMemory platform newUrl · input)).filter (·.phraseMatched)).take input.limit)
  searchSemantic input prepared :=
    if prepared.embeddingDimension ≠ 1536 ∨ prepared.queryVector.length ≠ 1536 then
      .error (.repository (js "semantic_dimension_mismatch"))
    else .ok ((sortByScore (·.semanticScore) ((content.filter
      (eligibleInMemory platform newUrl · input)).filter (·.semanticScore.isSome))).take
        input.limit)

/-- The rows that match a mode. -/
def matchesMode (input : SearchInput) (mode : ExecutedSearchMode)
    (candidate : StoredSearchCandidate ℚ) : Bool :=
  publishedInMemory platform newUrl candidate input &&
    match mode with
    | .keyword => candidate.keywordScore.isSome
    | .phrase => candidate.phraseMatched
    | .semantic => candidate.semanticScore.isSome

/-- The ranked list of these rows. -/
def rankedInMemory (input : SearchInput) (mode : ExecutedSearchMode)
    (content : List (StoredSearchCandidate ℚ)) : List (StoredSearchCandidate ℚ) :=
  let rows := content.filter (matchesMode platform newUrl input mode)
  match mode with
  | .keyword => sortByScore (·.keywordScore) rows
  | .phrase => rows
  | .semantic => sortByScore (·.semanticScore) rows

variable {platform newUrl}

theorem sortByScore_perm (scoreOf : StoredSearchCandidate ℚ → Option ℚ)
    (rows : List (StoredSearchCandidate ℚ)) : (sortByScore scoreOf rows).Perm rows :=
  List.perm_insertionSort _ _

theorem pairwise_sortByScore (scoreOf : StoredSearchCandidate ℚ → Option ℚ)
    (rows : List (StoredSearchCandidate ℚ)) : (sortByScore scoreOf rows).Pairwise
      fun left right => (scoreOf right).getD 0 ≤ (scoreOf left).getD 0 := by
  have htotal : Std.Total fun left right : StoredSearchCandidate ℚ =>
      (scoreOf right).getD 0 ≤ (scoreOf left).getD 0 := ⟨fun _ _ => le_total _ _⟩
  have htrans : IsTrans _ fun left right : StoredSearchCandidate ℚ =>
      (scoreOf right).getD 0 ≤ (scoreOf left).getD 0 := ⟨fun _ _ _ h1 h2 => h2.trans h1⟩
  exact List.pairwise_insertionSort _ _

theorem filter_sortByScore (scoreOf : StoredSearchCandidate ℚ → Option ℚ)
    (passes : StoredSearchCandidate ℚ → Bool) (rows : List (StoredSearchCandidate ℚ)) :
    (sortByScore scoreOf rows).filter passes = sortByScore scoreOf (rows.filter passes) := by
  have htotal : Std.Total fun left right : StoredSearchCandidate ℚ =>
      (scoreOf right).getD 0 ≤ (scoreOf left).getD 0 := ⟨fun _ _ => le_total _ _⟩
  have htrans : IsTrans _ fun left right : StoredSearchCandidate ℚ =>
      (scoreOf right).getD 0 ≤ (scoreOf left).getD 0 := ⟨fun _ _ _ h1 h2 => h2.trans h1⟩
  exact filter_insertionSort passes rows

/-- The filters of the repository commute with those of the mode. -/
theorem filter_eligible {content : List (StoredSearchCandidate ℚ)} {input : SearchInput}
    {matchesScore : StoredSearchCandidate ℚ → Bool} :
    (content.filter (eligibleInMemory platform newUrl · input)).filter matchesScore =
      (content.filter fun candidate => publishedInMemory platform newUrl candidate input &&
        matchesScore candidate).filter (admittedInMemory platform · input) := by
  rw [List.filter_filter, List.filter_filter]
  refine List.filter_congr fun candidate _ => ?_
  rw [eligibleInMemory]
  cases publishedInMemory platform newUrl candidate input <;>
    cases admittedInMemory platform candidate input <;> simp

theorem finiteScore_eq (value : Option ℚ) :
    finiteScore exactScores (some (finiteScore exactScores value)) = max (value.getD 0) 0 := by
  have hkept : value.filter exactScores.isFinite = value := by cases value <;> rfl
  have hnonNegative : ∀ score : ℚ, nonNegative exactScores score = max score 0 := by
    intro score
    simp only [nonNegative, exactScores, decide_eq_true_eq]
    split_ifs with hpositive
    · exact (max_eq_left hpositive.le).symm
    · exact (max_eq_right (not_lt.mp hpositive)).symm
  simp only [finiteScore, hkept, hnonNegative]
  exact max_eq_left (le_max_right _ _)

/-- **The repository in memory** returns the ranked list of all rows that match, as far as its
filters admit them, up to the limit. -/
theorem ranksAll_inMemory {request : SearchRequest} {mode : ExecutedSearchMode}
    {prepared : Option (PreparedSemanticQuery ℚ)} {content : List (StoredSearchCandidate ℚ)}
    (hprepared : mode = .semantic → ∃ query, prepared = some query ∧
      query.embeddingDimension = 1536 ∧ query.queryVector.length = 1536) :
    RanksAll platform request mode (inMemoryRepository platform newUrl content) prepared content
      (rankedInMemory platform newUrl (inputFor request) mode content)
      (matchesMode platform newUrl (inputFor request) mode)
      (admittedInMemory platform · (inputFor request)) := by
  have hmonotone : ∀ {left right : ℚ}, right ≤ left → max right 0 ≤ max left 0 :=
    fun hscore => max_le_max hscore le_rfl
  cases mode with
  | keyword =>
      refine ⟨sortByScore_perm _ _, ?_, ?_⟩
      · refine (pairwise_sortByScore _ _).imp fun hscore => ?_
        simp only [classifiedAs, classify, finiteScore_eq]
        exact hmonotone hscore
      · simp only [answerOf, inMemoryRepository, rankedInMemory, filter_sortByScore]
        rw [filter_eligible]
        rfl
  | phrase =>
      refine ⟨List.Perm.refl _, ?_, ?_⟩
      · refine List.pairwise_of_forall_mem_list fun left hleft right hright => ?_
        have hmatched : ∀ row ∈ rankedInMemory platform newUrl (inputFor request) .phrase content,
            row.phraseMatched = true := by
          intro row hrow
          exact (Bool.and_eq_true_iff.mp (List.mem_filter.mp hrow).2).2
        simp only [classifiedAs, classify, hmatched left hleft, hmatched right hright]
        exact le_rfl
      · simp only [answerOf, inMemoryRepository, rankedInMemory]
        rw [filter_eligible]
        rfl
  | semantic =>
      obtain ⟨query, rfl, hdimension, hlength⟩ := hprepared rfl
      refine ⟨sortByScore_perm _ _, ?_, ?_⟩
      · refine (pairwise_sortByScore _ _).imp fun hscore => ?_
        simp only [classifiedAs, classify, finiteScore_eq]
        exact hmonotone hscore
      · have hchecked : ¬ (query.embeddingDimension ≠ 1536 ∨ query.queryVector.length ≠ 1536) := by
          simp [hdimension, hlength]
        have hquery : requirePreparedSemanticQuery (some query) = .ok query := by
          simp only [requirePreparedSemanticQuery, if_neg hchecked]
        simp only [answerOf, semanticRows]
        refine then_ok.mpr ⟨query, hquery, ?_⟩
        simp only [inMemoryRepository, if_neg hchecked, rankedInMemory, filter_sortByScore]
        rw [filter_eligible]
        rfl

/-- A section of a source of its own, in the state of this source. -/
def sampleSection (validationState : ValidationState) (digit : Nat) (keywordScore : ℚ) :
    StoredSearchCandidate ℚ :=
  { sampleRow validationState digit "Articulo 1" "Toda licencia." (some keywordScore) none with
    sourceId := sampleUuid (digit + 10) }

def sampleNewUrl (_ : JsString) : Option ParsedUrl := some ⟨js "https:", [], [], []⟩

/-- The first section of an official source for the jurisdiction. -/
def officialRequest : SearchRequest :=
  { sampleRequest with
    mode := .keyword
    limit := 1
    filters := ⟨[], [], [.officialTargetJurisdiction], [], []⟩ }

/-- Four sections of sources under review before one of a validated source. -/
def crowdedContent : List (StoredSearchCandidate ℚ) := [
  sampleSection .reviewRequired 1 5, sampleSection .reviewRequired 2 4,
  sampleSection .reviewRequired 3 3, sampleSection .reviewRequired 4 2, sampleSection .validated 5 1]

theorem filtered_search_crowded : ∃ result,
    executeSearch (samplePlatform []) exactScores
      (inMemoryRepository (samplePlatform []) sampleNewUrl crowdedContent) officialRequest none =
        .ok result ∧ result.executedModes = [.keyword] ∧
    (Complete (samplePlatform []) officialRequest .keyword crowdedContent
        (rankedInMemory (samplePlatform []) sampleNewUrl (inputFor officialRequest) .keyword
          crowdedContent)
        (matchesMode (samplePlatform []) sampleNewUrl (inputFor officialRequest) .keyword)
        result.candidates ↔
      WithinLimit (samplePlatform []) officialRequest .keyword
        (rankedInMemory (samplePlatform []) sampleNewUrl (inputFor officialRequest) .keyword
          crowdedContent)
        (admittedInMemory (samplePlatform []) · (inputFor officialRequest))) :=
  filtered_search_iff rfl (ranksAll_inMemory fun h => by cases h)

/-- The validated section satisfies the filters, and nothing is returned. -/
theorem filtered_search_misses :
    RanksAll (samplePlatform []) officialRequest .keyword
      (inMemoryRepository (samplePlatform []) sampleNewUrl crowdedContent) none crowdedContent
      (rankedInMemory (samplePlatform []) sampleNewUrl (inputFor officialRequest) .keyword
        crowdedContent)
      (matchesMode (samplePlatform []) sampleNewUrl (inputFor officialRequest) .keyword)
      (admittedInMemory (samplePlatform []) · (inputFor officialRequest)) ∧
    ∃ result, executeSearch (samplePlatform []) exactScores
        (inMemoryRepository (samplePlatform []) sampleNewUrl crowdedContent) officialRequest none =
          .ok result ∧ result.candidates = [] ∧
      ¬ Complete (samplePlatform []) officialRequest .keyword crowdedContent
        (rankedInMemory (samplePlatform []) sampleNewUrl (inputFor officialRequest) .keyword
          crowdedContent)
        (matchesMode (samplePlatform []) sampleNewUrl (inputFor officialRequest) .keyword)
        result.candidates := by
  have hranks := @ranksAll_inMemory (samplePlatform []) sampleNewUrl officialRequest .keyword none
    crowdedContent (fun h => by cases h)
  have hempty : (executeSearch (samplePlatform []) exactScores
      (inMemoryRepository (samplePlatform []) sampleNewUrl crowdedContent) officialRequest
      none).toOption.map (·.candidates.length) = some 0 := by decide +kernel
  have hsatisfies : ∃ row ∈ crowdedContent,
      matchesMode (samplePlatform []) sampleNewUrl (inputFor officialRequest) .keyword row = true ∧
      filterCandidate (samplePlatform []) (classifiedAs (samplePlatform []) officialRequest .keyword
        row) officialRequest.filters = true := by decide +kernel
  obtain ⟨row, hrow, hmatching, hsatisfies⟩ := hsatisfies
  have hanswer : ∃ result, executeSearch (samplePlatform []) exactScores
      (inMemoryRepository (samplePlatform []) sampleNewUrl crowdedContent) officialRequest none =
        .ok result := ⟨_, executeSearch_eq rfl hranks⟩
  obtain ⟨result, hresult⟩ := hanswer
  rw [hresult] at hempty
  have hnone : result.candidates = [] := List.length_eq_zero_iff.mp (Option.some.inj hempty)
  refine ⟨hranks, result, hresult, hnone, fun hcomplete => ?_⟩
  obtain ⟨hfull, -⟩ := hcomplete.omitted row hrow hmatching hsatisfies (by simp [hnone])
  rw [hnone] at hfull
  exact absurd hfull (by decide)

end InMemory

end SearchEvidence
