import MuniRag.SearchEvidence.Ranking
import MuniRag.SearchEvidence.Bundle

/-!
# What supports a supported claim

A supported claim is made for a supported candidate, and such a candidate is
authoritative.  What the claim cites is found by identifier, though, and the entries of
the bundle under these identifiers are those of the last candidate that has them: every
section of a version shares one source entry.  So the claims are backed by authoritative
entries exactly when the last candidates are supported as well (`supported_claims_iff`),
which candidates read from one state of the database always are
(`backed_of_uniform`).
-/

namespace SearchEvidence

open Api Results

section Authority

variable {platform : Platform} {σ : Type} {scores : Scores σ}
  {repository : SearchRepository σ} {request : SearchRequest}
  {prepared : Option (PreparedSemanticQuery σ)} {context : BuildContext}

/-- The claim cites one citation of the bundle, that citation names a source entry of the
bundle, and both entries were made for authoritative candidates. -/
def Backed (platform : Platform) (request : SearchRequest)
    (candidates : List (ClassifiedSearchCandidate σ)) (bundle : EvidenceBundle)
    (claim : BundleClaim) : Prop :=
  ∃ citation source, claim.citationRefs = [citation.citationId] ∧
    bundle.citation? citation.citationId = some citation ∧
    bundle.source? citation.sourceId = some source ∧
    (∃ candidate ∈ candidates, Authoritative platform request candidate.toStoredSearchCandidate ∧
      citation = citationFor platform candidate) ∧
    ∃ candidate ∈ candidates, Authoritative platform request candidate.toStoredSearchCandidate ∧
      source = sourceFor platform candidate

/-- The last candidates behind the entries of a promoted candidate are supported too. -/
def Unmixed (platform : Platform) (candidates : List (ClassifiedSearchCandidate σ)) : Prop :=
  ∀ candidate ∈ promoted platform candidates, ∀ cited origin,
    lastWith candidates (citationId platform · = citationId platform candidate) = some cited →
    lastWith candidates (sourceEntryId platform · = sourceEntryId platform cited) = some origin →
    cited.evidenceStatus = .supported ∧ origin.evidenceStatus = .supported

/-! ## What an entry tells of its candidate -/

theorem bundleEvidenceStatus_supported {candidate : ClassifiedSearchCandidate σ} :
    bundleEvidenceStatus candidate = .supported ↔ candidate.evidenceStatus = .supported := by
  unfold bundleEvidenceStatus
  cases candidate.evidenceStatus <;> simp

theorem storedDatesLimitation_mem {authorityStatus : AuthorityStatus}
    {temporalStatus : TemporalStatus} :
    storedDatesLimitation ∈ limitationsFor authorityStatus temporalStatus ↔
      temporalStatus ≠ .currentByStoredDates := by
  have hquality : storedDatesLimitation ≠ qualityLimitation :=
    fun h => absurd (js_injective h) (by decide +kernel)
  have hdate : storedDatesLimitation ≠ dateLimitation :=
    fun h => absurd (js_injective h) (by decide +kernel)
  have hwarning : storedDatesLimitation ≠ targetComparativeWarning :=
    fun h => absurd (js_injective h) (by decide +kernel)
  have hunknown : storedDatesLimitation ≠ unknownAuthorityLimitation :=
    fun h => absurd (js_injective h) (by decide +kernel)
  rw [limitationsFor, mem_unique]
  simp only [List.mem_append, List.mem_cons, List.not_mem_nil, or_false, hquality, hdate,
    false_or]
  split_ifs <;> simp_all

theorem storedDatesLimitation_source {candidate : ClassifiedSearchCandidate σ} :
    storedDatesLimitation ∈ sourceLimitations platform candidate ↔
      storedDatesLimitation ∈ candidate.limitations := by
  have hmixco : storedDatesLimitation ≠ mixcoWarning :=
    fun h => absurd (js_injective h) (by decide +kernel)
  have hcorroboration : storedDatesLimitation ≠ comparativeCorroboration :=
    fun h => absurd (js_injective h) (by decide +kernel)
  have hreview : storedDatesLimitation ≠ humanReview :=
    fun h => absurd (js_injective h) (by decide +kernel)
  rw [sourceLimitations, mem_unique]
  simp only [List.mem_append, List.mem_singleton, hreview, or_false]
  constructor
  · rintro ((h | h) | h)
    · exact h
    · split_ifs at h <;> simp [hmixco] at h
    · split_ifs at h <;> simp [hcorroboration] at h
  · exact fun h => .inl (.inl h)

/-- A source entry shows whether the candidate it was made for is supported. -/
theorem supported_of_sourceFor {P : StoredSearchCandidate σ → Prop}
    {left right : ClassifiedSearchCandidate σ}
    (hleft : ClassifiedFrom platform scores request P left)
    (hright : ClassifiedFrom platform scores request P right)
    (hsame : sourceFor platform left = sourceFor platform right)
    (hsupported : right.evidenceStatus = .supported) : left.evidenceStatus = .supported := by
  have hauthority : left.authorityStatus = right.authorityStatus :=
    congrArg BundleSource.authorityStatus hsame
  have hlimitations : sourceLimitations platform left = sourceLimitations platform right :=
    congrArg BundleSource.limitations hsame
  have htemporal : storedDatesLimitation ∈ left.limitations ↔
      storedDatesLimitation ∈ right.limitations := by
    have hleft' : storedDatesLimitation ∈ sourceLimitations platform left ↔
        storedDatesLimitation ∈ left.limitations := storedDatesLimitation_source
    rw [← hleft', hlimitations, storedDatesLimitation_source]
  obtain ⟨leftRow, leftModes, leftScore, leftType, -, rfl⟩ := hleft
  obtain ⟨rightRow, rightModes, rightScore, rightType, -, rfl⟩ := hright
  simp only [classify] at hauthority htemporal hsupported ⊢
  rw [storedDatesLimitation_mem, storedDatesLimitation_mem] at htemporal
  rw [supported_iff] at hsupported ⊢
  obtain ⟨hofficial, hcurrent⟩ := hsupported
  refine ⟨hauthority ▸ hofficial, ?_⟩
  by_contra hnot
  exact htemporal.mp hnot hcurrent

/-! ## The condition -/

variable {P : StoredSearchCandidate σ → Prop} {candidates : List (ClassifiedSearchCandidate σ)}

/-- What a bundle lists for a candidate: the entry of the last candidate with its citation
id, and that of the last one with the source entry id of this one. -/
theorem listed_for {candidate : ClassifiedSearchCandidate σ} (hmem : candidate ∈ candidates) :
    ∃ cited origin,
      lastWith candidates (citationId platform · = citationId platform candidate) = some cited ∧
      lastWith candidates (sourceEntryId platform · = sourceEntryId platform cited) =
        some origin ∧
      (buildEvidenceBundle platform request context candidates).citation?
        (citationId platform candidate) = some (citationFor platform cited) ∧
      (buildEvidenceBundle platform request context candidates).source?
        (sourceEntryId platform cited) = some (sourceFor platform origin) := by
  obtain ⟨cited, hcited⟩ := lastWith_isSome hmem
    (p := fun other => citationId platform other = citationId platform candidate)
    (decide_eq_true rfl)
  obtain ⟨origin, horigin⟩ := lastWith_isSome (lastWith_some hcited).1
    (p := fun other => sourceEntryId platform other = sourceEntryId platform cited)
    (decide_eq_true rfl)
  refine ⟨cited, origin, hcited, horigin, ?_, ?_⟩
  · rw [citation?_buildEvidenceBundle, hcited, Option.map_some]
  · rw [source?_buildEvidenceBundle, horigin, Option.map_some]

/-- The claims of a list of classified candidates are backed exactly when it is unmixed. -/
theorem backed_iff_unmixed
    (hclassified : ∀ candidate ∈ candidates, ClassifiedFrom platform scores request P candidate) :
    (∀ claim ∈ (buildEvidenceBundle platform request context candidates).claims,
      claim.evidenceStatus = .supported → Backed platform request candidates
        (buildEvidenceBundle platform request context candidates) claim) ↔
      Unmixed platform candidates := by
  have hauthoritative : ∀ candidate ∈ candidates, candidate.evidenceStatus = .supported →
      Authoritative platform request candidate.toStoredSearchCandidate :=
    fun candidate hmem => (hclassified candidate hmem).supported_iff.mp
  constructor
  · intro hbacked candidate hpromoted cited origin hcited horigin
    obtain ⟨hclaim, hsupported⟩ := supported_claim_iff.mpr ⟨candidate, hpromoted, rfl⟩
    obtain ⟨citation, source, hrefs, hcitation, hsource, ⟨first, hfirst, hfirstAuth, hfrom⟩,
      second, hsecond, hsecondAuth, hsourceFrom⟩ := hbacked _ hclaim hsupported
    have hid : citationId platform candidate = citation.citationId := by
      simpa [ordinaryClaim] using hrefs
    rw [citation?_buildEvidenceBundle, ← hid, hcited, Option.map_some, Option.some.injEq]
      at hcitation
    have hentry : citation.sourceId = sourceEntryId platform cited := by
      rw [← hcitation, citationFor_source]
    rw [hentry, source?_buildEvidenceBundle, horigin, Option.map_some, Option.some.injEq]
      at hsource
    constructor
    · have hstatus : bundleEvidenceStatus cited = bundleEvidenceStatus first :=
        congrArg BundleCitation.evidenceStatus (hcitation.trans hfrom)
      rw [← bundleEvidenceStatus_supported, hstatus, bundleEvidenceStatus_supported]
      exact (hclassified first hfirst).supported_iff.mpr hfirstAuth
    · have horiginMem : origin ∈ candidates := (lastWith_some horigin).1
      exact supported_of_sourceFor (hclassified origin horiginMem) (hclassified second hsecond)
        (hsource.trans hsourceFrom) ((hclassified second hsecond).supported_iff.mpr hsecondAuth)
  · intro hunmixed claim hclaim hsupported
    obtain ⟨candidate, hpromoted, rfl⟩ := supported_claim_iff.mp ⟨hclaim, hsupported⟩
    obtain ⟨cited, origin, hcited, horigin, hcitation, hsource⟩ :=
      @listed_for platform σ request context candidates candidate (mem_promoted.mp hpromoted).1
    obtain ⟨hcitedSupported, horiginSupported⟩ :=
      hunmixed candidate hpromoted cited origin hcited horigin
    obtain ⟨hcitedMem, hcitedId⟩ := lastWith_some hcited
    obtain ⟨horiginMem, -⟩ := lastWith_some horigin
    have hid : citationId platform cited = citationId platform candidate :=
      of_decide_eq_true hcitedId
    refine ⟨citationFor platform cited, sourceFor platform origin, ?_, ?_, hsource,
      ⟨cited, hcitedMem, hauthoritative cited hcitedMem hcitedSupported, rfl⟩,
      ⟨origin, horiginMem, hauthoritative origin horiginMem horiginSupported, rfl⟩⟩
    · rw [citationFor_id, hid]
      rfl
    · rw [citationFor_id, hid]
      exact hcitation

/-- **Supported claims.**  The supported claims of the bundle of a search are backed by
authoritative entries exactly when the last candidates behind these entries are supported. -/
theorem supported_claims_iff (result : SearchExecutionResult σ)
    (hresult : executeSearch platform scores repository request prepared = .ok result) :
    (∀ claim ∈ (buildEvidenceBundle platform request context result.candidates).claims,
      claim.evidenceStatus = .supported → Backed platform request result.candidates
        (buildEvidenceBundle platform request context result.candidates) claim) ↔
      Unmixed platform result.candidates :=
  backed_iff_unmixed fun _ hcandidate => classifiedFrom_executeSearch hresult hcandidate

/-- Where candidates that share an identifier agree, as rows of one state of the database do,
the claims are backed. -/
theorem backed_of_uniform
    (hclassified : ∀ candidate ∈ candidates, ClassifiedFrom platform scores request P candidate)
    (huniform : ∀ left ∈ candidates, ∀ right ∈ candidates,
      citationId platform left = citationId platform right ∨
        sourceEntryId platform left = sourceEntryId platform right →
      left.evidenceStatus = .supported → right.evidenceStatus = .supported) :
    ∀ claim ∈ (buildEvidenceBundle platform request context candidates).claims,
      claim.evidenceStatus = .supported → Backed platform request candidates
        (buildEvidenceBundle platform request context candidates) claim := by
  refine (backed_iff_unmixed hclassified).mpr ?_
  intro candidate hpromoted cited origin hcited horigin
  obtain ⟨hmem, hsupported, -⟩ := mem_promoted.mp hpromoted
  obtain ⟨hcitedMem, hcitedId⟩ := lastWith_some hcited
  obtain ⟨horiginMem, horiginId⟩ := lastWith_some horigin
  have hfirst : cited.evidenceStatus = .supported :=
    huniform candidate hmem cited hcitedMem (.inl (of_decide_eq_true hcitedId).symm) hsupported
  have hsecond : origin.evidenceStatus = .supported :=
    huniform cited hcitedMem origin horiginMem (.inr (of_decide_eq_true horiginId).symm) hfirst
  exact ⟨hfirst, hsecond⟩

end Authority

/-! ## A source validated between two statements -/

/-- Scores as exact numbers. -/
def exactScores : Scores ℚ where
  zero := 0
  one := 1
  isFinite _ := true
  above left right := right < left
  add := (· + ·)
  reciprocal n := 1 / n

/-- The derived identifiers of the sample bundle come from these digests. -/
def sampleDigests : List (JsString × JsString) := [
  (js "evidence-source:" ++ sampleUuid 1 ++ js ":" ++ sampleUuid 2 ++ js ":" ++ sampleUuid 3 ++
      js ":" ++ sampleUuid 4,
    js "f489235b0ed751345fb5317aa72d5933ce3218f0bbcb0b8d7ccb7197049c5838"),
  (js "evidence-citation:" ++ sampleUuid 1 ++ js ":" ++ sampleUuid 4 ++ js ":" ++ sampleUuid 5 ++
      js ":Articulo 1",
    js "13d7add4cc17611e9fc173b92cbb02e73629cd857b8154650db4c1f10abe732e"),
  (js "evidence-citation:" ++ sampleUuid 1 ++ js ":" ++ sampleUuid 4 ++ js ":" ++ sampleUuid 6 ++
      js ":Articulo 2",
    js "6be86d16924a7a6ff2abbe589e6b3aac2a52c0dd81cf5cd0e1b8ca838bedc203"),
  (js "evidence-claim:" ++ sampleUuid 1 ++ js ":" ++ sampleUuid 7 ++
      js ":13d7add4-cc17-511e-9fc1-73b92cbb02e7",
    js "c6eb714090314a139c3c6dea3ab17397b1fbc8978bd48335a2dc84d05fd95132"),
  (js "evidence-bundle:" ++ sampleUuid 1 ++ js ":" ++ sampleUuid 7,
    js "410c38ad2176d4d1a1dc98f30e6865dcdd750f7796dd761f5533c9101ada273a")]

/-- A section of the one sample version, in the state of its source at a statement. -/
def sampleRow (validationState : ValidationState) (sectionDigit : Nat) (label excerpt : String)
    (keywordScore semanticScore : Option ℚ) : StoredSearchCandidate ℚ where
  tenantId := sampleUuid 1
  sourceId := sampleUuid 2
  sourceKey := js "reglamento"
  sourceTitle := js "Reglamento"
  sourceRelation := .target
  targetJurisdiction := js "La Antigua Guatemala"
  sourceJurisdiction := js "La Antigua Guatemala"
  validationState := validationState
  officialSource := true
  officialForTargetJurisdiction := true
  acquisitionState := .acquired
  sourceIngestionState := .ingested
  sourceRetrievalState := .indexed
  publicationDate := none
  effectiveDate := some (js "2020-01-01")
  repealDate := none
  documentId := sampleUuid 3
  documentVersionId := sampleUuid 4
  sectionId := sampleUuid sectionDigit
  chunkId := none
  documentTitle := js "Reglamento"
  documentType := .regulation
  documentScope := .municipal
  confidentiality := .isPublic
  documentStatus := .active
  extractionStatus := .processed
  sourceUrl := js "https://example.gob.gt/reglamento"
  contentSha256 := js "b221d9dbb083a7f33428d7c2a3c3198ae925614d70210e28716ccaa7cd4ddb79"
  citationLabel := js label
  excerpt := js excerpt
  pageStart := some 1
  pageEnd := some 1
  articleNumber := none
  keywordScore := keywordScore
  phraseMatched := false
  semanticScore := semanticScore

/-- The semantic search finds one section before the source is validated, the keyword search
another one after it. -/
def sampleRepository : SearchRepository ℚ where
  searchKeyword _ := .ok [sampleRow .validated 5 "Articulo 1" "Toda licencia." (some 1) none]
  searchPhrase _ := .ok []
  searchSemantic _ _ :=
    .ok [sampleRow .reviewRequired 6 "Articulo 2" "Toda solicitud." none (some 1)]

def sampleRequest : SearchRequest where
  requestId := sampleUuid 7
  tenantId := sampleUuid 1
  query := js "licencia"
  jurisdiction := js "La Antigua Guatemala"
  asOfDate := js "2026-01-01"
  mode := .hybrid
  limit := 10
  filters := ⟨[], [], [], [], []⟩

def sampleVector : PreparedSemanticQuery ℚ where
  queryVector := List.replicate 1536 0
  embeddingProvider := js "local"
  embeddingModel := js "e5"
  embeddingDimension := 1536

def sampleCandidates : List (ClassifiedSearchCandidate ℚ) := [
  classify (samplePlatform sampleDigests) exactScores
    (sampleRow .validated 5 "Articulo 1" "Toda licencia." (some 1) none) sampleRequest [.keyword]
    (1 / 61) .reciprocalRankFusion,
  classify (samplePlatform sampleDigests) exactScores
    (sampleRow .reviewRequired 6 "Articulo 2" "Toda solicitud." none (some 1)) sampleRequest
    [.semantic] (1 / 61) .reciprocalRankFusion]

def sampleContext : BuildContext where
  auditId := sampleUuid 8
  credentialId := sampleUuid 9
  createdAt := js "2026-01-01T00:00:00.000Z"

/-- The sample search finds both sections, and the source entry of the promoted one was made
for the other. -/
theorem sample_evaluated :
    executeSearch (samplePlatform sampleDigests) exactScores sampleRepository sampleRequest
        (some sampleVector) =
      .ok ⟨sampleCandidates, [.keyword, .phrase, .semantic]⟩ ∧
    ∃ candidate ∈ promoted (samplePlatform sampleDigests) sampleCandidates,
      lastWith sampleCandidates (citationId (samplePlatform sampleDigests) · =
        citationId (samplePlatform sampleDigests) candidate) = some candidate ∧
      ∃ origin ∈ sampleCandidates, origin.evidenceStatus ≠ .supported ∧
        lastWith sampleCandidates (sourceEntryId (samplePlatform sampleDigests) · =
          sourceEntryId (samplePlatform sampleDigests) candidate) = some origin := by
  constructor
  · decide +kernel
  · decide +kernel

theorem sample_executeSearch :
    executeSearch (samplePlatform sampleDigests) exactScores sampleRepository sampleRequest
        (some sampleVector) =
      .ok ⟨sampleCandidates, [.keyword, .phrase, .semantic]⟩ := sample_evaluated.1

theorem sample_mixed : ¬ Unmixed (samplePlatform sampleDigests) sampleCandidates := by
  intro hunmixed
  obtain ⟨candidate, hmem, hcited, origin, -, hunsupported, horigin⟩ := sample_evaluated.2
  exact hunsupported (hunmixed candidate hmem candidate origin hcited horigin).2

/-- The supported claim of the first section cites the source entry of the second, which
says that the authority is unknown. -/
theorem supported_claims_fail : ∃ result,
    executeSearch (samplePlatform sampleDigests) exactScores sampleRepository sampleRequest
      (some sampleVector) = .ok result ∧
    ¬ ∀ claim ∈ (buildEvidenceBundle (samplePlatform sampleDigests) sampleRequest sampleContext
        result.candidates).claims,
      claim.evidenceStatus = .supported →
        Backed (samplePlatform sampleDigests) sampleRequest result.candidates
          (buildEvidenceBundle (samplePlatform sampleDigests) sampleRequest sampleContext
            result.candidates) claim := by
  refine ⟨_, sample_executeSearch, fun hbacked => sample_mixed ?_⟩
  have hclassified : ∀ candidate ∈ sampleCandidates, ClassifiedFrom (samplePlatform sampleDigests)
      exactScores sampleRequest (Returned sampleRepository sampleRequest (some sampleVector))
      candidate :=
    fun _ hcandidate => classifiedFrom_executeSearch sample_executeSearch hcandidate
  exact (backed_iff_unmixed hclassified).mp hbacked

/-- The equivalence for the sample search, both of whose sides fail. -/
theorem supported_claims_sample :
    executeSearch (samplePlatform sampleDigests) exactScores sampleRepository sampleRequest
        (some sampleVector) = .ok ⟨sampleCandidates, [.keyword, .phrase, .semantic]⟩ ∧
      ((∀ claim ∈ (buildEvidenceBundle (samplePlatform sampleDigests) sampleRequest sampleContext
          sampleCandidates).claims,
        claim.evidenceStatus = .supported →
          Backed (samplePlatform sampleDigests) sampleRequest sampleCandidates
            (buildEvidenceBundle (samplePlatform sampleDigests) sampleRequest sampleContext
              sampleCandidates) claim) ↔
        Unmixed (samplePlatform sampleDigests) sampleCandidates) :=
  ⟨sample_executeSearch, supported_claims_iff _ sample_executeSearch⟩

end SearchEvidence
