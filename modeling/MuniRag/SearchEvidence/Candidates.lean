import MuniRag.Api.DerivedIds

/-!
# Classified search candidates

The candidates of `searchEvidenceTypes.ts` and their classification in
`searchEvidence/service.ts`: the authority of a source for the requested jurisdiction,
its validity on the requested date by the stored dates, and the evidence status that
follows from the two.  Dates are compared as texts, in the order of their code units.

Scores are numbers of a type `σ` with the operations that the ranking uses; nothing is
assumed of them.
-/

namespace SearchEvidence

open Api

/-! ## The data -/

inductive SearchMode
  | keyword | phrase | semantic | hybrid
  deriving DecidableEq, Repr

inductive ExecutedSearchMode
  | keyword | phrase | semantic
  deriving DecidableEq, Repr

inductive SourceRelation
  | target | national | comparative | unknown
  deriving DecidableEq, Repr

inductive ValidationState
  | unreviewed | reviewRequired | validated | rejected
  deriving DecidableEq, Repr

inductive AuthorityStatus
  | officialTargetJurisdiction | officialNational | comparative | unknown
  deriving DecidableEq, Repr

inductive TemporalStatus
  | currentByStoredDates | futureByStoredDates | expiredByStoredDates | undetermined
  deriving DecidableEq, Repr

inductive SearchEvidenceStatus
  | supported | comparativeReference | validationRequired
  deriving DecidableEq, Repr

inductive ScoreType
  | tsRankCd | phraseMatch | cosineSimilarity | reciprocalRankFusion
  deriving DecidableEq, Repr

inductive AcquisitionState
  | notAcquired | acquisitionPending | acquired | accessBlocked | failed
  deriving DecidableEq, Repr

inductive SourceIngestionState
  | notIngested | ingestionPending | ingested | failed
  deriving DecidableEq, Repr

inductive SourceRetrievalState
  | notIndexed | indexing | indexed | failed
  deriving DecidableEq, Repr

inductive DocumentType
  | constitution | law | decree | regulation | municipalAgreement | councilMinutes | plan
  | manual | procedure | form | guide | jurisprudence | other
  deriving DecidableEq, Repr

inductive DocumentScope
  | national | departmental | municipal | heritage | administrative | internal
  deriving DecidableEq, Repr

inductive Confidentiality
  | isPublic | internal | confidential | restricted
  deriving DecidableEq, Repr

inductive DocumentStatus
  | draft | active | superseded | repealed | archived | unknown
  deriving DecidableEq, Repr

inductive ExtractionStatus
  | queued | processing | processed | failed | superseded
  deriving DecidableEq, Repr

structure StoredSearchCandidate (σ : Type) where
  tenantId : JsString
  sourceId : JsString
  sourceKey : JsString
  sourceTitle : JsString
  sourceRelation : SourceRelation
  targetJurisdiction : JsString
  sourceJurisdiction : JsString
  validationState : ValidationState
  officialSource : Bool
  officialForTargetJurisdiction : Bool
  acquisitionState : AcquisitionState
  sourceIngestionState : SourceIngestionState
  sourceRetrievalState : SourceRetrievalState
  publicationDate : Option JsString
  effectiveDate : Option JsString
  repealDate : Option JsString
  documentId : JsString
  documentVersionId : JsString
  sectionId : JsString
  chunkId : Option JsString
  documentTitle : JsString
  documentType : DocumentType
  documentScope : DocumentScope
  confidentiality : Confidentiality
  documentStatus : DocumentStatus
  extractionStatus : ExtractionStatus
  sourceUrl : JsString
  contentSha256 : JsString
  citationLabel : JsString
  excerpt : JsString
  pageStart : Option Int
  pageEnd : Option Int
  articleNumber : Option JsString
  keywordScore : Option σ
  phraseMatched : Bool
  semanticScore : Option σ
  deriving DecidableEq, Repr

structure ClassifiedSearchCandidate (σ : Type) extends StoredSearchCandidate σ where
  authorityStatus : AuthorityStatus
  temporalStatus : TemporalStatus
  evidenceStatus : SearchEvidenceStatus
  matchedModes : List ExecutedSearchMode
  score : σ
  scoreType : ScoreType
  limitations : List JsString
  deriving DecidableEq, Repr

structure SearchFilters where
  documentTypes : List DocumentType
  sourceRelations : List SourceRelation
  authorityStatuses : List AuthorityStatus
  temporalStatuses : List TemporalStatus
  sourceIds : List JsString
  deriving DecidableEq, Repr

/-- `SearchExecutionRequestV1`. -/
structure SearchRequest where
  requestId : JsString
  tenantId : JsString
  query : JsString
  jurisdiction : JsString
  asOfDate : JsString
  mode : SearchMode
  limit : Nat
  filters : SearchFilters
  deriving DecidableEq, Repr

/-- The numbers that scores are, with `above left right` for `left > right`. -/
structure Scores (σ : Type) where
  zero : σ
  one : σ
  isFinite : σ → Bool
  above : σ → σ → Bool
  add : σ → σ → σ
  reciprocal : Nat → σ

/-! ## Authority, validity and evidence -/

/-- A text of `^\d{4}-\d{2}-\d{2}$`. -/
def isDate (value : JsString) : Bool :=
  decide (value.length = 10) && (value.take 4).all isDecimalDigit && value[4]? == some 0x2d &&
    ((value.drop 5).take 2).all isDecimalDigit && value[7]? == some 0x2d &&
    (value.drop 8).all isDecimalDigit

def safeDate (value : Option JsString) : Option JsString := value.filter isDate

section Classify

variable (platform : Platform) {σ : Type}

def sameJurisdiction (left right : JsString) : Bool :=
  normalized platform left = normalized platform right

def authorityStatusFor (candidate : StoredSearchCandidate σ) (requestedJurisdiction : JsString) :
    AuthorityStatus :=
  if candidate.validationState = .validated ∧ candidate.officialSource ∧
      candidate.officialForTargetJurisdiction ∧ candidate.sourceRelation = .target ∧
      sameJurisdiction platform candidate.targetJurisdiction requestedJurisdiction then
    .officialTargetJurisdiction
  else if candidate.validationState = .validated ∧ candidate.officialSource ∧
      candidate.sourceRelation = .national then
    .officialNational
  else if candidate.sourceRelation = .comparative ∨ (candidate.sourceRelation ≠ .national ∧
      ¬ sameJurisdiction platform candidate.sourceJurisdiction requestedJurisdiction) then
    .comparative
  else .unknown

def temporalStatusFor (candidate : StoredSearchCandidate σ) (asOfDate : JsString) :
    TemporalStatus :=
  let effectiveDate := safeDate candidate.effectiveDate
  let repealDate := safeDate candidate.repealDate
  if repealDate.any fun date => date ≤ asOfDate then .expiredByStoredDates
  else if effectiveDate.any fun date => asOfDate < date then .futureByStoredDates
  else if effectiveDate.any (fun date => date ≤ asOfDate) &&
      repealDate.all fun date => asOfDate < date then .currentByStoredDates
  else .undetermined

def evidenceStatusFor (authorityStatus : AuthorityStatus) (temporalStatus : TemporalStatus) :
    SearchEvidenceStatus :=
  if (authorityStatus = .officialTargetJurisdiction ∨ authorityStatus = .officialNational) ∧
      temporalStatus = .currentByStoredDates then .supported
  else if authorityStatus = .comparative ∧
      (temporalStatus = .currentByStoredDates ∨ temporalStatus = .undetermined) then
    .comparativeReference
  else .validationRequired

def targetComparativeWarning : JsString :=
  js ("Referencia comparativa: no define por sí sola el procedimiento oficial de La Antigua " ++
    "Guatemala y requiere corroboración con fuente nacional o de la jurisdicción objetivo.")

def qualityLimitation : JsString :=
  js ("La presencia de un resultado no demuestra completitud del corpus, calidad de " ++
    "recuperación, vigencia jurídica ni aplicabilidad al caso concreto.")

def dateLimitation : JsString :=
  js ("La clasificación temporal usa únicamente fechas almacenadas y requiere revisión humana " ++
    "de vigencia, supersession y aplicabilidad.")

def unknownAuthorityLimitation : JsString :=
  js ("La autoridad documental y la relación con la jurisdicción objetivo no están validadas.")

def storedDatesLimitation : JsString :=
  js ("Las fechas almacenadas no sostienen una clasificación temporal vigente para la fecha " ++
    "consultada.")

/-- `[...new Set(values)]`. -/
def unique (values : List JsString) : List JsString :=
  values.foldl (fun kept value => if value ∈ kept then kept else kept ++ [value]) []

def limitationsFor (authorityStatus : AuthorityStatus) (temporalStatus : TemporalStatus) :
    List JsString :=
  unique ([qualityLimitation, dateLimitation] ++
    (if authorityStatus = .comparative then [targetComparativeWarning] else []) ++
    (if authorityStatus = .unknown then [unknownAuthorityLimitation] else []) ++
    (if temporalStatus ≠ .currentByStoredDates then [storedDatesLimitation] else []))

variable (scores : Scores σ)

/-- `Math.max(0, …)`. -/
def nonNegative (value : σ) : σ := if scores.above value scores.zero then value else scores.zero

/-- `finiteScore` with its fallback `0`. -/
def finiteScore (value : Option σ) : σ :=
  nonNegative scores ((value.filter scores.isFinite).getD scores.zero)

def classify (candidate : StoredSearchCandidate σ) (request : SearchRequest)
    (matchedModes : List ExecutedSearchMode) (score : σ) (scoreType : ScoreType) :
    ClassifiedSearchCandidate σ :=
  let authorityStatus := authorityStatusFor platform candidate request.jurisdiction
  let temporalStatus := temporalStatusFor candidate request.asOfDate
  { candidate with
    authorityStatus := authorityStatus
    temporalStatus := temporalStatus
    evidenceStatus := evidenceStatusFor authorityStatus temporalStatus
    matchedModes := matchedModes
    score := finiteScore scores (some score)
    scoreType := scoreType
    limitations := limitationsFor authorityStatus temporalStatus }

end Classify

/-! ## What the statuses say -/

section Statuses

variable {platform : Platform} {σ : Type} {candidate : StoredSearchCandidate σ}

theorem mem_unique {values : List JsString} {value : JsString} :
    value ∈ unique values ↔ value ∈ values := by
  have hfold : ∀ kept : List JsString,
      value ∈ values.foldl (fun kept value => if value ∈ kept then kept else kept ++ [value]) kept ↔
        value ∈ kept ∨ value ∈ values := by
    induction values with
    | nil => simp
    | cons first rest ih =>
        intro kept
        rw [List.foldl_cons, ih]
        by_cases hfirst : first ∈ kept
        · rw [if_pos hfirst, List.mem_cons]
          constructor
          · exact fun h => h.imp_right .inr
          · rintro (h | rfl | h)
            · exact .inl h
            · exact .inl hfirst
            · exact .inr h
        · rw [if_neg hfirst, List.mem_append, List.mem_singleton, List.mem_cons]
          tauto
  simpa [unique] using hfold []

/-- What a search for a jurisdiction on a date may call supported: a validated official
source, national or for just this jurisdiction, effective and not repealed by then. -/
structure Authoritative (platform : Platform) (request : SearchRequest)
    (candidate : StoredSearchCandidate σ) : Prop where
  validated : candidate.validationState = .validated
  official : candidate.officialSource = true
  jurisdiction : candidate.sourceRelation = .national ∨
    candidate.sourceRelation = .target ∧ candidate.officialForTargetJurisdiction = true ∧
      normalized platform candidate.targetJurisdiction = normalized platform request.jurisdiction
  effective : ∃ date, candidate.effectiveDate = some date ∧ isDate date = true ∧
    date ≤ request.asOfDate
  inForce : ∀ date, candidate.repealDate = some date → isDate date = true →
    request.asOfDate < date

theorem officialTarget_iff {jurisdiction : JsString} :
    authorityStatusFor platform candidate jurisdiction = .officialTargetJurisdiction ↔
      candidate.validationState = .validated ∧ candidate.officialSource ∧
        candidate.officialForTargetJurisdiction ∧ candidate.sourceRelation = .target ∧
        sameJurisdiction platform candidate.targetJurisdiction jurisdiction := by
  unfold authorityStatusFor
  split_ifs with h1 h2 h3
  · simpa using h1
  all_goals simpa using h1

theorem officialNational_iff {jurisdiction : JsString} :
    authorityStatusFor platform candidate jurisdiction = .officialNational ↔
      candidate.validationState = .validated ∧ candidate.officialSource ∧
        candidate.sourceRelation = .national := by
  unfold authorityStatusFor
  split_ifs with h1 h2 h3
  · have htarget : candidate.sourceRelation = .target := h1.2.2.2.1
    simp [htarget]
  · simpa using h2
  all_goals simpa using h2

theorem any_safeDate {value : Option JsString} {p : JsString → Bool} :
    (safeDate value).any p = true ↔
      ∃ date, value = some date ∧ isDate date = true ∧ p date = true := by
  simp [safeDate, Option.any_eq_true]

theorem all_safeDate {value : Option JsString} {p : JsString → Bool} :
    (safeDate value).all p = true ↔
      ∀ date, value = some date → isDate date = true → p date = true := by
  cases value with
  | none => simp [safeDate]
  | some date => by_cases hdate : isDate date = true <;> simp [safeDate, Option.filter, hdate]

theorem current_iff {asOfDate : JsString} :
    temporalStatusFor candidate asOfDate = .currentByStoredDates ↔
      (∃ date, candidate.effectiveDate = some date ∧ isDate date = true ∧ date ≤ asOfDate) ∧
        ∀ date, candidate.repealDate = some date → isDate date = true → asOfDate < date := by
  unfold temporalStatusFor
  simp only [Bool.and_eq_true, any_safeDate, all_safeDate, decide_eq_true_eq]
  split_ifs with h1 h2 h3
  · obtain ⟨date, hrow, hdate, hle⟩ := h1
    simp only [false_iff, not_and, not_forall]
    exact fun _ => ⟨date, hrow, hdate, fun hlt => hle hlt⟩
  · obtain ⟨date, hrow, hdate, hlt⟩ := h2
    simp only [false_iff, not_and]
    rintro ⟨other, hother, -, hle⟩
    obtain rfl : date = other := Option.some.inj (hrow.symm.trans hother)
    exact absurd hlt hle
  · simpa using h3
  · simpa using h3

theorem supported_iff {authorityStatus : AuthorityStatus} {temporalStatus : TemporalStatus} :
    evidenceStatusFor authorityStatus temporalStatus = .supported ↔
      (authorityStatus = .officialTargetJurisdiction ∨ authorityStatus = .officialNational) ∧
        temporalStatus = .currentByStoredDates := by
  unfold evidenceStatusFor
  split_ifs with h1 h2 <;> simp [h1]

/-- **Classification.**  A candidate is classified as supported exactly when it is
authoritative. -/
theorem supported_iff_authoritative {request : SearchRequest} :
    evidenceStatusFor (authorityStatusFor platform candidate request.jurisdiction)
        (temporalStatusFor candidate request.asOfDate) = .supported ↔
      Authoritative platform request candidate := by
  rw [supported_iff, officialTarget_iff, officialNational_iff, current_iff]
  constructor
  · rintro ⟨⟨hvalidated, hofficial, hfor, htarget, hsame⟩ | ⟨hvalidated, hofficial, hnational⟩,
      heffective, hinForce⟩
    · exact ⟨hvalidated, hofficial, .inr ⟨htarget, hfor, of_decide_eq_true hsame⟩, heffective,
        hinForce⟩
    · exact ⟨hvalidated, hofficial, .inl hnational, heffective, hinForce⟩
  · rintro ⟨hvalidated, hofficial, hnational | ⟨htarget, hfor, hsame⟩, heffective, hinForce⟩
    · exact ⟨.inr ⟨hvalidated, hofficial, hnational⟩, heffective, hinForce⟩
    · exact ⟨.inl ⟨hvalidated, hofficial, hfor, htarget, decide_eq_true hsame⟩, heffective,
        hinForce⟩

end Statuses

end SearchEvidence
