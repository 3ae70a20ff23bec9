import MuniRag.Ingestion.Identity
import MuniRag.Lib.RoundRobin
import MuniRag.SearchEvidence.Ranking

/-!
# Public evidence

What the two public gateways, `publicProcedureHandler.ts` and `publicQueryHandler.ts`, make
of the ranked results of `executeSearch`.  Both merge the results of several queries round
robin up to a limit.  The procedure gateway runs its fallback queries when the precise ones
found too few sections; the query gateway expands its query when it found nothing.  A
candidate without safe texts or without a plain `https` address is left out of the answer.

The URL parser and the Unicode normalisation of `normalizedIntentText` are parameters.
-/

namespace PublicGateway

open Api Results SearchEvidence LimitedSearch RoundRobin

/-! ## What may be published -/

/-- What `new URL` reads of a text, as far as the gateways ask. -/
structure UrlParts where
  protocol : JsString
  username : JsString
  password : JsString
  search : JsString
  hash : JsString
  deriving DecidableEq, Repr

def safeText (value : JsString) (maximum : Nat) : Option JsString :=
  if value = [] then none
  else
    let normalized := trim (collapseSpaces value)
    if normalized = [] ∨ normalized.any Ingestion.isControl then none
    else some (if maximum < normalized.length then
      normalized.take (max 1 (maximum - 1)) ++ js "…" else normalized)

def safePublicUrl (newUrl : JsString → Option UrlParts) (value : JsString) : Bool :=
  !decide (value.length < 1 ∨ 2048 < value.length ∨ value.any Ingestion.isControl) &&
    (newUrl value).any fun parsed =>
      parsed.protocol == js "https:" && parsed.username.isEmpty && parsed.password.isEmpty &&
        parsed.search.isEmpty && parsed.hash.isEmpty

/-- The text of a document type. -/
def typeText : DocumentType → JsString
  | .constitution => js "constitution"
  | .law => js "law"
  | .decree => js "decree"
  | .regulation => js "regulation"
  | .municipalAgreement => js "municipal_agreement"
  | .councilMinutes => js "council_minutes"
  | .plan => js "plan"
  | .manual => js "manual"
  | .procedure => js "procedure"
  | .form => js "form"
  | .guide => js "guide"
  | .jurisprudence => js "jurisprudence"
  | .other => js "other"

/-- `PublicProcedureMode`. -/
inductive ProcedureMode
  | keyword | phrase | hybrid
  deriving DecidableEq, Repr

/-- `PublicQueryMode`, which is also the mode of each search of a procedure. -/
inductive LexicalMode
  | keyword | phrase
  deriving DecidableEq, Repr

def LexicalMode.searchMode : LexicalMode → SearchMode
  | .keyword => .keyword
  | .phrase => .phrase

structure EvidenceItem (σ : Type) where
  documentTitle : JsString
  sourceType : JsString
  citationLabel : JsString
  pageStart : Option Int
  excerpt : JsString
  score : σ
  retrievalMode : ProcedureMode
  matchedModes : List ExecutedSearchMode
  sourceUrl : JsString
  deriving DecidableEq, Repr

/-- `PublicQueryCitationV1`. -/
structure Citation where
  citationLabel : JsString
  sourceType : JsString
  title : JsString
  pageStart : Option Int
  pageEnd : Option Int
  articleNumber : Option JsString
  excerpt : JsString
  sourceUrl : JsString
  authorityStatus : AuthorityStatus
  temporalStatus : TemporalStatus
  evidenceStatus : SearchEvidenceStatus
  deriving DecidableEq, Repr

section Items

variable {σ : Type} (newUrl : JsString → Option UrlParts)
  (candidate : ClassifiedSearchCandidate σ)

def evidenceFrom (mode : ProcedureMode) : Option (EvidenceItem σ) := do
  let documentTitle ← safeText candidate.documentTitle 500
  let sourceType ← safeText (typeText candidate.documentType) 80
  let citationLabel ← safeText candidate.citationLabel 300
  let excerpt ← safeText candidate.excerpt 900
  if safePublicUrl newUrl candidate.sourceUrl then
    some {
      documentTitle := documentTitle
      sourceType := sourceType
      citationLabel := citationLabel
      pageStart := candidate.pageStart
      excerpt := excerpt
      score := candidate.score
      retrievalMode := mode
      matchedModes := candidate.matchedModes
      sourceUrl := candidate.sourceUrl }
  else none

def citationFrom : Option Citation := do
  let citationLabel ← safeText candidate.citationLabel 300
  let sourceType ← safeText (typeText candidate.documentType) 64
  let title ← safeText candidate.documentTitle 300
  let excerpt ← safeText candidate.excerpt 700
  if safePublicUrl newUrl candidate.sourceUrl then
    some {
      citationLabel := citationLabel
      sourceType := sourceType
      title := title
      pageStart := candidate.pageStart
      pageEnd := candidate.pageEnd
      articleNumber := candidate.articleNumber.bind (safeText · 120)
      excerpt := excerpt
      sourceUrl := candidate.sourceUrl
      authorityStatus := candidate.authorityStatus
      temporalStatus := candidate.temporalStatus
      evidenceStatus := candidate.evidenceStatus }
  else none

end Items

/-! ## The procedure gateway -/

/-- The dependencies of the two gateways; one call reads one date. -/
structure SearchGateway (σ : Type) where
  platform : Platform
  scores : Scores σ
  repository : SearchRepository σ
  newUrl : JsString → Option UrlParts
  normalizedIntentText : JsString → JsString
  /-- The pattern of the one rule of `PUBLIC_QUERY_EXPANSION_RULES`. -/
  namesPriorities : JsString → Bool
  tenantId : JsString
  jurisdiction : JsString
  asOfDate : JsString
  maxLimit : Nat

structure QueryPlan where
  precise : List JsString
  fallback : List JsString
  deriving DecidableEq, Repr

/-- A run of other units becomes one blank: each becomes one, and blanks are collapsed. -/
def normalizeRetrievalQuery (platform : Platform) (value : JsString) : JsString :=
  trim (collapseSpaces (((platform.nfd (platform.toLowerCase value)).filter
    fun u => !isCombiningMark u).map fun u =>
      if isLowerLetter u || isDecimalDigit u then u else 0x20))

/-- The loop of `unique`, with the keys seen and the number of values still wanted. -/
def uniqueFrom (platform : Platform) (seen : List JsString) (wanted : Nat) :
    List JsString → List JsString × List JsString
  | [] => ([], seen)
  | value :: values =>
      let trimmed := trim (collapseSpaces value)
      let normalized := normalizeRetrievalQuery platform trimmed
      if trimmed = [] ∨ normalized = [] ∨ normalized ∈ seen then
        uniqueFrom platform seen wanted values
      else if wanted ≤ 1 then ([trimmed], seen ++ [normalized])
      else
        let (queries, seen) := uniqueFrom platform (seen ++ [normalized]) (wanted - 1) values
        (trimmed :: queries, seen)

/-- The queries that a classification suggests come after the query itself; the fallback has
the first keywords of the rules, the words of the hints and the other keywords. -/
def planPublicProcedureQueries (platform : Platform) (query : JsString)
    (retrievalQueries ruleKeywords hintTokens : List JsString) : QueryPlan :=
  let (precise, seen) := uniqueFrom platform [] 5 (query :: retrievalQueries)
  let (fallback, _) := uniqueFrom platform seen 10
    (ruleKeywords.take 4 ++ hintTokens ++ ruleKeywords.drop 4)
  { precise := precise, fallback := fallback }

section Procedure

variable {σ : Type} (gateway : SearchGateway σ) (requestId : JsString)

def searchRequest (query : JsString) (mode : LexicalMode) (limit : Nat) : SearchRequest where
  requestId := requestId
  tenantId := gateway.tenantId
  query := query
  jurisdiction := gateway.jurisdiction
  asOfDate := gateway.asOfDate
  mode := mode.searchMode
  limit := limit
  filters := ⟨[], [], [], [], []⟩

def modesOf : ProcedureMode → List LexicalMode
  | .keyword => [.keyword]
  | .phrase => [.phrase]
  | .hybrid => [.keyword, .phrase]

/-- The section of a candidate. -/
def sectionOf (candidate : ClassifiedSearchCandidate σ) : JsString :=
  candidateIdentity gateway.platform candidate.toStoredSearchCandidate

/-- One batch for each query in each mode. -/
def runQueries (mode : ProcedureMode) (limit : Nat) (queries : List JsString) :
    Except SearchFailure (List (List (ClassifiedSearchCandidate σ))) :=
  (queries.flatMap fun query => (modesOf mode).map fun executionMode => (query, executionMode)).mapM
    fun (query, executionMode) => do
      let execution ← executeSearch gateway.platform gateway.scores gateway.repository
        (searchRequest gateway requestId query executionMode limit) none
      return execution.candidates

/-- The answer of `retrieveEvidence`, with the candidates that were selected for it. -/
structure Retrieval (σ : Type) where
  selected : List (ClassifiedSearchCandidate σ)
  executedQueries : List JsString
  evidence : List (EvidenceItem σ)
  queryCount : Nat
  retrievedEvidenceCount : Nat

/-- The number of sections in the batches. -/
def uniqueCount (batches : List (List (ClassifiedSearchCandidate σ))) : Nat :=
  (batches.flatten.map (sectionOf gateway)).dedup.length

def retrieveEvidence (mode : ProcedureMode) (limit : Nat) (queryPlan : QueryPlan) :
    Except SearchFailure (Retrieval σ) := do
  let preciseBatches ← runQueries gateway requestId mode limit queryPlan.precise
  let preciseUniqueCount := uniqueCount gateway preciseBatches
  let fallback := if preciseUniqueCount < limit then queryPlan.fallback else []
  let fallbackBatches ← runQueries gateway requestId mode limit fallback
  let executedQueries :=
    (queryPlan.precise ++ fallback).map (normalizeRetrievalQuery gateway.platform)
  let selection := append (sectionOf gateway) limit preciseBatches ⟨[], []⟩
  let selection := append (sectionOf gateway) limit fallbackBatches selection
  return {
    selected := selection.selected
    executedQueries := executedQueries
    evidence := selection.selected.filterMap (evidenceFrom gateway.newUrl · mode)
    queryCount := executedQueries.dedup.length
    retrievedEvidenceCount := (preciseBatches ++ fallbackBatches).flatten.length }

end Procedure

/-! ## The query gateway -/

structure QueryRequest where
  message : JsString
  mode : LexicalMode
  limit : Nat
  deriving DecidableEq, Repr

section Query

variable {σ : Type} (gateway : SearchGateway σ) (requestId : JsString) (request : QueryRequest)

/-- The queries of the rules whose pattern the message matches; none when it is one of them. -/
def expandedQueriesFor : List JsString :=
  if request.mode ≠ .keyword then []
  else
    let normalized := gateway.normalizedIntentText request.message
    let queries := if gateway.namesPriorities normalized then
      [js "priorización", js "problemáticas", js "problemas"] else []
    ((unique queries).filter (gateway.normalizedIntentText · ≠ normalized)).take 3

/-- The tenant, the version, the section and the chunk, which a section has none of. -/
def candidateKey (candidate : ClassifiedSearchCandidate σ) : JsString :=
  candidate.tenantId ++ js ":" ++ candidate.documentVersionId ++ js ":" ++ candidate.sectionId ++
    js ":" ++ candidate.chunkId.getD (js "section")

def mergeExpandedExecutions (executions : List (SearchExecutionResult σ)) (limit : Nat) :
    SearchExecutionResult σ where
  candidates := (append candidateKey limit (executions.map (·.candidates)) ⟨[], []⟩).selected
  executedModes := firstBy id (executions.flatMap (·.executedModes))

def answerLimit : Nat := min request.limit gateway.maxLimit

def internalSearchRequest : SearchRequest :=
  searchRequest gateway requestId (trim request.message) request.mode (answerLimit gateway request)

/-- The searches for the expansions of the query. -/
def runExpansions : Except SearchFailure (List (SearchExecutionResult σ)) :=
  (expandedQueriesFor gateway request).mapM fun query =>
    executeSearch gateway.platform gateway.scores gateway.repository
      { internalSearchRequest gateway requestId request with query := query } none

def executePublicSearch :
    Except SearchFailure (SearchExecutionResult σ × List JsString) := do
  let primary ← executeSearch gateway.platform gateway.scores gateway.repository
    (internalSearchRequest gateway requestId request) none
  if 0 < primary.candidates.length then return (primary, [])
  else if (expandedQueriesFor gateway request).length = 0 then return (primary, [])
  else
    let expansions ← runExpansions gateway requestId request
    return (mergeExpandedExecutions (primary :: expansions) (answerLimit gateway request),
      expandedQueriesFor gateway request)

/-- The citations of `buildResponse`. -/
def citationsOf (execution : SearchExecutionResult σ) : List Citation :=
  (execution.candidates.filterMap (citationFrom gateway.newUrl)).take (answerLimit gateway request)

end Query

end PublicGateway
