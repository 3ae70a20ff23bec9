import MuniRag.SearchEvidence.Candidates
import MuniRag.Lib.JsMap

/-!
# Evidence bundles

`buildEvidenceBundle` of `searchEvidence/evidenceBundle.ts`, on the classified candidates
of a search.  The lists of sources and of citations are the values of maps keyed by
derived identifiers, so of two candidates with one identifier the later one is listed.
Claims refer to citations, and citations to sources, by identifier only.
-/

namespace SearchEvidence

open Api

/-! ## The parts of a bundle -/

inductive BundleEvidenceStatus
  | supported | comparativeReference | inferredForReview
  deriving DecidableEq, Repr

structure BundleCitation where
  citationId : JsString
  sourceId : JsString
  documentVersionId : JsString
  sectionId : JsString
  label : JsString
  excerpt : JsString
  sourceUrl : JsString
  pageStart : Option Int
  pageEnd : Option Int
  authorityStatus : AuthorityStatus
  jurisdiction : JsString
  evidenceStatus : BundleEvidenceStatus
  deriving DecidableEq, Repr

structure BundleSource where
  sourceId : JsString
  documentId : JsString
  documentVersionId : JsString
  title : JsString
  municipality : Option JsString
  sourceJurisdiction : JsString
  targetJurisdiction : JsString
  authorityStatus : AuthorityStatus
  officialSource : Bool
  officialForTargetJurisdiction : Bool
  sourceUrl : JsString
  contentSha256 : JsString
  status : JsString
  limitations : List JsString
  deriving DecidableEq, Repr

structure BundleClaim where
  claimId : JsString
  text : JsString
  citationRefs : List JsString
  evidenceStatus : BundleEvidenceStatus
  limitations : List JsString
  deriving DecidableEq, Repr

structure Contradiction where
  contradictionId : JsString
  claimRefs : List JsString
  description : JsString
  reviewRequired : Bool
  deriving DecidableEq, Repr

structure MissingEvidence where
  gapId : JsString
  subject : JsString
  missingDocument : JsString
  reason : JsString
  nextDocumentalAction : JsString
  deriving DecidableEq, Repr

structure BundleProvenance where
  sourceProduct : JsString
  generatedBy : JsString
  createdAt : JsString
  sourceRefs : List JsString
  credentialId : JsString
  auditId : JsString
  deriving DecidableEq, Repr

structure EvidenceBundle where
  schemaVersion : JsString
  responseType : JsString
  productBoundary : JsString
  evidenceBundleId : JsString
  tenantId : JsString
  requestId : JsString
  query : JsString
  jurisdiction : JsString
  generatedAt : JsString
  sources : List BundleSource
  claims : List BundleClaim
  citations : List BundleCitation
  contradictions : List Contradiction
  missingEvidence : List MissingEvidence
  limitations : List JsString
  provenance : BundleProvenance
  deriving DecidableEq, Repr

/-! ## Texts -/

def mixcoWarning : JsString :=
  js ("Referencia comparativa de la Municipalidad de Mixco. No define por sí sola el " ++
    "procedimiento oficial de Antigua Guatemala.")

def comparativeCorroboration : JsString :=
  js ("La referencia comparativa requiere corroboración con una fuente nacional aplicable o " ++
    "una fuente oficial validada de La Antigua Guatemala.")

def humanReview : JsString :=
  js ("La autoridad, vigencia, supersession, jurisdicción y aplicación al caso concreto " ++
    "requieren revisión humana.")

def productBoundary : JsString :=
  js ("Artefacto documental: no contiene estrategia electoral, segmentación, movilización, " ++
    "contenido de campaña ni decisiones jurídicas automatizadas.")

def conflictLimitation : JsString :=
  js ("Conflicto explícito entre versiones documentales: ninguna versión se promueve " ++
    "silenciosamente y se requiere revisión humana.")

def contradictionDescription : JsString :=
  js ("El mismo documento y ubicación citable aparece en versiones distintas con extractos " ++
    "diferentes. Se requiere revisión humana de publicación, vigencia y supersession antes de " ++
    "seleccionar una versión.")

def completenessLimitation : JsString :=
  js ("La ausencia de contradicciones registradas no demuestra consistencia o completitud del " ++
    "corpus.")

/-! ## The bundle -/

section Build

variable (platform : Platform) {σ : Type}

/-- `normalized(candidate.sourceJurisdiction).includes("mixco")`. -/
def isMixco (candidate : ClassifiedSearchCandidate σ) : Bool :=
  (normalized platform candidate.sourceJurisdiction).tails.any (js "mixco").isPrefixOf

def sourceEntryId (candidate : ClassifiedSearchCandidate σ) : JsString :=
  deterministicUuid platform (js "evidence-source:" ++ candidate.tenantId ++ js ":" ++
    candidate.sourceId ++ js ":" ++ candidate.documentId ++ js ":" ++ candidate.documentVersionId)

def citationId (candidate : ClassifiedSearchCandidate σ) : JsString :=
  deterministicUuid platform (js "evidence-citation:" ++ candidate.tenantId ++ js ":" ++
    candidate.documentVersionId ++ js ":" ++ candidate.sectionId ++ js ":" ++
    candidate.citationLabel)

def bundleEvidenceStatus (candidate : ClassifiedSearchCandidate σ) : BundleEvidenceStatus :=
  match candidate.evidenceStatus with
  | .supported => .supported
  | .comparativeReference => .comparativeReference
  | .validationRequired => .inferredForReview

def sourceLimitations (candidate : ClassifiedSearchCandidate σ) : List JsString :=
  unique (candidate.limitations ++ (if isMixco platform candidate then [mixcoWarning] else []) ++
    (if candidate.evidenceStatus = .comparativeReference then [comparativeCorroboration] else []) ++
    [humanReview])

def citationFor (candidate : ClassifiedSearchCandidate σ) : BundleCitation where
  citationId := citationId platform candidate
  sourceId := sourceEntryId platform candidate
  documentVersionId := platform.toLowerCase candidate.documentVersionId
  sectionId := platform.toLowerCase candidate.sectionId
  label := candidate.citationLabel.take 500
  excerpt := candidate.excerpt.take 4000
  sourceUrl := candidate.sourceUrl
  pageStart := candidate.pageStart
  pageEnd := candidate.pageEnd
  authorityStatus := candidate.authorityStatus
  jurisdiction := candidate.sourceJurisdiction.take 240
  evidenceStatus := bundleEvidenceStatus candidate

def sourceFor (candidate : ClassifiedSearchCandidate σ) : BundleSource where
  sourceId := sourceEntryId platform candidate
  documentId := platform.toLowerCase candidate.documentId
  documentVersionId := platform.toLowerCase candidate.documentVersionId
  title := candidate.documentTitle.take 500
  municipality := if isMixco platform candidate then some (js "mixco") else none
  sourceJurisdiction := candidate.sourceJurisdiction.take 240
  targetJurisdiction := candidate.targetJurisdiction.take 240
  authorityStatus := candidate.authorityStatus
  officialSource := candidate.officialSource
  officialForTargetJurisdiction :=
    candidate.authorityStatus = .officialTargetJurisdiction &&
      candidate.officialForTargetJurisdiction
  sourceUrl := candidate.sourceUrl
  contentSha256 := candidate.contentSha256
  status := js "ingested"
  limitations := sourceLimitations platform candidate

def conflictSlot (candidate : ClassifiedSearchCandidate σ) : JsString :=
  platform.toLowerCase candidate.documentId ++ js ":" ++
    normalized platform candidate.citationLabel ++ js ":" ++
    (candidate.pageStart.map numberText).getD (js "no-page")

structure VersionConflict (σ : Type) where
  key : JsString
  candidates : List (ClassifiedSearchCandidate σ)
  deriving DecidableEq, Repr

/-- The candidates of each slot, in the order in which they came. -/
def groupBySlot (candidates : List (ClassifiedSearchCandidate σ)) :
    JsMap JsString (List (ClassifiedSearchCandidate σ)) :=
  candidates.foldl (fun grouped candidate =>
    let key := conflictSlot platform candidate
    JsMap.set grouped key ((JsMap.get grouped key).getD [] ++ [candidate])) []

/-- One candidate for each version, the last one, in the order of the version ids. -/
def representatives (group : List (ClassifiedSearchCandidate σ)) :
    List (ClassifiedSearchCandidate σ) :=
  (JsMap.values (JsMap.ofEntries (group.map fun candidate =>
    (platform.toLowerCase candidate.documentVersionId, candidate)))).insertionSort
      fun left right =>
        platform.collation.localeCompare left.documentVersionId right.documentVersionId ≠ .gt

/-- Two versions at least, and two different texts at least. -/
def isConflict (conflict : VersionConflict σ) : Bool :=
  decide (2 ≤ conflict.candidates.length) &&
    decide (2 ≤ (unique (conflict.candidates.map fun candidate =>
      normalized platform candidate.excerpt)).length)

def versionConflicts (candidates : List (ClassifiedSearchCandidate σ)) :
    List (VersionConflict σ) :=
  ((groupBySlot platform candidates).map fun entry =>
    { key := entry.1, candidates := representatives platform entry.2 }).filter (isConflict platform)

def conflictingCitationIds (candidates : List (ClassifiedSearchCandidate σ)) : List JsString :=
  (versionConflicts platform candidates).flatMap fun conflict =>
    conflict.candidates.map (citationId platform)

/-- The candidates that back an ordinary claim. -/
def promoted (candidates : List (ClassifiedSearchCandidate σ)) :
    List (ClassifiedSearchCandidate σ) :=
  candidates.filter fun candidate => candidate.evidenceStatus = .supported ∧
    citationId platform candidate ∉ conflictingCitationIds platform candidates

variable (request : SearchRequest)

/-- `tenant_id:request_id`, which every derived id of a bundle has after its first part. -/
def requestSeed (kind : String) : JsString :=
  js kind ++ js ":" ++ request.tenantId ++ js ":" ++ request.requestId

def ordinaryClaim (candidate : ClassifiedSearchCandidate σ) : BundleClaim where
  claimId := deterministicUuid platform (requestSeed request "evidence-claim" ++ js ":" ++
    citationId platform candidate)
  text := candidate.excerpt.take 3000
  citationRefs := [citationId platform candidate]
  evidenceStatus := .supported
  limitations := unique (candidate.limitations ++ [humanReview])

def conflictClaim (candidate : ClassifiedSearchCandidate σ) : BundleClaim where
  claimId := deterministicUuid platform (requestSeed request "evidence-conflict-claim" ++ js ":" ++
    citationId platform candidate)
  text := candidate.excerpt.take 3000
  citationRefs := [citationId platform candidate]
  evidenceStatus := .inferredForReview
  limitations := unique (candidate.limitations ++ [conflictLimitation, humanReview])

def conflictClaims (candidates : List (ClassifiedSearchCandidate σ)) : List BundleClaim :=
  (versionConflicts platform candidates).flatMap fun conflict =>
    conflict.candidates.map (conflictClaim platform request)

/-- `new Map(conflictClaims.map((claim) => [claim.citation_refs[0]!, claim]))`. -/
def conflictClaimByCitation (candidates : List (ClassifiedSearchCandidate σ)) :
    JsMap JsString BundleClaim :=
  JsMap.ofEntries ((conflictClaims platform request candidates).map fun claim =>
    (claim.citationRefs.headD [], claim))

def contradictionFor (claims : JsMap JsString BundleClaim) (conflict : VersionConflict σ) :
    Contradiction where
  contradictionId := deterministicUuid platform
    (requestSeed request "evidence-contradiction" ++ js ":" ++ conflict.key)
  claimRefs := (conflict.candidates.filterMap fun candidate =>
    (JsMap.get claims (citationId platform candidate)).map BundleClaim.claimId).filter (· ≠ [])
  description := contradictionDescription
  reviewRequired := true

def contradictionsOf (candidates : List (ClassifiedSearchCandidate σ)) : List Contradiction :=
  ((versionConflicts platform candidates).map (contradictionFor platform request
    (conflictClaimByCitation platform request candidates))).filter fun item =>
      2 ≤ item.claimRefs.length

def unsupportedGap : MissingEvidence where
  gapId := deterministicUuid platform (requestSeed request "evidence-gap" ++ js ":supported-source")
  subject := request.query.take 500
  missingDocument := js "Fuente oficial vigente y aplicable que respalde la consulta"
  reason := js ("No se recuperó evidencia simultáneamente validada, oficial para la " ++
    "jurisdicción objetivo o nacional aplicable, y vigente según las fechas almacenadas.")
  nextDocumentalAction := js ("Localizar, adquirir, validar, ingerir y revisar humanamente una " ++
    "fuente oficial aplicable antes de sostener la afirmación.")

def comparativeGap : MissingEvidence where
  gapId := deterministicUuid platform
    (requestSeed request "evidence-gap" ++ js ":comparative-corroboration")
  subject := request.query.take 500
  missingDocument := js "Corroboración oficial nacional o de La Antigua Guatemala"
  reason := comparativeCorroboration
  nextDocumentalAction := js ("Buscar y validar una fuente nacional aplicable o una fuente " ++
    "oficial de La Antigua Guatemala antes de reutilizar la referencia comparativa.")

def conflictGap (conflict : VersionConflict σ) : MissingEvidence where
  gapId := deterministicUuid platform
    (requestSeed request "evidence-gap" ++ js ":conflict:" ++ conflict.key)
  subject := request.query.take 500
  missingDocument := js "Resolución humana del conflicto de versiones documentales"
  reason := conflictLimitation
  nextDocumentalAction := js ("Comparar fechas, autoridad, texto, publicación y supersession, y " ++
    "aprobar explícitamente la versión aplicable.")

def missingEvidenceOf (candidates : List (ClassifiedSearchCandidate σ)) : List MissingEvidence :=
  (if (promoted platform candidates).isEmpty then [unsupportedGap platform request] else []) ++
  (if candidates.any fun candidate => candidate.evidenceStatus = .comparativeReference then
    [comparativeGap platform request] else []) ++
  (versionConflicts platform candidates).map (conflictGap platform request)

def sourcesOf (candidates : List (ClassifiedSearchCandidate σ)) : List BundleSource :=
  JsMap.values (JsMap.ofEntries (candidates.map fun candidate =>
    (sourceEntryId platform candidate, sourceFor platform candidate)))

def citationsOf (candidates : List (ClassifiedSearchCandidate σ)) : List BundleCitation :=
  JsMap.values (JsMap.ofEntries (candidates.map fun candidate =>
    (citationId platform candidate, citationFor platform candidate)))

/-- `EvidenceBundleBuildOptions` without the request and the candidates. -/
structure BuildContext where
  auditId : JsString
  credentialId : JsString
  createdAt : JsString
  deriving DecidableEq, Repr

def buildEvidenceBundle (context : BuildContext)
    (candidates : List (ClassifiedSearchCandidate σ)) : EvidenceBundle where
  schemaVersion := js "v1"
  responseType := js "evidence_bundle"
  productBoundary := js "evidence_and_procedure_only"
  evidenceBundleId := deterministicUuid platform (requestSeed request "evidence-bundle")
  tenantId := platform.toLowerCase request.tenantId
  requestId := platform.toLowerCase request.requestId
  query := request.query
  jurisdiction := request.jurisdiction
  generatedAt := context.createdAt
  sources := sourcesOf platform candidates
  claims := (promoted platform candidates).map (ordinaryClaim platform request) ++
    conflictClaims platform request candidates
  citations := citationsOf platform candidates
  contradictions := contradictionsOf platform request candidates
  missingEvidence := missingEvidenceOf platform request candidates
  limitations := unique ([productBoundary, humanReview, completenessLimitation] ++
    (if candidates.any (isMixco platform) then [mixcoWarning, comparativeCorroboration] else []))
  provenance := {
    sourceProduct := js "la_muni_rag"
    generatedBy := js "system"
    createdAt := context.createdAt
    sourceRefs := (sourcesOf platform candidates).map fun source => js "source:" ++ source.sourceId
    credentialId := platform.toLowerCase context.credentialId
    auditId := platform.toLowerCase context.auditId }

end Build

/-! ## Entries by identifier -/

section Entries

variable {platform : Platform} {σ : Type} {candidates : List (ClassifiedSearchCandidate σ)}

/-- The citation of a bundle with an identifier. -/
def EvidenceBundle.citation? (bundle : EvidenceBundle) (id : JsString) : Option BundleCitation :=
  bundle.citations.find? (·.citationId = id)

/-- The source entry of a bundle with an identifier. -/
def EvidenceBundle.source? (bundle : EvidenceBundle) (id : JsString) : Option BundleSource :=
  bundle.sources.find? (·.sourceId = id)

/-- The last candidate that a property holds of. -/
def lastWith (candidates : List (ClassifiedSearchCandidate σ))
    (p : ClassifiedSearchCandidate σ → Bool) : Option (ClassifiedSearchCandidate σ) :=
  candidates.reverse.find? p

theorem lastWith_some {p : ClassifiedSearchCandidate σ → Bool}
    {candidate : ClassifiedSearchCandidate σ} (h : lastWith candidates p = some candidate) :
    candidate ∈ candidates ∧ p candidate = true :=
  ⟨List.mem_reverse.mp (List.mem_of_find?_eq_some h), List.find?_some h⟩

theorem lastWith_isSome {p : ClassifiedSearchCandidate σ → Bool}
    {candidate : ClassifiedSearchCandidate σ} (hmem : candidate ∈ candidates)
    (hp : p candidate = true) : ∃ last, lastWith candidates p = some last := by
  have hsome : (candidates.reverse.find? p).isSome :=
    List.find?_isSome.mpr ⟨candidate, List.mem_reverse.mpr hmem, hp⟩
  exact Option.isSome_iff_exists.mp hsome

/-- Looking an entry up by its identifier finds the entry of the last candidate with it. -/
theorem find?_lastWith {α : Type} {keyOf : α → JsString}
    {idOf : ClassifiedSearchCandidate σ → JsString} {entryOf : ClassifiedSearchCandidate σ → α}
    (hkey : ∀ candidate, keyOf (entryOf candidate) = idOf candidate) (id : JsString) :
    (JsMap.values (JsMap.ofEntries (candidates.map fun candidate =>
        (idOf candidate, entryOf candidate)))).find? (keyOf · = id) =
      (lastWith candidates (idOf · = id)).map entryOf := by
  have hkeys : ∀ entry ∈ JsMap.ofEntries (candidates.map fun candidate =>
      (idOf candidate, entryOf candidate)), keyOf entry.2 = entry.1 := by
    intro entry hentry
    obtain ⟨candidate, -, rfl⟩ := List.mem_map.mp (JsMap.mem_of_mem_ofEntries hentry)
    exact hkey candidate
  rw [JsMap.find?_values hkeys, JsMap.get_ofEntries, ← List.map_reverse, List.find?_map,
    lastWith, Option.map_map]
  rfl

variable {request : SearchRequest} {context : BuildContext}

theorem citationFor_id (candidate : ClassifiedSearchCandidate σ) :
    (citationFor platform candidate).citationId = citationId platform candidate := rfl

theorem citationFor_source (candidate : ClassifiedSearchCandidate σ) :
    (citationFor platform candidate).sourceId = sourceEntryId platform candidate := rfl

theorem sourceFor_id (candidate : ClassifiedSearchCandidate σ) :
    (sourceFor platform candidate).sourceId = sourceEntryId platform candidate := rfl

theorem citation?_buildEvidenceBundle (id : JsString) :
    (buildEvidenceBundle platform request context candidates).citation? id =
      (lastWith candidates (citationId platform · = id)).map (citationFor platform) := by
  have hid : ∀ candidate : ClassifiedSearchCandidate σ,
      (citationFor platform candidate).citationId = citationId platform candidate := citationFor_id
  exact find?_lastWith hid id

theorem source?_buildEvidenceBundle (id : JsString) :
    (buildEvidenceBundle platform request context candidates).source? id =
      (lastWith candidates (sourceEntryId platform · = id)).map (sourceFor platform) := by
  have hid : ∀ candidate : ClassifiedSearchCandidate σ,
      (sourceFor platform candidate).sourceId = sourceEntryId platform candidate := sourceFor_id
  exact find?_lastWith hid id

theorem mem_promoted {candidate : ClassifiedSearchCandidate σ} :
    candidate ∈ promoted platform candidates ↔ candidate ∈ candidates ∧
      candidate.evidenceStatus = .supported ∧
        citationId platform candidate ∉ conflictingCitationIds platform candidates := by
  simp [promoted]

/-- The supported claims of a bundle are the claims of the promoted candidates. -/
theorem supported_claim_iff {claim : BundleClaim} :
    (claim ∈ (buildEvidenceBundle platform request context candidates).claims ∧
        claim.evidenceStatus = .supported) ↔
      ∃ candidate ∈ promoted platform candidates,
        ordinaryClaim platform request candidate = claim := by
  constructor
  · rintro ⟨hclaim, hsupported⟩
    rcases List.mem_append.mp hclaim with hordinary | hconflict
    · exact List.mem_map.mp hordinary
    · obtain ⟨conflict, -, hconflict⟩ := List.mem_flatMap.mp hconflict
      obtain ⟨candidate, -, rfl⟩ := List.mem_map.mp hconflict
      exact absurd hsupported (by simp [conflictClaim])
  · rintro ⟨candidate, hpromoted, rfl⟩
    exact ⟨List.mem_append_left _ (List.mem_map.mpr ⟨candidate, hpromoted, rfl⟩), rfl⟩

end Entries

end SearchEvidence
