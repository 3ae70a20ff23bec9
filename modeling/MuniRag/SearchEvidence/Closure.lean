import MuniRag.SearchEvidence.Conflicts
import MuniRag.SearchEvidence.Authority

/-!
# Closed bundles

A bundle is closed when its ids are distinct and each reference names an entry that agrees with
it.  Sources and citations are listed once for each id, claims once for each candidate, and a
citation and its source may come from different candidates.  So a bundle is closed exactly when
no two candidates claim one citation and those behind a citation and its source agree
(`closed_iff`).
-/

namespace SearchEvidence

open Api

/-- The references of a bundle. -/
structure ReferentiallyClosed (bundle : EvidenceBundle) : Prop where
  sourceIds : (bundle.sources.map BundleSource.sourceId).Nodup
  citationIds : (bundle.citations.map BundleCitation.citationId).Nodup
  claimIds : (bundle.claims.map BundleClaim.claimId).Nodup
  contradictionIds : (bundle.contradictions.map Contradiction.contradictionId).Nodup
  gapIds : (bundle.missingEvidence.map MissingEvidence.gapId).Nodup
  citationSource : ∀ citation ∈ bundle.citations, ∃ source ∈ bundle.sources,
    source.sourceId = citation.sourceId ∧
      source.documentVersionId = citation.documentVersionId ∧
      source.authorityStatus = citation.authorityStatus ∧ source.sourceUrl = citation.sourceUrl
  claimCitation : ∀ claim ∈ bundle.claims, ∃ citation ∈ bundle.citations,
    claim.citationRefs = [citation.citationId]
  contradictionClaims : ∀ contradiction ∈ bundle.contradictions,
    (∃ first ∈ contradiction.claimRefs, ∃ second ∈ contradiction.claimRefs, first ≠ second) ∧
      ∀ ref ∈ contradiction.claimRefs, ∃ claim ∈ bundle.claims, claim.claimId = ref ∧
        claim.evidenceStatus = .inferredForReview
  sourceRefs : bundle.provenance.sourceRefs =
    bundle.sources.map fun source => js "source:" ++ source.sourceId

section Closure

variable (platform : Platform) (request : SearchRequest) {σ : Type}
  (candidates : List (ClassifiedSearchCandidate σ))

/-- What the id of a claim, a contradiction or a gap is derived from. -/
def seedOf (kind : String) (subject : JsString) : JsString :=
  requestSeed request kind ++ js ":" ++ subject

/-- The texts of the two fixed gaps and of those of the conflicts. -/
def gapSeeds : List JsString :=
  [requestSeed request "evidence-gap" ++ js ":supported-source",
    requestSeed request "evidence-gap" ++ js ":comparative-corroboration"] ++
  (versionConflicts platform candidates).map fun conflict =>
    requestSeed request "evidence-gap" ++ js ":conflict:" ++ conflict.key

/-- The texts from which the ids of claims, contradictions and gaps are derived. -/
def derivedSeeds : List JsString :=
  (promoted platform candidates).map (fun candidate =>
    seedOf request "evidence-claim" (citationId platform candidate)) ++
  (conflictingCitationIds platform candidates).map (seedOf request "evidence-conflict-claim") ++
  (versionConflicts platform candidates).map (fun conflict =>
    seedOf request "evidence-contradiction" conflict.key) ++
  gapSeeds platform request candidates

/-- No two of these texts have one id. -/
def DistinctIds : Prop :=
  ∀ left ∈ derivedSeeds platform request candidates,
    ∀ right ∈ derivedSeeds platform request candidates,
      deterministicUuid platform left = deterministicUuid platform right → left = right

/-- No citation is claimed twice, and the last candidate of a citation agrees with the last one
of its source. -/
structure Coherent : Prop where
  claimedOnce : ((promoted platform candidates).map (citationId platform)).Nodup
  conflictedOnce : (conflictingCitationIds platform candidates).Nodup
  sourced : ∀ cited origin,
    lastWith candidates (citationId platform · = citationId platform cited) = some cited →
    lastWith candidates (sourceEntryId platform · = sourceEntryId platform cited) = some origin →
    versionOf platform origin = versionOf platform cited ∧
      origin.authorityStatus = cited.authorityStatus ∧ origin.sourceUrl = cited.sourceUrl

variable {platform request candidates} {context : BuildContext}
  {candidate : ClassifiedSearchCandidate σ} {conflict : VersionConflict σ}

/-! ## Sources and citations -/

theorem mem_citationsOf {citation : BundleCitation} :
    citation ∈ citationsOf platform candidates ↔ ∃ cited,
      lastWith candidates (citationId platform · = citationId platform cited) = some cited ∧
        citationFor platform cited = citation :=
  mem_lastEntries

theorem mem_sourcesOf {source : BundleSource} :
    source ∈ sourcesOf platform candidates ↔ ∃ origin,
      lastWith candidates (sourceEntryId platform · = sourceEntryId platform origin) =
          some origin ∧ sourceFor platform origin = source :=
  mem_lastEntries

theorem exists_citation (h : candidate ∈ candidates) :
    ∃ citation ∈ citationsOf platform candidates,
      citation.citationId = citationId platform candidate := by
  obtain ⟨cited, hcited⟩ := @lastWith_isSome σ candidates
    (citationId platform · = citationId platform candidate) candidate h (decide_eq_true rfl)
  have hid : citationId platform cited = citationId platform candidate :=
    of_decide_eq_true (lastWith_some hcited).2
  refine ⟨citationFor platform cited, mem_citationsOf.mpr ⟨cited, ?_, rfl⟩, hid⟩
  rw [hid]
  exact hcited

/-- The citations have their sources exactly when the last candidates agree. -/
theorem citationSource_iff :
    (∀ citation ∈ citationsOf platform candidates, ∃ source ∈ sourcesOf platform candidates,
      source.sourceId = citation.sourceId ∧
        source.documentVersionId = citation.documentVersionId ∧
        source.authorityStatus = citation.authorityStatus ∧
        source.sourceUrl = citation.sourceUrl) ↔
    ∀ cited origin,
      lastWith candidates (citationId platform · = citationId platform cited) = some cited →
      lastWith candidates (sourceEntryId platform · = sourceEntryId platform cited) =
        some origin →
      versionOf platform origin = versionOf platform cited ∧
        origin.authorityStatus = cited.authorityStatus ∧ origin.sourceUrl = cited.sourceUrl := by
  constructor
  · intro hsources cited origin hcited horigin
    obtain ⟨source, hsource, hid, hagree⟩ :=
      hsources _ (mem_citationsOf.mpr ⟨cited, hcited, rfl⟩)
    obtain ⟨other, hother, rfl⟩ := mem_sourcesOf.mp hsource
    have hsame : sourceEntryId platform other = sourceEntryId platform cited := hid
    rw [hsame, horigin] at hother
    obtain rfl := Option.some.inj hother
    exact hagree
  · intro hagree citation hcitation
    obtain ⟨cited, hcited, rfl⟩ := mem_citationsOf.mp hcitation
    obtain ⟨origin, horigin⟩ := @lastWith_isSome σ candidates
      (sourceEntryId platform · = sourceEntryId platform cited) cited (lastWith_some hcited).1
      (decide_eq_true rfl)
    have hid : sourceEntryId platform origin = sourceEntryId platform cited :=
      of_decide_eq_true (lastWith_some horigin).2
    refine ⟨sourceFor platform origin, mem_sourcesOf.mpr ⟨origin, ?_, rfl⟩, hid,
      hagree cited origin hcited horigin⟩
    rw [hid]
    exact horigin

/-! ## Claims and contradictions -/

theorem citationId_mem_conflicting (hconflict : conflict ∈ versionConflicts platform candidates)
    (hmem : candidate ∈ conflict.candidates) :
    citationId platform candidate ∈ conflictingCitationIds platform candidates :=
  List.mem_flatMap.mpr ⟨conflict, hconflict, List.mem_map_of_mem hmem⟩

theorem mem_conflictClaims {claim : BundleClaim} :
    claim ∈ conflictClaims platform request candidates ↔
      ∃ conflict ∈ versionConflicts platform candidates, ∃ candidate ∈ conflict.candidates,
        conflictClaim platform request candidate = claim := by
  simp only [conflictClaims, List.mem_flatMap, List.mem_map]

/-- The claim ids of conflicts, in order. -/
theorem conflictClaims_ids :
    (conflictClaims platform request candidates).map BundleClaim.claimId =
      (conflictingCitationIds platform candidates).map fun id =>
        deterministicUuid platform (seedOf request "evidence-conflict-claim" id) := by
  rw [conflictClaims, conflictingCitationIds, List.map_flatMap, List.map_flatMap]
  refine List.flatMap_congr fun conflict _ => ?_
  rw [List.map_map, List.map_map]
  rfl

theorem ordinaryClaims_ids :
    ((promoted platform candidates).map (ordinaryClaim platform request)).map
        BundleClaim.claimId =
      ((promoted platform candidates).map (citationId platform)).map fun id =>
        deterministicUuid platform (seedOf request "evidence-claim" id) := by
  rw [List.map_map, List.map_map]
  rfl

theorem deterministicUuid_ne_nil (seed : JsString) : deterministicUuid platform seed ≠ [] := by
  intro h
  have hdash : (0x2d : UInt16) ∈ deterministicUuid platform seed := by
    simp [deterministicUuid, uuidDashed]
  rw [h] at hdash
  exact absurd hdash List.not_mem_nil

/-- A contradiction names the claim of each candidate of its conflict. -/
theorem claimRefs_eq (hconflict : conflict ∈ versionConflicts platform candidates) :
    (contradictionFor platform request (conflictClaimByCitation platform request candidates)
      conflict).claimRefs = conflict.candidates.map fun candidate =>
        deterministicUuid platform
          (seedOf request "evidence-conflict-claim" (citationId platform candidate)) := by
  have hclaim : ∀ candidate ∈ conflict.candidates,
      (JsMap.get (conflictClaimByCitation platform request candidates)
        (citationId platform candidate)).map BundleClaim.claimId =
          some (deterministicUuid platform
            (seedOf request "evidence-conflict-claim" (citationId platform candidate))) := by
    intro candidate hmem
    have hlisted : conflictClaim platform request candidate ∈
        conflictClaims platform request candidates :=
      mem_conflictClaims.mpr ⟨conflict, hconflict, candidate, hmem, rfl⟩
    have hsome : (((conflictClaims platform request candidates).map fun claim =>
        (claim.citationRefs.headD [], claim)).reverse.find?
          (·.1 = citationId platform candidate)).isSome = true :=
      List.find?_isSome.mpr ⟨_, List.mem_reverse.mpr (List.mem_map_of_mem hlisted),
        decide_eq_true rfl⟩
    obtain ⟨entry, hentry⟩ := Option.isSome_iff_exists.mp hsome
    obtain ⟨claim, hclaim, rfl⟩ := List.mem_map.mp
      (List.mem_reverse.mp (List.mem_of_find?_eq_some hentry))
    obtain ⟨-, -, other, -, rfl⟩ := mem_conflictClaims.mp hclaim
    have hid : citationId platform other = citationId platform candidate := by
      simpa [conflictClaim] using List.find?_some hentry
    rw [conflictClaimByCitation, JsMap.get_ofEntries, hentry, ← hid]
    rfl
  rw [contradictionFor]
  have hall : conflict.candidates.filterMap (fun candidate =>
      (JsMap.get (conflictClaimByCitation platform request candidates)
        (citationId platform candidate)).map BundleClaim.claimId) =
      conflict.candidates.map fun candidate => deterministicUuid platform
        (seedOf request "evidence-conflict-claim" (citationId platform candidate)) := by
    rw [← List.filterMap_eq_map]
    exact List.filterMap_congr hclaim
  rw [hall]
  refine List.filter_eq_self.mpr fun ref href => ?_
  obtain ⟨candidate, -, rfl⟩ := List.mem_map.mp href
  exact decide_eq_true (deterministicUuid_ne_nil _)

theorem exists_distinct (hconflict : conflict ∈ versionConflicts platform candidates) :
    ∃ first ∈ conflict.candidates, ∃ second ∈ conflict.candidates, first ≠ second := by
  obtain ⟨-, first, hfirst, second, hsecond, hne⟩ := mem_versionConflicts.mp hconflict
  exact ⟨first, hfirst, second, hsecond, fun h => hne (congrArg (excerptOf platform) h)⟩

/-- Each conflict is recorded as a contradiction. -/
theorem contradictionsOf_eq : contradictionsOf platform request candidates =
    (versionConflicts platform candidates).map (contradictionFor platform request
      (conflictClaimByCitation platform request candidates)) := by
  refine List.filter_eq_self.mpr fun contradiction hmem => decide_eq_true ?_
  obtain ⟨conflict, hconflict, rfl⟩ := List.mem_map.mp hmem
  obtain ⟨first, hfirst, second, hsecond, hne⟩ := exists_distinct hconflict
  rw [claimRefs_eq hconflict, List.length_map]
  match hcandidates : conflict.candidates with
  | [] => simp [hcandidates] at hfirst
  | [only] =>
      rw [hcandidates, List.mem_singleton] at hfirst hsecond
      exact absurd (hfirst.trans hsecond.symm) hne
  | _ :: _ :: _ => simp

/-! ## Derived ids -/

theorem seedOf_injective {kind : String} {left right : JsString}
    (h : seedOf request kind left = seedOf request kind right) : left = right :=
  List.append_cancel_left h

theorem claimSeeds_ne {left right : JsString} :
    seedOf request "evidence-claim" left ≠ seedOf request "evidence-conflict-claim" right := by
  intro h
  have hplace := congrArg (List.take 11) h
  simp only [seedOf, requestSeed, List.append_assoc] at hplace
  rw [List.take_append_of_le_length (by decide +kernel),
    List.take_append_of_le_length (by decide +kernel)] at hplace
  exact absurd hplace (by decide +kernel)

theorem claimSeed_mem {id : JsString}
    (h : id ∈ (promoted platform candidates).map (citationId platform)) :
    seedOf request "evidence-claim" id ∈ derivedSeeds platform request candidates := by
  obtain ⟨candidate, hpromoted, rfl⟩ := List.mem_map.mp h
  have hmem := List.mem_map_of_mem
    (f := fun candidate => seedOf request "evidence-claim" (citationId platform candidate)) hpromoted
  simp only [derivedSeeds, List.mem_append]
  exact .inl (.inl (.inl hmem))

theorem conflictClaimSeed_mem {id : JsString}
    (h : id ∈ conflictingCitationIds platform candidates) :
    seedOf request "evidence-conflict-claim" id ∈ derivedSeeds platform request candidates := by
  simp only [derivedSeeds, List.mem_append]
  exact .inl (.inl (.inr (List.mem_map_of_mem h)))

theorem contradictionSeed_mem (h : conflict ∈ versionConflicts platform candidates) :
    seedOf request "evidence-contradiction" conflict.key ∈
      derivedSeeds platform request candidates := by
  have hmem := List.mem_map_of_mem
    (f := fun conflict : VersionConflict σ =>
      seedOf request "evidence-contradiction" conflict.key) h
  simp only [derivedSeeds, List.mem_append]
  exact .inl (.inr hmem)

/-- Claims have distinct ids exactly when no citation is claimed twice. -/
theorem nodup_claimIds_iff (hdistinct : DistinctIds platform request candidates) :
    ((buildEvidenceBundle platform request context candidates).claims.map
        BundleClaim.claimId).Nodup ↔
      ((promoted platform candidates).map (citationId platform)).Nodup ∧
        (conflictingCitationIds platform candidates).Nodup := by
  have hids : (buildEvidenceBundle platform request context candidates).claims.map
      BundleClaim.claimId =
      ((promoted platform candidates).map (citationId platform)).map (fun id =>
        deterministicUuid platform (seedOf request "evidence-claim" id)) ++
      (conflictingCitationIds platform candidates).map fun id =>
        deterministicUuid platform (seedOf request "evidence-conflict-claim" id) := by
    rw [buildEvidenceBundle, List.map_append, ordinaryClaims_ids, conflictClaims_ids]
  rw [hids]
  constructor
  · intro hnodup
    obtain ⟨hclaims, hconflicts, -⟩ := List.nodup_append.mp hnodup
    exact ⟨hclaims.of_map _, hconflicts.of_map _⟩
  · rintro ⟨hclaims, hconflicts⟩
    refine List.nodup_append.mpr ⟨?_, ?_, ?_⟩
    · refine List.Nodup.map_on (fun left hleft right hright hsame => ?_) hclaims
      exact seedOf_injective (hdistinct _ (claimSeed_mem hleft) _ (claimSeed_mem hright) hsame)
    · refine List.Nodup.map_on (fun left hleft right hright hsame => ?_) hconflicts
      exact seedOf_injective
        (hdistinct _ (conflictClaimSeed_mem hleft) _ (conflictClaimSeed_mem hright) hsame)
    · intro first hfirst second hsecond hsame
      obtain ⟨left, hleft, rfl⟩ := List.mem_map.mp hfirst
      obtain ⟨right, hright, rfl⟩ := List.mem_map.mp hsecond
      exact claimSeeds_ne
        (hdistinct _ (claimSeed_mem hleft) _ (conflictClaimSeed_mem hright) hsame)

theorem nodup_contradictionIds (hdistinct : DistinctIds platform request candidates) :
    ((contradictionsOf platform request candidates).map Contradiction.contradictionId).Nodup := by
  have hids : (contradictionsOf platform request candidates).map Contradiction.contradictionId =
      (versionConflicts platform candidates).map fun conflict =>
        deterministicUuid platform (seedOf request "evidence-contradiction" conflict.key) := by
    rw [contradictionsOf_eq, List.map_map]
    rfl
  rw [hids]
  have hkeys := @nodup_conflictKeys platform σ candidates
  refine List.Nodup.map_on (fun left hleft right hright hsame => ?_) hkeys.of_map
  exact List.inj_on_of_nodup_map hkeys hleft hright (seedOf_injective
    (hdistinct _ (contradictionSeed_mem hleft) _ (contradictionSeed_mem hright) hsame))

theorem nodup_gapSeeds : (gapSeeds platform request candidates).Nodup := by
  have hfirst : js ":supported-source" ≠ js ":comparative-corroboration" := by decide +kernel
  have hother : ∀ (text : JsString), text.take 5 ≠ (js ":conflict:").take 5 → 5 ≤ text.length →
      ∀ key, text ≠ js ":conflict:" ++ key := by
    intro text hne hlength key h
    have hplace := congrArg (List.take 5) h
    rw [List.take_append_of_le_length (by decide)] at hplace
    exact hne hplace
  have hconflicts : ((versionConflicts platform candidates).map fun conflict =>
      requestSeed request "evidence-gap" ++ js ":conflict:" ++ conflict.key).Nodup := by
    have hkeys := @nodup_conflictKeys platform σ candidates
    refine List.Nodup.map_on (fun left hleft right hright hsame => ?_) hkeys.of_map
    exact List.inj_on_of_nodup_map hkeys hleft hright (List.append_cancel_left hsame)
  refine List.nodup_append.mpr ⟨?_, hconflicts, ?_⟩
  · simpa using hfirst
  · intro seed hseed other hmem
    obtain ⟨conflict, -, rfl⟩ := List.mem_map.mp hmem
    rw [List.append_assoc]
    rcases List.mem_pair.mp hseed with rfl | rfl
    · intro h
      have hrest : js ":supported-source" = js ":conflict:" ++ conflict.key :=
        List.append_cancel_left h
      exact hother (js ":supported-source") (by decide +kernel) (by decide +kernel) _ hrest
    · intro h
      have hrest : js ":comparative-corroboration" = js ":conflict:" ++ conflict.key :=
        List.append_cancel_left h
      exact hother (js ":comparative-corroboration") (by decide +kernel) (by decide +kernel) _ hrest

theorem gapIds_sublist : ((missingEvidenceOf platform request candidates).map
    MissingEvidence.gapId).Sublist
      ((gapSeeds platform request candidates).map (deterministicUuid platform)) := by
  have hconflicts : ((versionConflicts platform candidates).map
      (conflictGap platform request)).map MissingEvidence.gapId =
        ((versionConflicts platform candidates).map fun conflict =>
          requestSeed request "evidence-gap" ++ js ":conflict:" ++ conflict.key).map
            (deterministicUuid platform) := by
    rw [List.map_map, List.map_map]
    rfl
  rw [missingEvidenceOf, List.map_append, List.map_append, hconflicts, gapSeeds, List.map_append]
  refine List.Sublist.append ?_ (List.Sublist.refl _)
  split_ifs
  · exact List.Sublist.refl _
  · exact (List.nil_sublist _).cons_cons _
  · exact (List.Sublist.refl _).cons _
  · exact List.nil_sublist _

theorem nodup_gapIds (hdistinct : DistinctIds platform request candidates) :
    ((missingEvidenceOf platform request candidates).map MissingEvidence.gapId).Nodup := by
  have hmem : ∀ seed ∈ gapSeeds platform request candidates,
      seed ∈ derivedSeeds platform request candidates := by
    intro seed hseed
    exact List.mem_append_right _ hseed
  refine List.Nodup.sublist gapIds_sublist ?_
  refine List.Nodup.map_on (fun left hleft right hright hsame => ?_) nodup_gapSeeds
  exact hdistinct _ (hmem left hleft) _ (hmem right hright) hsame

/-! ## The condition -/

theorem claims_cite : ∀ claim ∈ (buildEvidenceBundle platform request context candidates).claims,
    ∃ citation ∈ citationsOf platform candidates,
      claim.citationRefs = [citation.citationId] := by
  intro claim hclaim
  rcases List.mem_append.mp hclaim with hordinary | hconflict
  · obtain ⟨candidate, hpromoted, rfl⟩ := List.mem_map.mp hordinary
    obtain ⟨citation, hcitation, hid⟩ :=
      @exists_citation platform σ candidates candidate (mem_promoted.mp hpromoted).1
    exact ⟨citation, hcitation, congrArg (fun id => [id]) hid.symm⟩
  · obtain ⟨conflict, hlisted, candidate, hmem, rfl⟩ := mem_conflictClaims.mp hconflict
    obtain ⟨citation, hcitation, hid⟩ :=
      @exists_citation platform σ candidates candidate (slot_of_conflict hlisted hmem).1
    exact ⟨citation, hcitation, congrArg (fun id => [id]) hid.symm⟩

/-- Contradictions name distinct claims where the citations in conflict are distinct. -/
theorem contradictions_name (hdistinct : DistinctIds platform request candidates)
    (honce : (conflictingCitationIds platform candidates).Nodup) :
    ∀ contradiction ∈ contradictionsOf platform request candidates,
      (∃ first ∈ contradiction.claimRefs, ∃ second ∈ contradiction.claimRefs, first ≠ second) ∧
        ∀ ref ∈ contradiction.claimRefs,
          ∃ claim ∈ (buildEvidenceBundle platform request context candidates).claims,
            claim.claimId = ref ∧ claim.evidenceStatus = .inferredForReview := by
  intro contradiction hmem
  rw [contradictionsOf_eq] at hmem
  obtain ⟨conflict, hconflict, rfl⟩ := List.mem_map.mp hmem
  rw [claimRefs_eq hconflict]
  constructor
  · obtain ⟨first, hfirst, second, hsecond, hne⟩ := exists_distinct hconflict
    refine ⟨_, List.mem_map_of_mem hfirst, _, List.mem_map_of_mem hsecond, fun hsame => hne ?_⟩
    have hids : citationId platform first = citationId platform second := seedOf_injective
      (hdistinct _ (conflictClaimSeed_mem (citationId_mem_conflicting hconflict hfirst)) _
        (conflictClaimSeed_mem (citationId_mem_conflicting hconflict hsecond)) hsame)
    have hown : (conflict.candidates.map (citationId platform)).Nodup :=
      (List.nodup_flatMap.mp honce).1 conflict hconflict
    exact List.inj_on_of_nodup_map hown hfirst hsecond hids
  · intro ref href
    obtain ⟨candidate, hcandidate, rfl⟩ := List.mem_map.mp href
    refine ⟨conflictClaim platform request candidate, List.mem_append_right _ ?_, rfl, rfl⟩
    exact mem_conflictClaims.mpr ⟨conflict, hconflict, candidate, hcandidate, rfl⟩

/-- **Referential closure.**  Where the derived ids are distinct, a bundle is closed exactly when
its candidates are coherent. -/
theorem closed_iff (hdistinct : DistinctIds platform request candidates) :
    ReferentiallyClosed (buildEvidenceBundle platform request context candidates) ↔
      Coherent platform candidates := by
  constructor
  · intro hclosed
    obtain ⟨hclaims, hconflicts⟩ := (nodup_claimIds_iff hdistinct).mp hclosed.claimIds
    exact ⟨hclaims, hconflicts, citationSource_iff.mp hclosed.citationSource⟩
  · intro hcoherent
    exact {
      sourceIds := nodup_lastEntries fun _ => rfl
      citationIds := nodup_lastEntries fun _ => rfl
      claimIds := (nodup_claimIds_iff hdistinct).mpr
        ⟨hcoherent.claimedOnce, hcoherent.conflictedOnce⟩
      contradictionIds := nodup_contradictionIds hdistinct
      gapIds := nodup_gapIds hdistinct
      citationSource := citationSource_iff.mpr hcoherent.sourced
      claimCitation := claims_cite
      contradictionClaims := contradictions_name hdistinct hcoherent.conflictedOnce
      sourceRefs := rfl }

end Closure

/-! ## A source validated between two statements -/

/-- With the digests of the gaps. -/
def closureDigests : List (JsString × JsString) := sampleDigests ++ [
  (js "evidence-gap:" ++ sampleUuid 1 ++ js ":" ++ sampleUuid 7 ++ js ":supported-source",
    js "acdd66252c38813d7167ebbe84f271c5" ++ js "871ce9eb487851784b5f901e8ff6709a"),
  (js "evidence-gap:" ++ sampleUuid 1 ++ js ":" ++ sampleUuid 7 ++
      js ":comparative-corroboration",
    js "3e9ee4e7c6e3edac3061f7cba9e42641" ++ js "bb036fc0bd168680e4308cc723ce964b")]

theorem sample_distinctIds :
    DistinctIds (samplePlatform closureDigests) sampleRequest sampleCandidates := by
  have hnodup : ((derivedSeeds (samplePlatform closureDigests) sampleRequest
      sampleCandidates).map (deterministicUuid (samplePlatform closureDigests))).Nodup := by
    decide +kernel
  exact fun left hleft right hright => List.inj_on_of_nodup_map hnodup hleft hright

theorem closed_iff_sample :
    ReferentiallyClosed (buildEvidenceBundle (samplePlatform closureDigests) sampleRequest
        sampleContext sampleCandidates) ↔
      Coherent (samplePlatform closureDigests) sampleCandidates :=
  closed_iff sample_distinctIds

/-- The citation of the validated statement names a source entry from before the validation. -/
theorem closure_fails :
    DistinctIds (samplePlatform closureDigests) sampleRequest sampleCandidates ∧
    ¬ ReferentiallyClosed (buildEvidenceBundle (samplePlatform closureDigests) sampleRequest
      sampleContext sampleCandidates) := by
  refine ⟨sample_distinctIds, fun hclosed => ?_⟩
  have hsources := citationSource_iff.mp hclosed.citationSource
  have hcited : (lastWith sampleCandidates (citationId (samplePlatform closureDigests) · =
      citationId (samplePlatform closureDigests) sampleCandidates[0])).map (·.authorityStatus) =
        some .officialTargetJurisdiction := by decide +kernel
  have horigin : (lastWith sampleCandidates (sourceEntryId (samplePlatform closureDigests) · =
      sourceEntryId (samplePlatform closureDigests) sampleCandidates[0])).map (·.authorityStatus) =
        some .unknown := by decide +kernel
  have hshared : ∀ candidate ∈ sampleCandidates,
      sourceEntryId (samplePlatform closureDigests) candidate =
        sourceEntryId (samplePlatform closureDigests) sampleCandidates[0] := by decide +kernel
  obtain ⟨cited, hcited, hofficial⟩ := Option.map_eq_some_iff.mp hcited
  obtain ⟨origin, horigin, hunknown⟩ := Option.map_eq_some_iff.mp horigin
  obtain ⟨hmem, hid⟩ := lastWith_some hcited
  rw [← of_decide_eq_true hid] at hcited
  rw [← hshared cited hmem] at horigin
  have hagree := (hsources cited origin hcited horigin).2.1
  rw [hofficial, hunknown] at hagree
  exact absurd hagree (by decide)

end SearchEvidence
