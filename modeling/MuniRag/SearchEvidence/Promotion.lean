import MuniRag.SearchEvidence.Closure
import MuniRag.Api.EvidenceIdentity

/-!
# Silent promotion

A slot is contested when two of its candidates are of different versions and have different
excerpts.  Nothing of a contested slot should be promoted, a contradiction should expose it, and
the order of the candidates should not matter.  As a version is represented by its last candidate
in the slot, this holds exactly when in each contested slot no excerpt occurs in all versions and
each version has one citation (`neverSilent_iff`).
-/

namespace SearchEvidence

open Api

section Promotion

variable (platform : Platform) (request : SearchRequest) (context : BuildContext) {σ : Type}
  (candidates : List (ClassifiedSearchCandidate σ))

/-- One document, one normalized label and one page, of different versions and with different
excerpts. -/
def Contested (left right : ClassifiedSearchCandidate σ) : Prop :=
  conflictSlot platform left = conflictSlot platform right ∧
    versionOf platform left ≠ versionOf platform right ∧
    excerptOf platform left ≠ excerptOf platform right

/-- A supported claim cites the citation. -/
def EvidenceBundle.Supports (bundle : EvidenceBundle) (id : JsString) : Prop :=
  ∃ claim ∈ bundle.claims, claim.evidenceStatus = .supported ∧ id ∈ claim.citationRefs

/-- A contradiction names a claim that cites the citation. -/
def EvidenceBundle.Questions (bundle : EvidenceBundle) (contradiction : Contradiction)
    (id : JsString) : Prop :=
  ∃ claim ∈ bundle.claims, claim.citationRefs = [id] ∧ claim.claimId ∈ contradiction.claimRefs

/-- A slot is exposed: no candidate of it backs a supported claim, and a contradiction names
claims of two versions in conflict. -/
structure Exposed (bundle : EvidenceBundle) (key : JsString) : Prop where
  unsupported : ∀ candidate ∈ slotGroup platform candidates key,
    ¬ bundle.Supports (citationId platform candidate)
  questioned : ∃ contradiction ∈ bundle.contradictions,
    ∃ left ∈ slotGroup platform candidates key, ∃ right ∈ slotGroup platform candidates key,
      Contested platform left right ∧
        bundle.Questions contradiction (citationId platform left) ∧
        bundle.Questions contradiction (citationId platform right)

/-- Each contradiction of the one is a contradiction of the other, between the same claims. -/
def ContradictionsAmong (left right : EvidenceBundle) : Prop :=
  ∀ contradiction ∈ left.contradictions, ∃ other ∈ right.contradictions,
    other.contradictionId = contradiction.contradictionId ∧
      ∀ ref, ref ∈ other.claimRefs ↔ ref ∈ contradiction.claimRefs

/-- Two bundles support the same citations and record the same contradictions. -/
structure SameOutcome (left right : EvidenceBundle) : Prop where
  supports : ∀ id, left.Supports id ↔ right.Supports id
  among : ContradictionsAmong left right
  among' : ContradictionsAmong right left

/-- Every contested slot is exposed, and the order of the candidates does not matter. -/
structure NeverSilent : Prop where
  exposed : ∀ left ∈ candidates, ∀ right ∈ candidates, Contested platform left right →
    Exposed platform candidates (buildEvidenceBundle platform request context candidates)
      (conflictSlot platform left)
  anyOrder : ∀ order : List (ClassifiedSearchCandidate σ), order.Perm candidates →
    SameOutcome (buildEvidenceBundle platform request context order)
      (buildEvidenceBundle platform request context candidates)

/-- In every contested slot no excerpt occurs in all versions and each version has one
citation. -/
structure ClearSlots : Prop where
  apart : ∀ left ∈ candidates, ∀ right ∈ candidates, Contested platform left right →
    ∀ excerpt, ∃ candidate ∈ slotGroup platform candidates (conflictSlot platform left),
      ∀ other ∈ slotGroup platform candidates (conflictSlot platform left),
        versionOf platform other = versionOf platform candidate →
        excerptOf platform other ≠ excerpt
  cited : ∀ left ∈ candidates, ∀ right ∈ candidates, Contested platform left right →
    ∀ first ∈ slotGroup platform candidates (conflictSlot platform left),
      ∀ second ∈ slotGroup platform candidates (conflictSlot platform left),
        versionOf platform first = versionOf platform second →
        citationId platform first = citationId platform second

/-- What the citation id of a candidate is derived from. -/
def citationSeed (candidate : ClassifiedSearchCandidate σ) : JsString :=
  js "evidence-citation:" ++ candidate.tenantId ++ js ":" ++ candidate.documentVersionId ++
    js ":" ++ candidate.sectionId ++ js ":" ++ candidate.citationLabel

/-- The texts from which the ids of citations, of claims in conflict and of contradictions are
derived, in any order of the candidates. -/
def conflictSeeds : List JsString :=
  candidates.map citationSeed ++
  candidates.map (fun candidate =>
    seedOf request "evidence-conflict-claim" (citationId platform candidate)) ++
  candidates.map fun candidate =>
    seedOf request "evidence-contradiction" (conflictSlot platform candidate)

/-- No two of these texts have one id. -/
def NoCollision : Prop :=
  ∀ left ∈ conflictSeeds platform request candidates,
    ∀ right ∈ conflictSeeds platform request candidates,
      deterministicUuid platform left = deterministicUuid platform right → left = right

/-- The tenant and the version of a stored candidate are UUIDs. -/
def StoredIds (candidate : ClassifiedSearchCandidate σ) : Prop :=
  (uuidValue candidate.tenantId).isSome = true ∧
    (uuidValue candidate.documentVersionId).isSome = true

variable {platform request context candidates} {order : List (ClassifiedSearchCandidate σ)}
  {left right candidate : ClassifiedSearchCandidate σ} {key : JsString}

/-! ## Ids -/

theorem citationId_eq (candidate : ClassifiedSearchCandidate σ) :
    citationId platform candidate = deterministicUuid platform (citationSeed candidate) := rfl

/-- Stored candidates with one citation are of one version. -/
theorem versionOf_of_citationId (hseeds : NoCollision platform request candidates)
    (hstored : ∀ candidate ∈ candidates, StoredIds candidate) (hleft : left ∈ candidates)
    (hright : right ∈ candidates) (hsame : citationId platform left = citationId platform right) :
    versionOf platform left = versionOf platform right := by
  have hmem : ∀ candidate ∈ candidates,
      citationSeed candidate ∈ conflictSeeds platform request candidates := by
    intro candidate hcandidate
    simp only [conflictSeeds, List.mem_append]
    exact .inl (.inl (List.mem_map_of_mem hcandidate))
  rw [citationId_eq, citationId_eq] at hsame
  have hseed := hseeds _ (hmem left hleft) _ (hmem right hright) hsame
  simp only [citationSeed, List.append_assoc] at hseed
  obtain ⟨htenantLeft, hversionLeft⟩ := hstored left hleft
  obtain ⟨htenantRight, hversionRight⟩ := hstored right hright
  have htenant := (List.append_inj (List.append_cancel_left hseed)
    ((uuid_units htenantLeft).1.trans (uuid_units htenantRight).1.symm)).2
  have hversion := (List.append_inj (List.append_cancel_left htenant)
    ((uuid_units hversionLeft).1.trans (uuid_units hversionRight).1.symm)).1
  exact congrArg platform.toLowerCase hversion

theorem conflictClaim_inj (hseeds : NoCollision platform request candidates)
    (hleft : left ∈ candidates) (hright : right ∈ candidates)
    (hsame : deterministicUuid platform
        (seedOf request "evidence-conflict-claim" (citationId platform left)) =
      deterministicUuid platform
        (seedOf request "evidence-conflict-claim" (citationId platform right))) :
    citationId platform left = citationId platform right := by
  have hmem : ∀ candidate ∈ candidates,
      seedOf request "evidence-conflict-claim" (citationId platform candidate) ∈
        conflictSeeds platform request candidates := by
    intro candidate hcandidate
    simp only [conflictSeeds, List.mem_append]
    refine .inl (.inr ?_)
    exact List.mem_map.mpr ⟨candidate, hcandidate, rfl⟩
  exact seedOf_injective (hseeds _ (hmem left hleft) _ (hmem right hright) hsame)

theorem contradictionId_inj (hseeds : NoCollision platform request candidates)
    (hleft : left ∈ candidates) (hright : right ∈ candidates)
    (hsame : deterministicUuid platform
        (seedOf request "evidence-contradiction" (conflictSlot platform left)) =
      deterministicUuid platform
        (seedOf request "evidence-contradiction" (conflictSlot platform right))) :
    conflictSlot platform left = conflictSlot platform right := by
  have hmem : ∀ candidate ∈ candidates,
      seedOf request "evidence-contradiction" (conflictSlot platform candidate) ∈
        conflictSeeds platform request candidates := by
    intro candidate hcandidate
    simp only [conflictSeeds, List.mem_append]
    refine .inr ?_
    exact List.mem_map.mpr ⟨candidate, hcandidate, rfl⟩
  exact seedOf_injective (hseeds _ (hmem left hleft) _ (hmem right hright) hsame)

/-! ## Slots in any order -/

theorem mem_slotGroup_perm (hperm : order.Perm candidates) :
    candidate ∈ slotGroup platform order key ↔ candidate ∈ slotGroup platform candidates key := by
  rw [mem_slotGroup, mem_slotGroup, hperm.mem_iff]

theorem representative_unique {group : List (ClassifiedSearchCandidate σ)}
    (hleft : left ∈ representatives platform group) (hright : right ∈ representatives platform group)
    (hversion : versionOf platform left = versionOf platform right) : left = right := by
  have hlast := mem_representatives.mp hleft
  rw [hversion, mem_representatives.mp hright] at hlast
  exact (Option.some.inj hlast).symm

/-- The conflict of a slot, if it is one. -/
def conflictAt (platform : Platform) (candidates : List (ClassifiedSearchCandidate σ))
    (key : JsString) : VersionConflict σ :=
  ⟨key, representatives platform (slotGroup platform candidates key)⟩

theorem mem_conflictAt (hperm : order.Perm candidates)
    (h : candidate ∈ (conflictAt platform order key).candidates) :
    candidate ∈ slotGroup platform candidates key :=
  (mem_slotGroup_perm hperm).mp (mem_of_representative h)

theorem conflictAt_mem_iff : conflictAt platform order key ∈ versionConflicts platform order ↔
    ∃ first ∈ (conflictAt platform order key).candidates,
      ∃ second ∈ (conflictAt platform order key).candidates,
        excerptOf platform first ≠ excerptOf platform second := by
  rw [mem_versionConflicts]
  exact and_iff_right rfl

theorem eq_conflictAt {conflict : VersionConflict σ}
    (h : conflict ∈ versionConflicts platform order) :
    conflict = conflictAt platform order conflict.key :=
  (mem_versionConflicts.mp h).1

/-- A conflict, in any order, is between contested candidates. -/
theorem contested_of_conflict (hperm : order.Perm candidates)
    (h : conflictAt platform order key ∈ versionConflicts platform order) :
    ∃ first ∈ (conflictAt platform order key).candidates,
      ∃ second ∈ (conflictAt platform order key).candidates,
        Contested platform first second ∧ first ∈ candidates ∧ second ∈ candidates ∧
          conflictSlot platform first = key := by
  obtain ⟨first, hfirst, second, hsecond, hexcerpt⟩ := conflictAt_mem_iff.mp h
  obtain ⟨hfirstMem, hfirstSlot⟩ := mem_slotGroup.mp (mem_conflictAt hperm hfirst)
  obtain ⟨hsecondMem, hsecondSlot⟩ := mem_slotGroup.mp (mem_conflictAt hperm hsecond)
  have hversion : versionOf platform first ≠ versionOf platform second := by
    intro hsame
    exact hexcerpt (congrArg (excerptOf platform) (representative_unique hfirst hsecond hsame))
  exact ⟨first, hfirst, second, hsecond,
    ⟨hfirstSlot.trans hsecondSlot.symm, hversion, hexcerpt⟩, hfirstMem, hsecondMem, hfirstSlot⟩

/-- A slot in which no excerpt occurs in all versions is found in any order. -/
theorem conflict_of_apart (hperm : order.Perm candidates)
    (hsome : candidate ∈ slotGroup platform candidates key)
    (hapart : ∀ excerpt, ∃ candidate ∈ slotGroup platform candidates key,
      ∀ other ∈ slotGroup platform candidates key,
        versionOf platform other = versionOf platform candidate →
        excerptOf platform other ≠ excerpt) :
    conflictAt platform order key ∈ versionConflicts platform order := by
  obtain ⟨first, hfirst, -⟩ :=
    @exists_representative platform σ _ _ ((mem_slotGroup_perm hperm).mpr hsome)
  obtain ⟨other, hother, hdiffer⟩ := hapart (excerptOf platform first)
  obtain ⟨second, hsecond, hversion⟩ :=
    @exists_representative platform σ _ _ ((mem_slotGroup_perm hperm).mpr hother)
  exact conflictAt_mem_iff.mpr ⟨second, hsecond, first, hfirst,
    hdiffer second (mem_conflictAt hperm hsecond) hversion⟩

/-! ## Bundles in any order -/

theorem supports_iff {id : JsString} :
    (buildEvidenceBundle platform request context order).Supports id ↔
      ∃ candidate ∈ order, candidate.evidenceStatus = .supported ∧
        citationId platform candidate = id ∧ id ∉ conflictingCitationIds platform order := by
  constructor
  · rintro ⟨claim, hclaim, hsupported, hid⟩
    obtain ⟨candidate, hpromoted, rfl⟩ := supported_claim_iff.mp ⟨hclaim, hsupported⟩
    obtain ⟨hmem, hstatus, hfree⟩ := mem_promoted.mp hpromoted
    obtain rfl : id = citationId platform candidate := List.mem_singleton.mp hid
    exact ⟨candidate, hmem, hstatus, rfl, hfree⟩
  · rintro ⟨candidate, hmem, hstatus, rfl, hfree⟩
    have hpromoted : candidate ∈ promoted platform order := mem_promoted.mpr ⟨hmem, hstatus, hfree⟩
    obtain ⟨hclaim, hsupported⟩ := (@supported_claim_iff platform σ order request context _).mpr
      ⟨candidate, hpromoted, rfl⟩
    exact ⟨_, hclaim, hsupported, List.mem_singleton_self _⟩

/-- The contradictions of a bundle are those of its conflicts. -/
theorem mem_contradictions {contradiction : Contradiction} :
    contradiction ∈ (buildEvidenceBundle platform request context order).contradictions ↔
      ∃ key, conflictAt platform order key ∈ versionConflicts platform order ∧
        contradictionFor platform request (conflictClaimByCitation platform request order)
          (conflictAt platform order key) = contradiction := by
  rw [buildEvidenceBundle, contradictionsOf_eq, List.mem_map]
  constructor
  · rintro ⟨conflict, hconflict, rfl⟩
    have heq := eq_conflictAt hconflict
    refine ⟨conflict.key, ?_, ?_⟩
    · rw [← heq]
      exact hconflict
    · rw [← heq]
  · rintro ⟨key, hconflict, rfl⟩
    exact ⟨_, hconflict, rfl⟩

theorem mem_claimRefs {ref : JsString}
    (h : conflictAt platform order key ∈ versionConflicts platform order) :
    ref ∈ (contradictionFor platform request (conflictClaimByCitation platform request order)
        (conflictAt platform order key)).claimRefs ↔
      ∃ candidate ∈ (conflictAt platform order key).candidates, deterministicUuid platform
        (seedOf request "evidence-conflict-claim" (citationId platform candidate)) = ref := by
  rw [claimRefs_eq h, List.mem_map]

/-! ## Clear slots -/

/-- A contested slot is in conflict in any order. -/
theorem ClearSlots.conflict (h : ClearSlots platform candidates) (hperm : order.Perm candidates)
    (hleft : left ∈ candidates) (hright : right ∈ candidates)
    (hcontested : Contested platform left right) :
    conflictAt platform order (conflictSlot platform left) ∈ versionConflicts platform order :=
  conflict_of_apart hperm (mem_slotGroup.mpr ⟨hleft, rfl⟩) (h.apart left hleft right hright hcontested)

/-- Each candidate of a contested slot has the citation of a representative. -/
theorem ClearSlots.represented (h : ClearSlots platform candidates)
    (hperm : order.Perm candidates) (hleft : left ∈ candidates) (hright : right ∈ candidates)
    (hcontested : Contested platform left right)
    (hmem : candidate ∈ slotGroup platform candidates (conflictSlot platform left)) :
    ∃ other ∈ (conflictAt platform order (conflictSlot platform left)).candidates,
      citationId platform other = citationId platform candidate := by
  obtain ⟨other, hother, hversion⟩ :=
    @exists_representative platform σ _ _ ((mem_slotGroup_perm hperm).mpr hmem)
  exact ⟨other, hother, h.cited left hleft right hright hcontested other
    (mem_conflictAt hperm hother) candidate hmem hversion⟩

/-- The citations in conflict are those of the contested slots. -/
theorem ClearSlots.conflicting_iff (h : ClearSlots platform candidates)
    (hperm : order.Perm candidates) {id : JsString} :
    id ∈ conflictingCitationIds platform order ↔
      ∃ left ∈ candidates, ∃ right ∈ candidates, Contested platform left right ∧
        ∃ candidate ∈ slotGroup platform candidates (conflictSlot platform left),
          citationId platform candidate = id := by
  constructor
  · intro hid
    obtain ⟨conflict, hconflict, hid⟩ := List.mem_flatMap.mp hid
    obtain ⟨candidate, hcandidate, rfl⟩ := List.mem_map.mp hid
    have heq := eq_conflictAt hconflict
    rw [heq] at hconflict hcandidate
    obtain ⟨first, -, second, -, hcontested, hfirst, hsecond, hslot⟩ :=
      contested_of_conflict hperm hconflict
    refine ⟨first, hfirst, second, hsecond, hcontested, candidate, ?_, rfl⟩
    rw [hslot]
    exact mem_conflictAt hperm hcandidate
  · rintro ⟨left, hleft, right, hright, hcontested, candidate, hcandidate, rfl⟩
    obtain ⟨other, hother, hid⟩ := h.represented hperm hleft hright hcontested hcandidate
    rw [← hid]
    exact citationId_mem_conflicting (h.conflict hperm hleft hright hcontested) hother

/-- Clear slots give one outcome in every two orders. -/
theorem ClearSlots.among (h : ClearSlots platform candidates)
    {other : List (ClassifiedSearchCandidate σ)} (hperm : order.Perm candidates)
    (hother : other.Perm candidates) :
    ContradictionsAmong (buildEvidenceBundle platform request context order)
      (buildEvidenceBundle platform request context other) := by
  intro contradiction hmem
  obtain ⟨key, hconflict, rfl⟩ := mem_contradictions.mp hmem
  obtain ⟨first, -, second, -, hcontested, hfirst, hsecond, rfl⟩ :=
    contested_of_conflict hperm hconflict
  have hfound := h.conflict hother hfirst hsecond hcontested
  refine ⟨_, mem_contradictions.mpr ⟨_, hfound, rfl⟩, rfl, fun ref => ?_⟩
  rw [mem_claimRefs hfound, mem_claimRefs hconflict]
  constructor
  · rintro ⟨candidate, hcandidate, rfl⟩
    obtain ⟨same, hsame, hid⟩ :=
      h.represented hperm hfirst hsecond hcontested (mem_conflictAt hother hcandidate)
    exact ⟨same, hsame, by rw [hid]⟩
  · rintro ⟨candidate, hcandidate, rfl⟩
    obtain ⟨same, hsame, hid⟩ :=
      h.represented hother hfirst hsecond hcontested (mem_conflictAt hperm hcandidate)
    exact ⟨same, hsame, by rw [hid]⟩

theorem ClearSlots.neverSilent (h : ClearSlots platform candidates) :
    NeverSilent platform request context candidates := by
  have hself : candidates.Perm candidates := List.Perm.refl candidates
  refine ⟨?_, ?_⟩
  · intro left hleft right hright hcontested
    refine ⟨?_, ?_⟩
    · intro candidate hcandidate hsupports
      obtain ⟨-, -, -, -, hfree⟩ := supports_iff.mp hsupports
      exact hfree ((h.conflicting_iff hself).mpr
        ⟨left, hleft, right, hright, hcontested, candidate, hcandidate, rfl⟩)
    · have hconflict := h.conflict hself hleft hright hcontested
      obtain ⟨first, hfirst, second, hsecond, hbetween, -, -, -⟩ :=
        contested_of_conflict hself hconflict
      have hquestions : ∀ candidate ∈
          (conflictAt platform candidates (conflictSlot platform left)).candidates,
          (buildEvidenceBundle platform request context candidates).Questions
            (contradictionFor platform request (conflictClaimByCitation platform request candidates)
              (conflictAt platform candidates (conflictSlot platform left)))
            (citationId platform candidate) := by
        intro candidate hcandidate
        refine ⟨conflictClaim platform request candidate, List.mem_append_right _ ?_, rfl, ?_⟩
        · exact mem_conflictClaims.mpr ⟨_, hconflict, candidate, hcandidate, rfl⟩
        · exact (mem_claimRefs hconflict).mpr ⟨candidate, hcandidate, rfl⟩
      exact ⟨_, mem_contradictions.mpr ⟨_, hconflict, rfl⟩, first, mem_conflictAt hself hfirst,
        second, mem_conflictAt hself hsecond, hbetween, hquestions first hfirst,
        hquestions second hsecond⟩
  · intro order hperm
    refine ⟨fun id => ?_, h.among hperm hself, h.among hself hperm⟩
    rw [supports_iff, supports_iff, h.conflicting_iff hperm, h.conflicting_iff hself]
    simp only [hperm.mem_iff]

/-! ## Orders that hide a conflict -/

/-- Candidates that come last represent their versions. -/
theorem representative_late {early late : List (ClassifiedSearchCandidate σ)}
    {other : ClassifiedSearchCandidate σ}
    (hmem : candidate ∈ (conflictAt platform (early ++ late) key).candidates)
    (hother : other ∈ slotGroup platform late key)
    (hversion : versionOf platform other = versionOf platform candidate) :
    candidate ∈ slotGroup platform late key := by
  have hlast := mem_representatives.mp hmem
  obtain ⟨last, hlate⟩ := @lastWith_isSome σ (slotGroup platform late key)
    (versionOf platform · = versionOf platform candidate) other hother (decide_eq_true hversion)
  have happend : lastWith (slotGroup platform (early ++ late) key)
      (versionOf platform · = versionOf platform candidate) = some last := by
    rw [lastWith, slotGroup, List.filter_append, List.reverse_append, List.find?_append]
    rw [lastWith, slotGroup] at hlate
    rw [hlate]
    rfl
  obtain rfl : last = candidate := Option.some.inj (happend.symm.trans hlast)
  exact (lastWith_some hlate).1

/-- An order in which the candidates with a property come last. -/
theorem exists_late (candidates : List (ClassifiedSearchCandidate σ))
    (p : ClassifiedSearchCandidate σ → Prop) : ∃ early late : List (ClassifiedSearchCandidate σ),
      (early ++ late).Perm candidates ∧ ∀ candidate, candidate ∈ late ↔
        candidate ∈ candidates ∧ p candidate := by
  classical
  refine ⟨candidates.filter (fun candidate => ¬ p candidate), candidates.filter fun candidate =>
    p candidate, ?_, ?_⟩
  · have hsplit := List.filter_append_perm (fun candidate => decide (¬ p candidate)) candidates
    simpa using hsplit
  · intro candidate
    rw [List.mem_filter, decide_eq_true_iff]

/-- Where the order does not matter, a slot in conflict in one order is so in any other, with a
claim for each citation. -/
theorem conflict_of_sameOutcome (hseeds : NoCollision platform request candidates)
    {other : List (ClassifiedSearchCandidate σ)} (hperm : order.Perm candidates)
    (hother : other.Perm candidates)
    (hsame : ContradictionsAmong (buildEvidenceBundle platform request context order)
      (buildEvidenceBundle platform request context other))
    (hconflict : conflictAt platform order key ∈ versionConflicts platform order) :
    conflictAt platform other key ∈ versionConflicts platform other ∧
      ∀ candidate ∈ (conflictAt platform order key).candidates,
        ∃ same ∈ (conflictAt platform other key).candidates,
          citationId platform same = citationId platform candidate := by
  obtain ⟨contradiction, hmem, hid, hrefs⟩ :=
    hsame _ (mem_contradictions.mpr ⟨key, hconflict, rfl⟩)
  obtain ⟨otherKey, hfound, rfl⟩ := mem_contradictions.mp hmem
  obtain ⟨first, -, -, -, -, hfirst, -, hfirstSlot⟩ := contested_of_conflict hperm hconflict
  obtain ⟨second, -, -, -, -, hsecond, -, hsecondSlot⟩ := contested_of_conflict hother hfound
  have hkeys : otherKey = key := by
    have hslots : conflictSlot platform second = conflictSlot platform first := by
      refine contradictionId_inj hseeds hsecond hfirst ?_
      rw [hfirstSlot, hsecondSlot]
      exact hid
    rw [← hfirstSlot, ← hsecondSlot, hslots]
  subst hkeys
  refine ⟨hfound, fun candidate hcandidate => ?_⟩
  have href := (hrefs _).mpr ((mem_claimRefs hconflict).mpr ⟨candidate, hcandidate, rfl⟩)
  obtain ⟨same, hsameMem, hclaim⟩ := (mem_claimRefs hfound).mp href
  refine ⟨same, hsameMem, conflictClaim_inj hseeds ?_ ?_ hclaim⟩
  · exact (mem_slotGroup.mp (mem_conflictAt hother hsameMem)).1
  · exact (mem_slotGroup.mp (mem_conflictAt hperm hcandidate)).1

/-- Two contested candidates that come last put their slot in conflict. -/
theorem conflict_of_late {early late : List (ClassifiedSearchCandidate σ)}
    (hleft : left ∈ slotGroup platform late key) (hright : right ∈ slotGroup platform late key)
    (hlate : ∀ candidate ∈ slotGroup platform late key, candidate = left ∨ candidate = right)
    (hversion : versionOf platform left ≠ versionOf platform right)
    (hexcerpt : excerptOf platform left ≠ excerptOf platform right) :
    conflictAt platform (early ++ late) key ∈ versionConflicts platform (early ++ late) := by
  have hrepresents : ∀ candidate ∈ slotGroup platform late key,
      candidate ∈ (conflictAt platform (early ++ late) key).candidates := by
    intro candidate hcandidate
    have hmem : candidate ∈ slotGroup platform (early ++ late) key := by
      rw [slotGroup, List.filter_append]
      exact List.mem_append_right _ hcandidate
    obtain ⟨last, hlast, hsame⟩ := @exists_representative platform σ _ _ hmem
    have hlastLate : last ∈ slotGroup platform late key :=
      representative_late hlast hcandidate hsame.symm
    have heq : last = candidate := by
      rcases hlate last hlastLate with rfl | rfl <;> rcases hlate candidate hcandidate with rfl | rfl
      · rfl
      · exact absurd hsame hversion
      · exact absurd hsame.symm hversion
      · rfl
    exact heq ▸ hlast
  exact conflictAt_mem_iff.mpr
    ⟨left, hrepresents left hleft, right, hrepresents right hright, hexcerpt⟩

theorem mem_slotGroup_late {late : List (ClassifiedSearchCandidate σ)}
    {p : ClassifiedSearchCandidate σ → Prop}
    (hlate : ∀ candidate, candidate ∈ late ↔ candidate ∈ candidates ∧ p candidate) :
    candidate ∈ slotGroup platform late key ↔
      candidate ∈ slotGroup platform candidates key ∧ p candidate := by
  rw [mem_slotGroup, mem_slotGroup, hlate]
  tauto

/-- Where the order does not matter, contested slots are clear. -/
theorem clear_of_anyOrder (hseeds : NoCollision platform request candidates)
    (hstored : ∀ candidate ∈ candidates, StoredIds candidate)
    (h : ∀ order : List (ClassifiedSearchCandidate σ), order.Perm candidates →
      SameOutcome (buildEvidenceBundle platform request context order)
        (buildEvidenceBundle platform request context candidates)) :
    ClearSlots platform candidates := by
  have hself : candidates.Perm candidates := List.Perm.refl candidates
  have hapart : ∀ left ∈ candidates, ∀ right ∈ candidates, Contested platform left right →
      ∀ excerpt, ∃ candidate ∈ slotGroup platform candidates (conflictSlot platform left),
        ∀ other ∈ slotGroup platform candidates (conflictSlot platform left),
          versionOf platform other = versionOf platform candidate →
          excerptOf platform other ≠ excerpt := by
    intro left hleft right hright hcontested excerpt
    by_contra hcommon
    push Not at hcommon
    obtain ⟨hslot, hversion, hexcerpt⟩ := hcontested
    -- With the two last, the slot is in conflict.
    obtain ⟨early, late, hperm, hlate⟩ :=
      exists_late candidates fun candidate => candidate = left ∨ candidate = right
    have hconflict : conflictAt platform (early ++ late) (conflictSlot platform left) ∈
        versionConflicts platform (early ++ late) := by
      have hleftLate : left ∈ slotGroup platform late (conflictSlot platform left) :=
        (mem_slotGroup_late hlate).mpr ⟨mem_slotGroup.mpr ⟨hleft, rfl⟩, .inl rfl⟩
      have hrightLate : right ∈ slotGroup platform late (conflictSlot platform left) :=
        (mem_slotGroup_late hlate).mpr ⟨mem_slotGroup.mpr ⟨hright, hslot.symm⟩, .inr rfl⟩
      exact conflict_of_late hleftLate hrightLate
        (fun candidate hcandidate => ((mem_slotGroup_late hlate).mp hcandidate).2) hversion hexcerpt
    -- With the candidates of the common excerpt last, it is not.
    obtain ⟨early', late', hperm', hlate'⟩ :=
      exists_late candidates fun candidate => excerptOf platform candidate = excerpt
    obtain ⟨hfound, -⟩ := conflict_of_sameOutcome hseeds hperm hself (h _ hperm).among hconflict
    obtain ⟨hfound', -⟩ :=
      conflict_of_sameOutcome hseeds hself hperm' (h _ hperm').among' hfound
    have hhidden : ∀ candidate ∈
        (conflictAt platform (early' ++ late') (conflictSlot platform left)).candidates,
        excerptOf platform candidate = excerpt := by
      intro candidate hcandidate
      obtain ⟨other, hother, hsame, htext⟩ := hcommon candidate (mem_conflictAt hperm' hcandidate)
      have hotherLate := (mem_slotGroup_late hlate').mpr ⟨hother, htext⟩
      exact ((mem_slotGroup_late hlate').mp (representative_late hcandidate hotherLate hsame)).2
    obtain ⟨first, hfirst, second, hsecond, hdiffer⟩ := conflictAt_mem_iff.mp hfound'
    exact hdiffer ((hhidden first hfirst).trans (hhidden second hsecond).symm)
  refine ⟨hapart, fun left hleft right hright hcontested first hfirst second hsecond hversion => ?_⟩
  -- With either of the two last, it represents its version.
  have hrepresents : ∀ candidate ∈ slotGroup platform candidates (conflictSlot platform left),
      ∃ order : List (ClassifiedSearchCandidate σ), order.Perm candidates ∧
        candidate ∈ (conflictAt platform order (conflictSlot platform left)).candidates := by
    intro candidate hcandidate
    obtain ⟨early, late, hperm, hlate⟩ := exists_late candidates (· = candidate)
    obtain ⟨last, hlast, hsame⟩ :=
      @exists_representative platform σ _ _ ((mem_slotGroup_perm hperm).mpr hcandidate)
    have hown := (mem_slotGroup_late hlate).mpr ⟨hcandidate, rfl⟩
    obtain rfl : last = candidate :=
      ((mem_slotGroup_late hlate).mp (representative_late hlast hown hsame.symm)).2
    exact ⟨early ++ late, hperm, hlast⟩
  obtain ⟨order, hperm, hrep⟩ := hrepresents first hfirst
  obtain ⟨order', hperm', hrep'⟩ := hrepresents second hsecond
  have hconflict := conflict_of_apart hperm (mem_slotGroup.mpr ⟨hleft, rfl⟩)
    (hapart left hleft right hright hcontested)
  obtain ⟨hfound, hsame⟩ :=
    conflict_of_sameOutcome hseeds hperm hself (h _ hperm).among hconflict
  obtain ⟨-, hsame'⟩ := conflict_of_sameOutcome hseeds hself hperm' (h _ hperm').among' hfound
  obtain ⟨middle, hmiddle, hmiddleId⟩ := hsame first hrep
  obtain ⟨last, hlast, hlastId⟩ := hsame' middle hmiddle
  have hid : citationId platform last = citationId platform first := hlastId.trans hmiddleId
  have hlastVersion : versionOf platform last = versionOf platform first :=
    versionOf_of_citationId hseeds hstored (mem_slotGroup.mp (mem_conflictAt hperm' hlast)).1
      (mem_slotGroup.mp hfirst).1 hid
  rw [← hid, representative_unique hlast hrep' (hlastVersion.trans hversion)]

/-- **Silent promotion.**  Where the derived ids are distinct, contested slots are exposed and the
order of the candidates does not matter, exactly when the slots are clear. -/
theorem neverSilent_iff (hseeds : NoCollision platform request candidates)
    (hstored : ∀ candidate ∈ candidates, StoredIds candidate) :
    NeverSilent platform request context candidates ↔ ClearSlots platform candidates :=
  ⟨fun h => clear_of_anyOrder hseeds hstored h.anyOrder, ClearSlots.neverSilent⟩

end Promotion

/-! ## A conflict behind a later section -/

def conflictDigests : List (JsString × JsString) := [
  (js "evidence-citation:" ++ sampleUuid 1 ++ js ":" ++ sampleUuid 4 ++ js ":" ++ sampleUuid 5 ++
      js ":Articulo 1",
    js "13d7add4cc17611e9fc173b92cbb02e7" ++ js "3629cd857b8154650db4c1f10abe732e"),
  (js "evidence-citation:" ++ sampleUuid 1 ++ js ":" ++ sampleUuid 9 ++ js ":" ++ sampleUuid 10 ++
      js ":Articulo 1",
    js "4d06e957fc961c999cb379749cc511e2" ++ js "68cae08e535685edb16e2a976456584e"),
  (js "evidence-citation:" ++ sampleUuid 1 ++ js ":" ++ sampleUuid 4 ++ js ":" ++ sampleUuid 6 ++
      js ":Articulo 1",
    js "22b32a3c731c59823bef046094a8a152" ++ js "7200f49094507f7f87c0962957f9276a"),
  (js "evidence-conflict-claim:" ++ sampleUuid 1 ++ js ":" ++ sampleUuid 7 ++
      js ":13d7add4-cc17-511e-9fc1-73b92cbb02e7",
    js "8d6538d14d9ba702b15a10e060b26768" ++ js "bfd959459e7e8dfeb9fbaa49b562f7c3"),
  (js "evidence-conflict-claim:" ++ sampleUuid 1 ++ js ":" ++ sampleUuid 7 ++
      js ":4d06e957-fc96-5c99-9cb3-79749cc511e2",
    js "3add20b1ce0a654e17540bf056e8a5e5" ++ js "0b9a002c7f135f0380dedc5c976efc5f"),
  (js "evidence-conflict-claim:" ++ sampleUuid 1 ++ js ":" ++ sampleUuid 7 ++
      js ":22b32a3c-731c-5982-bbef-046094a8a152",
    js "129ee1276b826d1080d4fbb0e8c63959" ++ js "aedebfff0f1ede740bd3b046846fda3c"),
  (js "evidence-contradiction:" ++ sampleUuid 1 ++ js ":" ++ sampleUuid 7 ++ js ":" ++
      sampleUuid 3 ++ js ":articulo 1:1",
    js "5c0f28f6a33f65117b509e9833c6b20b" ++ js "c5da2c8e99d9d824ec0c13f40a2c34c6")]

/-- A section of a version, found by the keyword search. -/
def versionSection (version sectionDigit : Nat) (excerpt : String) : ClassifiedSearchCandidate ℚ :=
  classify (samplePlatform conflictDigests) exactScores
    { sampleRow .validated sectionDigit "Articulo 1" excerpt (some 1) none with
      documentVersionId := sampleUuid version } sampleRequest [.keyword] 1 .tsRankCd

/-- Two sections of a version under one label, and one of another version between them that has
the text of the second. -/
def hiddenConflict : List (ClassifiedSearchCandidate ℚ) := [
  versionSection 4 5 "Toda licencia.", versionSection 9 10 "Toda solicitud.",
  versionSection 4 6 "Toda solicitud."]

theorem hiddenConflict_seeds :
    NoCollision (samplePlatform conflictDigests) sampleRequest hiddenConflict := by
  have hnodup : ((conflictSeeds (samplePlatform conflictDigests) sampleRequest
      hiddenConflict).dedup.map (deterministicUuid (samplePlatform conflictDigests))).Nodup := by
    decide +kernel
  exact fun left hleft right hright => List.inj_on_of_nodup_map hnodup
    (List.mem_dedup.mpr hleft) (List.mem_dedup.mpr hright)

theorem hiddenConflict_stored : ∀ candidate ∈ hiddenConflict, StoredIds candidate := by
  unfold StoredIds
  decide +kernel

theorem neverSilent_iff_sample :
    NeverSilent (samplePlatform conflictDigests) sampleRequest sampleContext hiddenConflict ↔
      ClearSlots (samplePlatform conflictDigests) hiddenConflict :=
  neverSilent_iff hiddenConflict_seeds hiddenConflict_stored

/-- The later section hides the conflict, and the first one backs a supported claim. -/
theorem conflict_promoted_silently :
    NoCollision (samplePlatform conflictDigests) sampleRequest hiddenConflict ∧
    ¬ NeverSilent (samplePlatform conflictDigests) sampleRequest sampleContext hiddenConflict := by
  refine ⟨hiddenConflict_seeds, fun hnever => ?_⟩
  have hcontested : ∃ left ∈ hiddenConflict, ∃ right ∈ hiddenConflict,
      left.evidenceStatus = .supported ∧
        (conflictSlot (samplePlatform conflictDigests) left =
            conflictSlot (samplePlatform conflictDigests) right ∧
          versionOf (samplePlatform conflictDigests) left ≠
            versionOf (samplePlatform conflictDigests) right ∧
          excerptOf (samplePlatform conflictDigests) left ≠
            excerptOf (samplePlatform conflictDigests) right) := by
    decide +kernel
  have hfree : (conflictingCitationIds (samplePlatform conflictDigests) hiddenConflict).length =
      0 := by decide +kernel
  obtain ⟨left, hleft, right, hright, hsupported, hcontested⟩ := hcontested
  have hexposed := hnever.exposed left hleft right hright hcontested
  refine hexposed.unsupported left (mem_slotGroup.mpr ⟨hleft, rfl⟩) (supports_iff.mpr ?_)
  refine ⟨left, hleft, hsupported, rfl, ?_⟩
  rw [List.length_eq_zero_iff.mp hfree]
  exact List.not_mem_nil

end SearchEvidence
