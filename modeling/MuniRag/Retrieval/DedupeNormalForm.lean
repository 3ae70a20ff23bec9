import MuniRag.Lib.Grouping
import MuniRag.Retrieval.Dedupe

/-!
# Deduplicated candidates are a normal form

The key of a merged candidate is computed from ids and an excerpt that may come from different
members of its group.  It is the key of the group all the same (`keepsKey`), so deduplicating
again changes nothing.  The modes are a union, and the scores are maxima, of which the order of
the members does not matter.
-/

namespace Retrieval

open Api

section NormalForm

variable {platform : Platform} {candidates group : List HybridCandidate}
  {existing incoming first member merged : HybridCandidate} {rest : List HybridCandidate}

/-! ## Keys -/

/-- The digests are of 32 bytes. -/
def DigestsFull (platform : Platform) : Prop :=
  ∀ text, (platform.sha256 text).length = 32

theorem length_hashExcerpt (hdigests : DigestsFull platform) (excerpt : JsString) :
    (hashExcerpt platform excerpt).length = 16 := by
  have hspelled : ∀ bytes : List UInt8, (bytes.flatMap fun byte =>
      [hexUnit (byte.toNat / 16), hexUnit (byte.toNat % 16)]).length = 2 * bytes.length := by
    intro bytes
    induction bytes with
    | nil => rfl
    | cons byte bytes ih =>
        rw [List.flatMap_cons, List.length_append, ih, List.length_cons]
        simp only [List.length_cons, List.length_nil]
        omega
  rw [hashExcerpt, List.length_take, hspelled, hdigests]
  rfl

theorem isTruthy_orElse_of_not {left right : Option JsString} (hleft : isTruthy left = false)
    (hright : isTruthy right = false) : isTruthy (left <|> right) = false := by
  cases left with
  | none => exact hright
  | some text => exact hleft

theorem orElse_of_isTruthy {left : Option JsString} (hleft : isTruthy left = true)
    (right : Option JsString) : (left <|> right) = left := by
  cases left with
  | none => exact absurd hleft (by decide)
  | some text => rfl

/-- Texts that differ in their first two units are not equal, whatever follows. -/
theorem append_ne_append {left right : JsString} (hleft : 2 ≤ left.length)
    (hright : 2 ≤ right.length) (hstart : left.take 2 ≠ right.take 2) (more other : JsString) :
    left ++ more ≠ right ++ other := by
  intro h
  have htake := congrArg (List.take 2) h
  rw [List.take_append_of_le_length hleft, List.take_append_of_le_length hright] at htake
  exact hstart htake

/-- What the key of a candidate is made of. -/
theorem key_cases (platform : Platform) (member : HybridCandidate) :
    (isTruthy member.chunkId = true ∧
      dedupeKeyForCandidate platform member = js "chunk:" ++ member.chunkId.getD []) ∨
    (isTruthy member.chunkId = false ∧ isTruthy member.sectionId = true ∧
      dedupeKeyForCandidate platform member = js "section:" ++ member.sectionId.getD []) ∨
    (isTruthy member.chunkId = false ∧ isTruthy member.sectionId = false ∧
      dedupeKeyForCandidate platform member = js "citation:" ++ (member.citationLabel ++ js ":" ++
        hashExcerpt platform member.excerpt)) := by
  unfold dedupeKeyForCandidate
  cases hchunk : isTruthy member.chunkId with
  | true => exact .inl ⟨rfl, if_pos rfl⟩
  | false =>
      cases hsection : isTruthy member.sectionId with
      | true => exact .inr (.inl ⟨rfl, rfl, rfl⟩)
      | false => exact .inr (.inr ⟨rfl, rfl, by simp [List.append_assoc]⟩)

theorem excerpt_merge (existing incoming : HybridCandidate) :
    (mergeHybridCandidates existing incoming).excerpt = existing.excerpt ∨
      (mergeHybridCandidates existing incoming).excerpt = incoming.excerpt :=
  ite_eq_or_eq _ _ _

/-- **Keys.**  The merge of two candidates with one key has that key. -/
theorem keepsKey (hdigests : DigestsFull platform) :
    Grouping.KeepsKey (dedupeKeyForCandidate platform) mergeHybridCandidates := by
  intro existing incoming hkey
  rcases key_cases platform existing with
    ⟨hchunk, hold⟩ | ⟨hchunk, hsection, hold⟩ | ⟨hchunk, hsection, hold⟩
  · have hmerged : (mergeHybridCandidates existing incoming).chunkId = existing.chunkId :=
      orElse_of_isTruthy hchunk _
    rw [dedupeKeyForCandidate, hmerged, if_pos hchunk, hold]
  · rcases key_cases platform incoming with ⟨-, hnew⟩ | ⟨hchunk', -, -⟩ | ⟨hchunk', -, -⟩
    · rw [hold, hnew] at hkey
      exact absurd hkey.symm (append_ne_append (by decide) (by decide) (by decide) _ _)
    all_goals
      have hnone : isTruthy (mergeHybridCandidates existing incoming).chunkId = false :=
        isTruthy_orElse_of_not hchunk hchunk'
      have hmerged : (mergeHybridCandidates existing incoming).sectionId = existing.sectionId :=
        orElse_of_isTruthy hsection _
      rw [dedupeKeyForCandidate, hnone, hmerged, hsection, hold]
      rfl
  · rcases key_cases platform incoming with
      ⟨-, hnew⟩ | ⟨-, -, hnew⟩ | ⟨hchunk', hsection', hnew⟩
    · rw [hold, hnew] at hkey
      exact absurd hkey.symm (append_ne_append (by decide) (by decide) (by decide) _ _)
    · rw [hold, hnew] at hkey
      exact absurd hkey.symm (append_ne_append (by decide) (by decide) (by decide) _ _)
    · -- The label is the older one's, and the excerpts have one digest.
      have hdigest : hashExcerpt platform existing.excerpt =
          hashExcerpt platform incoming.excerpt := by
        rw [hold, hnew] at hkey
        refine List.append_inj_right' (List.append_cancel_left hkey) ?_
        rw [length_hashExcerpt hdigests, length_hashExcerpt hdigests]
      have hnochunk : isTruthy (mergeHybridCandidates existing incoming).chunkId = false :=
        isTruthy_orElse_of_not hchunk hchunk'
      have hnosection : isTruthy (mergeHybridCandidates existing incoming).sectionId = false :=
        isTruthy_orElse_of_not hsection hsection'
      have hexcerpt : hashExcerpt platform (mergeHybridCandidates existing incoming).excerpt =
          hashExcerpt platform existing.excerpt := by
        rcases excerpt_merge existing incoming with h | h
        · rw [h]
        · rw [h, hdigest]
      rw [dedupeKeyForCandidate, hnochunk, hnosection, hexcerpt, hold, ← List.append_assoc,
        ← List.append_assoc]
      rfl

theorem mergedByKey_eq_byKey (platform : Platform) (candidates : List HybridCandidate) :
    mergedByKey platform candidates =
      Grouping.byKey (dedupeKeyForCandidate platform) mergeHybridCandidates candidates := by
  have hadd : addToMerged platform =
      Grouping.add (dedupeKeyForCandidate platform) mergeHybridCandidates := by
    funext merged candidate
    rw [addToMerged, Grouping.add]
    cases JsMap.get merged (dedupeKeyForCandidate platform candidate) <;> rfl
  rw [mergedByKey, hadd, Grouping.byKey]

theorem dedupe_eq_normalize (platform : Platform) (candidates : List HybridCandidate) :
    dedupeHybridCandidates platform candidates =
      Grouping.normalize (dedupeKeyForCandidate platform) mergeHybridCandidates candidates :=
  congrArg JsMap.values (mergedByKey_eq_byKey platform candidates)

/-- What is returned is the merge of its group. -/
theorem mergeGroup_of_mem (hdigests : DigestsFull platform)
    (hmerged : merged ∈ dedupeHybridCandidates platform candidates) :
    mergeGroup (groupOf platform candidates (dedupeKeyForCandidate platform merged)) =
      some merged := by
  rw [dedupe_eq_normalize] at hmerged
  rw [← get_mergedByKey, mergedByKey_eq_byKey]
  exact Grouping.get_of_mem_normalize (keepsKey hdigests) hmerged

/-! ## Modes -/

/-- The modes of a group, each of them once. -/
structure IsUnionOfModes (group : List HybridCandidate) (modes : List RetrievalMode) : Prop where
  ordered : modes.Sublist retrievalModePriority
  shown : ∀ mode, mode ∈ modes ↔ ∃ member ∈ group, mode ∈ member.matchedModes

theorem mem_retrievalModePriority (mode : RetrievalMode) : mode ∈ retrievalModePriority := by
  cases mode <;> decide

theorem mem_mergeModes {a b : List RetrievalMode} {mode : RetrievalMode} :
    mode ∈ mergeModes a b ↔ mode ∈ a ∨ mode ∈ b := by
  simp [mergeModes, mem_retrievalModePriority]

theorem mem_matchedModes_foldl (rest : List HybridCandidate) (first : HybridCandidate)
    (mode : RetrievalMode) :
    mode ∈ (rest.foldl mergeHybridCandidates first).matchedModes ↔
      ∃ member ∈ first :: rest, mode ∈ member.matchedModes := by
  induction rest generalizing first with
  | nil => simp
  | cons next rest ih =>
      have hboth : mode ∈ (mergeHybridCandidates first next).matchedModes ↔
          mode ∈ first.matchedModes ∨ mode ∈ next.matchedModes := mem_mergeModes
      rw [List.foldl_cons, ih]
      simp only [List.exists_mem_cons_iff, hboth, or_assoc]

/-- **Modes.**  The merge of several candidates has the modes of all of them. -/
theorem isUnionOfModes (hgroup : 2 ≤ group.length) (hmerged : mergeGroup group = some merged) :
    IsUnionOfModes group merged.matchedModes := by
  rcases group with _ | ⟨first, rest⟩
  · exact absurd hmerged (by simp [mergeGroup])
  · obtain rfl := Option.some.inj hmerged
    refine ⟨?_, mem_matchedModes_foldl rest first⟩
    rcases List.eq_nil_or_concat rest with rfl | ⟨init, last, rfl⟩
    · exact absurd hgroup (by simp)
    · rw [List.concat_eq_append, List.foldl_concat]
      exact List.filter_sublist

/-! ## Scores -/

instance : Std.Commutative mathMax where
  comm left right := by
    cases left <;> cases right <;> simp [mathMax, max_comm]

instance : Std.Associative mathMax where
  assoc left middle right := by
    cases left <;> cases middle <;> cases right <;> simp [mathMax, max_assoc]

theorem mathMax_negInfinity (value : JsNumber) : mathMax .negInfinity value = value := by
  cases value <;> rfl

/-- A maximum is one of all the members, the first included. -/
theorem foldl_merge_scores (component : Component) (hrest : rest ≠ []) :
    (rest.foldl mergeHybridCandidates first).scores.at component =
      some (((first :: rest).map (given component)).foldl mathMax .negInfinity) := by
  rw [@foldl_merge_at first rest component hrest, List.map_cons, List.foldl_cons,
    mathMax_negInfinity]

theorem HybridScoreComponents.ext_at {left right : HybridScoreComponents}
    (h : ∀ component, left.at component = right.at component) : left = right := by
  cases left
  cases right
  have hphrase := h .phrase
  have hkeyword := h .keyword
  have hvector := h .vector
  have hprovenance := h .provenance
  simp only [HybridScoreComponents.at] at hphrase hkeyword hvector hprovenance
  rw [hphrase, hkeyword, hvector, hprovenance]

/-- **Scores.**  The scores of a merge do not depend on the order of the group. -/
theorem scores_eq_of_perm {group' : List HybridCandidate} {merged' : HybridCandidate}
    (hgroup : mergeGroup group = some merged) (hgroup' : mergeGroup group' = some merged')
    (hperm : group.Perm group') : merged.scores = merged'.scores := by
  rcases group with _ | ⟨first, rest⟩
  · exact absurd hgroup (by simp [mergeGroup])
  rcases group' with _ | ⟨first', rest'⟩
  · exact absurd hgroup' (by simp [mergeGroup])
  obtain rfl := Option.some.inj hgroup
  obtain rfl := Option.some.inj hgroup'
  have hlength := hperm.length_eq
  by_cases hrest : rest = []
  · -- A group of one.
    subst hrest
    have hrest' : rest' = [] := List.eq_nil_of_length_eq_zero (by simpa using hlength.symm)
    subst hrest'
    rw [List.singleton_perm_singleton.mp hperm]
  · have hrest' : rest' ≠ [] := by
      rintro rfl
      exact hrest (List.eq_nil_of_length_eq_zero (by simpa using hlength))
    refine HybridScoreComponents.ext_at fun component => ?_
    rw [foldl_merge_scores component hrest, foldl_merge_scores component hrest',
      (hperm.map (given component)).foldl_eq]

/-! ## The normal form -/

/-- **Deduplicating.**  There is one candidate for each key, in the order of first occurrence;
one that stands for several has the modes of all of them; its scores do not depend on their
order; and deduplicating again changes nothing. -/
theorem dedupe_normalForm (platform : Platform) (hdigests : DigestsFull platform)
    (candidates : List HybridCandidate) :
    (dedupeHybridCandidates platform candidates).map (dedupeKeyForCandidate platform) =
      (candidates.map (dedupeKeyForCandidate platform)).eraseDups ∧
    (∀ merged ∈ dedupeHybridCandidates platform candidates,
      2 ≤ (groupOf platform candidates (dedupeKeyForCandidate platform merged)).length →
      IsUnionOfModes (groupOf platform candidates (dedupeKeyForCandidate platform merged))
        merged.matchedModes) ∧
    (∀ others : List HybridCandidate, ∀ merged ∈ dedupeHybridCandidates platform candidates,
      ∀ other ∈ dedupeHybridCandidates platform others,
      (groupOf platform candidates (dedupeKeyForCandidate platform merged)).Perm
        (groupOf platform others (dedupeKeyForCandidate platform other)) →
      merged.scores = other.scores) ∧
    dedupeHybridCandidates platform (dedupeHybridCandidates platform candidates) =
      dedupeHybridCandidates platform candidates := by
  refine ⟨?_, fun merged hmerged hseveral => ?_, fun others merged hmerged other hother hperm => ?_,
    ?_⟩
  · rw [dedupe_eq_normalize]
    exact Grouping.map_keyOf_normalize (keepsKey hdigests) candidates
  · exact isUnionOfModes hseveral (mergeGroup_of_mem hdigests hmerged)
  · exact scores_eq_of_perm (mergeGroup_of_mem hdigests hmerged)
      (mergeGroup_of_mem hdigests hother) hperm
  · rw [dedupe_eq_normalize, dedupe_eq_normalize]
    exact Grouping.normalize_normalize (keepsKey hdigests) candidates

/-- A hit of no chunk and no section. -/
def sampleCited (mode : RetrievalMode) (score : ℚ) : HybridCandidate :=
  { sampleHit "a" with
    mode := mode
    matchedModes := [mode]
    chunkId := none
    scores := ⟨none, some (.finite score), none, none⟩ }

/-- A platform with the digest of the excerpt of the samples. -/
def samplePlatformOfExcerpt : Platform :=
  { samplePlatform [] with
    sha256 := fun text => if text = js "Toda licencia." then
        [81, 51, 207, 37, 140, 101, 236, 147, 133, 22, 211, 97, 183, 253, 169, 142,
          207, 130, 14, 175, 83, 211, 40, 17, 84, 136, 94, 44, 9, 81, 54, 58]
      else List.replicate 32 0 }

/-- Two citations of one excerpt and a chunk: two candidates, the first with both modes. -/
theorem dedupe_normalForm_sample :
    (dedupeHybridCandidates samplePlatformOfExcerpt
        [sampleCited .vector 1, sampleHit "b", sampleCited .keyword 2]).map
        (fun candidate => (candidate.matchedModes, candidate.scores.keyword)) =
      [([.keyword, .vector], some (.finite 2)), ([.keyword], some (.finite (1 / 2)))] ∧
    dedupeHybridCandidates samplePlatformOfExcerpt
        (dedupeHybridCandidates samplePlatformOfExcerpt
          [sampleCited .vector 1, sampleHit "b", sampleCited .keyword 2]) =
      dedupeHybridCandidates samplePlatformOfExcerpt
        [sampleCited .vector 1, sampleHit "b", sampleCited .keyword 2] := by
  have hdigests : DigestsFull samplePlatformOfExcerpt := by
    intro text
    simp only [samplePlatformOfExcerpt]
    split_ifs <;> rfl
  exact ⟨by decide +kernel, (dedupe_normalForm _ hdigests _).2.2.2⟩

end NormalForm

end Retrieval
