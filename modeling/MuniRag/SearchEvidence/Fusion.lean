import MuniRag.Lib.RankFusion
import MuniRag.SearchEvidence.Authority

/-!
# Reciprocal rank fusion

`mergeHybrid` with exact scores.  The score of a section should be the sum, over the modes
that found it, of `1 / (60 + r)` for its best rank `r` in that mode.  The code adds one such
term for each row, and a semantic search has one row for each vector of a section.  So the
fusion is as described exactly when no list names a section twice (`mergeHybrid_fused_iff`).
-/

namespace SearchEvidence

open Api CanonicalJson RankFusion

/-! ## The order of results -/

section RankOrder

variable {platform : Platform} {left middle right : ClassifiedSearchCandidate ℚ}
  {candidates : List (ClassifiedSearchCandidate ℚ)}

/-- The identity of a classified candidate. -/
abbrev identityOf (platform : Platform) (candidate : ClassifiedSearchCandidate ℚ) : JsString :=
  candidateIdentity platform candidate.toStoredSearchCandidate

/-- A candidate may stand before another one. -/
abbrev RanksBefore (platform : Platform) (left right : ClassifiedSearchCandidate ℚ) : Prop :=
  rankOrder platform exactScores left right ≠ .gt

theorem ranksBefore_iff : RanksBefore platform left right ↔
    right.score < left.score ∨ left.score = right.score ∧
      platform.collation.localeCompare (identityOf platform left) (identityOf platform right) ≠
        .gt := by
  simp only [RanksBefore, rankOrder, exactScores, decide_eq_true_eq]
  split_ifs with hbelow habove
  · simp only [ne_eq, not_true_eq_false, false_iff, not_or, not_and]
    exact ⟨not_lt.mpr hbelow.le, fun hsame => absurd hsame hbelow.ne⟩
  · simp [habove]
  · have hsame : left.score = right.score := le_antisymm (not_lt.mp habove) (not_lt.mp hbelow)
    simp [hsame]

theorem ranksBefore_total : RanksBefore platform left right ∨ RanksBefore platform right left := by
  rw [ranksBefore_iff, ranksBefore_iff]
  rcases lt_trichotomy left.score right.score with hlt | hsame | hgt
  · exact .inr (.inl hlt)
  · have htotal : platform.collation.localeCompare (identityOf platform left)
        (identityOf platform right) ≠ .gt ∨ platform.collation.localeCompare
          (identityOf platform right) (identityOf platform left) ≠ .gt := localeCompare_total _ _
    rcases htotal with h | h
    · exact .inl (.inr ⟨hsame, h⟩)
    · exact .inr (.inr ⟨hsame.symm, h⟩)
  · exact .inl (.inl hgt)

theorem RanksBefore.trans (hleft : RanksBefore platform left middle)
    (hright : RanksBefore platform middle right) : RanksBefore platform left right := by
  rw [ranksBefore_iff] at *
  rcases hleft with hlt | ⟨hsame, hle⟩
  · rcases hright with hlt' | ⟨hsame', -⟩
    · exact .inl (hlt'.trans hlt)
    · exact .inl (hsame' ▸ hlt)
  · rcases hright with hlt' | ⟨hsame', hle'⟩
    · exact .inl (hsame ▸ hlt')
    · exact .inr ⟨hsame.trans hsame', platform.collation.trans _ _ _ hle hle'⟩

theorem RanksBefore.score_le (h : RanksBefore platform left right) : right.score ≤ left.score := by
  rcases ranksBefore_iff.mp h with hlt | ⟨hsame, -⟩
  · exact hlt.le
  · exact hsame.ge

theorem sortRanked_perm : (sortRanked platform exactScores candidates).Perm candidates :=
  List.perm_insertionSort _ _

theorem pairwise_sortRanked :
    (sortRanked platform exactScores candidates).Pairwise (RanksBefore platform) := by
  have htotal : Std.Total (RanksBefore platform) := ⟨fun _ _ => ranksBefore_total⟩
  have htrans : IsTrans _ (RanksBefore platform) := ⟨fun _ _ _ => RanksBefore.trans⟩
  exact List.pairwise_insertionSort _ _

end RankOrder

/-! ## What the fusion should compute -/

section Fusion

variable (platform : Platform)

/-- The identities of a list of rows, in order. -/
def identities (rows : List (StoredSearchCandidate ℚ)) : List JsString :=
  rows.map (candidateIdentity platform)

/-- What the place `place`, counted from zero, is worth. -/
def placeWeight (place : Nat) : ℚ := exactScores.reciprocal (reciprocalRankConstant + place + 1)

/-- The sum over the modes that found an identity, each with its best rank. -/
def fusedScore (keywordRows phraseRows semanticRows : List (StoredSearchCandidate ℚ))
    (identity : JsString) : ℚ :=
  bestWeight placeWeight identity 0 (identities platform keywordRows) +
    bestWeight placeWeight identity 0 (identities platform phraseRows) +
    bestWeight placeWeight identity 0 (identities platform semanticRows)

/-- Reciprocal rank fusion of three ranked lists. -/
structure Fused (keywordRows phraseRows semanticRows : List (StoredSearchCandidate ℚ))
    (fused : List (ClassifiedSearchCandidate ℚ)) : Prop where
  score : ∀ candidate ∈ fused, candidate.score =
    fusedScore platform keywordRows phraseRows semanticRows (identityOf platform candidate)
  bounded : ∀ candidate ∈ fused, 0 < candidate.score ∧ candidate.score ≤ 3 / 61
  once : (fused.map (identityOf platform)).Nodup
  found : ∀ identity, identity ∈ fused.map (identityOf platform) ↔
    identity ∈ identities platform keywordRows ∨ identity ∈ identities platform phraseRows ∨
      identity ∈ identities platform semanticRows
  modes : ∀ candidate ∈ fused, candidate.matchedModes.Nodup ∧
    (.keyword ∈ candidate.matchedModes ↔
      identityOf platform candidate ∈ identities platform keywordRows) ∧
    (.phrase ∈ candidate.matchedModes ↔
      identityOf platform candidate ∈ identities platform phraseRows) ∧
    (.semantic ∈ candidate.matchedModes ↔
      identityOf platform candidate ∈ identities platform semanticRows)
  sorted : fused.Pairwise fun left right => right.score ≤ left.score

theorem placeWeight_pos (place : Nat) : 0 < placeWeight place := by
  simp only [placeWeight, exactScores, reciprocalRankConstant]
  positivity

theorem placeWeight_fall (place : Nat) : placeWeight (place + 1) ≤ placeWeight place := by
  simp only [placeWeight, exactScores, reciprocalRankConstant]
  apply one_div_le_one_div_of_le
  · positivity
  · push_cast
    linarith

theorem placeWeight_first : placeWeight 0 = 1 / 61 := by
  norm_num [placeWeight, exactScores, reciprocalRankConstant]

/-! ## One row after the other -/

variable {platform} {mode : ExecutedSearchMode} {aggregate : JsMap JsString (Aggregate ℚ)}
  {rows : List (StoredSearchCandidate ℚ)}

/-- The score gathered for an identity, so far. -/
def scoreIn (aggregate : JsMap JsString (Aggregate ℚ)) (identity : JsString) : ℚ :=
  ((JsMap.get aggregate identity).map Aggregate.score).getD 0

def modesIn (aggregate : JsMap JsString (Aggregate ℚ)) (identity : JsString) :
    List ExecutedSearchMode :=
  ((JsMap.get aggregate identity).map Aggregate.matchedModes).getD []

/-- What every aggregate of the fusion keeps: distinct identities, each with a candidate of
its own and distinct modes. -/
structure Keyed (platform : Platform) (aggregate : JsMap JsString (Aggregate ℚ)) : Prop where
  nodup : (aggregate.map Prod.fst).Nodup
  candidate : ∀ identity item, JsMap.get aggregate identity = some item →
    candidateIdentity platform item.candidate = identity
  modes : ∀ identity, (modesIn aggregate identity).Nodup

theorem get_addCandidate (row : StoredSearchCandidate ℚ × Nat) (identity : JsString) :
    JsMap.get (addCandidate platform exactScores mode aggregate row) identity =
      if identity = candidateIdentity platform row.1 then
        some {
          candidate := ((JsMap.get aggregate identity).map Aggregate.candidate).getD row.1
          score := scoreIn aggregate identity + placeWeight row.2
          matchedModes :=
            if mode ∈ modesIn aggregate identity then modesIn aggregate identity
            else modesIn aggregate identity ++ [mode] }
      else JsMap.get aggregate identity := by
  simp only [addCandidate, JsMap.get_set]
  by_cases hsame : identity = candidateIdentity platform row.1
  · rw [if_pos hsame, if_pos hsame, ← hsame]
    cases hget : JsMap.get aggregate identity <;>
      simp [scoreIn, modesIn, hget, placeWeight, exactScores]
  · rw [if_neg hsame, if_neg hsame]

theorem scoreIn_addCandidate (row : StoredSearchCandidate ℚ × Nat) (identity : JsString) :
    scoreIn (addCandidate platform exactScores mode aggregate row) identity =
      scoreIn aggregate identity +
        if candidateIdentity platform row.1 = identity then placeWeight row.2 else 0 := by
  rw [scoreIn, get_addCandidate]
  by_cases hsame : identity = candidateIdentity platform row.1
  · rw [if_pos hsame, if_pos hsame.symm]
    rfl
  · rw [if_neg hsame, if_neg (Ne.symm hsame), add_zero]
    rfl

theorem mem_modesIn_addCandidate {row : StoredSearchCandidate ℚ × Nat} {identity : JsString}
    {other : ExecutedSearchMode} :
    other ∈ modesIn (addCandidate platform exactScores mode aggregate row) identity ↔
      other ∈ modesIn aggregate identity ∨
        other = mode ∧ identity = candidateIdentity platform row.1 := by
  rw [modesIn, get_addCandidate]
  by_cases hsame : identity = candidateIdentity platform row.1
  · rw [if_pos hsame, Option.map_some, Option.getD_some]
    by_cases hmem : mode ∈ modesIn aggregate identity
    · rw [if_pos hmem]
      constructor
      · exact .inl
      · rintro (h | ⟨rfl, -⟩)
        · exact h
        · exact hmem
    · rw [if_neg hmem, List.mem_append, List.mem_singleton]
      simp [hsame]
  · rw [if_neg hsame]
    simp [hsame, modesIn]

theorem Keyed.add (h : Keyed platform aggregate) (row : StoredSearchCandidate ℚ × Nat) :
    Keyed platform (addCandidate platform exactScores mode aggregate row) where
  nodup := JsMap.nodup_keys_set h.nodup _ _
  candidate identity item hitem := by
    rw [get_addCandidate] at hitem
    by_cases hsame : identity = candidateIdentity platform row.1
    · rw [if_pos hsame] at hitem
      obtain rfl := Option.some.inj hitem
      cases hget : JsMap.get aggregate identity with
      | none => exact hsame.symm
      | some current => exact h.candidate identity current hget
    · rw [if_neg hsame] at hitem
      exact h.candidate identity item hitem
  modes identity := by
    rw [modesIn, get_addCandidate]
    split_ifs with hsame hmem
    · exact h.modes identity
    · refine List.nodup_append.mpr ⟨h.modes identity, List.nodup_singleton _, ?_⟩
      intro other hother last hlast hsame
      obtain rfl := List.mem_singleton.mp hlast
      exact hmem (hsame ▸ hother)
    · exact h.modes identity

/-! ## A list of rows -/

/-- What a list of rows, from place `n` on, adds to an aggregate. -/
theorem foldl_addCandidate (n : Nat) (rows : List (StoredSearchCandidate ℚ))
    (aggregate : JsMap JsString (Aggregate ℚ)) :
    let added := (rows.zipIdx n).foldl (addCandidate platform exactScores mode) aggregate
    (∀ identity, identity ∈ added.map Prod.fst ↔
        identity ∈ aggregate.map Prod.fst ∨ identity ∈ identities platform rows) ∧
      (∀ identity, scoreIn added identity = scoreIn aggregate identity +
        totalWeight placeWeight identity n (identities platform rows)) ∧
      ∀ identity other, other ∈ modesIn added identity ↔ other ∈ modesIn aggregate identity ∨
        other = mode ∧ identity ∈ identities platform rows := by
  induction rows generalizing n aggregate with
  | nil => simp [identities, totalWeight]
  | cons row rows ih =>
      obtain ⟨hkeys, hscore, hmodes⟩ :=
        ih (n + 1) (addCandidate platform exactScores mode aggregate (row, n))
      refine ⟨fun identity => ?_, fun identity => ?_, fun identity other => ?_⟩
      · rw [List.zipIdx_cons, List.foldl_cons, hkeys, addCandidate, JsMap.mem_keys_set]
        simp only [identities, List.map_cons, List.mem_cons]
        tauto
      · rw [List.zipIdx_cons, List.foldl_cons, hscore, scoreIn_addCandidate, add_assoc]
        rfl
      · rw [List.zipIdx_cons, List.foldl_cons, hmodes, mem_modesIn_addCandidate]
        simp only [identities, List.map_cons, List.mem_cons]
        tauto

theorem mem_keys_addRows {identity : JsString} :
    identity ∈ (addRows platform exactScores aggregate mode rows).map Prod.fst ↔
      identity ∈ aggregate.map Prod.fst ∨ identity ∈ identities platform rows :=
  (foldl_addCandidate 0 rows aggregate).1 identity

theorem scoreIn_addRows {identity : JsString} :
    scoreIn (addRows platform exactScores aggregate mode rows) identity =
      scoreIn aggregate identity +
        totalWeight placeWeight identity 0 (identities platform rows) :=
  (foldl_addCandidate 0 rows aggregate).2.1 identity

theorem mem_modesIn_addRows {identity : JsString} {other : ExecutedSearchMode} :
    other ∈ modesIn (addRows platform exactScores aggregate mode rows) identity ↔
      other ∈ modesIn aggregate identity ∨
        other = mode ∧ identity ∈ identities platform rows :=
  (foldl_addCandidate 0 rows aggregate).2.2 identity other

theorem Keyed.addRows (h : Keyed platform aggregate) (mode : ExecutedSearchMode)
    (rows : List (StoredSearchCandidate ℚ)) :
    Keyed platform (addRows platform exactScores aggregate mode rows) := by
  have hfold : ∀ (numbered : List (StoredSearchCandidate ℚ × Nat))
      (aggregate : JsMap JsString (Aggregate ℚ)), Keyed platform aggregate →
      Keyed platform (numbered.foldl (addCandidate platform exactScores mode) aggregate) := by
    intro numbered
    induction numbered with
    | nil => exact fun aggregate h => h
    | cons row numbered ih => exact fun aggregate h => ih _ (h.add row)
  exact hfold _ _ h

theorem keyed_nil : Keyed platform [] where
  nodup := List.nodup_nil
  candidate identity item hitem := by simp [JsMap.get] at hitem
  modes identity := List.nodup_nil

/-! ## Three lists -/

variable {keywordRows phraseRows semanticRows : List (StoredSearchCandidate ℚ)}
  {request : SearchRequest} {candidate : ClassifiedSearchCandidate ℚ}

/-- The aggregate of the three lists. -/
def fusedAggregate (platform : Platform)
    (keywordRows phraseRows semanticRows : List (StoredSearchCandidate ℚ)) :
    JsMap JsString (Aggregate ℚ) :=
  addRows platform exactScores (addRows platform exactScores
    (addRows platform exactScores [] .keyword keywordRows) .phrase phraseRows) .semantic
    semanticRows

/-- The score that the code gives to an identity: one term for each row. -/
def rowScore (platform : Platform)
    (keywordRows phraseRows semanticRows : List (StoredSearchCandidate ℚ))
    (identity : JsString) : ℚ :=
  totalWeight placeWeight identity 0 (identities platform keywordRows) +
    totalWeight placeWeight identity 0 (identities platform phraseRows) +
    totalWeight placeWeight identity 0 (identities platform semanticRows)

theorem keyed_fused :
    Keyed platform (fusedAggregate platform keywordRows phraseRows semanticRows) :=
  ((keyed_nil.addRows _ _).addRows _ _).addRows _ _

theorem fused_keys {identity : JsString} :
    identity ∈ (fusedAggregate platform keywordRows phraseRows semanticRows).map Prod.fst ↔
      identity ∈ identities platform keywordRows ∨ identity ∈ identities platform phraseRows ∨
        identity ∈ identities platform semanticRows := by
  rw [fusedAggregate, mem_keys_addRows, mem_keys_addRows, mem_keys_addRows, or_assoc]
  simp

theorem fused_score {identity : JsString} :
    scoreIn (fusedAggregate platform keywordRows phraseRows semanticRows) identity =
      rowScore platform keywordRows phraseRows semanticRows identity := by
  rw [fusedAggregate, scoreIn_addRows, scoreIn_addRows, scoreIn_addRows]
  simp [scoreIn, rowScore, JsMap.get]

theorem fused_modes {identity : JsString} {mode : ExecutedSearchMode} :
    mode ∈ modesIn (fusedAggregate platform keywordRows phraseRows semanticRows) identity ↔
      mode = .keyword ∧ identity ∈ identities platform keywordRows ∨
        mode = .phrase ∧ identity ∈ identities platform phraseRows ∨
        mode = .semantic ∧ identity ∈ identities platform semanticRows := by
  rw [fusedAggregate, mem_modesIn_addRows, mem_modesIn_addRows, mem_modesIn_addRows, or_assoc]
  simp [modesIn, JsMap.get]

theorem rowScore_nonneg (identity : JsString) :
    0 ≤ rowScore platform keywordRows phraseRows semanticRows identity := by
  have hnonneg := @totalWeight_nonneg JsString _ placeWeight placeWeight_pos identity 0
  have hkeyword := hnonneg (identities platform keywordRows)
  have hphrase := hnonneg (identities platform phraseRows)
  have hsemantic := hnonneg (identities platform semanticRows)
  unfold rowScore
  linarith

/-- What is found of an identity in the result of the fusion. -/
theorem mem_mergeHybrid (h : candidate ∈ mergeHybrid platform exactScores keywordRows phraseRows
    semanticRows request) :
    candidate.score =
        rowScore platform keywordRows phraseRows semanticRows (identityOf platform candidate) ∧
      candidate.matchedModes = modesIn (fusedAggregate platform keywordRows phraseRows
        semanticRows) (identityOf platform candidate) := by
  obtain ⟨item, hitem, rfl⟩ := List.mem_map.mp (mem_sortRanked.mp h)
  obtain ⟨⟨identity, found⟩, hentry, rfl⟩ := List.mem_map.mp hitem
  have hget : JsMap.get (fusedAggregate platform keywordRows phraseRows semanticRows) identity =
      some found := JsMap.get_of_mem keyed_fused.nodup hentry
  have hidentity : candidateIdentity platform found.candidate = identity :=
    keyed_fused.candidate identity found hget
  have hscore : found.score = rowScore platform keywordRows phraseRows semanticRows identity := by
    rw [← fused_score, scoreIn, hget]
    rfl
  have hmodes : found.matchedModes = modesIn (fusedAggregate platform keywordRows phraseRows
      semanticRows) identity := by
    rw [modesIn, hget]
    rfl
  have hnonneg := @rowScore_nonneg platform keywordRows phraseRows semanticRows identity
  have hsame : candidateIdentity platform (classify platform exactScores found.candidate request
      found.matchedModes found.score .reciprocalRankFusion).toStoredSearchCandidate = identity :=
    hidentity
  refine ⟨?_, ?_⟩
  · rw [identityOf, hsame]
    simp only [classify, finiteScore, nonNegative, exactScores, Option.filter_some, if_true,
      Option.getD_some, decide_eq_true_eq]
    rw [hscore]
    split_ifs with hpositive
    · rfl
    · exact le_antisymm hnonneg (not_lt.mp hpositive)
  · rw [identityOf, hsame]
    exact hmodes

theorem identities_mergeHybrid :
    ((mergeHybrid platform exactScores keywordRows phraseRows semanticRows request).map
        (identityOf platform)).Perm
      ((fusedAggregate platform keywordRows phraseRows semanticRows).map Prod.fst) := by
  refine (sortRanked_perm.map _).trans ?_
  rw [List.map_map, JsMap.values, List.map_map]
  refine List.Perm.of_eq (List.map_congr_left fun entry hentry => ?_)
  obtain ⟨identity, item⟩ := entry
  exact keyed_fused.candidate identity item (JsMap.get_of_mem keyed_fused.nodup hentry)

/-! ## The condition -/

/-- The code's score is the fused one exactly where each list gives the same either way. -/
theorem rowScore_eq_fused_iff {identity : JsString} :
    rowScore platform keywordRows phraseRows semanticRows identity =
        fusedScore platform keywordRows phraseRows semanticRows identity ↔
      ∀ rows ∈ [keywordRows, phraseRows, semanticRows],
        totalWeight placeWeight identity 0 (identities platform rows) =
          bestWeight placeWeight identity 0 (identities platform rows) := by
  have hbelow := @bestWeight_le_total JsString _ placeWeight placeWeight_pos identity 0
  have hkeyword := hbelow (identities platform keywordRows)
  have hphrase := hbelow (identities platform phraseRows)
  have hsemantic := hbelow (identities platform semanticRows)
  simp only [List.forall_mem_cons, List.not_mem_nil, false_implies, implies_true, and_true]
  unfold rowScore fusedScore
  constructor
  · intro h
    exact ⟨by linarith, by linarith, by linarith⟩
  · rintro ⟨hkeyword, hphrase, hsemantic⟩
    rw [hkeyword, hphrase, hsemantic]

theorem fusedScore_bounded {identity : JsString}
    (h : identity ∈ identities platform keywordRows ∨ identity ∈ identities platform phraseRows ∨
      identity ∈ identities platform semanticRows) :
    0 < fusedScore platform keywordRows phraseRows semanticRows identity ∧
      fusedScore platform keywordRows phraseRows semanticRows identity ≤ 3 / 61 := by
  have hnonneg := @bestWeight_nonneg JsString _ placeWeight placeWeight_pos identity 0
  have hle := @bestWeight_le JsString _ placeWeight placeWeight_pos placeWeight_fall identity 0
  simp only [placeWeight_first] at hle
  have hkeyword := hnonneg (identities platform keywordRows)
  have hphrase := hnonneg (identities platform phraseRows)
  have hsemantic := hnonneg (identities platform semanticRows)
  have hkeyword' := hle (identities platform keywordRows)
  have hphrase' := hle (identities platform phraseRows)
  have hsemantic' := hle (identities platform semanticRows)
  unfold fusedScore
  refine ⟨?_, by linarith⟩
  have hpos : ∀ n, 0 < placeWeight n := placeWeight_pos
  rcases h with h | h | h
  · linarith [@bestWeight_pos _ _ _ _ _ 0 hpos h]
  · linarith [@bestWeight_pos _ _ _ _ _ 0 hpos h]
  · linarith [@bestWeight_pos _ _ _ _ _ 0 hpos h]

/-- **Fusion.**  The hybrid result is the reciprocal rank fusion of the three lists exactly
when none of them names a section of a version twice. -/
theorem mergeHybrid_fused_iff (platform : Platform)
    (keywordRows phraseRows semanticRows : List (StoredSearchCandidate ℚ))
    (request : SearchRequest) :
    Fused platform keywordRows phraseRows semanticRows
        (mergeHybrid platform exactScores keywordRows phraseRows semanticRows request) ↔
      (identities platform keywordRows).Nodup ∧ (identities platform phraseRows).Nodup ∧
        (identities platform semanticRows).Nodup := by
  have hfound : ∀ identity, identity ∈ (mergeHybrid platform exactScores keywordRows phraseRows
      semanticRows request).map (identityOf platform) ↔
      identity ∈ identities platform keywordRows ∨ identity ∈ identities platform phraseRows ∨
        identity ∈ identities platform semanticRows := by
    intro identity
    rw [identities_mergeHybrid.mem_iff, fused_keys]
  have hnodup : (∀ rows ∈ [keywordRows, phraseRows, semanticRows],
      (identities platform rows).Nodup) ↔ (identities platform keywordRows).Nodup ∧
        (identities platform phraseRows).Nodup ∧ (identities platform semanticRows).Nodup := by
    simp
  rw [← hnodup]
  have hpos : ∀ n, 0 < placeWeight n := placeWeight_pos
  constructor
  · intro hfused rows hrows
    rw [@nodup_iff_totalWeight _ _ _ _ 0 hpos]
    intro identity
    by_cases hmem : identity ∈ identities platform rows
    · have hany : identity ∈ identities platform keywordRows ∨
          identity ∈ identities platform phraseRows ∨
          identity ∈ identities platform semanticRows := by
        simp only [List.mem_cons, List.not_mem_nil, or_false] at hrows
        rcases hrows with rfl | rfl | rfl
        · exact .inl hmem
        · exact .inr (.inl hmem)
        · exact .inr (.inr hmem)
      obtain ⟨candidate, hcandidate, rfl⟩ := List.mem_map.mp ((hfound identity).mpr hany)
      refine rowScore_eq_fused_iff.mp ?_ rows hrows
      rw [← (mem_mergeHybrid hcandidate).1, hfused.score candidate hcandidate]
    · exact totalWeight_eq_best_of_not_mem hpos hmem
  · intro hdistinct
    have hscore : ∀ candidate ∈ mergeHybrid platform exactScores keywordRows phraseRows
        semanticRows request, candidate.score = fusedScore platform keywordRows phraseRows
          semanticRows (identityOf platform candidate) := by
      intro candidate hcandidate
      rw [(mem_mergeHybrid hcandidate).1]
      exact rowScore_eq_fused_iff.mpr fun rows hrows =>
        (nodup_iff_totalWeight hpos).mp (hdistinct rows hrows) _
    exact {
      score := hscore
      bounded := by
        intro candidate hcandidate
        rw [hscore candidate hcandidate]
        exact fusedScore_bounded ((hfound _).mp (List.mem_map_of_mem hcandidate))
      once := identities_mergeHybrid.nodup_iff.mpr keyed_fused.nodup
      found := hfound
      modes := by
        intro candidate hcandidate
        rw [(mem_mergeHybrid hcandidate).2]
        exact ⟨keyed_fused.modes _, by simp [fused_modes], by simp [fused_modes],
          by simp [fused_modes]⟩
      sorted := pairwise_sortRanked.imp fun h => h.score_le }

end Fusion

/-- Two vectors of one section, found by the semantic search alone. -/
theorem fusion_counts_rows :
    (mergeHybrid (samplePlatform []) exactScores [] []
        [sampleRow .validated 5 "Articulo 1" "Toda licencia." none (some 1),
          sampleRow .validated 5 "Articulo 1" "Toda solicitud." none (some (1 / 2))]
        sampleRequest).map (·.score) = [1 / 61 + 1 / 62] ∧
      ¬ Fused (samplePlatform []) [] []
        [sampleRow .validated 5 "Articulo 1" "Toda licencia." none (some 1),
          sampleRow .validated 5 "Articulo 1" "Toda solicitud." none (some (1 / 2))]
        (mergeHybrid (samplePlatform []) exactScores [] []
          [sampleRow .validated 5 "Articulo 1" "Toda licencia." none (some 1),
            sampleRow .validated 5 "Articulo 1" "Toda solicitud." none (some (1 / 2))]
          sampleRequest) := by
  have hscores : (mergeHybrid (samplePlatform []) exactScores [] []
      [sampleRow .validated 5 "Articulo 1" "Toda licencia." none (some 1),
        sampleRow .validated 5 "Articulo 1" "Toda solicitud." none (some (1 / 2))]
      sampleRequest).map (·.score) = [1 / 61 + 1 / 62] := by decide +kernel
  refine ⟨hscores, fun hfused => ?_⟩
  have hmem : (1 / 61 + 1 / 62 : ℚ) ∈ (mergeHybrid (samplePlatform []) exactScores [] []
      [sampleRow .validated 5 "Articulo 1" "Toda licencia." none (some 1),
        sampleRow .validated 5 "Articulo 1" "Toda solicitud." none (some (1 / 2))]
      sampleRequest).map (·.score) := by
    rw [hscores]
    exact List.mem_singleton_self _
  obtain ⟨candidate, hcandidate, hscore⟩ := List.mem_map.mp hmem
  have hexpected := hfused.score candidate hcandidate
  have hbest : ∀ identity, fusedScore (samplePlatform []) [] []
      [sampleRow .validated 5 "Articulo 1" "Toda licencia." none (some 1),
        sampleRow .validated 5 "Articulo 1" "Toda solicitud." none (some (1 / 2))] identity ≤
          1 / 61 := by
    intro identity
    have hle := @bestWeight_le JsString _ placeWeight placeWeight_pos placeWeight_fall identity 0
    rw [placeWeight_first] at hle
    simp only [fusedScore, identities, List.map_nil, bestWeight, zero_add]
    exact hle _
  have hbound := hexpected ▸ hbest (identityOf (samplePlatform []) candidate)
  rw [hscore] at hbound
  norm_num at hbound

end SearchEvidence
