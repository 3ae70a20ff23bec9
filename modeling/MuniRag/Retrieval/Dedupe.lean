import MuniRag.Lib.Json
import MuniRag.Lib.JsMap
import MuniRag.Api.DerivedIds

/-!
# Duplicates in hybrid retrieval

`retrieval/dedupe.ts` and `retrieval/hybridScore.ts`, in exact arithmetic.  Candidates with one
key are merged: of each score the merged candidate has the largest, with zero for a missing
one.  The scorer computes a provenance score where none is given, and takes `NaN` for zero.
So a merge can lower a rank, in just two ways: a provenance score that would have been computed
is above all given ones, or a `NaN` hides a positive score (`neverLowersRank_iff`).
-/

namespace Retrieval

open Api

/-! ## The data -/

/-- A number of JavaScript, as far as exact arithmetic knows it. -/
inductive JsNumber
  | nan
  | negInfinity
  | finite (value : ℚ)
  | posInfinity
  deriving DecidableEq, Repr

inductive RetrievalMode
  | phrase | keyword | vector
  deriving DecidableEq, Repr

structure HybridScoreComponents where
  phrase : Option JsNumber
  keyword : Option JsNumber
  vector : Option JsNumber
  provenance : Option JsNumber
  deriving DecidableEq, Repr

/-- The values of a candidate's metadata. -/
abbrev Metadata := JsMap JsString (Json.Value ℚ)

structure HybridCandidate where
  id : JsString
  mode : RetrievalMode
  matchedModes : List RetrievalMode
  documentId : Option JsString
  documentVersionId : Option JsString
  documentTitle : Option JsString
  sectionId : Option JsString
  chunkId : Option JsString
  citationLabel : JsString
  excerpt : JsString
  sourceType : Option JsString
  pageStart : Option JsNumber
  pageEnd : Option JsNumber
  articleNumber : Option JsString
  sourceUrl : Option JsString
  scores : HybridScoreComponents
  hybridScore : JsNumber
  metadata : Option Metadata

structure HybridRankingWeights where
  phrase : ℚ
  keyword : ℚ
  vector : ℚ
  provenance : ℚ
  deriving DecidableEq, Repr

def defaultHybridWeights : HybridRankingWeights where
  phrase := 4
  keyword := 2
  vector := 3 / 2
  provenance := 1 / 2

def retrievalModePriority : List RetrievalMode := [.phrase, .keyword, .vector]

def RetrievalMode.text : RetrievalMode → JsString
  | .phrase => js "phrase"
  | .keyword => js "keyword"
  | .vector => js "vector"

/-! ## Merging -/

/-- `Math.max` of two numbers. -/
def mathMax : JsNumber → JsNumber → JsNumber
  | .nan, _ => .nan
  | _, .nan => .nan
  | .posInfinity, _ => .posInfinity
  | _, .posInfinity => .posInfinity
  | .negInfinity, right => right
  | left, .negInfinity => left
  | .finite left, .finite right => .finite (max left right)

/-- A text that a condition takes for true. -/
def isTruthy (text : Option JsString) : Bool := text.any fun units => !units.isEmpty

section Merging

variable (platform : Platform)

def hashExcerpt (excerpt : JsString) : JsString :=
  ((platform.sha256 (trim (collapseSpaces excerpt))).flatMap fun byte =>
    [hexUnit (byte.toNat / 16), hexUnit (byte.toNat % 16)]).take 16

def dedupeKeyForCandidate (candidate : HybridCandidate) : JsString :=
  if isTruthy candidate.chunkId then js "chunk:" ++ candidate.chunkId.getD []
  else if isTruthy candidate.sectionId then js "section:" ++ candidate.sectionId.getD []
  else js "citation:" ++ candidate.citationLabel ++ js ":" ++ hashExcerpt platform candidate.excerpt

def mergeModes (a b : List RetrievalMode) : List RetrievalMode :=
  retrievalModePriority.filter fun mode => a.contains mode || b.contains mode

def choosePrimaryMode (modes : List RetrievalMode) : RetrievalMode :=
  (retrievalModePriority.find? fun mode => modes.contains mode).getD .vector

/-- A score of the merged candidate. -/
def mergeScore (existing incoming : Option JsNumber) : JsNumber :=
  mathMax (existing.getD (.finite 0)) (incoming.getD (.finite 0))

/-- The entries of both, of which the later ones count, and the merged modes. -/
def mergeMetadata (existing incoming : Option Metadata) (matchedModes : List RetrievalMode) :
    Metadata :=
  JsMap.ofEntries (existing.getD [] ++ incoming.getD [] ++
    [(js "dedupedModes", Json.Value.array (matchedModes.map fun mode => .string mode.text))])

def mergeHybridCandidates (existing incoming : HybridCandidate) : HybridCandidate :=
  let matchedModes := mergeModes existing.matchedModes incoming.matchedModes
  { existing with
    mode := choosePrimaryMode matchedModes
    matchedModes := matchedModes
    documentId := existing.documentId <|> incoming.documentId
    documentVersionId := existing.documentVersionId <|> incoming.documentVersionId
    documentTitle := existing.documentTitle <|> incoming.documentTitle
    sectionId := existing.sectionId <|> incoming.sectionId
    chunkId := existing.chunkId <|> incoming.chunkId
    sourceType := existing.sourceType <|> incoming.sourceType
    pageStart := existing.pageStart <|> incoming.pageStart
    pageEnd := existing.pageEnd <|> incoming.pageEnd
    articleNumber := existing.articleNumber <|> incoming.articleNumber
    excerpt :=
      if existing.excerpt.length ≥ incoming.excerpt.length then existing.excerpt
      else incoming.excerpt
    scores := {
      phrase := some (mergeScore existing.scores.phrase incoming.scores.phrase)
      keyword := some (mergeScore existing.scores.keyword incoming.scores.keyword)
      vector := some (mergeScore existing.scores.vector incoming.scores.vector)
      provenance := some (mergeScore existing.scores.provenance incoming.scores.provenance) }
    hybridScore := mathMax existing.hybridScore incoming.hybridScore
    metadata := some (mergeMetadata existing.metadata incoming.metadata matchedModes) }

def addToMerged (merged : JsMap JsString HybridCandidate) (candidate : HybridCandidate) :
    JsMap JsString HybridCandidate :=
  let key := dedupeKeyForCandidate platform candidate
  JsMap.set merged key (match JsMap.get merged key with
    | some existing => mergeHybridCandidates existing candidate
    | none => candidate)

/-- The merged candidates by their keys. -/
def mergedByKey (candidates : List HybridCandidate) : JsMap JsString HybridCandidate :=
  candidates.foldl (addToMerged platform) []

def dedupeHybridCandidates (candidates : List HybridCandidate) : List HybridCandidate :=
  JsMap.values (mergedByKey platform candidates)

end Merging

/-! ## Scoring -/

def clamp01 (value : ℚ) : ℚ := max 0 (min 1 value)

/-- `normalizeScore`; the infinities are clamped. -/
def normalizeScore : Option JsNumber → ℚ
  | none => 0
  | some .nan => 0
  | some .negInfinity => 0
  | some (.finite value) => clamp01 value
  | some .posInfinity => 1

/-- A text with something but white space in it. -/
def hasText (text : Option JsString) : Bool := text.any fun units => !(trim units).isEmpty

def calculateProvenanceScore (candidate : HybridCandidate) : ℚ :=
  let score : ℚ := 0
  let score := if !(trim candidate.citationLabel).isEmpty then score + 35 / 100 else score
  let score := if hasText candidate.documentTitle then score + 20 / 100 else score
  let score := if candidate.pageStart.isSome then score + 15 / 100 else score
  let score := if hasText candidate.articleNumber then score + 15 / 100 else score
  let score :=
    if isTruthy candidate.sectionId || isTruthy candidate.chunkId then score + 15 / 100 else score
  clamp01 score

def scoreHybridCandidate (candidate : HybridCandidate) (weights : HybridRankingWeights) :
    HybridCandidate :=
  let phraseScore := normalizeScore candidate.scores.phrase
  let keywordScore := normalizeScore candidate.scores.keyword
  let vectorScore := normalizeScore candidate.scores.vector
  let provenanceScore := normalizeScore (some (candidate.scores.provenance.getD
    (.finite (calculateProvenanceScore candidate))))
  { candidate with
    scores := {
      phrase := some (.finite phraseScore)
      keyword := some (.finite keywordScore)
      vector := some (.finite vectorScore)
      provenance := some (.finite provenanceScore) }
    hybridScore := .finite (phraseScore * weights.phrase + keywordScore * weights.keyword +
      vectorScore * weights.vector + provenanceScore * weights.provenance) }

/-! ## Scores of one group -/

section Group

variable {platform : Platform} {candidates group : List HybridCandidate}
  {first member merged : HybridCandidate} {rest : List HybridCandidate} {key : JsString}
  {weights : HybridRankingWeights}

inductive Component
  | phrase | keyword | vector | provenance
  deriving DecidableEq, Repr

def HybridScoreComponents.at (scores : HybridScoreComponents) : Component → Option JsNumber
  | .phrase => scores.phrase
  | .keyword => scores.keyword
  | .vector => scores.vector
  | .provenance => scores.provenance

def HybridRankingWeights.at (weights : HybridRankingWeights) : Component → ℚ
  | .phrase => weights.phrase
  | .keyword => weights.keyword
  | .vector => weights.vector
  | .provenance => weights.provenance

/-- What the scorer counts of a component of a candidate. -/
def counted (candidate : HybridCandidate) : Component → ℚ
  | .provenance => normalizeScore (some (candidate.scores.provenance.getD
      (.finite (calculateProvenanceScore candidate))))
  | component => normalizeScore (candidate.scores.at component)

/-- The score that the scorer gives. -/
def scoreOf (weights : HybridRankingWeights) (candidate : HybridCandidate) : ℚ :=
  counted candidate .phrase * weights.phrase + counted candidate .keyword * weights.keyword +
    counted candidate .vector * weights.vector + counted candidate .provenance * weights.provenance

theorem scoreHybridCandidate_score (candidate : HybridCandidate) :
    (scoreHybridCandidate candidate weights).hybridScore = .finite (scoreOf weights candidate) :=
  rfl

/-- The candidates with one key, in order. -/
def groupOf (platform : Platform) (candidates : List HybridCandidate) (key : JsString) :
    List HybridCandidate :=
  candidates.filter fun candidate => dedupeKeyForCandidate platform candidate = key

/-- The weights are not negative. -/
def HybridRankingWeights.NonNegative (weights : HybridRankingWeights) : Prop :=
  ∀ component, 0 ≤ weights.at component

/-- A merge never lowers the score of one of its members. -/
def NeverLowersRank (platform : Platform) (candidates : List HybridCandidate) : Prop :=
  ∀ weights : HybridRankingWeights, weights.NonNegative → ∀ key merged,
    JsMap.get (mergedByKey platform candidates) key = some merged →
    ∀ member ∈ groupOf platform candidates key, scoreOf weights member ≤ scoreOf weights merged

/-- In a group, no `NaN` hides a component that counts, and each provenance score that would be
computed is reached by one that is given. -/
structure ScoresKept (group : List HybridCandidate) : Prop where
  shown : ∀ component, (∃ other ∈ group, other.scores.at component = some .nan) →
    ∀ member ∈ group, counted member component = 0
  reached : ∀ member ∈ group, member.scores.provenance = none →
    calculateProvenanceScore member = 0 ∨ ∃ other ∈ group, ∃ given,
      other.scores.provenance = some given ∧
        calculateProvenanceScore member ≤ normalizeScore (some given)

theorem clamp01_nonneg (value : ℚ) : 0 ≤ clamp01 value := le_max_left _ _

theorem clamp01_clamp01 (value : ℚ) : clamp01 (clamp01 value) = clamp01 value := by
  unfold clamp01
  rcases le_total 0 (min 1 value) with h | h
  · rw [max_eq_right h, min_eq_right (min_le_left 1 value), max_eq_right h]
  · rw [max_eq_left h, min_eq_right zero_le_one, max_self]

theorem normalizeScore_nonneg (value : Option JsNumber) : 0 ≤ normalizeScore value := by
  rcases value with _ | value
  · exact le_rfl
  · cases value with
    | nan => exact le_rfl
    | negInfinity => exact le_rfl
    | finite value => exact clamp01_nonneg value
    | posInfinity => exact zero_le_one

theorem normalizeScore_le_one (value : Option JsNumber) : normalizeScore value ≤ 1 := by
  have hclamp : ∀ value : ℚ, clamp01 value ≤ 1 := fun value =>
    max_le zero_le_one (min_le_left 1 value)
  rcases value with _ | value
  · exact zero_le_one
  · cases value with
    | nan => exact zero_le_one
    | negInfinity => exact zero_le_one
    | finite value => exact hclamp value
    | posInfinity => exact le_rfl

theorem mathMax_eq_nan_iff {left right : JsNumber} :
    mathMax left right = .nan ↔ left = .nan ∨ right = .nan := by
  cases left <;> cases right <;> simp [mathMax]

/-- Numbers are clamped in order. -/
theorem normalizeScore_mathMax {left right : JsNumber} (hleft : left ≠ .nan)
    (hright : right ≠ .nan) : normalizeScore (some (mathMax left right)) =
      max (normalizeScore (some left)) (normalizeScore (some right)) := by
  cases left with
  | nan => exact absurd rfl hleft
  | negInfinity =>
      have hzero : max 0 (normalizeScore (some right)) = normalizeScore (some right) :=
        max_eq_right (normalizeScore_nonneg _)
      cases right <;> first | exact absurd rfl hright | exact hzero.symm
  | finite value =>
      cases right with
      | nan => exact absurd rfl hright
      | negInfinity => exact (max_eq_left (normalizeScore_nonneg (some (.finite value)))).symm
      | finite other =>
          simp only [mathMax, normalizeScore, clamp01]
          rw [min_max_distrib_left, sup_sup_distrib_left]
      | posInfinity => exact (max_eq_right (normalizeScore_le_one (some (.finite value)))).symm
  | posInfinity =>
      have hone : max 1 (normalizeScore (some right)) = 1 := max_eq_left (normalizeScore_le_one _)
      cases right <;> first | exact absurd rfl hright | exact hone.symm

/-- The largest of several numbers: `NaN` where there is one, otherwise the greatest. -/
theorem foldl_mathMax (start : JsNumber) (values : List JsNumber) :
    (values.foldl mathMax start = .nan ↔ .nan ∈ start :: values) ∧
      (.nan ∉ start :: values →
        (∀ value ∈ start :: values, normalizeScore (some value) ≤
          normalizeScore (some (values.foldl mathMax start))) ∧
        ∃ value ∈ start :: values, normalizeScore (some value) =
          normalizeScore (some (values.foldl mathMax start))) := by
  induction values generalizing start with
  | nil => simp [eq_comm]
  | cons next values ih =>
      obtain ⟨hnan, hgreatest⟩ := ih (mathMax start next)
      constructor
      · rw [List.foldl_cons, hnan, List.mem_cons, List.mem_cons, List.mem_cons, eq_comm,
          mathMax_eq_nan_iff, or_assoc, eq_comm, @eq_comm _ next]
      · intro hnone
        obtain ⟨hstart, hrest⟩ := not_or.mp (mt List.mem_cons.mpr hnone)
        obtain ⟨hnext, hvalues⟩ := not_or.mp (mt List.mem_cons.mpr hrest)
        have hboth : normalizeScore (some (mathMax start next)) =
            max (normalizeScore (some start)) (normalizeScore (some next)) :=
          normalizeScore_mathMax (Ne.symm hstart) (Ne.symm hnext)
        have hclean : .nan ∉ mathMax start next :: values := by
          rw [List.mem_cons, eq_comm, mathMax_eq_nan_iff]
          rintro ((h | h) | h)
          · exact hstart h.symm
          · exact hnext h.symm
          · exact hvalues h
        obtain ⟨habove, top, htop, hreached⟩ := hgreatest hclean
        have hfirst := habove _ List.mem_cons_self
        rw [hboth] at hfirst
        refine ⟨?_, ?_⟩
        · intro value hvalue
          rcases List.mem_cons.mp hvalue with rfl | hvalue
          · exact (le_max_left _ _).trans hfirst
          · rcases List.mem_cons.mp hvalue with rfl | hvalue
            · exact (le_max_right _ _).trans hfirst
            · exact habove value (List.mem_cons_of_mem _ hvalue)
        · rcases List.mem_cons.mp htop with rfl | htop
          · rcases max_choice (normalizeScore (some start)) (normalizeScore (some next)) with h | h
            · exact ⟨start, List.mem_cons_self, h.symm.trans (hboth.symm.trans hreached)⟩
            · exact ⟨next, by simp, h.symm.trans (hboth.symm.trans hreached)⟩
          · exact ⟨top, by simp [htop], hreached⟩

/-- A component with zero where it is missing, as the merge takes it. -/
def given (component : Component) (candidate : HybridCandidate) : JsNumber :=
  (candidate.scores.at component).getD (.finite 0)

theorem normalizeScore_given (component : Component) (candidate : HybridCandidate) :
    normalizeScore (some (given component candidate)) =
      normalizeScore (candidate.scores.at component) := by
  unfold given
  cases candidate.scores.at component with
  | none => simp [normalizeScore, clamp01]
  | some value => rfl

theorem merge_at (existing incoming : HybridCandidate) (component : Component) :
    (mergeHybridCandidates existing incoming).scores.at component =
      some (mathMax (given component existing) (given component incoming)) := by
  cases component <;> rfl

theorem foldl_merge_at (component : Component) : rest ≠ [] →
    (rest.foldl mergeHybridCandidates first).scores.at component =
      some ((rest.map (given component)).foldl mathMax (given component first)) := by
  intro hrest
  have hgiven : ∀ first, given component (rest.foldl mergeHybridCandidates first) =
      (rest.map (given component)).foldl mathMax (given component first) := by
    clear hrest
    induction rest with
    | nil => exact fun first => rfl
    | cons next rest ih =>
        intro first
        have hmerged : given component (mergeHybridCandidates first next) =
            mathMax (given component first) (given component next) := by
          rw [given, merge_at]
          rfl
        rw [List.foldl_cons, ih, hmerged]
        rfl
  rw [← hgiven first]
  rcases List.eq_nil_or_concat rest with hnil | ⟨init, last, rfl⟩
  · exact absurd hnil hrest
  · rw [given, List.concat_eq_append, List.foldl_concat, merge_at]
    rfl

/-! ## Groups and their merges -/

/-- The merge of a group, in order. -/
def mergeGroup : List HybridCandidate → Option HybridCandidate
  | [] => none
  | first :: rest => some (rest.foldl mergeHybridCandidates first)

theorem get_addToMerged (merged : JsMap JsString HybridCandidate) (candidate : HybridCandidate) :
    JsMap.get (addToMerged platform merged candidate) key =
      if key = dedupeKeyForCandidate platform candidate then
        some (match JsMap.get merged key with
          | some existing => mergeHybridCandidates existing candidate
          | none => candidate)
      else JsMap.get merged key := by
  rw [addToMerged, JsMap.get_set]
  by_cases hkey : key = dedupeKeyForCandidate platform candidate
  · rw [if_pos hkey, if_pos hkey, hkey]
  · rw [if_neg hkey, if_neg hkey]

theorem groupOf_concat (candidates : List HybridCandidate) (last : HybridCandidate) :
    groupOf platform (candidates ++ [last]) key =
      if key = dedupeKeyForCandidate platform last then groupOf platform candidates key ++ [last]
      else groupOf platform candidates key := by
  unfold groupOf
  rw [List.filter_append]
  by_cases hkey : key = dedupeKeyForCandidate platform last
  · simp [hkey]
  · have hother : dedupeKeyForCandidate platform last ≠ key := Ne.symm hkey
    simp [hkey, hother]

/-- **Merging.**  The candidate under a key is the merge of its group. -/
theorem get_mergedByKey :
    JsMap.get (mergedByKey platform candidates) key =
      mergeGroup (groupOf platform candidates key) := by
  induction candidates using List.reverseRecOn with
  | nil => rfl
  | append_singleton candidates last ih =>
      rw [mergedByKey, List.foldl_concat, get_addToMerged, ← mergedByKey, ih, groupOf_concat]
      by_cases hkey : key = dedupeKeyForCandidate platform last
      · rw [if_pos hkey, if_pos hkey]
        cases groupOf platform candidates key with
        | nil => rfl
        | cons first rest => simp [mergeGroup, List.foldl_append]
      · rw [if_neg hkey, if_neg hkey]

theorem counted_eq (component : Component) (candidate : HybridCandidate) :
    counted candidate component = normalizeScore (candidate.scores.at component) ∨
      component = .provenance ∧ candidate.scores.provenance = none ∧
        counted candidate component = calculateProvenanceScore candidate := by
  cases component with
  | phrase => exact .inl rfl
  | keyword => exact .inl rfl
  | vector => exact .inl rfl
  | provenance =>
      cases hgiven : candidate.scores.provenance with
      | none =>
          refine .inr ⟨rfl, rfl, ?_⟩
          simp only [counted, hgiven, Option.getD_none, normalizeScore, calculateProvenanceScore]
          exact clamp01_clamp01 _
      | some value =>
          refine .inl ?_
          simp only [counted, HybridScoreComponents.at, hgiven, Option.getD_some]

theorem counted_nonneg (candidate : HybridCandidate) (component : Component) :
    0 ≤ counted candidate component := by
  cases component <;> exact normalizeScore_nonneg _

theorem counted_merge (hrest : rest ≠ []) (component : Component) :
    counted (rest.foldl mergeHybridCandidates first) component = normalizeScore
      (some ((rest.map (given component)).foldl mathMax (given component first))) := by
  have hat := @foldl_merge_at first rest component hrest
  rcases counted_eq component (rest.foldl mergeHybridCandidates first) with h | ⟨rfl, hnone, -⟩
  · rw [h, hat]
  · rw [HybridScoreComponents.at, hnone] at hat
    exact absurd hat (by simp)

theorem given_eq_nan_iff {component : Component} {candidate : HybridCandidate} :
    given component candidate = .nan ↔ candidate.scores.at component = some .nan := by
  unfold given
  cases candidate.scores.at component <;> simp

/-- Merging a group of several members keeps each component exactly when the scores are kept. -/
theorem counted_le_iff (hrest : rest ≠ []) :
    (∀ member ∈ first :: rest, ∀ component, counted member component ≤
      counted (rest.foldl mergeHybridCandidates first) component) ↔ ScoresKept (first :: rest) := by
  have htop := fun component => foldl_mathMax (given component first) (rest.map (given component))
  have hmem : ∀ component value, value ∈ given component first :: rest.map (given component) ↔
      ∃ other ∈ first :: rest, given component other = value := by
    intro component value
    rw [← List.map_cons (f := given component), List.mem_map]
  constructor
  · intro hkept
    refine ⟨?_, ?_⟩
    · rintro component ⟨other, hother, hnan⟩ member hmember
      have hmerged := hkept member hmember component
      have hhidden := (htop component).1.mpr
        ((hmem component _).mpr ⟨other, hother, given_eq_nan_iff.mpr hnan⟩)
      rw [counted_merge hrest, hhidden] at hmerged
      exact le_antisymm hmerged (counted_nonneg _ _)
    · intro member hmember hmissing
      have hmerged := hkept member hmember .provenance
      have hcomputed : counted member .provenance = calculateProvenanceScore member := by
        rcases counted_eq .provenance member with h | ⟨-, -, h⟩
        · simp only [counted, hmissing, Option.getD_none, normalizeScore,
            calculateProvenanceScore]
          exact clamp01_clamp01 _
        · exact h
      rw [counted_merge hrest, hcomputed] at hmerged
      have hnonneg : 0 ≤ calculateProvenanceScore member := clamp01_nonneg _
      by_cases hnan : JsNumber.nan ∈ given .provenance first :: rest.map (given .provenance)
      · rw [(htop .provenance).1.mpr hnan] at hmerged
        exact .inl (le_antisymm hmerged hnonneg)
      · obtain ⟨-, value, hvalue, hreached⟩ := (htop .provenance).2 hnan
        obtain ⟨other, hother, rfl⟩ := (hmem .provenance _).mp hvalue
        rw [← hreached, normalizeScore_given] at hmerged
        cases hgiven : other.scores.provenance with
        | none =>
            rw [HybridScoreComponents.at, hgiven] at hmerged
            exact .inl (le_antisymm hmerged hnonneg)
        | some value =>
            rw [HybridScoreComponents.at, hgiven] at hmerged
            exact .inr ⟨other, hother, value, hgiven, hmerged⟩
  · intro hkept member hmember component
    rw [counted_merge hrest]
    by_cases hnan : JsNumber.nan ∈ given component first :: rest.map (given component)
    · obtain ⟨other, hother, hhidden⟩ := (hmem component _).mp hnan
      rw [hkept.shown component ⟨other, hother, given_eq_nan_iff.mp hhidden⟩ member hmember]
      exact normalizeScore_nonneg _
    · obtain ⟨habove, -⟩ := (htop component).2 hnan
      have hbound : ∀ other ∈ first :: rest, normalizeScore (other.scores.at component) ≤
          normalizeScore
            (some ((rest.map (given component)).foldl mathMax (given component first))) := by
        intro other hother
        rw [← normalizeScore_given]
        exact habove _ ((hmem component _).mpr ⟨other, hother, rfl⟩)
      rcases counted_eq component member with h | ⟨rfl, hmissing, h⟩
      · rw [h]
        exact hbound member hmember
      · rw [h]
        rcases hkept.reached member hmember hmissing with hzero | ⟨other, hother, value, hgiven, hle⟩
        · rw [hzero]
          exact normalizeScore_nonneg _
        · have hother := hbound other hother
          rw [HybridScoreComponents.at, hgiven] at hother
          exact hle.trans hother

/-- Scores are in order for all weights exactly when the components are. -/
theorem scoreOf_le_iff : (∀ weights : HybridRankingWeights, weights.NonNegative →
      scoreOf weights member ≤ scoreOf weights merged) ↔
    ∀ component, counted member component ≤ counted merged component := by
  constructor
  · intro hscores component
    -- The weights that count this component alone.
    let alone : HybridRankingWeights := {
      phrase := if component = .phrase then 1 else 0
      keyword := if component = .keyword then 1 else 0
      vector := if component = .vector then 1 else 0
      provenance := if component = .provenance then 1 else 0 }
    have hnonneg : alone.NonNegative := by
      intro other
      cases other <;> simp only [HybridRankingWeights.at, alone] <;> split_ifs <;> norm_num
    have hscore := hscores alone hnonneg
    cases component <;> simpa [scoreOf, alone] using hscore
  · intro hcomponents weights hweights
    have hpart : ∀ component, counted member component * weights.at component ≤
        counted merged component * weights.at component := fun component =>
      mul_le_mul_of_nonneg_right (hcomponents component) (hweights component)
    exact add_le_add (add_le_add (add_le_add (hpart .phrase) (hpart .keyword)) (hpart .vector))
      (hpart .provenance)

/-- **Merging duplicates.**  No merge lowers a rank, whatever the weights, exactly when in every
group of several candidates the scores are kept. -/
theorem neverLowersRank_iff (platform : Platform) (candidates : List HybridCandidate) :
    NeverLowersRank platform candidates ↔ ∀ key,
      2 ≤ (groupOf platform candidates key).length →
      ScoresKept (groupOf platform candidates key) := by
  have hgroup : NeverLowersRank platform candidates ↔ ∀ key merged,
      mergeGroup (groupOf platform candidates key) = some merged →
      ∀ member ∈ groupOf platform candidates key, ∀ component,
        counted member component ≤ counted merged component := by
    simp only [← scoreOf_le_iff, NeverLowersRank, get_mergedByKey]
    constructor
    · exact fun h key merged hmerged member hmember weights hweights =>
        h weights hweights key merged hmerged member hmember
    · exact fun h weights hweights key merged hmerged member hmember =>
        h key merged hmerged member hmember weights hweights
  rw [hgroup]
  refine forall_congr' fun key => ?_
  cases groupOf platform candidates key with
  | nil => simp [mergeGroup]
  | cons first rest =>
      cases rest with
      | nil =>
          refine ⟨fun _ hlength => absurd hlength (by simp), fun _ merged hmerged => ?_⟩
          obtain rfl := Option.some.inj hmerged
          intro member hmember component
          rw [List.mem_singleton.mp hmember]
          rfl
      | cons second rest =>
          have hseveral : 2 ≤ (first :: second :: rest).length := by simp
          rw [← counted_le_iff (List.cons_ne_nil second rest)]
          constructor
          · exact fun h _ member hmember component => h _ rfl member hmember component
          · rintro h merged hmerged member hmember component
            obtain rfl := Option.some.inj hmerged
            exact h hseveral member hmember component

/-- A chunk that the keyword search found, with no provenance score. -/
def sampleHit (id : String) : HybridCandidate where
  id := js id
  mode := .keyword
  matchedModes := [.keyword]
  documentId := none
  documentVersionId := none
  documentTitle := some (js "Reglamento")
  sectionId := none
  chunkId := some (js "1")
  citationLabel := js "Articulo 1"
  excerpt := js "Toda licencia."
  sourceType := none
  pageStart := some (.finite 1)
  pageEnd := none
  articleNumber := none
  sourceUrl := none
  scores := ⟨none, some (.finite (1 / 2)), none, none⟩
  hybridScore := .finite 0
  metadata := none

/-- Either hit scores above the merge of the two, which loses the provenance score. -/
theorem merge_lowers_rank :
    [sampleHit "a", sampleHit "b"].map (scoreOf defaultHybridWeights) = [57 / 40, 57 / 40] ∧
    (dedupeHybridCandidates (samplePlatform []) [sampleHit "a", sampleHit "b"]).map
      (scoreOf defaultHybridWeights) = [1] ∧
    ¬ ∀ candidates, NeverLowersRank (samplePlatform []) candidates := by
  have hweights : defaultHybridWeights.NonNegative := by
    intro component
    cases component <;> norm_num [HybridRankingWeights.at, defaultHybridWeights]
  have hmerged : JsMap.get (mergedByKey (samplePlatform []) [sampleHit "a", sampleHit "b"])
      (js "chunk:1") = some (mergeHybridCandidates (sampleHit "a") (sampleHit "b")) := by
    rw [get_mergedByKey]
    rfl
  have hmember : sampleHit "a" ∈ groupOf (samplePlatform [])
      [sampleHit "a", sampleHit "b"] (js "chunk:1") :=
    List.mem_filter.mpr ⟨List.mem_cons_self, by decide +kernel⟩
  refine ⟨by decide +kernel, by decide +kernel, fun hall => ?_⟩
  have hle := hall _ defaultHybridWeights hweights _ _ hmerged _ hmember
  exact absurd hle (by decide +kernel)

end Group

end Retrieval
