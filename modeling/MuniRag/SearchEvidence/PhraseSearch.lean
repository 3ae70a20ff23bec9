import MuniRag.Lib.Like

/-!
# The two phrase searches

The predicate of `TENANT_PHRASE_SEARCH_SQL` in `search.ts`, which the procedure queries use,
and that of `PHRASE_SQL` in `searchEvidence/repository.ts`, which the search API uses.  The
first is a pattern: `%`, `_` and the backslash of a phrase keep their special meaning in it.
So the two searches agree on every content exactly for the phrases without these characters
(`phrase_searches_agree_iff`).

A text is the list of its characters.  Letter case is folded character by character, by the
same function on both sides.
-/

namespace SearchEvidence

open Like

/-- The special characters of `LIKE`, with the default escape character. -/
def likeSpecials : Specials Char where
  sequence := '%'
  one := '_'
  escape := '\\'

/-- How `lower` folds a character; only letters change. -/
structure CaseFolding where
  fold : Char → Char
  special : ∀ c, likeSpecials.IsSpecial (fold c) ↔ likeSpecials.IsSpecial c
  fixed : ∀ c, likeSpecials.IsSpecial c → fold c = c

section Phrase

variable (folding : CaseFolding)

def lower (text : List Char) : List Char := text.map folding.fold

/-- `content ILIKE pattern`; `none` is the error of a pattern that ends with the escape
character. -/
def ilike (content pattern : List Char) : Option Bool :=
  (parse likeSpecials (lower folding pattern)).map (accepts · (lower folding content))

/-- `strpos`: the place of the first occurrence, counted from one, or zero. -/
def strpos (text part : List Char) : Nat :=
  match text.tails.findIdx? (part.isPrefixOf ·) with
  | some i => i + 1
  | none => 0

/-- `s.content ILIKE '%' || $1 || '%'`. -/
def tenantPhrase (phrase content : List Char) : Option Bool :=
  ilike folding content (['%'] ++ phrase ++ ['%'])

/-- `strpos(lower(section.content), lower($2)) > 0`. -/
def searchPhrase (phrase content : List Char) : Bool :=
  0 < strpos (lower folding content) (lower folding phrase)

/-- The phrase stands in the content, up to letter case. -/
def Occurs (phrase content : List Char) : Prop :=
  lower folding phrase <:+: lower folding content

variable {folding} {phrase content : List Char}

theorem strpos_pos {text part : List Char} : 0 < strpos text part ↔ part <:+: text := by
  have hfound : (text.tails.findIdx? (part.isPrefixOf ·)).isSome = true ↔ part <:+: text := by
    rw [List.findIdx?_isSome, List.any_eq_true]
    simp only [List.mem_tails, List.isPrefixOf_iff_prefix]
    constructor
    · rintro ⟨suffix, hsuffix, hprefix⟩
      exact hprefix.isInfix.trans hsuffix.isInfix
    · rintro ⟨before, after, rfl⟩
      exact ⟨part ++ after, ⟨before, by simp⟩, List.prefix_append _ _⟩
  rw [← hfound, strpos]
  cases text.tails.findIdx? (part.isPrefixOf ·) with
  | none => simp
  | some i => simp

/-- **Substring.**  The search API finds the contents in which the phrase occurs. -/
theorem searchPhrase_iff : searchPhrase folding phrase content = true ↔
    Occurs folding phrase content := by
  rw [searchPhrase, decide_eq_true_eq, strpos_pos]
  rfl

theorem lower_pattern : lower folding (['%'] ++ phrase ++ ['%']) =
    likeSpecials.sequence :: lower folding phrase ++ [likeSpecials.sequence] := by
  have hfixed : folding.fold '%' = '%' := folding.fixed '%' (.inl rfl)
  simp [lower, hfixed, likeSpecials]

/-- The characters that are not special are those that folding leaves so. -/
theorem plain_lower (hplain : ∀ c ∈ phrase, ¬ likeSpecials.IsSpecial c) :
    ∀ c ∈ lower folding phrase, ¬ likeSpecials.IsSpecial c := by
  intro c hc
  obtain ⟨original, hmem, rfl⟩ := List.mem_map.mp hc
  rw [folding.special]
  exact hplain original hmem

/-- The sample of a phrase, folded, is the sample of the folded phrase. -/
theorem lower_sampleOf (fill : Char) :
    lower folding (sampleOf likeSpecials fill phrase) =
      sampleOf likeSpecials (folding.fold fill) (lower folding phrase) := by
  have hsame : ∀ special, likeSpecials.IsSpecial special → ∀ c,
      folding.fold c = special ↔ c = special := by
    intro special hspecial c
    constructor
    · intro hfold
      have hc : likeSpecials.IsSpecial c := (folding.special c).mp (hfold ▸ hspecial)
      exact (folding.fixed c hc).symm.trans hfold
    · rintro rfl
      exact folding.fixed c hspecial
  have hescape := hsame likeSpecials.escape (.inr (.inr rfl))
  have hsequence := hsame likeSpecials.sequence (.inl rfl)
  have hone := hsame likeSpecials.one (.inr (.inl rfl))
  have hfixed : folding.fold likeSpecials.sequence = likeSpecials.sequence :=
    folding.fixed _ (.inl rfl)
  unfold lower
  fun_induction sampleOf likeSpecials fill phrase with
  | case1 => rfl
  | case2 => simp [sampleOf, (hescape _).mpr rfl, hfixed]
  | case3 next rest ih => simp [sampleOf, (hescape _).mpr rfl, ih]
  | case4 rest hne ih =>
      rw [ih, List.map_cons, hfixed, sampleOf_cons hne, if_pos rfl]
  | case5 rest hne hother ih =>
      rw [List.map_cons, List.map_cons, ih, (hone _).mpr rfl, sampleOf_cons hne, if_neg hother,
        if_pos rfl]
  | case6 c rest hne hother hnotOne ih =>
      rw [List.map_cons, List.map_cons, ih, sampleOf_cons (mt (hescape c).mp hne),
        if_neg (mt (hsequence c).mp hother), if_neg (mt (hone c).mp hnotOne)]

/-- **Two meanings.**  The two searches agree on every content exactly when the phrase has no
percent sign, no underscore and no backslash. -/
theorem phrase_searches_agree_iff (folding : CaseFolding) (phrase : List Char) :
    (∀ content, tenantPhrase folding phrase content =
        some (searchPhrase folding phrase content) ∧
      (searchPhrase folding phrase content = true ↔ Occurs folding phrase content)) ↔
      ∀ c ∈ phrase, c ≠ '%' ∧ c ≠ '_' ∧ c ≠ '\\' := by
  have hescape : likeSpecials.sequence ≠ likeSpecials.escape := by decide
  have hplain : (∀ c ∈ phrase, ¬ likeSpecials.IsSpecial c) ↔
      ∀ c ∈ phrase, c ≠ '%' ∧ c ≠ '_' ∧ c ≠ '\\' := by
    simp [Specials.IsSpecial, likeSpecials]
  rw [← hplain]
  constructor
  · intro hagree
    by_contra hspecial
    push Not at hspecial
    obtain ⟨c, hmem, hc⟩ := hspecial
    have hfill : folding.fold 'x' ≠ likeSpecials.one := by
      intro h
      have hx : likeSpecials.IsSpecial 'x' := (folding.special 'x').mp (h ▸ .inr (.inl rfl))
      exact absurd hx (by decide)
    have hlower : ∃ c ∈ lower folding phrase, likeSpecials.IsSpecial c :=
      ⟨folding.fold c, List.mem_map_of_mem hmem, (folding.special c).mpr hc⟩
    obtain ⟨tokens, hparse, haccepts, hother⟩ := accepts_other hescape hfill hlower
    -- The content is the sample of the phrase, which the pattern matches.
    obtain ⟨hsame, hmeaning⟩ := hagree (sampleOf likeSpecials 'x' phrase)
    rw [tenantPhrase, ilike, lower_pattern, hparse, lower_sampleOf, Option.map_some, haccepts,
      Option.some.injEq] at hsame
    have hoccurs := hmeaning.mp hsame.symm
    rw [Occurs, lower_sampleOf] at hoccurs
    exact hother hoccurs
  · intro hplain content
    refine ⟨?_, searchPhrase_iff⟩
    obtain ⟨tokens, hparse, hmeaning⟩ :=
      @accepts_contains_iff _ _ likeSpecials (lower folding content) (lower folding phrase) hescape
        (plain_lower hplain)
    rw [tenantPhrase, ilike, lower_pattern, hparse, Option.map_some, Option.some.injEq,
      Bool.eq_iff_iff, hmeaning, searchPhrase_iff]
    rfl

end Phrase

/-- Folding of the ASCII letters. -/
def asciiFolding : CaseFolding where
  fold := Char.toLower
  special c := by
    by_cases h : 'A'.val ≤ c.val ∧ c.val ≤ 'Z'.val
    · have hlow : 65 ≤ c.toNat := UInt32.le_iff_toNat_le.mp h.1
      have hhigh : c.toNat ≤ 90 := UInt32.le_iff_toNat_le.mp h.2
      rw [← Char.ofNat_toNat c]
      generalize c.toNat = n at hlow hhigh
      interval_cases n <;> decide
    · have hsame : c.toLower = c := dif_neg h
      rw [hsame]
  fixed c hc := by
    rcases hc with rfl | rfl | rfl <;> decide

/-- The pattern search for `50%` finds a content in which that does not stand. -/
theorem phrase_searches_differ :
    tenantPhrase asciiFolding "50%".toList "Tasa de 50 quetzales".toList = some true ∧
      searchPhrase asciiFolding "50%".toList "Tasa de 50 quetzales".toList = false := by
  decide +kernel

end SearchEvidence
