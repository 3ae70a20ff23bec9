import Mathlib.Data.List.Sort
import Mathlib.Data.List.Infix
import Mathlib.Tactic

/-!
# Filtering after a limit

A search takes the first rows of a ranked list, keeps the first row of each key, sorts these,
filters them, and returns some.  What it should return are the first ones of all rows that
pass the filter.  Whatever the rows, the filters and the two limits, it does so exactly when
each row that it should return is the first one of its key among the rows that were taken
(`found_eq_wanted_iff`).
-/

namespace LimitedSearch

/-! ## First rows -/

section FirstBy

variable {α κ : Type*} [DecidableEq κ] {key : α → κ} {rows : List α} {row : α}

/-- The first row of each key, in order. -/
def firstBy (key : α → κ) : List α → List α
  | [] => []
  | row :: rows => row :: (firstBy key rows).filter fun other => key other ≠ key row

theorem firstBy_sublist (key : α → κ) (rows : List α) : (firstBy key rows).Sublist rows := by
  induction rows with
  | nil => exact List.Sublist.slnil
  | cons row rows ih => exact (List.filter_sublist.trans ih).cons_cons row

theorem nodup_firstBy (key : α → κ) (rows : List α) : ((firstBy key rows).map key).Nodup := by
  induction rows with
  | nil => exact List.nodup_nil
  | cons row rows ih =>
      unfold firstBy
      refine List.nodup_cons.mpr ⟨?_, ?_⟩
      · intro hmem
        obtain ⟨other, hother, hsame⟩ := List.mem_map.mp hmem
        have hne := (List.mem_filter.mp hother).2
        simp [hsame] at hne
      · exact ih.sublist (List.filter_sublist.map key)

/-- A row is kept where no row before it has its key. -/
theorem mem_firstBy : row ∈ firstBy key rows ↔
    ∃ before after, rows = before ++ row :: after ∧ ∀ other ∈ before, key other ≠ key row := by
  induction rows with
  | nil => simp [firstBy]
  | cons first rows ih =>
      unfold firstBy
      rw [List.mem_cons, List.mem_filter, ih]
      constructor
      · rintro (rfl | ⟨⟨before, after, rfl, hbefore⟩, hne⟩)
        · exact ⟨[], rows, rfl, by simp⟩
        · refine ⟨first :: before, after, rfl, List.forall_mem_cons.mpr ⟨?_, hbefore⟩⟩
          exact fun h => of_decide_eq_true hne h.symm
      · rintro ⟨before, after, hrows, hbefore⟩
        cases before with
        | nil => exact .inl (List.cons.inj hrows).1.symm
        | cons other before =>
            obtain ⟨rfl, rfl⟩ := List.cons.inj hrows
            obtain ⟨hne, hbefore⟩ := List.forall_mem_cons.mp hbefore
            exact .inr ⟨⟨before, after, rfl, hbefore⟩, decide_eq_true hne.symm⟩

/-- Each row has a first row of its key at its place or before it. -/
theorem exists_firstBy (h : row ∈ rows) : ∃ first ∈ firstBy key rows, key first = key row := by
  induction rows with
  | nil => exact absurd h List.not_mem_nil
  | cons other rows ih =>
      unfold firstBy
      by_cases hsame : key other = key row
      · exact ⟨other, List.mem_cons_self, hsame⟩
      · rcases List.mem_cons.mp h with rfl | h
        · exact absurd rfl hsame
        · obtain ⟨first, hfirst, hkey⟩ := ih h
          refine ⟨first, List.mem_cons_of_mem _ (List.mem_filter.mpr ⟨hfirst, ?_⟩), hkey⟩
          exact decide_eq_true fun h => hsame (h.symm.trans hkey)

theorem firstBy_append (rows others : List α) : firstBy key (rows ++ others) =
    firstBy key rows ++ (firstBy key others).filter fun other => key other ∉ rows.map key := by
  induction rows with
  | nil => simp [firstBy]
  | cons row rows ih =>
      rw [List.cons_append, firstBy, ih, List.filter_append, List.filter_filter, firstBy,
        List.cons_append]
      congr 2
      refine List.filter_congr fun other _ => ?_
      simp

/-- A row whose key was seen is not kept. -/
theorem firstBy_concat_seen (h : key row ∈ rows.map key) :
    firstBy key (rows ++ [row]) = firstBy key rows := by
  have hnot : ¬ decide (key row ∉ rows.map key) = true := by simpa using List.mem_map.mp h
  rw [firstBy_append]
  refine (congrArg (firstBy key rows ++ ·) (List.filter_cons_of_neg hnot)).trans ?_
  exact List.append_nil _

theorem firstBy_concat_new (h : key row ∉ rows.map key) :
    firstBy key (rows ++ [row]) = firstBy key rows ++ [row] := by
  rw [firstBy_append]
  refine congrArg (firstBy key rows ++ ·) ?_
  exact List.filter_cons_of_pos (decide_eq_true h)

theorem firstBy_takeStart (n : Nat) (rows : List α) :
    firstBy key (rows.take n) <+: firstBy key rows := by
  have hsplit := @firstBy_append _ _ _ key (rows.take n) (rows.drop n)
  rw [List.take_append_drop] at hsplit
  rw [hsplit]
  exact List.prefix_append _ _

/-- Two rows stay in order where neither stands further in front. -/
theorem pair_sublist_firstBy {before after : List α} {first second : α}
    (hrows : rows = before ++ first :: after) (hfirst : ∀ other ∈ before, key other ≠ key first)
    (hsecond : second ∈ firstBy key after) (hother : ∀ other ∈ before, key other ≠ key second)
    (hne : key second ≠ key first) : [first, second].Sublist (firstBy key rows) := by
  have hfresh : key first ∉ before.map key := by
    intro hmem
    obtain ⟨other, hmem, hsame⟩ := List.mem_map.mp hmem
    exact hfirst other hmem hsame
  have hfresh' : key second ∉ before.map key := by
    intro hmem
    obtain ⟨other, hmem, hsame⟩ := List.mem_map.mp hmem
    exact hother other hmem hsame
  have hkept : second ∈ (((firstBy key after).filter fun other => key other ≠ key first).filter
      fun other => key other ∉ before.map key) :=
    List.mem_filter.mpr ⟨List.mem_filter.mpr ⟨hsecond, decide_eq_true hne⟩, decide_eq_true hfresh'⟩
  rw [hrows, firstBy_append, firstBy, List.filter_cons_of_pos (by simpa using hfresh)]
  exact (List.Sublist.cons_cons first (List.singleton_sublist.mpr hkept)).trans
    (List.sublist_append_right _ _)

/-- The first row of a key is the first of its kind. -/
theorem firstBy_sublist_distinct [DecidableEq α] (key : α → κ) (rows : List α) :
    (firstBy key rows).Sublist (firstBy id rows) := by
  induction rows with
  | nil => exact List.Sublist.slnil
  | cons row rows ih =>
      unfold firstBy
      refine List.Sublist.cons_cons row ?_
      have hweaker : ((firstBy key rows).filter fun other => key other ≠ key row).Sublist
          ((firstBy key rows).filter fun other => id other ≠ id row) := by
        refine List.monotone_filter_right _ fun other hother => ?_
        have hne : key other ≠ key row := of_decide_eq_true hother
        exact decide_eq_true fun h => hne (congrArg key h)
      exact hweaker.trans (ih.filter _)

theorem firstBy_filter [DecidableEq α] (passes : α → Bool) (rows : List α) :
    firstBy id (rows.filter passes) = (firstBy id rows).filter passes := by
  induction rows with
  | nil => rfl
  | cons row rows ih =>
      by_cases hpasses : passes row = true
      · rw [List.filter_cons_of_pos hpasses, firstBy, ih, firstBy, List.filter_cons_of_pos hpasses,
          List.filter_comm]
      · rw [List.filter_cons_of_neg hpasses, ih, firstBy, List.filter_cons_of_neg hpasses,
          List.filter_filter]
        refine List.filter_congr fun other _ => ?_
        by_cases hsame : other = row
        · simp [hsame, hpasses]
        · simp [hsame]

end FirstBy

/-! ## Sorting and filtering -/

section Sorting

variable {α : Type*} {r : α → α → Prop} [DecidableRel r]

theorem filter_orderedInsert [Std.Total r] [IsTrans α r] (passes : α → Bool) (a : α)
    {l : List α} (hl : l.Pairwise r) : (l.orderedInsert r a).filter passes =
      if passes a then (l.filter passes).orderedInsert r a else l.filter passes := by
  induction l with
  | nil => by_cases ha : passes a = true <;> simp [ha]
  | cons b l ih =>
      obtain ⟨hb, hl⟩ := List.pairwise_cons.mp hl
      rw [List.orderedInsert_cons]
      by_cases hab : r a b
      · rw [if_pos hab]
        by_cases ha : passes a = true
        · rw [List.filter_cons_of_pos ha, if_pos ha]
          -- All of the rest follows `a`, filtered or not.
          have hfollows : ∀ c ∈ (b :: l).filter passes, r a c := by
            intro c hc
            rcases List.mem_cons.mp (List.mem_of_mem_filter hc) with rfl | hc
            · exact hab
            · exact IsTrans.trans _ _ _ hab (hb c hc)
          cases hrest : (b :: l).filter passes with
          | nil => rfl
          | cons c rest =>
              rw [List.orderedInsert_cons, if_pos (hfollows c (hrest ▸ List.mem_cons_self))]
        · rw [List.filter_cons_of_neg ha, if_neg ha]
      · rw [if_neg hab]
        by_cases hpass : passes b = true
        · rw [List.filter_cons_of_pos hpass, ih hl, List.filter_cons_of_pos hpass]
          by_cases ha : passes a = true
          · rw [if_pos ha, if_pos ha, List.orderedInsert_cons, if_neg hab]
          · rw [if_neg ha, if_neg ha]
        · rw [List.filter_cons_of_neg hpass, ih hl, List.filter_cons_of_neg hpass]

/-- **A stable sort commutes with a filter.** -/
theorem filter_insertionSort [Std.Total r] [IsTrans α r] (passes : α → Bool) (l : List α) :
    (l.insertionSort r).filter passes = (l.filter passes).insertionSort r := by
  induction l with
  | nil => rfl
  | cons a l ih =>
      rw [List.insertionSort_cons, filter_orderedInsert passes a (List.pairwise_insertionSort r l),
        ih]
      by_cases ha : passes a = true
      · rw [if_pos ha, List.filter_cons_of_pos ha, List.insertionSort_cons]
      · rw [if_neg ha, List.filter_cons_of_neg ha]

end Sorting

/-! ## Two filters of one list -/

section Take

variable {α : Type*}

/-- Where each row that only `found` lets pass stands after one that only `wanted` does, the
first rows of the two are the same exactly when `found` lets the first wanted ones pass. -/
theorem take_filter_eq_iff {found wanted : α → Bool} {rows : List α} {n : Nat}
    (h : ∀ before row after, rows = before ++ row :: after → found row = true →
      wanted row = false → ∃ first ∈ before, wanted first = true ∧ found first = false) :
    (rows.filter found).take n = (rows.filter wanted).take n ↔
      ∀ row ∈ (rows.filter wanted).take n, found row = true := by
  constructor
  · intro hsame row hrow
    rw [← hsame] at hrow
    exact (List.mem_filter.mp (List.mem_of_mem_take hrow)).2
  · intro hfound
    induction rows generalizing n with
    | nil => rfl
    | cons row rows ih =>
        have hrest : ∀ (hkept : wanted row = false ∨ found row = true) before other after,
            rows = before ++ other :: after → found other = true → wanted other = false →
            ∃ first ∈ before, wanted first = true ∧ found first = false := by
          intro hkept before other after hrows hother hnot
          obtain ⟨first, hfirst, hwanted, hmissed⟩ :=
            h (row :: before) other after (congrArg (row :: ·) hrows) hother hnot
          rcases List.mem_cons.mp hfirst with rfl | hfirst
          · rcases hkept with hkept | hkept
            · exact absurd (hkept.symm.trans hwanted) (by decide)
            · exact absurd (hmissed.symm.trans hkept) (by decide)
          · exact ⟨first, hfirst, hwanted, hmissed⟩
        cases hwanted : wanted row with
        | false =>
            have hnotWanted : ¬ wanted row = true := by simp [hwanted]
            cases hfoundRow : found row with
            | false =>
                have hnotFound : ¬ found row = true := by simp [hfoundRow]
                rw [List.filter_cons_of_neg hnotFound, List.filter_cons_of_neg hnotWanted]
                rw [List.filter_cons_of_neg hnotWanted] at hfound
                exact ih (hrest (.inl hwanted)) hfound
            | true =>
                obtain ⟨first, hfirst, -⟩ := h [] row rows rfl hfoundRow hwanted
                exact absurd hfirst List.not_mem_nil
        | true =>
            cases n with
            | zero => rfl
            | succ n =>
                rw [List.filter_cons_of_pos hwanted, List.take_succ_cons] at hfound ⊢
                obtain ⟨hrow, hfound⟩ := List.forall_mem_cons.mp hfound
                rw [List.filter_cons_of_pos hrow, List.take_succ_cons]
                exact congrArg (row :: ·) (ih (hrest (.inr hrow)) hfound)

/-- In a list without repetition, what precedes a row stands before it. -/
theorem mem_before_of_pair {before after : List α} {first row : α}
    (hnodup : (before ++ row :: after).Nodup) (h : [first, row].Sublist (before ++ row :: after)) :
    first ∈ before := by
  induction before with
  | nil =>
      obtain ⟨hfresh, -⟩ := List.nodup_cons.mp hnodup
      have hrow : row ∈ after := by
        cases h with
        | cons _ h => exact h.subset (by simp)
        | cons_cons _ h => exact h.subset (by simp)
      exact absurd hrow hfresh
  | cons other before ih =>
      obtain ⟨hfresh, hnodup⟩ := List.nodup_cons.mp hnodup
      rw [List.cons_append] at h
      cases h with
      | cons _ h => exact List.mem_cons_of_mem _ (ih hnodup h)
      | cons_cons _ h => exact List.mem_cons_self

theorem filter_mem_of_sublist [DecidableEq α] {rows kept : List α} (h : kept.Sublist rows)
    (hnodup : rows.Nodup) : kept = rows.filter (· ∈ kept) := by
  induction h with
  | slnil => rfl
  | cons row h ih =>
      obtain ⟨hfresh, hnodup⟩ := List.nodup_cons.mp hnodup
      rw [List.filter_cons_of_neg (by simpa using fun hmem => hfresh (h.subset hmem))]
      exact ih hnodup
  | cons_cons row h ih =>
      obtain ⟨hfresh, hnodup⟩ := List.nodup_cons.mp hnodup
      rw [List.filter_cons_of_pos (by simp)]
      refine congrArg (row :: ·) ?_
      refine (ih hnodup).trans (List.filter_congr fun other hother => ?_)
      have hne : other ≠ row := fun heq => hfresh (heq ▸ hother)
      simp [hne]

end Take

/-! ## The search -/

section Search

variable {α κ : Type*} [DecidableEq α] [DecidableEq κ] (r : α → α → Prop) [DecidableRel r]
  (key : α → κ) (ranked : List α) (admits passes : α → Bool) (limit count : Nat)

/-- The first rows that are admitted, then one for each key, sorted, filtered and counted. -/
def found : List α :=
  (((firstBy key ((ranked.filter admits).take limit)).insertionSort r).filter passes).take count

/-- The first of all rows that pass, one for each key. -/
def wanted : List α :=
  ((firstBy key (ranked.filter passes)).insertionSort r).take count

variable {r key ranked admits passes limit count}

/-- A row that passes stands, among the distinct rows, after the first of its key that does. -/
theorem first_before {row : α} (hmem : row ∈ ranked.filter passes)
    (hnot : row ∉ firstBy key (ranked.filter passes)) :
    ∃ first ∈ firstBy key (ranked.filter passes), key first = key row ∧
      [first, row].Sublist ranked ∧ [first, row].Sublist (firstBy id ranked) := by
  obtain ⟨first, hfirst, hkey⟩ := @exists_firstBy _ _ _ key _ _ hmem
  obtain ⟨before, after, hrows, hbefore⟩ := mem_firstBy.mp hfirst
  have hne : row ≠ first := fun h => hnot (h ▸ hfirst)
  have hbeforeRow : ∀ other ∈ before, key other ≠ key row := by
    intro other hother
    rw [← hkey]
    exact hbefore other hother
  have hafter : row ∈ after := by
    rw [hrows] at hmem
    rcases List.mem_append.mp hmem with hmem | hmem
    · exact absurd rfl (hbeforeRow row hmem)
    · exact (List.mem_cons.mp hmem).resolve_left hne
  have hdistinctBefore : ∀ {row : α}, (∀ other ∈ before, key other ≠ key row) →
      ∀ other ∈ before, id other ≠ id row := by
    intro row h other hother hsame
    exact h other hother (congrArg key hsame)
  have hsecond : row ∈ firstBy id after := by
    obtain ⟨same, hsame, heq⟩ := @exists_firstBy _ _ _ id _ _ hafter
    obtain rfl : same = row := heq
    exact hsame
  refine ⟨first, hfirst, hkey, ?_, ?_⟩
  · have hpair : [first, row].Sublist (ranked.filter passes) := by
      rw [hrows]
      exact (List.Sublist.cons_cons first (List.singleton_sublist.mpr hafter)).trans
        (List.sublist_append_right _ _)
    exact hpair.trans List.filter_sublist
  · have hpair : [first, row].Sublist (firstBy id (ranked.filter passes)) :=
      pair_sublist_firstBy hrows (hdistinctBefore hbefore) hsecond (hdistinctBefore hbeforeRow) hne
    rw [firstBy_filter] at hpair
    exact hpair.trans List.filter_sublist

omit [DecidableEq α] in
theorem mem_wanted {row : α} (h : row ∈ wanted r key ranked passes count) :
    row ∈ ranked ∧ passes row = true := by
  have hfirst := (List.perm_insertionSort _ _).mem_iff.mp (List.mem_of_mem_take h)
  exact List.mem_filter.mp ((firstBy_sublist key _).subset hfirst)

/-- A row that passes and whose key is not wanted is outranked by as many rows as may be
wanted. -/
theorem omitted [Std.Total r] [IsTrans α r]
    (hranked : ranked.Pairwise fun left right => key left = key right → r left right)
    {row : α} (hmem : row ∈ ranked) (hpasses : passes row = true)
    (hnone : ∀ other ∈ wanted r key ranked passes count, key other ≠ key row) :
    (wanted r key ranked passes count).length = count ∧
      ∀ other ∈ wanted r key ranked passes count, r other row := by
  let first := firstBy key (ranked.filter passes)
  have hpassing : row ∈ ranked.filter passes := List.mem_filter.mpr ⟨hmem, hpasses⟩
  have hbest : ∃ best ∈ first, key best = key row ∧ r best row := by
    by_cases hfirst : row ∈ first
    · exact ⟨row, hfirst, rfl, (Std.Total.total row row).elim id id⟩
    · obtain ⟨best, hbest, hkey, hpair, -⟩ := first_before hpassing hfirst
      exact ⟨best, hbest, hkey,
        List.rel_of_pairwise_cons (hranked.sublist hpair) (List.mem_singleton_self row) hkey⟩
  obtain ⟨best, hbest, hkey, houtranks⟩ := hbest
  have hsplit := List.take_append_drop count (first.insertionSort r)
  have hsorted : (first.insertionSort r).Pairwise r := List.pairwise_insertionSort r first
  have hdropped : best ∈ (first.insertionSort r).drop count := by
    have hbest : best ∈ first.insertionSort r := (List.perm_insertionSort r first).mem_iff.mpr hbest
    rw [← hsplit] at hbest
    refine (List.mem_append.mp hbest).resolve_left fun htaken => ?_
    exact hnone best htaken hkey
  rw [← hsplit] at hsorted
  constructor
  · have hlong : count < (first.insertionSort r).length := by
      by_contra hshort
      rw [List.drop_eq_nil_of_le (not_lt.mp hshort)] at hdropped
      exact absurd hdropped List.not_mem_nil
    exact List.length_take_of_le hlong.le
  · intro other hother
    exact IsTrans.trans _ _ _ ((List.pairwise_append.mp hsorted).2.2 other hother best hdropped)
      houtranks

/-- **Limit before filter.**  For a list in which a row comes before those of its key that it
outranks, the search finds what is wanted exactly when each row that is wanted is the first of
its key among the rows that the limit leaves. -/
theorem found_eq_wanted_iff [Std.Total r] [IsTrans α r]
    (hranked : ranked.Pairwise fun left right => key left = key right → r left right) :
    found r key ranked admits passes limit count = wanted r key ranked passes count ↔
      ∀ row ∈ wanted r key ranked passes count,
        row ∈ firstBy key ((ranked.filter admits).take limit) := by
  let distinct := firstBy id ranked
  let first := firstBy key (ranked.filter passes)
  let seen := (firstBy key ((ranked.filter admits).take limit)).filter passes
  have hdistinct : distinct.Nodup := by simpa using nodup_firstBy id ranked
  have hfirst : first.Sublist distinct := by
    refine (firstBy_sublist_distinct key _).trans ?_
    rw [firstBy_filter]
    exact List.filter_sublist
  have hseen : seen.Sublist distinct := by
    refine List.filter_sublist.trans ((firstBy_takeStart _ _).sublist.trans ?_)
    refine (firstBy_sublist_distinct key _).trans ?_
    rw [firstBy_filter]
    exact List.filter_sublist
  -- Both are filters of one sorted list.
  have hwanted : wanted r key ranked passes count =
      ((distinct.insertionSort r).filter (· ∈ first)).take count := by
    rw [filter_insertionSort, ← filter_mem_of_sublist hfirst hdistinct]
    rfl
  have hfound : found r key ranked admits passes limit count =
      ((distinct.insertionSort r).filter (· ∈ seen)).take count := by
    rw [filter_insertionSort, ← filter_mem_of_sublist hseen hdistinct, found,
      filter_insertionSort]
  have hcondition : (∀ row ∈ wanted r key ranked passes count, row ∈ seen) ↔
      ∀ row ∈ wanted r key ranked passes count,
        row ∈ firstBy key ((ranked.filter admits).take limit) := by
    refine forall₂_congr fun row hrow => ?_
    simp [seen, (mem_wanted hrow).2]
  rw [← hcondition, hfound, hwanted, take_filter_eq_iff]
  · simp
  · intro before row after hsorted hrow hnot
    have hrow : row ∈ seen := of_decide_eq_true hrow
    have hnot : row ∉ first := of_decide_eq_false hnot
    obtain ⟨hrowSeen, hpasses⟩ := List.mem_filter.mp hrow
    have hmem : row ∈ ranked := by
      have htaken := (firstBy_sublist key _).subset hrowSeen
      exact (List.mem_filter.mp (List.mem_of_mem_take htaken)).1
    obtain ⟨other, hother, hkey, hpair, hdistinctPair⟩ :=
      first_before (List.mem_filter.mpr ⟨hmem, hpasses⟩) hnot
    have houtranks : r other row :=
      List.rel_of_pairwise_cons (hranked.sublist hpair) (List.mem_singleton_self row) hkey
    have hmissed : other ∉ seen := by
      intro hseenOther
      have hsame : other = row := List.inj_on_of_nodup_map (nodup_firstBy key _)
        (List.mem_filter.mp hseenOther).1 hrowSeen hkey
      exact hnot (hsame ▸ hother)
    refine ⟨other, ?_, decide_eq_true hother, decide_eq_false hmissed⟩
    have hsortedPair := List.pair_sublist_insertionSort houtranks hdistinctPair
    have hsortedNodup : (distinct.insertionSort r).Nodup :=
      (List.perm_insertionSort r distinct).nodup_iff.mpr hdistinct
    rw [hsorted] at hsortedPair hsortedNodup
    exact mem_before_of_pair hsortedNodup hsortedPair

end Search

end LimitedSearch
