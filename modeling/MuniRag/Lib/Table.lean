import Mathlib.Data.List.Sort
import Mathlib.Order.Basic

/-!
# Tables of rows

A table is the list of its rows.  `updateWhere` is one `UPDATE … SET … WHERE`
statement: every row that meets the condition is rewritten, every other row is
left as it is.  `orderedBy` is `ORDER BY`, `least` is `ORDER BY … LIMIT 1` and
`greatest` is `ORDER BY … DESC LIMIT 1`.
-/

namespace Table

variable {ρ κ : Type*}

/-- `UPDATE … SET f WHERE p`. -/
def updateWhere (p : ρ → Prop) [DecidablePred p] (f : ρ → ρ) (rows : List ρ) : List ρ :=
  rows.map fun row => if p row then f row else row

variable {p : ρ → Prop} [DecidablePred p] {f : ρ → ρ} {rows : List ρ} {row : ρ}

/-- A row after an update is a rewritten row that met the condition or an
untouched one that did not. -/
theorem mem_updateWhere :
    row ∈ updateWhere p f rows ↔
      (∃ old ∈ rows, p old ∧ row = f old) ∨ (row ∈ rows ∧ ¬ p row) := by
  simp only [updateWhere, List.mem_map]
  constructor
  · rintro ⟨old, hold, rfl⟩
    by_cases hp : p old
    · exact .inl ⟨old, hold, hp, by simp [hp]⟩
    · exact .inr ⟨by simpa [hp] using hold, by simp [hp]⟩
  · rintro (⟨old, hold, hp, rfl⟩ | ⟨hrow, hp⟩)
    · exact ⟨old, hold, by simp [hp]⟩
    · exact ⟨row, hrow, by simp [hp]⟩

/-- A column that the update does not write is unchanged. -/
theorem map_updateWhere {column : ρ → κ} (h : ∀ row ∈ rows, p row → column (f row) = column row) :
    (updateWhere p f rows).map column = rows.map column := by
  simp only [updateWhere, List.map_map]
  refine List.map_congr_left fun row hrow => ?_
  by_cases hp : p row
  · simpa [hp] using h row hrow hp
  · simp [hp]

/-- A new row with a fresh value keeps a column without repetitions. -/
theorem nodup_map_append {column : ρ → κ} (h : (rows.map column).Nodup)
    (hfresh : ∀ old ∈ rows, column old ≠ column row) : ((rows ++ [row]).map column).Nodup := by
  rw [List.map_append, List.map_singleton, List.nodup_append_comm]
  refine List.nodup_cons.mpr ⟨fun hmem => ?_, h⟩
  obtain ⟨old, hold, hsame⟩ := List.mem_map.mp hmem
  exact hfresh old hold hsame

/-- Of two updates of the same rows the second remains. -/
theorem updateWhere_twice {a b : ρ} (ha : p a) :
    updateWhere p (fun _ => b) (updateWhere p (fun _ => a) rows) = updateWhere p (fun _ => b) rows := by
  simp only [updateWhere, List.map_map]
  refine List.map_congr_left fun row _ => ?_
  by_cases hp : p row
  · simp [hp, ha]
  · simp [hp]

/-- An update of rows that a filter sees no change of. -/
theorem filter_updateWhere {q : ρ → Prop} [DecidablePred q]
    (h : ∀ row ∈ rows, p row → (q (f row) ↔ q row)) :
    (updateWhere p f rows).filter q = updateWhere p f (rows.filter q) := by
  induction rows with
  | nil => rfl
  | cons row rows ih =>
      have hrest := ih fun other hother => h other (List.mem_cons_of_mem _ hother)
      have hsame : q (if p row then f row else row) ↔ q row := by
        by_cases hp : p row
        · simpa [hp] using h row List.mem_cons_self hp
        · simp [hp]
      simp only [updateWhere, List.map_cons, List.filter_cons, hsame] at hrest ⊢
      split_ifs <;> simp [*]

theorem updateWhere_none (h : ∀ row ∈ rows, ¬ p row) : updateWhere p f rows = rows := by
  refine (List.map_congr_left fun row hrow => ?_).trans (List.map_id rows)
  rw [if_neg (h row hrow)]
  rfl

/-- Rows that an update does not reach are filtered as before. -/
theorem filter_updateWhere_other {q : ρ → Prop} [DecidablePred q]
    (h : ∀ row ∈ rows, p row → ¬ q (f row) ∧ ¬ q row) :
    (updateWhere p f rows).filter q = rows.filter q := by
  rw [filter_updateWhere fun row hrow hp => iff_of_false (h row hrow hp).1 (h row hrow hp).2]
  refine updateWhere_none fun row hrow hp => ?_
  obtain ⟨hmem, hq⟩ := List.mem_filter.mp hrow
  exact (h row hmem hp).2 (of_decide_eq_true hq)

section Keyed

variable [DecidableEq κ] {column : ρ → κ} {key other : κ} {new : ρ}

/-- A row that is found by its key, after the row under a key was replaced. -/
theorem find?_replace (hnew : column new = key) :
    (updateWhere (fun row => column row = key) (fun _ => new) rows).find?
        (fun row => column row = other) =
      if other = key then (rows.find? fun row => column row = key).map fun _ => new
      else rows.find? fun row => column row = other := by
  induction rows with
  | nil => simp [updateWhere]
  | cons row rows ih =>
      simp only [updateWhere, List.map_cons] at ih ⊢
      by_cases hrow : column row = key
      · by_cases hother : other = key
        · simp [hrow, hother, hnew]
        · have hne : key ≠ other := fun h => hother h.symm
          simp [hrow, hnew, hne, hother] at ih ⊢
          exact ih
      · by_cases hother : other = key
        · subst hother
          simp [hrow] at ih ⊢
          exact ih
        · by_cases hfound : column row = other
          · simp [hfound, hother]
          · simp [hrow, hfound, hother] at ih ⊢
            exact ih

end Keyed

/-- The first row that meets the condition is rewritten. -/
def updateFirst (p : ρ → Prop) [DecidablePred p] (f : ρ → ρ) : List ρ → List ρ
  | [] => []
  | row :: rows => if p row then f row :: rows else row :: updateFirst p f rows

/-! ## Ordered rows -/

section Ordered

variable [LinearOrder κ] {rank : ρ → κ} {best : ρ}

/-- `ORDER BY rank`. -/
def orderedBy (rank : ρ → κ) (rows : List ρ) : List ρ :=
  rows.insertionSort fun a b => rank a ≤ rank b

theorem mem_orderedBy : row ∈ orderedBy rank rows ↔ row ∈ rows :=
  (List.perm_insertionSort _ rows).mem_iff

theorem length_orderedBy : (orderedBy rank rows).length = rows.length :=
  (List.perm_insertionSort _ rows).length_eq

theorem orderedBy_sorted (rank : ρ → κ) (rows : List ρ) :
    (orderedBy rank rows).Pairwise fun a b => rank a ≤ rank b := by
  have htotal : Std.Total fun a b : ρ => rank a ≤ rank b := ⟨fun a b => le_total _ _⟩
  have htrans : IsTrans ρ fun a b => rank a ≤ rank b := ⟨fun _ _ _ => le_trans⟩
  exact List.pairwise_insertionSort _ rows

theorem orderedBy_of_sorted (h : rows.Pairwise fun a b => rank a ≤ rank b) :
    orderedBy rank rows = rows :=
  h.insertionSort_eq

/-- Rows that are rewritten without a change of rank stay in order. -/
theorem orderedBy_updateWhere (h : ∀ row ∈ rows, p row → rank (f row) = rank row) :
    orderedBy rank (updateWhere p f rows) = updateWhere p f (orderedBy rank rows) := by
  have hrank : ∀ row ∈ rows, rank (if p row then f row else row) = rank row := by
    intro row hrow
    by_cases hp : p row
    · simpa [hp] using h row hrow hp
    · simp [hp]
  refine (List.map_insertionSort (r := fun a b => rank a ≤ rank b)
    (s := fun a b => rank a ≤ rank b) _ rows fun a ha b hb => ?_).symm
  rw [hrank a ha, hrank b hb]

/-- `ORDER BY rank DESC LIMIT 1`. -/
def greatest (rank : ρ → κ) : List ρ → Option ρ
  | [] => none
  | row :: rows =>
      match greatest rank rows with
      | none => some row
      | some best => if rank row < rank best then some best else some row

theorem greatest_eq_none : greatest rank rows = none ↔ rows = [] := by
  cases rows with
  | nil => simp [greatest]
  | cons row rows =>
      simp only [greatest, reduceCtorEq, iff_false]
      cases greatest rank rows with
      | none => simp
      | some best => by_cases hlt : rank row < rank best <;> simp [hlt]

/-- The row chosen is one of the rows, and no row ranks above it. -/
theorem greatest_spec (h : greatest rank rows = some best) :
    best ∈ rows ∧ ∀ row ∈ rows, rank row ≤ rank best := by
  induction rows generalizing best with
  | nil => simp [greatest] at h
  | cons row rows ih =>
      cases hrest : greatest rank rows with
      | none =>
          obtain rfl := greatest_eq_none.mp hrest
          obtain rfl : row = best := by simpa [greatest] using h
          simp
      | some top =>
          obtain ⟨hmem, htop⟩ := ih hrest
          by_cases hlt : rank row < rank top
          · obtain rfl : top = best := by simpa [greatest, hrest, hlt] using h
            exact ⟨List.mem_cons_of_mem _ hmem, List.forall_mem_cons.mpr ⟨hlt.le, htop⟩⟩
          · obtain rfl : row = best := by simpa [greatest, hrest, hlt] using h
            refine ⟨List.mem_cons_self, List.forall_mem_cons.mpr ⟨le_refl _, fun r hr => ?_⟩⟩
            exact (htop r hr).trans (not_lt.mp hlt)

/-- `ORDER BY rank LIMIT 1`. -/
def least (rank : ρ → κ) (rows : List ρ) : Option ρ :=
  greatest (fun row => OrderDual.toDual (rank row)) rows

theorem least_eq_none : least rank rows = none ↔ rows = [] := greatest_eq_none

/-- The row chosen is one of the rows, and no row ranks below it. -/
theorem least_spec (h : least rank rows = some best) :
    best ∈ rows ∧ ∀ row ∈ rows, rank best ≤ rank row := by
  obtain ⟨hmem, hbest⟩ := greatest_spec h
  exact ⟨hmem, fun row hrow => OrderDual.toDual_le_toDual.mp (hbest row hrow)⟩

end Ordered

end Table
