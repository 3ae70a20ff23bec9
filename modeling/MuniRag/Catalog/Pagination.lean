import Mathlib.Data.Prod.Lex
import MuniRag.Catalog.Listing
import MuniRag.Lib.Keyset

/-!
# Walks along a collection

A client follows `next_cursor`: each response carries the text of the next request's
cursor, which the handler parses back.  Both repositories are instances of keyset
pagination; the cursors of the in-memory one say all of the key, those of PostgreSQL
drop its microseconds.

Hence PostgreSQL passes rows by: a row in the millisecond of the last row of a page is
not after its cursor when it has microseconds.  Nothing is ever listed twice.  A
collection is paginated as it should be exactly when no millisecond holds such a pair
of rows, and a UUID to filter by is spelt as PostgreSQL spells it (`paginates_iff`).
-/

namespace Catalog

open Keyset (Keys Separated)

section Walk

variable {δ : Type}

/-- What a client has listed, and the cursor text of its next request, if there is one. -/
structure Progress (δ : Type) where
  listed : List (Record δ)
  next : Option (Option CursorText)

/-- One list request, from the cursor text of the query to that of the response. -/
def listRequest (list : CatalogListInput → CatalogPage (Record δ)) (tenantId : Uuid)
    (filters : Filters) (limit : Nat) (token : Option CursorText) :
    Except CatalogApiError (List (Record δ) × Option CursorText) := do
  let cursor ← parseCursor token
  let page := list { tenantId, limit, cursor, filters }
  .ok (page.items, encodeCursor page.nextCursor)

/-- The next request of a client, if there is one. -/
def followNext (list : CatalogListInput → CatalogPage (Record δ)) (tenantId : Uuid)
    (filters : Filters) (limit : Nat) (progress : Progress δ) :
    Except CatalogApiError (Progress δ) :=
  match progress.next with
  | none => .ok progress
  | some token => do
      let (items, next) ← listRequest list tenantId filters limit token
      .ok { listed := progress.listed ++ items, next := next.map some }

/-- The first requests of a client that follows `next_cursor`; `list n` answers request
`n`. -/
def follow (list : Nat → CatalogListInput → CatalogPage (Record δ)) (tenantId : Uuid)
    (filters : Filters) (limit : Nat) : Nat → Except CatalogApiError (Progress δ)
  | 0 => .ok { listed := [], next := some none }
  | n + 1 => do
      let progress ← follow list tenantId filters limit n
      followNext (list n) tenantId filters limit progress

end Walk

/-! ## PostgreSQL pages -/

section Postgres

variable {δ : Type}

/-- The cursor made from the record of a row. -/
def cursorOf (row : Row δ) : CatalogCursor where
  createdAt := iso row.createdAt
  id := row.id

theorem timestamptz_iso_le (value : Micros) : timestamptz (iso value) ≤ value := by
  exact Int.mul_ediv_self_le (by decide)

theorem rowBefore_iff {cursor : CatalogCursor} {row : Row δ} :
    rowBefore cursor row = true ↔
      toLex (row.createdAt, row.id) < toLex (timestamptz cursor.createdAt, cursor.id) := by
  rw [Prod.Lex.toLex_lt_toLex, rowBefore]
  simp only [Bool.or_eq_true, Bool.and_eq_true, decide_eq_true_eq]

/-- The keys of PostgreSQL's rows. -/
def rowKeys (δ : Type) : Keys (Row δ) (Int ×ₗ Nat) CatalogCursor where
  key row := toLex (row.createdAt, row.id)
  cursor := cursorOf
  after := rowBefore
  key_lt_of_after {row other} h := by
    refine (rowBefore_iff.mp h).trans_le ?_
    rw [Prod.Lex.toLex_le_toLex]
    rcases lt_or_eq_of_le (timestamptz_iso_le row.createdAt) with hlt | heq
    · exact .inl hlt
    · exact .inr ⟨heq, le_rfl⟩
  after_of_le h hle := rowBefore_iff.mpr (hle.trans_lt (rowBefore_iff.mp h))

theorem descending_iff {row other : Row δ} :
    descending row other ↔ (rowKeys δ).key other ≤ (rowKeys δ).key row :=
  (Prod.Lex.toLex_le_toLex (x := (other.createdAt, other.id)) (y := (row.createdAt, row.id))).symm

/-- The keys of mapped records. -/
def recordKeys (δ : Type) : Keys (Record δ) (Int ×ₗ Nat) CatalogCursor where
  key record := toLex (record.createdAt, record.id)
  cursor record := { createdAt := record.createdAt, id := record.id }
  after cursor record := afterCursor record (some cursor)
  key_lt_of_after h := by
    rw [Prod.Lex.toLex_lt_toLex]
    simpa only [afterCursor, Bool.or_eq_true, Bool.and_eq_true, decide_eq_true_eq] using h
  after_of_le {c row other} h hle := by
    simp only [afterCursor, Bool.or_eq_true, Bool.and_eq_true, decide_eq_true_eq] at h ⊢
    have hlt : toLex (row.createdAt, row.id) < toLex (c.createdAt, c.id) :=
      Prod.Lex.toLex_lt_toLex.mpr h
    exact Prod.Lex.toLex_lt_toLex.mp (hle.trans_lt hlt)

theorem insertionSort_iff {α : Type} {r s : α → α → Prop} [DecidableRel r] [DecidableRel s]
    (h : ∀ a b, r a b ↔ s a b) (l : List α) : l.insertionSort r = l.insertionSort s := by
  have hmap := List.map_insertionSort r s id l fun a _ b _ => h a b
  rwa [List.map_id, List.map_id] at hmap

/-- The list methods read a page of the matching rows. -/
theorem listRows_eq (filterColumns : List (Column δ)) (rows : List (Row δ))
    (input : CatalogListInput) :
    listRows filterColumns rows input =
      { items := (Keyset.page (rowKeys δ) (matching filterColumns input.tenantId input.filters rows)
          input.limit input.cursor).1.map fromRow
        nextCursor := (Keyset.page (rowKeys δ)
          (matching filterColumns input.tenantId input.filters rows) input.limit input.cursor).2 } := by
  have hfilter : (rows.filter fun row => row.tenantId == input.tenantId &&
      filterColumns.all (·.sqlHolds input.filters row.columns) &&
        input.cursor.all (rowBefore · row)) =
      (matching filterColumns input.tenantId input.filters rows).filter
        (Keyset.allowed (rowKeys δ) input.cursor) := by
    rw [matching, List.filter_filter]
    refine List.filter_congr fun row _ => ?_
    exact Bool.and_comm _ _
  have hselect : selectRows filterColumns rows input =
      (Keyset.ordered (rowKeys δ) ((matching filterColumns input.tenantId input.filters rows).filter
        (Keyset.allowed (rowKeys δ) input.cursor))).take (input.limit + 1) := by
    rw [selectRows, hfilter, Keyset.ordered, insertionSort_iff fun _ _ => descending_iff]
  rw [listRows, hselect, Keyset.page]
  generalize Keyset.ordered (rowKeys δ) ((matching filterColumns input.tenantId input.filters
    rows).filter (Keyset.allowed (rowKeys δ) input.cursor)) = found
  have hmore : (found.take (input.limit + 1)).length > input.limit ↔ input.limit < found.length := by
    rw [List.length_take]
    omega
  have htake : (found.take (input.limit + 1)).take input.limit = found.take input.limit := by
    rw [List.take_take, Nat.min_eq_left (Nat.le_succ _)]
  have hlast : ∀ selected : List (Row δ), ((selected.map fromRow).getLast?.map
      fun last => { createdAt := last.createdAt, id := last.id : CatalogCursor }) =
      selected.getLast?.map cursorOf := by
    intro selected
    rw [List.getLast?_map, Option.map_map]
    rfl
  simp only [hmore, htake, hlast, decide_eq_true_eq]
  rfl

/-- In a millisecond of two rows, the second one in the order has no microseconds, and
the smaller identifier. -/
def MillisecondsApart (rows : List (Row δ)) : Prop :=
  ∀ row ∈ rows, ∀ other ∈ rows, iso other.createdAt = iso row.createdAt →
    toLex (other.createdAt, other.id) < toLex (row.createdAt, row.id) →
      other.createdAt = timestamptz (iso row.createdAt) ∧ other.id < row.id

theorem iso_mono {value other : Micros} (h : other ≤ value) : iso other ≤ iso value :=
  Int.ediv_le_ediv (by decide) h

theorem lt_timestamptz {value other : Micros} (h : iso other < iso value) :
    other < timestamptz (iso value) := by
  have hlt : other < 1000 * (other / 1000) + 1000 := Int.lt_mul_ediv_self_add (by decide)
  have hle : other / 1000 + 1 ≤ value / 1000 := h
  have hmul : ∀ a b : Int, a + 1 ≤ b → 1000 * a + 1000 ≤ 1000 * b := by
    intro a b hab
    omega
  exact hlt.trans_le (hmul _ _ hle)

theorem separated_iff {rows : List (Row δ)} :
    Separated (rowKeys δ) rows ↔ MillisecondsApart rows := by
  constructor
  · intro hseparated row hrow other hother hiso hkey
    have hafter : rowBefore (cursorOf row) other = true := hseparated row hrow other hother hkey
    have hbelow : timestamptz (iso row.createdAt) ≤ other.createdAt := by
      rw [← hiso]
      exact timestamptz_iso_le _
    rw [rowBefore_iff, Prod.Lex.toLex_lt_toLex] at hafter
    rcases hafter with hlt | ⟨heq, hid⟩
    · exact absurd hlt (not_lt.mpr hbelow)
    · exact ⟨heq, hid⟩
  · intro hapart row hrow other hother hkey
    refine rowBefore_iff.mpr (Prod.Lex.toLex_lt_toLex.mpr ?_)
    by_cases hiso : iso other.createdAt = iso row.createdAt
    · exact .inr (hapart row hrow other hother hiso hkey)
    · have hle : other.createdAt ≤ row.createdAt := by
        rcases Prod.Lex.toLex_lt_toLex.mp hkey with hlt | ⟨heq, _⟩
        · exact hlt.le
        · exact heq.le
      exact .inl (lt_timestamptz (lt_of_le_of_ne (iso_mono hle) hiso))

theorem matching_nodup (filterColumns : List (Column δ)) (tenantId : Uuid) (filters : Filters)
    (table : CatalogTable δ) :
    ((matching filterColumns tenantId filters table.rows).map (rowKeys δ).key).Nodup := by
  have hids : ((matching filterColumns tenantId filters table.rows).map (·.id)).Nodup :=
    table.primaryKey.sublist (List.filter_sublist.map _)
  refine List.Nodup.of_map (fun key : Int ×ₗ Nat => (ofLex key).2) ?_
  rw [List.map_map]
  exact hids

end Postgres

/-! ## Pages in memory -/

section InMemory

variable {δ : Type}

theorem compareDescending_iff {left right : Record δ} :
    compareDescending left right ≠ .gt ↔
      (recordKeys δ).key right ≤ (recordKeys δ).key left := by
  have hkeys : (recordKeys δ).key right ≤ (recordKeys δ).key left ↔
      right.createdAt < left.createdAt ∨
        (right.createdAt = left.createdAt ∧ right.id ≤ left.id) :=
    Prod.Lex.toLex_le_toLex (x := (right.createdAt, right.id)) (y := (left.createdAt, left.id))
  rw [hkeys, compareDescending]
  rcases lt_trichotomy right.createdAt left.createdAt with hlt | heq | hgt
  · simp [compare_lt_iff_lt.mpr hlt, hlt]
  · rw [heq, compare_eq_iff_eq.mpr rfl]
    simp [Ordering.then, compare_le_iff_le]
  · simp [compare_gt_iff_gt.mpr hgt, hgt.ne', not_lt.mpr hgt.le]

theorem pageOf_eq (items : List (Record δ)) (input : CatalogListInput) :
    pageOf items input =
      { items := (Keyset.page (recordKeys δ) items input.limit input.cursor).1
        nextCursor := (Keyset.page (recordKeys δ) items input.limit input.cursor).2 } := by
  have hfilter : items.filter (afterCursor · input.cursor) =
      items.filter (Keyset.allowed (recordKeys δ) input.cursor) := by
    refine List.filter_congr fun item _ => ?_
    cases input.cursor with
    | none => rfl
    | some c => rfl
  have hordered : (items.filter (afterCursor · input.cursor)).insertionSort
      (fun left right => compareDescending left right ≠ .gt) =
      Keyset.ordered (recordKeys δ)
        (items.filter (Keyset.allowed (recordKeys δ) input.cursor)) := by
    rw [hfilter, Keyset.ordered, insertionSort_iff fun _ _ => compareDescending_iff]
  simp only [pageOf, Keyset.page, hordered, decide_eq_true_eq, gt_iff_lt]
  rfl

/-- A UUID to filter by is spelt as PostgreSQL spells it, in lower case. -/
def LowerCase (filterColumns : List (Column δ)) (filters : Filters) : Prop :=
  ∀ column ∈ filterColumns, match column with
    | .text _ _ => True
    | .uuid name _ _ => ∀ wanted, filters.value name = some wanted →
        ∃ id, uuidValue wanted = some id ∧ uuidText id = wanted

theorem uuidText_inj {a b : Uuid} (ha : a < 16 ^ 32) (hb : b < 16 ^ 32)
    (h : uuidText a = uuidText b) : a = b := by
  have hvalue := congrArg uuidValue h
  rw [uuidValue_uuidText ha, uuidValue_uuidText hb] at hvalue
  exact Option.some.inj hvalue

theorem not_isEmpty {filters : Filters} {name : String} {wanted : JsString}
    (h : filters.value name = some wanted) : wanted.isEmpty = false := by
  rw [List.isEmpty_eq_false_iff]
  rintro rfl
  exact filters.present name h

/-- Text comparison finds no row that the query does not. -/
theorem sqlHolds_of_textEquals {filters : Filters} {columns : δ} {column : Column δ}
    (h : column.textEquals filters columns = true) : column.sqlHolds filters columns = true := by
  cases column with
  | text name value =>
      simp only [Column.textEquals, Column.sqlHolds] at h ⊢
      cases hfilter : filters.value name with
      | none => rfl
      | some wanted => simpa [hfilter, not_isEmpty hfilter] using h
  | uuid name value bounded =>
      simp only [Column.textEquals, Column.sqlHolds] at h ⊢
      cases hfilter : filters.value name with
      | none => rfl
      | some wanted =>
          simp only [hfilter, not_isEmpty hfilter, Bool.false_or, beq_iff_eq] at h ⊢
          rw [← h, uuidValue_uuidText (bounded columns)]

theorem textEquals_eq {filterColumns : List (Column δ)} {filters : Filters}
    (hlower : LowerCase filterColumns filters) {column : Column δ} (hcolumn : column ∈ filterColumns)
    (columns : δ) : column.textEquals filters columns = column.sqlHolds filters columns := by
  refine Bool.eq_iff_iff.mpr ⟨sqlHolds_of_textEquals, fun h => ?_⟩
  have hspelt := hlower column hcolumn
  cases column with
  | text name value =>
      simp only [Column.textEquals, Column.sqlHolds] at h ⊢
      cases hfilter : filters.value name with
      | none => rfl
      | some wanted =>
          simp only [hfilter] at h
          simp only [h, Bool.or_true]
  | uuid name value bounded =>
      simp only [Column.textEquals, Column.sqlHolds] at h ⊢
      cases hfilter : filters.value name with
      | none => rfl
      | some wanted =>
          obtain ⟨id, hid, htext⟩ := hspelt wanted hfilter
          simp only [hfilter, beq_iff_eq] at h
          rw [hid] at h
          simp only [← Option.some.inj h, htext, beq_self_eq_true, Bool.or_true]

/-- Filtered records of rows: those of the matching rows. -/
theorem filter_fromRow {filterColumns : List (Column δ)} {filters : Filters}
    (hlower : LowerCase filterColumns filters) (tenantId : Uuid) (rows : List (Row δ)) :
    (rows.map fromRow).filter (fun record => record.tenantId == tenantId &&
        filterColumns.all (·.textEquals filters record.columns)) =
      (matching filterColumns tenantId filters rows).map fromRow := by
  rw [List.filter_map, matching]
  congr 1
  refine List.filter_congr fun row _ => ?_
  have hall : filterColumns.all (·.textEquals filters row.columns) =
      filterColumns.all (·.sqlHolds filters row.columns) :=
    Bool.eq_iff_iff.mpr (by
      simp only [List.all_eq_true]
      exact forall₂_congr fun column hcolumn => by rw [textEquals_eq hlower hcolumn])
  simp only [Function.comp, fromRow, hall]

theorem afterCursor_iff {cursor : CatalogCursor} {record : Record δ} :
    afterCursor record (some cursor) = true ↔
      toLex (record.createdAt, record.id) < toLex (cursor.createdAt, cursor.id) := by
  rw [Prod.Lex.toLex_lt_toLex, afterCursor]
  simp only [Bool.or_eq_true, Bool.and_eq_true, decide_eq_true_eq]

/-- Rows whose milliseconds are apart keep their order as records. -/
theorem record_lt {rows : List (Row δ)} (hapart : MillisecondsApart rows) {row other : Row δ}
    (hrow : row ∈ rows) (hother : other ∈ rows)
    (h : toLex (other.createdAt, other.id) < toLex (row.createdAt, row.id)) :
    toLex (iso other.createdAt, other.id) < toLex (iso row.createdAt, row.id) := by
  rw [Prod.Lex.toLex_lt_toLex]
  by_cases hiso : iso other.createdAt = iso row.createdAt
  · exact .inr ⟨hiso, (hapart row hrow other hother hiso h).2⟩
  · have hle : other.createdAt ≤ row.createdAt := by
      rcases Prod.Lex.toLex_lt_toLex.mp h with hlt | ⟨heq, _⟩
      · exact hlt.le
      · exact heq.le
    exact .inl (lt_of_le_of_ne (iso_mono hle) hiso)

theorem record_lt_iff {rows : List (Row δ)} (hapart : MillisecondsApart rows) {row other : Row δ}
    (hrow : row ∈ rows) (hother : other ∈ rows) :
    toLex (iso other.createdAt, other.id) < toLex (iso row.createdAt, row.id) ↔
      toLex (other.createdAt, other.id) < toLex (row.createdAt, row.id) := by
  refine ⟨fun hrecord => ?_, record_lt hapart hrow hother⟩
  rcases lt_trichotomy (toLex (other.createdAt, other.id)) (toLex (row.createdAt, row.id)) with
    hlt | heq | hgt
  · exact hlt
  · obtain ⟨hcreated, hid⟩ := Prod.mk.inj (toLex.injective heq)
    have hid : other.id = row.id := hid
    have hcreated : other.createdAt = row.createdAt := hcreated
    rw [hcreated, hid] at hrecord
    exact absurd hrecord (lt_irrefl _)
  · exact absurd (record_lt hapart hother hrow hgt) (not_lt.mpr hrecord.le)

theorem agree_fromRow {rows : List (Row δ)} (hapart : MillisecondsApart rows) :
    Keyset.Agree (rowKeys δ) (recordKeys δ) fromRow rows where
  key row hrow other hother := by
    rw [← not_lt, ← not_lt]
    exact not_congr (record_lt_iff hapart hother hrow)
  cursor row := rfl
  after row hrow other hother := by
    refine Bool.eq_iff_iff.mpr ?_
    refine afterCursor_iff.trans ((record_lt_iff hapart hrow hother).trans ?_)
    exact ⟨separated_iff.mpr hapart row hrow other hother, (rowKeys δ).key_lt_of_after⟩

end InMemory

/-! ## Walks -/

section Follow

variable {δ : Type}

/-- What a client sees of a walk along the rows. -/
def progressOf (walked : Keyset.Progress (Row δ) CatalogCursor) : Progress δ where
  listed := walked.listed.map fromRow
  next := walked.next.map encodeCursor

theorem listRequest_ok {list : CatalogListInput → CatalogPage (Record δ)} {tenantId : Uuid}
    {filters : Filters} {limit : Nat} {cursor : Option CatalogCursor}
    (h : ∀ c, cursor = some c → c.id < 16 ^ 32) :
    listRequest list tenantId filters limit (encodeCursor cursor) =
      .ok ((list { tenantId, limit, cursor, filters }).items,
        encodeCursor (list { tenantId, limit, cursor, filters }).nextCursor) := by
  rw [listRequest, parseCursor_encodeCursor h]
  rfl

theorem follow_congr {list list' : Nat → CatalogListInput → CatalogPage (Record δ)}
    {tenantId : Uuid} {filters : Filters} {limit : Nat}
    (h : ∀ n cursor, list n { tenantId, limit, cursor, filters } =
      list' n { tenantId, limit, cursor, filters }) (n : Nat) :
    follow list tenantId filters limit n = follow list' tenantId filters limit n := by
  have hrequest : ∀ n token, listRequest (list n) tenantId filters limit token =
      listRequest (list' n) tenantId filters limit token := by
    intro n token
    simp only [listRequest, h]
  induction n with
  | zero => rfl
  | succ n ih => simp only [follow, ih, followNext, hrequest]

/-- Each request of a client is a step of the walk, if its page is. -/
theorem followNext_ok {list : CatalogListInput → CatalogPage (Record δ)} {tenantId : Uuid}
    {filters : Filters} {limit : Nat} {rows : List (Row δ)}
    {walked : Keyset.Progress (Row δ) CatalogCursor}
    (hbounded : ∀ c, walked.next = some (some c) → c.id < 16 ^ 32)
    (hpage : ∀ cursor, walked.next = some cursor →
      list { tenantId, limit, cursor, filters } =
        { items := (Keyset.page (rowKeys δ) rows limit cursor).1.map fromRow
          nextCursor := (Keyset.page (rowKeys δ) rows limit cursor).2 }) :
    followNext list tenantId filters limit (progressOf walked) =
      .ok (progressOf (Keyset.advance (rowKeys δ) rows limit walked)) := by
  cases hnext : walked.next with
  | none =>
      rw [Keyset.advance_none hnext, followNext]
      simp only [progressOf, hnext, Option.map_none]
  | some cursor =>
      have hok : listRequest list tenantId filters limit (encodeCursor cursor) = _ :=
        listRequest_ok fun c hc => hbounded c (hc ▸ hnext)
      rw [hpage cursor hnext] at hok
      rw [Keyset.advance_some hnext, followNext]
      simp only [progressOf, hnext, Option.map_some, hok, List.map_append]
      cases (Keyset.page (rowKeys δ) rows limit cursor).2 <;> rfl

end Follow

/-- A collection while rows are inserted: `table n` is what request `n` reads. -/
structure Insertions (δ : Type) where
  table : Nat → CatalogTable δ
  grow : ∀ n, ∀ row ∈ (table n).rows, row ∈ (table (n + 1)).rows

/-- A collection that does not change. -/
def CatalogTable.unchanged {δ : Type} (table : CatalogTable δ) : Insertions δ where
  table := fun _ => table
  grow := fun _ _ hrow => hrow

section Runs

variable {kind : RouteKind} {tenantId : Uuid} {filters : Filters}

/-- The rows of the tenant that match the filters at request `n`. -/
def Insertions.matching (history : Insertions (Columns kind)) (tenantId : Uuid)
    (filters : Filters) (n : Nat) : List (Row (Columns kind)) :=
  Catalog.matching (filterColumns kind) tenantId filters (history.table n).rows

theorem Insertions.matching_grow (history : Insertions (Columns kind)) (n : Nat) :
    ∀ row ∈ history.matching tenantId filters n, row ∈ history.matching tenantId filters (n + 1) := by
  intro row hrow
  obtain ⟨hmem, hmatches⟩ := List.mem_filter.mp hrow
  exact List.mem_filter.mpr ⟨history.grow n row hmem, hmatches⟩

theorem Insertions.walk_marked (history : Insertions (Columns kind)) (tenantId : Uuid)
    (filters : Filters) (limit n : Nat) :
    Keyset.Marked (rowKeys _) (history.matching tenantId filters n)
      (Keyset.walk (rowKeys _) (history.matching tenantId filters) limit n) :=
  Keyset.walk_marked _ history.matching_grow
    (fun n => matching_nodup (filterColumns kind) tenantId filters (history.table n)) limit n

/-- The cursor of a walk is that of a matching row. -/
theorem Insertions.walk_cursor (history : Insertions (Columns kind)) {limit n : Nat}
    {c : CatalogCursor}
    (hnext : (Keyset.walk (rowKeys _) (history.matching tenantId filters) limit n).next =
      some (some c)) :
    ∃ row ∈ history.matching tenantId filters n, c = cursorOf row := by
  have hmarked := history.walk_marked tenantId filters limit n
  obtain ⟨last, hlast, hcursor, _⟩ := hmarked.marked c hnext
  exact ⟨last, hmarked.known last hlast, hcursor⟩

theorem Insertions.walk_cursor_lt (history : Insertions (Columns kind)) {limit n : Nat}
    {c : CatalogCursor}
    (hnext : (Keyset.walk (rowKeys _) (history.matching tenantId filters) limit n).next =
      some (some c)) : c.id < 16 ^ 32 := by
  obtain ⟨row, hrow, rfl⟩ := history.walk_cursor hnext
  exact (history.table n).bounded row (List.mem_of_mem_filter hrow)

/-- **A client of PostgreSQL's collections walks along the matching rows.** -/
theorem follow_postgres (history : Insertions (Columns kind)) (tenantId : Uuid)
    (filters : Filters) (limit n : Nat) :
    follow (fun n => Postgres.list kind (history.table n).rows) tenantId filters limit n =
      .ok (progressOf
        (Keyset.walk (rowKeys _) (history.matching tenantId filters) limit n)) := by
  induction n with
  | zero => rfl
  | succ n ih =>
      rw [follow, ih, Keyset.walk]
      refine followNext_ok (fun c hnext => history.walk_cursor_lt hnext) fun cursor _ => ?_
      rw [Postgres.list_eq, listRows_eq]
      rfl

/-- **So does a client of the in-memory repository**, where milliseconds are apart. -/
theorem follow_inMemory (table : CatalogTable (Columns kind))
    (hapart : MillisecondsApart (matching (filterColumns kind) tenantId filters table.rows))
    (hlower : LowerCase (filterColumns kind) filters) (limit n : Nat) :
    follow (fun _ => InMemory.list kind (table.rows.map fromRow)) tenantId filters limit n =
      .ok (progressOf (Keyset.walk (rowKeys _) (table.unchanged.matching tenantId filters)
        limit n)) := by
  induction n with
  | zero => rfl
  | succ n ih =>
      rw [follow, ih, Keyset.walk]
      refine followNext_ok (fun c hnext => table.unchanged.walk_cursor_lt hnext)
        fun cursor hnext => ?_
      have hcursor : ∀ c, cursor = some c →
          ∃ row ∈ matching (filterColumns kind) tenantId filters table.rows,
            c = (rowKeys _).cursor row := by
        rintro c rfl
        exact table.unchanged.walk_cursor hnext
      rw [InMemory.list_eq, listRecords, pageOf_eq, filter_fromRow hlower,
        Keyset.page_map (agree_fromRow hapart) hcursor]
      rfl

/-- What a complete walk has listed: each row once, in descending order. -/
def ListsAll {δ : Type} (rows : List (Row δ)) (listed : List (Record δ)) : Prop :=
  ∃ sorted : List (Row δ), sorted.Perm rows ∧
    sorted.Pairwise (fun row other =>
      toLex (other.createdAt, other.id) < toLex (row.createdAt, row.id)) ∧
    listed = sorted.map fromRow

theorem eq_of_map_id {δ : Type} (table : CatalogTable δ) {rows rows' : List (Row δ)}
    (hrows : ∀ row ∈ rows, row ∈ table.rows) (hrows' : ∀ row ∈ rows', row ∈ table.rows)
    (h : rows.map (·.id) = rows'.map (·.id)) : rows = rows' := by
  induction rows generalizing rows' with
  | nil =>
      cases rows' with
      | nil => rfl
      | cons row rows' => cases h
  | cons row rows ih =>
      cases rows' with
      | nil => cases h
      | cons row' rows' =>
          rw [List.map_cons, List.map_cons] at h
          obtain ⟨hid, htail⟩ := List.cons.inj h
          rw [List.forall_mem_cons] at hrows hrows'
          rw [List.inj_on_of_nodup_map table.primaryKey hrows.1 hrows'.1 hid,
            ih hrows.2 hrows'.2 htail]

/-- What pagination promises of a collection while rows are inserted. -/
structure Paginates (kind : RouteKind) (history : Insertions (Columns kind)) (tenantId : Uuid)
    (filters : Filters) : Prop where
  /-- Walks along an unchanging collection end and list all of it in order. -/
  complete : ∀ n limit, 1 ≤ limit → ∃ steps progress,
    follow (fun _ => Postgres.list kind (history.table n).rows) tenantId filters limit steps =
        .ok progress ∧
      progress.next = none ∧
      ListsAll (history.matching tenantId filters n) progress.listed
  /-- Rows inserted during a walk make no row appear twice, and none that was there
  disappear. -/
  stable : ∀ limit, 1 ≤ limit → ∀ steps, ∃ progress,
    follow (fun n => Postgres.list kind (history.table n).rows) tenantId filters limit steps =
        .ok progress ∧
      (progress.listed.map (·.id)).Nodup ∧
      (progress.next = none → ∀ row ∈ history.matching tenantId filters 0,
        fromRow row ∈ progress.listed)
  /-- The in-memory repository gives the same pages for the same rows. -/
  inMemory : ∀ n limit, 1 ≤ limit → ∀ steps,
    follow (fun _ => InMemory.list kind ((history.table n).rows.map fromRow)) tenantId filters
        limit steps =
      follow (fun _ => Postgres.list kind (history.table n).rows) tenantId filters limit steps

theorem apart_of_complete {table : CatalogTable (Columns kind)}
    (hcomplete : ∀ limit, 1 ≤ limit → ∃ steps progress,
      follow (fun _ => Postgres.list kind table.rows) tenantId filters limit steps =
          .ok progress ∧
        progress.next = none ∧
        ListsAll (matching (filterColumns kind) tenantId filters table.rows) progress.listed) :
    MillisecondsApart (matching (filterColumns kind) tenantId filters table.rows) := by
  refine separated_iff.mp ((Keyset.walk_complete_iff
    (matching_nodup (filterColumns kind) tenantId filters table)).mp fun limit hlimit => ?_)
  obtain ⟨steps, progress, hfollow, hdone, sorted, hperm, hsorted, hlisted⟩ :=
    hcomplete limit hlimit
  have hwalk := follow_postgres table.unchanged tenantId filters limit steps
  obtain rfl := Except.ok.inj (hfollow.symm.trans hwalk)
  have hknown := (table.unchanged.walk_marked tenantId filters limit steps).known
  have hsame : (Keyset.walk (rowKeys _) (table.unchanged.matching tenantId filters) limit
      steps).listed = sorted := by
    refine eq_of_map_id table
      (fun row hrow => List.mem_of_mem_filter (hknown row hrow))
      (fun row hrow => List.mem_of_mem_filter (hperm.mem_iff.mp hrow)) ?_
    have hids := congrArg (List.map (·.id)) hlisted
    rw [progressOf, List.map_map, List.map_map] at hids
    exact hids
  refine ⟨steps, Option.map_eq_none_iff.mp hdone, ?_⟩
  have hlists : Keyset.Lists (rowKeys (Columns kind))
      (matching (filterColumns kind) tenantId filters table.rows) sorted := ⟨hperm, hsorted⟩
  rw [← hsame] at hlists
  exact hlists

theorem listed_of_follow {history : Insertions (Columns kind)} {limit steps : Nat}
    {progress : Progress (Columns kind)}
    (h : follow (fun n => Postgres.list kind (history.table n).rows) tenantId filters limit steps =
      .ok progress) :
    progress = progressOf
      (Keyset.walk (rowKeys _) (history.matching tenantId filters) limit steps) :=
  Except.ok.inj (h.symm.trans (follow_postgres history tenantId filters limit steps))

/-- A UUID that is spelt otherwise matches no text in memory. -/
theorem filter_empty {δ : Type} {columns : List (Column δ)} {filters : Filters}
    (hspelt : ¬ LowerCase columns filters) (tenantId : Uuid) (records : List (Record δ)) :
    (records.filter fun record => record.tenantId == tenantId &&
      columns.all (·.textEquals filters record.columns)) = [] := by
  rw [LowerCase] at hspelt
  push Not at hspelt
  obtain ⟨column, hcolumn, hspelt⟩ := hspelt
  rw [List.filter_eq_nil_iff]
  intro record _ hmatches
  have hholds := List.all_eq_true.mp (Bool.and_eq_true_iff.mp hmatches).2 column hcolumn
  cases column with
  | text name value => exact hspelt trivial
  | uuid name value bounded =>
      push Not at hspelt
      obtain ⟨wanted, hfilter, hother⟩ := hspelt
      simp only [Column.textEquals, hfilter, not_isEmpty hfilter, Bool.false_or,
        beq_iff_eq] at hholds
      refine hother (value record.columns) ?_ hholds
      rw [← hholds, uuidValue_uuidText (bounded record.columns)]

/-- The first request lists something, if anything matches. -/
theorem first_page {table : CatalogTable (Columns kind)}
    (hsome : matching (filterColumns kind) tenantId filters table.rows ≠ []) :
    ∃ progress, follow (fun _ => Postgres.list kind table.rows) tenantId filters 1 1 =
      .ok progress ∧ progress.listed ≠ [] := by
  refine ⟨_, follow_postgres table.unchanged tenantId filters 1 1, ?_⟩
  obtain ⟨row, hrow⟩ := List.exists_mem_of_ne_nil _ hsome
  have hfound : row ∈ Keyset.ordered (rowKeys _)
      ((matching (filterColumns kind) tenantId filters table.rows).filter
        (Keyset.allowed (rowKeys _) none)) :=
    Keyset.mem_ordered.mpr (List.mem_filter.mpr ⟨hrow, rfl⟩)
  intro hempty
  have htake : (Keyset.ordered (rowKeys _)
      ((matching (filterColumns kind) tenantId filters table.rows).filter
        (Keyset.allowed (rowKeys _) none))).take 1 = [] := List.map_eq_nil_iff.mp hempty
  rcases List.take_eq_nil_iff.mp htake with hzero | hnil
  · exact absurd hzero (by decide)
  · rw [hnil] at hfound
    cases hfound

theorem lowerCase_of_inMemory {table : CatalogTable (Columns kind)}
    (hsame : follow (fun _ => InMemory.list kind (table.rows.map fromRow)) tenantId filters 1 1 =
      follow (fun _ => Postgres.list kind table.rows) tenantId filters 1 1) :
    matching (filterColumns kind) tenantId filters table.rows = [] ∨
      LowerCase (filterColumns kind) filters := by
  by_contra hneither
  push Not at hneither
  obtain ⟨hsome, hspelt⟩ := hneither
  obtain ⟨progress, hfollow, hlisted⟩ := first_page hsome
  have hmemory : follow (fun _ => InMemory.list kind (table.rows.map fromRow)) tenantId filters
      1 1 = .ok { listed := [], next := none } := by
    simp only [follow, followNext, listRequest, parseCursor, InMemory.list_eq, listRecords,
      filter_empty hspelt]
    rfl
  rw [hmemory, hfollow] at hsame
  exact hlisted (by rw [← Except.ok.inj hsame])

/-- Without matching rows every page is empty. -/
theorem follow_nothing {table : CatalogTable (Columns kind)}
    (hnone : matching (filterColumns kind) tenantId filters table.rows = []) (limit n : Nat) :
    follow (fun _ => InMemory.list kind (table.rows.map fromRow)) tenantId filters limit n =
      follow (fun _ => Postgres.list kind table.rows) tenantId filters limit n := by
  have hmemory : ((table.rows.map fromRow).filter fun record => record.tenantId == tenantId &&
      (filterColumns kind).all (·.textEquals filters record.columns)) = [] := by
    rw [List.filter_eq_nil_iff]
    intro record hrecord hmatches
    obtain ⟨row, hrow, rfl⟩ := List.mem_map.mp hrecord
    obtain ⟨htenant, hcolumns⟩ := Bool.and_eq_true_iff.mp hmatches
    have hsql : (filterColumns kind).all (·.sqlHolds filters row.columns) = true := by
      rw [List.all_eq_true] at hcolumns ⊢
      exact fun column hcolumn => sqlHolds_of_textEquals (hcolumns column hcolumn)
    have hmem : row ∈ matching (filterColumns kind) tenantId filters table.rows :=
      List.mem_filter.mpr ⟨hrow, Bool.and_eq_true_iff.mpr ⟨htenant, hsql⟩⟩
    rw [hnone] at hmem
    cases hmem
  refine follow_congr (fun _ cursor => ?_) n
  rw [InMemory.list_eq, Postgres.list_eq, listRecords, hmemory, listRows_eq, hnone, pageOf_eq,
    Keyset.page_nil, Keyset.page_nil]
  rfl

/-- **When collections are paginated as they should be**: at every request, the
milliseconds of the matching rows are apart, and the UUIDs to filter by are spelt in
lower case, or nothing matches. -/
theorem paginates_iff (kind : RouteKind) (history : Insertions (Columns kind)) (tenantId : Uuid)
    (filters : Filters) :
    Paginates kind history tenantId filters ↔
      ∀ n, MillisecondsApart (history.matching tenantId filters n) ∧
        (history.matching tenantId filters n = [] ∨ LowerCase (filterColumns kind) filters) := by
  constructor
  · intro h n
    exact ⟨apart_of_complete (h.complete n),
      lowerCase_of_inMemory (h.inMemory n 1 le_rfl 1)⟩
  · intro h
    have hseparated : ∀ n, Separated (rowKeys _) (history.matching tenantId filters n) :=
      fun n => separated_iff.mpr (h n).1
    have hkeys : ∀ n, ((history.matching tenantId filters n).map (rowKeys _).key).Nodup :=
      fun n => matching_nodup (filterColumns kind) tenantId filters (history.table n)
    refine ⟨?_, ?_, ?_⟩
    · intro n limit hlimit
      obtain ⟨steps, hdone, hperm, hsorted⟩ :=
        (Keyset.walk_complete_iff (hkeys n)).mpr (hseparated n) limit hlimit
      refine ⟨steps, _, follow_postgres (history.table n).unchanged tenantId filters limit steps,
        ?_, _, hperm, hsorted, rfl⟩
      exact Option.map_eq_none_iff.mpr hdone
    · intro limit hlimit steps
      refine ⟨_, follow_postgres history tenantId filters limit steps, ?_, ?_⟩
      · have hmarked := history.walk_marked tenantId filters limit steps
        have hnodup : (Keyset.walk (rowKeys _) (history.matching tenantId filters) limit
            steps).listed.Nodup :=
          hmarked.descending.imp fun hlt heq => absurd (congrArg (rowKeys _).key heq) hlt.ne'
        rw [progressOf, List.map_map]
        refine hnodup.map_on fun row hrow other hother hid => ?_
        exact List.inj_on_of_nodup_map (history.table steps).primaryKey
          (List.mem_of_mem_filter (hmarked.known row hrow))
          (List.mem_of_mem_filter (hmarked.known other hother)) hid
      · intro hdone row hrow
        have hcovers := Keyset.walk_keeps _ history.matching_grow hkeys hseparated hlimit steps
        exact List.mem_map_of_mem (hcovers.done (Option.map_eq_none_iff.mp hdone) row hrow)
    · intro n limit _ steps
      rcases (h n).2 with hnone | hlower
      · exact follow_nothing hnone limit steps
      · rw [follow_inMemory _ (h n).1 hlower]
        exact (follow_postgres (history.table n).unchanged tenantId filters limit steps).symm

end Runs

/-! ## Two jobs of one millisecond -/

def noFilters : Filters where
  value _ := none
  present _ := nofun
  uuids _ _ _ := nofun

/-- A job stored so many microseconds after the epoch. -/
def sampleJob (id : Uuid) (createdAt : Micros) : Row IngestionJobColumns where
  id := id
  tenantId := 7
  createdAt := createdAt
  columns := { documentVersionId := 5, documentVersionId_lt := by decide, status := js "queued" }

def sampleJobs : CatalogTable IngestionJobColumns where
  rows := [sampleJob 1 200, sampleJob 2 100]
  primaryKey := by decide
  bounded := by decide

/-- The older job has microseconds, so it is not after the cursor of the newer one. -/
theorem page_boundary_fails :
    ¬ Paginates .ingestionJobList sampleJobs.unchanged 7 noFilters := by
  intro h
  have hapart : MillisecondsApart
      (matching (filterColumns .ingestionJobList) 7 noFilters sampleJobs.rows) :=
    apart_of_complete (h.complete 0)
  have hmatching : matching (filterColumns .ingestionJobList) 7 noFilters sampleJobs.rows =
      [sampleJob 1 200, sampleJob 2 100] := rfl
  rw [hmatching] at hapart
  have hnewer : toLex ((sampleJob 2 100).createdAt, (sampleJob 2 100).id) <
      toLex ((sampleJob 1 200).createdAt, (sampleJob 1 200).id) :=
    Prod.Lex.toLex_lt_toLex.mpr (.inl (by decide))
  have hlast := hapart (sampleJob 1 200) List.mem_cons_self (sampleJob 2 100)
    (List.mem_cons_of_mem _ List.mem_cons_self) rfl hnewer
  exact absurd hlast.1 (by decide)

end Catalog
