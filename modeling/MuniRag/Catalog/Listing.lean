import MuniRag.Text
import Mathlib.Data.List.Sort

/-!
# Catalog collections, their filters and cursors

The four collections of the catalog (sources, documents, ingestion jobs, procedures)
are read by one keyset query each, and by the in-memory repository of the tests.  A row
carries the columns its collection filters by; what else a page shows of it is left out.

PostgreSQL keeps `created_at` in microseconds.  The driver gives a `Date`, so a mapped
record, and the cursor made from it, have milliseconds.
-/

namespace Catalog

/-- An instant as PostgreSQL stores it, in microseconds since the epoch. -/
abbrev Micros := Int

/-- `iso`: a `Date` has no microseconds. -/
def iso (value : Micros) : Time := value / 1000

/-- `$5::timestamptz`. -/
def timestamptz (time : Time) : Micros := 1000 * time

structure CatalogCursor where
  createdAt : Time
  id : Uuid
  deriving DecidableEq

/-- The query parameters a collection is filtered by, trimmed: none is empty, and those
that name a row are UUIDs. -/
structure Filters where
  value : String → Option JsString
  present : ∀ name, value name ≠ some []
  uuids : ∀ name ∈ ["source_id", "document_version_id"], ∀ text, value name = some text →
    (uuidValue text).isSome = true

structure CatalogListInput where
  tenantId : Uuid
  limit : Nat
  cursor : Option CatalogCursor
  filters : Filters

structure CatalogPage (ρ : Type) where
  items : List ρ
  nextCursor : Option CatalogCursor

/-! ## Errors and cursor texts -/

structure CatalogApiError where
  status : Nat
  code : String
  message : String
  deriving DecidableEq

/-- What the base64url text of a cursor carries: a JSON object with the two members of
a cursor, or anything else.  `encodeCursor` writes about 120 of the 512 units allowed. -/
inductive CursorText
  | object (createdAt : DateText) (id : JsString)
  | other
  deriving DecidableEq

def encodeCursor (cursor : Option CatalogCursor) : Option CursorText :=
  cursor.map fun cursor => .object (some cursor.createdAt) (uuidText cursor.id)

def invalidCursor : CatalogApiError := ⟨400, "invalid_request", "Invalid cursor"⟩

def parseCursor : Option CursorText → Except CatalogApiError (Option CatalogCursor)
  | none => .ok none
  | some .other => .error invalidCursor
  | some (.object createdAt id) =>
      match createdAt, uuidValue id with
      | some createdAt, some id => .ok (some { createdAt, id })
      | _, _ => .error invalidCursor

theorem parseCursor_encodeCursor {cursor : Option CatalogCursor}
    (h : ∀ c, cursor = some c → c.id < 16 ^ 32) :
    parseCursor (encodeCursor cursor) = .ok cursor := by
  cases cursor with
  | none => rfl
  | some c =>
      simp only [encodeCursor, Option.map_some, parseCursor]
      rw [uuidValue_uuidText (h c rfl)]

/-! ## Filters -/

/-- A column a collection is filtered by. -/
inductive Column (δ : Type)
  | text (name : String) (value : δ → Option JsString)
  | uuid (name : String) (value : δ → Uuid) (bounded : ∀ columns, value columns < 16 ^ 32)

section Filtering

variable {δ : Type}

/-- `$2::text IS NULL OR column = $2`, and `$4::uuid IS NULL OR column = $4::uuid`. -/
def Column.sqlHolds (filters : Filters) (columns : δ) : Column δ → Bool
  | .text name value =>
      match filters.value name with
      | none => true
      | some wanted => value columns == some wanted
  | .uuid name value _ =>
      match filters.value name with
      | none => true
      | some wanted => uuidValue wanted == some (value columns)

/-- `!filters.name || record.column === filters.name`, on texts. -/
def Column.textEquals (filters : Filters) (columns : δ) : Column δ → Bool
  | .text name value =>
      match filters.value name with
      | none => true
      | some wanted => wanted.isEmpty || value columns == some wanted
  | .uuid name value _ =>
      match filters.value name with
      | none => true
      | some wanted => wanted.isEmpty || uuidText (value columns) == wanted

/-! ## Rows and records -/

/-- A row of a collection's query. -/
structure Row (δ : Type) where
  id : Uuid
  tenantId : Uuid
  createdAt : Micros
  columns : δ

/-- A mapped record. -/
structure Record (δ : Type) where
  id : Uuid
  tenantId : Uuid
  createdAt : Time
  columns : δ

/-- `sourceFromRow`, `documentFromRow` and the two mappings in place. -/
def fromRow (row : Row δ) : Record δ where
  id := row.id
  tenantId := row.tenantId
  createdAt := iso row.createdAt
  columns := row.columns

/-- The rows of one query at one moment: `id` is the primary key. -/
structure CatalogTable (δ : Type) where
  rows : List (Row δ)
  primaryKey : (rows.map (·.id)).Nodup
  bounded : ∀ row ∈ rows, row.id < 16 ^ 32

/-! ## PostgreSQL -/

/-- `(created_at, id) < ($5::timestamptz, $6::uuid)`. -/
def rowBefore (cursor : CatalogCursor) (row : Row δ) : Bool :=
  decide (row.createdAt < timestamptz cursor.createdAt) ||
    (decide (row.createdAt = timestamptz cursor.createdAt) && decide (row.id < cursor.id))

/-- `ORDER BY created_at DESC, id DESC`. -/
def descending (row other : Row δ) : Prop :=
  other.createdAt < row.createdAt ∨ (other.createdAt = row.createdAt ∧ other.id ≤ row.id)

instance (row other : Row δ) : Decidable (descending row other) :=
  inferInstanceAs (Decidable (_ ∨ _))

/-- The rows of the tenant that match the filters. -/
def matching (filterColumns : List (Column δ)) (tenantId : Uuid) (filters : Filters)
    (rows : List (Row δ)) : List (Row δ) :=
  rows.filter fun row => row.tenantId == tenantId &&
    filterColumns.all (·.sqlHolds filters row.columns)

def selectRows (filterColumns : List (Column δ)) (rows : List (Row δ))
    (input : CatalogListInput) : List (Row δ) :=
  ((rows.filter fun row => row.tenantId == input.tenantId &&
      filterColumns.all (·.sqlHolds input.filters row.columns) &&
      input.cursor.all (rowBefore · row)).insertionSort descending).take (input.limit + 1)

/-- The body of the four list methods, after the query. -/
def listRows (filterColumns : List (Column δ)) (table : List (Row δ))
    (input : CatalogListInput) : CatalogPage (Record δ) :=
  let rows := selectRows filterColumns table input
  let hasMore := decide (rows.length > input.limit)
  let mapped := (rows.take input.limit).map fromRow
  { items := mapped
    nextCursor :=
      if hasMore then mapped.getLast?.map fun last => { createdAt := last.createdAt, id := last.id }
      else none }

/-! ## In memory -/

def compareDescending (left right : Record δ) : Ordering :=
  (compare right.createdAt left.createdAt).then (compare right.id left.id)

def afterCursor (item : Record δ) (cursor : Option CatalogCursor) : Bool :=
  match cursor with
  | none => true
  | some cursor => decide (item.createdAt < cursor.createdAt) ||
      (decide (item.createdAt = cursor.createdAt) && decide (item.id < cursor.id))

def pageOf (items : List (Record δ)) (input : CatalogListInput) : CatalogPage (Record δ) :=
  let ordered := (items.filter (afterCursor · input.cursor)).insertionSort
    fun left right => compareDescending left right ≠ .gt
  let selected := ordered.take input.limit
  let hasMore := decide (ordered.length > input.limit)
  { items := selected
    nextCursor :=
      if hasMore then
        selected.getLast?.map fun last => { createdAt := last.createdAt, id := last.id }
      else none }

def listRecords (filterColumns : List (Column δ)) (records : List (Record δ))
    (input : CatalogListInput) : CatalogPage (Record δ) :=
  pageOf (records.filter fun record => record.tenantId == input.tenantId &&
    filterColumns.all (·.textEquals input.filters record.columns)) input

end Filtering

/-! ## The four collections -/

inductive RouteKind
  | sourceList
  | documentList
  | ingestionJobList
  | procedureList
  deriving DecidableEq

structure SourceColumns where
  discoveryStatus : JsString
  sourceRelation : JsString
  category : JsString

structure DocumentColumns where
  documentType : JsString
  confidentiality : JsString
  sourceId : Uuid
  sourceId_lt : sourceId < 16 ^ 32
  documentStatus : JsString

structure IngestionJobColumns where
  documentVersionId : Uuid
  documentVersionId_lt : documentVersionId < 16 ^ 32
  status : JsString

/-- A procedure without versions has no status. -/
structure ProcedureColumns where
  latestLifecycleStatus : Option JsString

def Columns : RouteKind → Type
  | .sourceList => SourceColumns
  | .documentList => DocumentColumns
  | .ingestionJobList => IngestionJobColumns
  | .procedureList => ProcedureColumns

def sourceFilters : List (Column SourceColumns) :=
  [.text "discovery_status" (some ·.discoveryStatus), .text "source_relation" (some ·.sourceRelation),
    .text "category" (some ·.category)]

def documentFilters : List (Column DocumentColumns) :=
  [.text "document_type" (some ·.documentType), .text "confidentiality" (some ·.confidentiality),
    .uuid "source_id" (·.sourceId) (·.sourceId_lt),
    .text "document_status" (some ·.documentStatus)]

def ingestionJobFilters : List (Column IngestionJobColumns) :=
  [.uuid "document_version_id" (·.documentVersionId) (·.documentVersionId_lt),
    .text "status" (some ·.status)]

def procedureFilters : List (Column ProcedureColumns) :=
  [.text "lifecycle_status" (·.latestLifecycleStatus)]

/-- `FILTERS`. -/
def filterColumns : (kind : RouteKind) → List (Column (Columns kind))
  | .sourceList => sourceFilters
  | .documentList => documentFilters
  | .ingestionJobList => ingestionJobFilters
  | .procedureList => procedureFilters

namespace Postgres

def listSources := listRows sourceFilters

def listDocuments := listRows documentFilters

def listIngestionJobs := listRows ingestionJobFilters

def listProcedures := listRows procedureFilters

/-- The method that a route calls. -/
def list : (kind : RouteKind) → List (Row (Columns kind)) → CatalogListInput →
    CatalogPage (Record (Columns kind))
  | .sourceList => listSources
  | .documentList => listDocuments
  | .ingestionJobList => listIngestionJobs
  | .procedureList => listProcedures

theorem list_eq (kind : RouteKind) : list kind = listRows (filterColumns kind) := by
  cases kind <;> rfl

end Postgres

namespace InMemory

def listSources := listRecords sourceFilters

def listDocuments := listRecords documentFilters

def listIngestionJobs := listRecords ingestionJobFilters

def listProcedures := listRecords procedureFilters

def list : (kind : RouteKind) → List (Record (Columns kind)) → CatalogListInput →
    CatalogPage (Record (Columns kind))
  | .sourceList => listSources
  | .documentList => listDocuments
  | .ingestionJobList => listIngestionJobs
  | .procedureList => listProcedures

theorem list_eq (kind : RouteKind) : list kind = listRecords (filterColumns kind) := by
  cases kind <;> rfl

end InMemory

end Catalog
