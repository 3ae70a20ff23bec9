import MuniRag.Lib.JsonParse
import MuniRag.Lib.ReservationLaw

/-!
# Evidence gaps

`executeEvidenceGap` of `api/v1/evidenceGapHandler.ts` on `PostgresEvidenceGapPersistence`, in the
protocol of reserved keys.  The work of a new key inserts the gap, whose table has two unique keys,
or reads the gap that is in the way.  The insertion waits for an open transaction that has inserted
a gap in its way; gaps are never changed or deleted (`evidence_gap_requests_immutable_v1`).

The schema validator, `Date.parse`, SHA-256 and the texts of numbers are parameters.
-/

namespace EvidenceGap

open Runs Reservations

/-- `toLowerCase`, on the texts of UUIDs. -/
def lower (text : JsString) : JsString := text.map lowerUnit

/-- The text of a UUID after the handler has lower-cased it. -/
abbrev LowerText := { text : JsString // lower text = text }

/-- The primary key of `integration.evidence_gap_idempotency`. -/
structure Key where
  tenantId : LowerText
  principalId : JsString
  idempotencyKeySha256 : JsString
  deriving DecidableEq, Repr

/-- What `executeEvidenceGap` is given.  The tenant of the principal is that of the request
(`requireTenantMatch`). -/
structure Request where
  tenantId : LowerText
  principalId : JsString
  credentialId : JsString
  gapRequestId : LowerText
  requestId : LowerText
  jurisdiction : JsString
  subject : JsString
  missingDocument : JsString
  reason : JsString
  priority : JsString
  campaignReference : JsString
  idempotencyKeySha256 : JsString
  requestSha256 : JsString
  deriving DecidableEq, Repr

/-- A stored response, of a key or of a gap; for a gap the status is 200. -/
structure Stored where
  statusCode : Nat
  responseBody : JsString
  responseSha256 : JsString
  originalAuditId : JsString
  deriving DecidableEq, Repr

/-- A row of `rag.evidence_gap_requests`, as far as it is read again. -/
structure Gap where
  tenantId : LowerText
  id : LowerText
  requestId : LowerText
  requestSha256 : JsString
  response : Stored
  deriving DecidableEq, Repr

/-- The rows of two gaps that the unique keys exclude. -/
def Gap.conflicts (gap other : Gap) : Bool :=
  decide (gap.tenantId = other.tenantId) &&
    (decide (gap.id = other.id) || decide (gap.requestId = other.requestId))

/-- The rows that are committed, and those of open transactions. -/
structure Gaps (ι : Type) where
  committed : List Gap
  pending : List (ι × Gap)

/-- How a request is refused: a stored response or a gap that is corrupt is an internal error. -/
inductive Refusal
  | idempotencyCorrupt
  | gapConflict
  | aggregateCorrupt
  deriving DecidableEq, Repr

/-- How far the transaction of a new key is. -/
inductive Work
  | mapping
  | selecting (gap : Gap)
  | created (gap : Gap)
  | conflict
  | replay (response : Stored)
  | corrupt
  deriving DecidableEq, Repr

inductive Move
  | insert (auditId submittedAt : JsString)
  | select
  deriving DecidableEq, Repr

structure Dependencies (ν : Type) where
  reader : Json.NumberReader ν
  /-- `validators.response`. -/
  response : Json.Value ν → Bool
  /-- `String(value ?? "")`. -/
  text : Option (Json.Value ν) → JsString
  /-- `Number.isFinite(Date.parse(text))`. -/
  isDate : JsString → Bool
  sha256 : JsString → JsString

variable {ν ι : Type} (dependencies : Dependencies ν)

def entry (key : String) (value : JsString) : JsString × Json.Value ν := (js key, .string value)

/-- `mapEvidenceGapResponseV1`. -/
def mapEvidenceGapResponseV1 (request : Request) (auditId submittedAt : JsString) :
    Json.Value ν :=
  .object
    [entry "schema_version" (js "v1"),
      entry "response_type" (js "evidence_gap_request"),
      entry "product_boundary" (js "evidence_gap_request_only"),
      entry "gap_request_id" (lower request.gapRequestId),
      entry "request_id" (lower request.requestId),
      entry "tenant_id" (lower request.tenantId),
      entry "requester_product" (js "os_electoral"),
      entry "jurisdiction" request.jurisdiction,
      entry "subject" request.subject,
      entry "missing_document" request.missingDocument,
      entry "reason" request.reason,
      entry "priority" request.priority,
      entry "campaign_reference" request.campaignReference,
      entry "status" (js "open"),
      entry "request_assertion_status" (js "requester_supplied_unverified"),
      entry "submitted_at" submittedAt,
      (js "limitations", .array
        [.string (js ("Solicitud aceptada para investigación documental; no declara una fuente " ++
            "oficial, vigente, aplicable, adquirida ni validada.")),
          .string (js ("La prioridad y la referencia de campaña no determinan autoridad " ++
            "jurídica ni alteran el estado del corpus."))]),
      (js "provenance", .object
        [entry "source_product" (js "la_muni_rag"),
          entry "generated_by" (js "system"),
          entry "created_at" submittedAt,
          (js "source_refs", .array
            [.string (js "evidence-gap:" ++ lower request.gapRequestId)]),
          entry "credential_id" (lower request.credentialId),
          entry "audit_id" (lower auditId)])]

/-- The text of the mapped response. -/
def body (request : Request) (auditId submittedAt : JsString) : JsString :=
  Json.stringify dependencies.reader.toNumberText
    (mapEvidenceGapResponseV1 request auditId submittedAt)

/-- The texts of `^[0-9a-f]{64}$`. -/
def isDigest (text : JsString) : Bool :=
  decide (text.length = 64) && text.all fun u => isDecimalDigit u || (0x61 ≤ u && u ≤ 0x66)

def isObject : Json.Value ν → Bool
  | .object _ | .array _ => true
  | _ => false

def validStoredResponse (request : Request) (stored : Stored) : Bool :=
  stored.statusCode == 200 && (uuidValue stored.originalAuditId).isSome &&
    isDigest stored.responseSha256 &&
    dependencies.sha256 stored.responseBody == stored.responseSha256 &&
    match Json.parse dependencies.reader stored.responseBody with
    | none => false
    | some parsed =>
        let submittedAt := dependencies.text (parsed.member? (js "submitted_at"))
        dependencies.response parsed && isObject parsed && dependencies.isDate submittedAt &&
          stored.responseBody == body dependencies request stored.originalAuditId submittedAt

/-- The row that a request inserts. -/
def gapOf (request : Request) (auditId submittedAt : JsString) : Gap where
  tenantId := request.tenantId
  id := request.gapRequestId
  requestId := request.requestId
  requestSha256 := request.requestSha256
  response :=
    { statusCode := 200
      responseBody := body dependencies request auditId submittedAt
      responseSha256 := dependencies.sha256 (body dependencies request auditId submittedAt)
      originalAuditId := auditId }

/-- `INSERT_GAP_SQL`; `none` where it waits. -/
def insertGap (i : ι) (gap : Gap) (gaps : Gaps ι) : Option (Work × Gaps ι) :=
  if gaps.committed.any gap.conflicts then some (.selecting gap, gaps)
  else if gaps.pending.any fun other => gap.conflicts other.2 then none
  else some (.created gap, { gaps with pending := (i, gap) :: gaps.pending })

/-- `SELECT_GAP_SQL`, and what `executeEvidenceGap` makes of its rows. -/
def selectGap (request : Request) (gap : Gap) (gaps : Gaps ι) : Work :=
  match gaps.committed.filter gap.conflicts with
  | [row] =>
      if row.id = gap.id ∧ row.requestId = gap.requestId ∧
          row.requestSha256 = gap.requestSha256 then
        if validStoredResponse dependencies request row.response then .replay row.response
        else .corrupt
      else .conflict
  | _ => .conflict

section Handler

variable [DecidableEq ι] (requests : ι → Request)

/-- The transaction of a request ends. -/
def Gaps.forget (gaps : Gaps ι) (i : ι) : List (ι × Gap) :=
  gaps.pending.filter fun other => decide (other.1 ≠ i)

def executeEvidenceGap :
    Handler ι Key JsString Stored Refusal Work Move (Gaps ι) where
  key i := ⟨(requests i).tenantId, (requests i).principalId, (requests i).idempotencyKeySha256⟩
  digest i := (requests i).requestSha256
  lifetime := 24 * 60 * 60 * 1000
  reject i _ stored :=
    if validStoredResponse dependencies (requests i) stored then none else some .idempotencyCorrupt
  start := .mapping
  work i move gaps
    | .mapping =>
        match move with
        | .insert auditId submittedAt =>
            if dependencies.response
                (mapEvidenceGapResponseV1 (requests i) auditId submittedAt) then
              insertGap i (gapOf dependencies (requests i) auditId submittedAt) gaps
            else none
        | .select => none
    | .selecting gap =>
        match move with
        | .insert _ _ => none
        | .select => some (selectGap dependencies (requests i) gap gaps, gaps)
    | _ => none
  outcome
    | .mapping | .selecting _ => none
    | .created gap => some (.ok gap.response)
    | .conflict => some (.error .gapConflict)
    | .replay response => some (.ok response)
    | .corrupt => some (.error .aggregateCorrupt)
  commit i gaps :=
    { committed := gaps.committed ++
        (gaps.pending.filter fun other => decide (other.1 = i)).map Prod.snd
      pending := gaps.forget i }
  abort i gaps := { gaps with pending := gaps.forget i }

end Handler

/-! ## What the text of a response says -/

/-- The text of a response names the tenant, the gap and the request. -/
theorem body_inj {request other : Request} {auditId auditId' submittedAt submittedAt' : JsString}
    (h : body dependencies request auditId submittedAt =
      body dependencies other auditId' submittedAt') :
    request.tenantId = other.tenantId ∧ request.gapRequestId = other.gapRequestId ∧
      request.requestId = other.requestId := by
  have hvalue := Json.stringify_injective h
  simp only [mapEvidenceGapResponseV1, entry, Json.Value.object.injEq, List.cons.injEq,
    Prod.mk.injEq, Json.Value.string.injEq, true_and, and_true] at hvalue
  have hlower : ∀ {a b : LowerText}, lower a = lower b → a = b := by
    intro a b hab
    rw [a.2, b.2] at hab
    exact Subtype.ext hab
  exact ⟨hlower hvalue.2.2.1, hlower hvalue.1, hlower hvalue.2.1⟩

theorem body_of_validStoredResponse {request : Request} {stored : Stored}
    (h : validStoredResponse dependencies request stored = true) :
    ∃ submittedAt, stored.responseBody =
      body dependencies request stored.originalAuditId submittedAt := by
  unfold validStoredResponse at h
  cases hparse : Json.parse dependencies.reader stored.responseBody with
  | none => simp [hparse] at h
  | some parsed =>
      simp only [hparse, Bool.and_eq_true, beq_iff_eq] at h
      exact ⟨_, h.2.2⟩

/-- The gap is that of the request. -/
structure Gap.Answers (gap : Gap) (request : Request) : Prop where
  tenantId : gap.tenantId = request.tenantId
  id : gap.id = request.gapRequestId
  requestId : gap.requestId = request.requestId
  requestSha256 : gap.requestSha256 = request.requestSha256

theorem answers_gapOf (request : Request) (auditId submittedAt : JsString) :
    (gapOf dependencies request auditId submittedAt).Answers request := ⟨rfl, rfl, rfl, rfl⟩

@[simp] theorem conflicts_iff {gap other : Gap} : gap.conflicts other = true ↔
    gap.tenantId = other.tenantId ∧ (gap.id = other.id ∨ gap.requestId = other.requestId) := by
  simp [Gap.conflicts]

theorem conflicts_symm {gap other : Gap} (h : gap.conflicts other = true) :
    other.conflicts gap = true := by
  rw [conflicts_iff] at h ⊢
  exact ⟨h.1.symm, h.2.imp Eq.symm Eq.symm⟩

/-- Two gaps that the unique keys do not exclude. -/
def Gap.Apart (gap other : Gap) : Prop := ¬ gap.conflicts other = true

theorem apart_symm {gap other : Gap} (h : gap.Apart other) : other.Apart gap :=
  fun hconflicts => h (conflicts_symm hconflicts)

/-! ## The invariant -/

section Invariant

variable (requests : ι → Request)

/-- All rows, committed or not. -/
def Gaps.rows (gaps : Gaps ι) : List Gap := gaps.committed ++ gaps.pending.map Prod.snd

/-- What a request may know while its transaction is open. -/
def Knows (gaps : Gaps ι) (i : ι) : Work → Prop
  | .mapping | .conflict | .corrupt => True
  | .selecting gap => gap.Answers (requests i)
  | .created gap => (i, gap) ∈ gaps.pending
  | .replay response => ∃ gap ∈ gaps.committed, gap.Answers (requests i) ∧ gap.response = response

structure Sound (log : List (Entry ι Key Stored)) (gaps : Gaps ι) (underWay : ι → Option Work) :
    Prop where
  apart : gaps.rows.Pairwise Gap.Apart
  owners : (gaps.pending.map Prod.fst).Nodup
  pending : ∀ i gap, (i, gap) ∈ gaps.pending → underWay i = some (.created gap) ∧
    ∃ auditId submittedAt, gap = gapOf dependencies (requests i) auditId submittedAt
  committed : ∀ gap ∈ gaps.committed, ∃ commit, .committed commit ∈ log ∧
    commit.response = gap.response ∧
    ∃ auditId submittedAt, gap = gapOf dependencies (requests commit.owner) auditId submittedAt
  knows : ∀ i work, underWay i = some work → Knows requests gaps i work
  commits : ∀ commit, .committed commit ∈ log → ∃ gap ∈ gaps.committed,
    gap.Answers (requests commit.owner) ∧ gap.response = commit.response

end Invariant

section Keep

variable [DecidableEq ι] {dependencies} {requests : ι → Request} {log : List (Entry ι Key Stored)}
  {gaps : Gaps ι} {underWay : ι → Option Work} {i : ι}

theorem mem_forget {j : ι} {gap : Gap} : (j, gap) ∈ gaps.forget i ↔ (j, gap) ∈ gaps.pending ∧
    j ≠ i := by
  simp [Gaps.forget]

/-- A commit adds no row to those of the open transactions. -/
theorem commit_rows (gaps : Gaps ι) (i : ι) :
    ((executeEvidenceGap dependencies requests).commit i gaps).rows.Perm gaps.rows := by
  have hsplit : ((gaps.pending.filter fun other => decide (other.1 = i)) ++ gaps.forget i).Perm
      gaps.pending := by
    have hperm := List.filter_append_perm (fun other : ι × Gap => decide (other.1 = i)) gaps.pending
    simpa [Gaps.forget] using hperm
  have hrows : ((executeEvidenceGap dependencies requests).commit i gaps).rows =
      gaps.committed ++ ((gaps.pending.filter fun other => decide (other.1 = i)) ++
        gaps.forget i).map Prod.snd := by
    simp [executeEvidenceGap, Gaps.rows]
  rw [hrows]
  exact (hsplit.map Prod.snd).append_left _

theorem abort_rows (gaps : Gaps ι) (i : ι) :
    ((executeEvidenceGap dependencies requests).abort i gaps).rows.Sublist gaps.rows :=
  (List.Sublist.refl _).append (List.filter_sublist.map Prod.snd)

theorem mem_commit {gap : Gap} :
    gap ∈ ((executeEvidenceGap dependencies requests).commit i gaps).committed ↔
      gap ∈ gaps.committed ∨ (i, gap) ∈ gaps.pending := by
  simp [executeEvidenceGap]

omit [DecidableEq ι] in
/-- What a request knows stays so when rows are committed and when others end. -/
theorem Knows.mono {gaps' : Gaps ι} {work : Work} (h : Knows requests gaps i work)
    (hcommitted : ∀ gap ∈ gaps.committed, gap ∈ gaps'.committed)
    (hpending : ∀ gap, (i, gap) ∈ gaps.pending → (i, gap) ∈ gaps'.pending) :
    Knows requests gaps' i work := by
  cases work with
  | mapping => trivial
  | conflict => trivial
  | corrupt => trivial
  | selecting gap => exact h
  | created gap => exact hpending gap h
  | replay response =>
      obtain ⟨gap, hgap, hrest⟩ := h
      exact ⟨gap, hcommitted gap hgap, hrest⟩

omit [DecidableEq ι] in
theorem sound_initial : Sound dependencies requests [] ⟨[], []⟩ fun _ => none where
  apart := by simp [Gaps.rows]
  owners := by simp
  pending i gap hmem := by simp at hmem
  committed gap hmem := by simp at hmem
  knows i work hwork := by cases hwork
  commits commit hmem := by simp at hmem

omit [DecidableEq ι] in
/-- The history grows by what is no execution. -/
theorem Sound.logs (h : Sound dependencies requests log gaps underWay)
    {entry : Option (Entry ι Key Stored)} (hentry : ∀ commit, entry ≠ some (.committed commit)) :
    Sound dependencies requests (log ++ entry.toList) gaps underWay where
  apart := h.apart
  owners := h.owners
  pending := h.pending
  committed gap hgap := by
    obtain ⟨commit, hcommit, hrest⟩ := h.committed gap hgap
    exact ⟨commit, List.mem_append_left _ hcommit, hrest⟩
  knows := h.knows
  commits commit hcommit := by
    rcases List.mem_append.mp hcommit with hmem | hmem
    · exact h.commits commit hmem
    · exact absurd (Option.mem_toList.mp hmem) (hentry commit)

/-- A request whose transaction has no row goes on without one. -/
theorem Sound.goesOn (h : Sound dependencies requests log gaps underWay) {work : Option Work}
    (hbefore : ∀ gap, underWay i ≠ some (.created gap))
    (hknows : ∀ work', work = some work' → Knows requests gaps i work') :
    Sound dependencies requests log gaps (Function.update underWay i work) where
  apart := h.apart
  owners := h.owners
  pending j gap hmem := by
    obtain ⟨hcreated, horigin⟩ := h.pending j gap hmem
    refine ⟨?_, horigin⟩
    rw [Function.update_of_ne]
    · exact hcreated
    · rintro rfl
      exact hbefore gap hcreated
  committed := h.committed
  knows j work' hj := by
    rw [Function.update_apply] at hj
    split_ifs at hj with hsame
    · rw [hsame]
      exact hknows work' hj
    · exact h.knows j work' hj
  commits := h.commits

/-- The transaction of a request is rolled back. -/
theorem Sound.aborts (h : Sound dependencies requests log gaps underWay) (i : ι) :
    Sound dependencies requests log ((executeEvidenceGap dependencies requests).abort i gaps)
      (Function.update underWay i none) where
  apart := h.apart.sublist (abort_rows gaps i)
  owners := h.owners.sublist (List.filter_sublist.map Prod.fst)
  pending j gap hmem := by
    obtain ⟨hmem', hne⟩ := mem_forget.mp hmem
    rw [Function.update_of_ne hne]
    exact h.pending j gap hmem'
  committed := h.committed
  knows j work hj := by
    rw [Function.update_apply] at hj
    split_ifs at hj with hsame
    exact (h.knows j work hj).mono (fun _ hgap => hgap)
      fun gap hgap => mem_forget.mpr ⟨hgap, hsame⟩
  commits := h.commits

/-- The rows of a request are committed. -/
theorem Sound.publishes (h : Sound dependencies requests log gaps underWay)
    {entry : Option (Entry ι Key Stored)} (hrows : ∀ gap, (i, gap) ∈ gaps.pending →
      ∃ commit, entry = some (.committed commit) ∧ commit.owner = i ∧
        commit.response = gap.response)
    (hentry : ∀ commit, entry = some (.committed commit) →
      ∃ gap, (gap ∈ gaps.committed ∨ (i, gap) ∈ gaps.pending) ∧
        gap.Answers (requests commit.owner) ∧ gap.response = commit.response) :
    Sound dependencies requests (log ++ entry.toList)
      ((executeEvidenceGap dependencies requests).commit i gaps)
      (Function.update underWay i none) where
  apart := ((commit_rows gaps i).pairwise_iff apart_symm).mpr h.apart
  owners := h.owners.sublist (List.filter_sublist.map Prod.fst)
  pending j gap hmem := by
    obtain ⟨hmem', hne⟩ := mem_forget.mp hmem
    rw [Function.update_of_ne hne]
    exact h.pending j gap hmem'
  committed gap hgap := by
    rcases mem_commit.mp hgap with hmem | hmem
    · obtain ⟨commit, hcommit, hrest⟩ := h.committed gap hmem
      exact ⟨commit, List.mem_append_left _ hcommit, hrest⟩
    · obtain ⟨commit, rfl, rfl, hresponse⟩ := hrows gap hmem
      exact ⟨commit, by simp, hresponse, (h.pending _ gap hmem).2⟩
  knows j work hj := by
    rw [Function.update_apply] at hj
    split_ifs at hj with hsame
    exact (h.knows j work hj).mono (fun _ hgap => List.mem_append_left _ hgap)
      fun gap hgap => mem_forget.mpr ⟨hgap, hsame⟩
  commits commit hcommit := by
    rcases List.mem_append.mp hcommit with hmem | hmem
    · obtain ⟨gap, hgap, hrest⟩ := h.commits commit hmem
      exact ⟨gap, mem_commit.mpr (.inl hgap), hrest⟩
    · obtain ⟨gap, hgap, hrest⟩ := hentry commit (Option.mem_toList.mp hmem)
      exact ⟨gap, mem_commit.mpr hgap, hrest⟩

/-- A gap is inserted that no row excludes. -/
theorem Sound.inserts (h : Sound dependencies requests log gaps underWay) {gap : Gap}
    (hbefore : ∀ gap, underWay i ≠ some (.created gap))
    (horigin : ∃ auditId submittedAt, gap = gapOf dependencies (requests i) auditId submittedAt)
    (hapart : ∀ other ∈ gaps.rows, gap.Apart other) :
    Sound dependencies requests log { gaps with pending := (i, gap) :: gaps.pending }
      (Function.update underWay i (some (.created gap))) where
  apart := by
    have hrows : (gap :: gaps.rows).Pairwise Gap.Apart := List.pairwise_cons.mpr ⟨hapart, h.apart⟩
    exact (List.perm_middle.pairwise_iff apart_symm).mpr hrows
  owners := by
    refine List.nodup_cons.mpr ⟨fun hmem => ?_, h.owners⟩
    obtain ⟨⟨j, other⟩, hother, rfl⟩ := List.mem_map.mp hmem
    exact hbefore other (h.pending j other hother).1
  pending j other hmem := by
    rcases List.mem_cons.mp hmem with heq | hmem
    · cases heq
      exact ⟨Function.update_self _ _ _, horigin⟩
    · obtain ⟨hcreated, horigin'⟩ := h.pending j other hmem
      refine ⟨?_, horigin'⟩
      rw [Function.update_of_ne]
      · exact hcreated
      · rintro rfl
        exact hbefore other hcreated
  committed := h.committed
  knows j work hj := by
    rw [Function.update_apply] at hj
    split_ifs at hj with hsame
    · cases hj
      rw [hsame]
      exact List.mem_cons_self
    · exact (h.knows j work hj).mono (fun _ hgap => hgap) fun _ hgap => List.mem_cons_of_mem _ hgap
  commits := h.commits

omit [DecidableEq ι] in
theorem insertGap_cases {gap : Gap} {work : Work} {gaps' : Gaps ι}
    (h : insertGap i gap gaps = some (work, gaps')) :
    work = .selecting gap ∧ gaps' = gaps ∨
      work = .created gap ∧ gaps' = { gaps with pending := (i, gap) :: gaps.pending } ∧
        ∀ other ∈ gaps.rows, gap.Apart other := by
  unfold insertGap at h
  split_ifs at h with hcommitted hpending
  · cases h
    exact .inl ⟨rfl, rfl⟩
  · cases h
    refine .inr ⟨rfl, rfl, fun other hother hconflicts => ?_⟩
    rcases List.mem_append.mp hother with hmem | hmem
    · exact hcommitted (List.any_eq_true.mpr ⟨other, hmem, hconflicts⟩)
    · obtain ⟨⟨j, _⟩, hmem', rfl⟩ := List.mem_map.mp hmem
      exact hpending (List.any_eq_true.mpr ⟨_, hmem', hconflicts⟩)

omit [DecidableEq ι] in
/-- The gap that is read is the one of the request, unless the request is refused. -/
theorem knows_selectGap {gap : Gap} (h : gap.Answers (requests i)) :
    Knows requests gaps i (selectGap dependencies (requests i) gap gaps) := by
  unfold selectGap
  split
  · rename_i row hrows
    split_ifs with hsame
    · have hrow : row ∈ gaps.committed.filter gap.conflicts := by simp [hrows]
      obtain ⟨hmem, hconflicts⟩ := List.mem_filter.mp hrow
      exact ⟨row, hmem, ⟨(conflicts_iff.mp hconflicts).1.symm.trans h.tenantId,
        hsame.1.trans h.id, hsame.2.1.trans h.requestId, hsame.2.2.trans h.requestSha256⟩, rfl⟩
    · trivial
    · trivial
  · trivial

/-- **One step.**  The rows stay apart, and what is answered stays that of a row. -/
theorem sound_effect (h : Sound dependencies requests log gaps underWay) {gaps' : Gaps ι}
    {underWay' : ι → Option Work} {entry : Option (Entry ι Key Stored)}
    (heffect : Effect (executeEvidenceGap dependencies requests) gaps underWay entry gaps'
      underWay') :
    Sound dependencies requests (log ++ entry.toList) gaps' underWay' := by
  have hquiet : ∀ commit, (none : Option (Entry ι Key Stored)) ≠ some (.committed commit) := by
    simp
  cases heffect with
  | still entry hentry => exact h.logs hentry
  | started i hnone =>
      refine (h.goesOn (by simp [hnone]) ?_).logs hquiet
      rintro work hwork
      cases hwork
      trivial
  | worked i move work work' gaps' hwork hmove =>
      refine Sound.logs ?_ hquiet
      cases work with
      | mapping =>
          cases move with
          | select => cases hmove
          | insert auditId submittedAt =>
              simp only [executeEvidenceGap] at hmove
              split_ifs at hmove
              rcases insertGap_cases hmove with ⟨rfl, rfl⟩ | ⟨rfl, rfl, hapart⟩
              · refine h.goesOn (by simp [hwork]) ?_
                rintro work' hwork'
                cases hwork'
                exact answers_gapOf dependencies _ auditId submittedAt
              · exact h.inserts (by simp [hwork]) ⟨auditId, submittedAt, rfl⟩ hapart
      | selecting gap =>
          cases move with
          | insert auditId submittedAt => cases hmove
          | select =>
              cases hmove
              refine h.goesOn (by simp [hwork]) ?_
              rintro work' hwork'
              cases hwork'
              exact knows_selectGap (h.knows i _ hwork)
      | created gap => cases hmove
      | conflict => cases hmove
      | replay response => cases hmove
      | corrupt => cases hmove
  | aborted i work hwork => exact (h.aborts i).logs hquiet
  | refused i work refusal hwork houtcome =>
      refine h.publishes (fun gap hgap => ?_) (by simp)
      -- A request that is refused has inserted nothing.
      rw [(h.pending i gap hgap).1] at hwork
      cases hwork
      cases houtcome
  | completed work commit hwork houtcome =>
      refine h.publishes (fun gap hgap => ?_) ?_
      · rw [(h.pending commit.owner gap hgap).1] at hwork
        cases hwork
        exact ⟨commit, rfl, rfl, by simpa [executeEvidenceGap] using houtcome.symm⟩
      · rintro commit' hcommit'
        cases hcommit'
        have hknows := h.knows commit.owner work hwork
        cases work with
        | mapping => cases houtcome
        | selecting gap => cases houtcome
        | conflict => cases houtcome
        | corrupt => cases houtcome
        | created gap =>
            obtain ⟨-, auditId, submittedAt, rfl⟩ := h.pending _ gap hknows
            exact ⟨_, .inr hknows, answers_gapOf dependencies _ auditId submittedAt,
              by simpa [executeEvidenceGap] using houtcome⟩
        | replay response =>
            obtain ⟨gap, hgap, hanswers, rfl⟩ := hknows
            exact ⟨gap, .inl hgap, hanswers, by simpa [executeEvidenceGap] using houtcome⟩

end Keep

/-! ## The runs -/

section Runs

variable [DecidableEq ι] (requests : ι → Request)

/-- The gaps of a tenant are told apart by either of their ids and stay as they are; a request that
succeeds is given the response of the gap that has its two ids and its digest, and two that succeed
with one gap id are given one response; a gap was inserted by a request that succeeds with it, or
has not heard of it. -/
structure Converges (log : List (Entry ι Key Stored))
    (world : World ι Key JsString Stored Refusal Work (Gaps ι)) : Prop where
  lawful : Lawful (executeEvidenceGap dependencies requests) log world
  unique : world.data.committed.Pairwise Gap.Apart
  answers : ∀ i response, world.phases i = .answered (.success response) →
    ∃ gap ∈ world.data.committed, gap.Answers (requests i) ∧ gap.response = response
  same : ∀ i j response response', world.phases i = .answered (.success response) →
    world.phases j = .answered (.success response') →
    (requests i).tenantId = (requests j).tenantId →
    (requests i).gapRequestId = (requests j).gapRequestId → response = response'
  made : ∀ gap ∈ world.data.committed, ∃ i, gap.Answers (requests i) ∧
    (world.phases i = .failing ∨ world.phases i = .answered .failed ∨
      world.phases i = .answered (.success gap.response))
  kept : ∀ events, world.data.committed <+:
    (run (World.step (executeEvidenceGap dependencies requests)) world events).data.committed

variable {requests} {dependencies}

theorem effect_committed {gaps gaps' : Gaps ι} {underWay underWay' : ι → Option Work}
    {entry : Option (Entry ι Key Stored)}
    (heffect : Effect (executeEvidenceGap dependencies requests) gaps underWay entry gaps'
      underWay') : gaps.committed <+: gaps'.committed := by
  cases heffect with
  | still entry hentry => exact List.prefix_refl _
  | started i hnone => exact List.prefix_refl _
  | worked i move work work' gaps' hwork hmove =>
      cases work with
      | mapping =>
          cases move with
          | select => cases hmove
          | insert auditId submittedAt =>
              simp only [executeEvidenceGap] at hmove
              split_ifs at hmove
              rcases insertGap_cases hmove with ⟨-, rfl⟩ | ⟨-, rfl, -⟩
              · exact List.prefix_refl _
              · exact List.prefix_refl _
      | selecting gap =>
          cases move with
          | insert auditId submittedAt => cases hmove
          | select =>
              cases hmove
              exact List.prefix_refl _
      | created gap => cases hmove
      | conflict => cases hmove
      | replay response => cases hmove
      | corrupt => cases hmove
  | aborted i work hwork => exact List.prefix_refl _
  | refused i work refusal hwork houtcome => exact List.prefix_append _ _
  | completed work commit hwork houtcome => exact List.prefix_append _ _

omit [DecidableEq ι] in
/-- A request that succeeds, by its own execution or by a replay, is given the response of the gap
with its ids. -/
theorem Sound.answers {log : List (Entry ι Key Stored)} {gaps : Gaps ι}
    {underWay : ι → Option Work} (h : Sound dependencies requests log gaps underWay) {i : ι}
    {commit : Commit ι Stored} (hcommit : .committed commit ∈ log)
    (hdigest : (requests commit.owner).requestSha256 = (requests i).requestSha256)
    (hvalid : commit.owner = i ∨
      validStoredResponse dependencies (requests i) commit.response = true) :
    ∃ gap ∈ gaps.committed, gap.Answers (requests i) ∧ gap.response = commit.response := by
  obtain ⟨gap, hgap, hanswers, hresponse⟩ := h.commits commit hcommit
  rcases hvalid with rfl | hvalid
  · exact ⟨gap, hgap, hanswers, hresponse⟩
  · -- The text of the response names the gap, and so the request that it is replayed to.
    obtain ⟨submittedAt, hbody⟩ := body_of_validStoredResponse dependencies hvalid
    obtain ⟨creator, -, -, auditId, submittedAt', rfl⟩ := h.committed gap hgap
    rw [← hresponse] at hbody
    obtain ⟨htenant, hid, hrequest⟩ := body_inj dependencies hbody
    exact ⟨_, hgap, ⟨htenant, hid, hrequest, hanswers.requestSha256.trans hdigest⟩, hresponse⟩

omit [DecidableEq ι] in
/-- Of two rows that are apart pairwise, two that the unique keys exclude are one. -/
theorem eq_of_conflicts {rows : List Gap} (hapart : rows.Pairwise Gap.Apart) {gap other : Gap}
    (hgap : gap ∈ rows) (hother : other ∈ rows) (hconflicts : gap.conflicts other = true) :
    gap = other := by
  by_contra hne
  have : Std.Symm Gap.Apart := ⟨fun _ _ => apart_symm⟩
  exact hapart.forall hgap hother hne hconflicts

theorem converges {log : List (Entry ι Key Stored)}
    {world : World ι Key JsString Stored Refusal Work (Gaps ι)}
    (hlawful : Lawful (executeEvidenceGap dependencies requests) log world)
    (hsound : Sound dependencies requests log world.data world.underWay) :
    Converges dependencies requests log world := by
  have hunique := (List.pairwise_append.mp hsound.apart).1
  have hanswers : ∀ i response, world.phases i = .answered (.success response) →
      ∃ gap ∈ world.data.committed, gap.Answers (requests i) ∧ gap.response = response := by
    intro i response hsuccess
    obtain ⟨commit, hcommit, -, hdigest, rfl, haccepts⟩ := hlawful.answers i response hsuccess
    refine hsound.answers hcommit hdigest (haccepts.imp_right ?_)
    rintro ⟨move, hreject⟩
    by_contra hinvalid
    simp [executeEvidenceGap, hinvalid] at hreject
  refine ⟨hlawful, hunique, hanswers, fun i j response response' hi hj htenant hid => ?_,
    fun gap hgap => ?_, fun events => ?_⟩
  · obtain ⟨gap, hgap, hown, rfl⟩ := hanswers i response hi
    obtain ⟨other, hother, hown', rfl⟩ := hanswers j response' hj
    have hconflicts : gap.conflicts other = true := conflicts_iff.mpr
      ⟨hown.tenantId.trans (htenant.trans hown'.tenantId.symm),
        .inl (hown.id.trans (hid.trans hown'.id.symm))⟩
    rw [eq_of_conflicts hunique hgap hother hconflicts]
  · obtain ⟨commit, hcommit, hresponse, auditId, submittedAt, hgapOf⟩ := hsound.committed gap hgap
    refine ⟨commit.owner, ?_, hresponse ▸ hlawful.ends commit hcommit⟩
    rw [hgapOf]
    exact answers_gapOf dependencies _ auditId submittedAt
  · exact run_invariant
      (fun (later : World ι Key JsString Stored Refusal Work (Gaps ι)) =>
        world.data.committed <+: later.data.committed)
      (fun later event hprefix => hprefix.trans (effect_committed (step_effect later event)))
      (List.prefix_refl _) events

variable (dependencies) (requests)

/-- **Evidence gaps converge.**  In every run of requests of any tenants, principals and keys, in
any interleaving and with any transaction lost or unheard. -/
theorem gaps_converge (now : Int) (events : List (Event ι Key Move)) :
    Converges dependencies requests
      (outputs (World.step (executeEvidenceGap dependencies requests))
        (World.entry (executeEvidenceGap dependencies requests)) (World.initial now ⟨[], []⟩)
        events)
      (run (World.step (executeEvidenceGap dependencies requests)) (World.initial now ⟨[], []⟩)
        events) :=
  converges (lawful_run (executeEvidenceGap dependencies requests) now ⟨[], []⟩ events)
    (data_invariant (Sound dependencies requests) sound_initial
      (fun _ _ _ _ _ _ hsound heffect => sound_effect hsound heffect) now events)

end Runs

end EvidenceGap
