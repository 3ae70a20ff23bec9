import MuniRag.Workflow.Governance
import MuniRag.Workflow.Repository

/-!
# Review rounds behind an approval

A version may be submitted, sent back with changes requested and submitted
again.  The ledger keeps next to the tables the submissions and reviews that
were committed, newest first, and `Endorses` reads from it whether the current
submission was recommended and not sent back since.

The tables do not know about rounds: the review that counts is the one with the
greatest `(created_at, id)` of all rounds.  So a recommendation of an earlier
round can outrank the review that sent the version back, and then the next
submission is approved on it (`approval_without_review`).  As long as every
review that requests changes outranks the recommendations before it, no
approval lacks its review (`approvals_endorsed`).
-/

namespace Workflow

open Results Runs Database

variable {Value : Type}

inductive Event
  | submitted (version : VersionKey)
  | reviewed (version : VersionKey) (decision : ReviewDecision)
  deriving DecidableEq, Repr

def Event.version : Event → VersionKey
  | .submitted version => version
  | .reviewed version _ => version

/-- The newest submission of the version was recommended for approval, and no
later review of it requested changes.  The history is newest first. -/
def Endorses (history : List Event) (version : VersionKey) : Prop :=
  ∃ newer older, history = newer ++ .reviewed version .recommendedForApproval :: older ∧
    .submitted version ∈ older ∧ .submitted version ∉ newer ∧
    .reviewed version .changesRequested ∉ newer

theorem endorses_recommendation {history : List Event} {version : VersionKey}
    (h : .submitted version ∈ history) :
    Endorses (.reviewed version .recommendedForApproval :: history) version :=
  ⟨[], history, rfl, h, by simp, by simp⟩

/-- What happens to other versions does not matter. -/
theorem Endorses.cons_other {history : List Event} {version : VersionKey} {event : Event}
    (h : Endorses history version) (hother : event.version ≠ version) :
    Endorses (event :: history) version := by
  obtain ⟨newer, older, rfl, hin, hnot, hchanges⟩ := h
  refine ⟨event :: newer, older, rfl, hin, ?_, ?_⟩
  · rintro (_ | ⟨_, hmem⟩)
    · exact hother rfl
    · exact hnot hmem
  · rintro (_ | ⟨_, hmem⟩)
    · exact hother rfl
    · exact hchanges hmem

/-- A version just submitted is not endorsed. -/
theorem not_endorses_submitted (history : List Event) (version : VersionKey) :
    ¬ Endorses (.submitted version :: history) version := by
  rintro ⟨newer, older, heq, -, hnot, -⟩
  cases newer with
  | nil => cases heq
  | cons event newer =>
      obtain ⟨rfl, -⟩ := List.cons.inj heq
      exact hnot List.mem_cons_self

/-! ## The ledger -/

/-- The tables and the committed submissions and reviews, newest first. -/
structure Ledger (Value : Type) where
  db : Database Value
  history : List Event

/-- No workflow exists yet. -/
def Ledger.opening (tenants : List Uuid) (principals : List (Uuid × Uuid)) : Ledger Value where
  db := {
    tenants, principals
    procedures := [], versions := [], reviews := [], approvals := [] }
  history := []

/-- The version a request names, inside the tenant of the principal. -/
def versionKey? (principal : Actor) (workflowVersionId : JsString) : Option VersionKey := do
  let tenantId ← uuidValue principal.tenantId
  let id ← uuidValue workflowVersionId
  pure (tenantId, id)

/-- What a committed command adds to the history. -/
def Command.events : Command Value → List Event
  | .submitForReview principal id _ => (versionKey? principal id).toList.map .submitted
  | .recordReview principal id input =>
      match versionKey? principal id, reviewDecision? input.decision with
      | some version, some decision => [.reviewed version decision]
      | _, _ => []
  | _ => []

variable [DecidableEq Value] (host : SqlHost Value)

/-- One transaction of the handler; an error rolls it back. -/
def Ledger.step (ledger : Ledger Value) (command : Command Value) : Ledger Value :=
  settle ledger do
    let out ← transaction host ledger.db command
    pure { db := out.db, history := command.events ++ ledger.history }

/-- A version only enters `approved` when its newest submission is endorsed. -/
def ApprovesEndorsed (ledger : Ledger Value) (command : Command Value) : Prop :=
  ∀ row ∈ (ledger.step host command).db.versions, row.lifecycleStatus = .approved →
    (∃ old ∈ ledger.db.versions, old.key = row.key ∧ old.lifecycleStatus = .approved) ∨
      Endorses ledger.history row.key

/-- A review that requests changes ranks above the stored recommendations of
its version, those aside that some stored request for changes outranks. -/
def InOrder (ledger : Ledger Value) : Command Value → Prop
  | .recordReview principal id input =>
      ∀ record updated reviewId createdAt,
        existing ledger.db principal id = .ok record →
        recordWorkflowReview host.toHost record.toVersionRecord principal input = .ok updated →
        reviewDecision? input.decision = some .changesRequested →
        uuidValue input.reviewId = some reviewId → input.now = some createdAt →
        ∀ earlier ∈ ledger.db.reviews, earlier.version = record.key →
          earlier.decision = .recommendedForApproval →
          reviewRank earlier < toLex (createdAt, reviewId) ∨
            ∃ other ∈ ledger.db.reviews, other.version = record.key ∧
              other.decision = .changesRequested ∧ reviewRank earlier < reviewRank other
  | _ => True

/-! ## What a committed command does -/

def Database.addReview (db : Database Value) (review : ReviewRow) : Database Value :=
  { db with reviews := db.reviews ++ [review] }

/-- The rows a committed command writes. -/
inductive Effect (db : Database Value) : Command Value → Database Value → Prop
  | drafted {principal input db'} (new : VersionRow Value)
      (hfresh : ∀ row ∈ db.versions, row.key ≠ new.key) (hstatus : new.lifecycleStatus = .draft)
      (hversions : db'.versions = db.versions ++ [new]) (hreviews : db'.reviews = db.reviews) :
      Effect db (.createDraft principal input) db'
  | submitted {principal id now} (old new : VersionRow Value)
      (hversion : versionKey? principal id = some old.key) (hkey : new.key = old.key)
      (hstatus : new.lifecycleStatus = .inReview) (hold : old ∈ db.versions)
      (hfrom : old.lifecycleStatus = .draft) :
      Effect db (.submitForReview principal id now) (db.rewrite old new)
  | reviewed {principal id input} (record : StoredVersion Value) (updated : VersionRecord Value)
      (old new : VersionRow Value) (review : ReviewRow)
      (hread : existing db principal id = .ok record)
      (hmachine : recordWorkflowReview host.toHost record.toVersionRecord principal input =
        .ok updated)
      (hrecord : record.key = old.key) (hversion : versionKey? principal id = some old.key)
      (hdecision : reviewDecision? input.decision = some review.decision)
      (hid : uuidValue input.reviewId = some review.id) (hnow : input.now = some review.createdAt)
      (hreview : review.version = old.key) (hkey : new.key = old.key)
      (hstatus : new.lifecycleStatus =
        if review.decision = .changesRequested then .draft else .inReview)
      (hold : old ∈ db.versions) (hfrom : old.lifecycleStatus = .inReview) :
      Effect db (.recordReview principal id input)
        ((db.addReview review).rewrite old new)
  | approved {principal id input db'} (old new : VersionRow Value) (review : ReviewRow)
      (hkey : new.key = old.key) (hstatus : new.lifecycleStatus = .approved)
      (hold : old ∈ db.versions) (hfrom : old.lifecycleStatus = .inReview)
      (hlatest : db.latestReview old.key = some review)
      (hdecision : review.decision = .recommendedForApproval)
      (hversions : db'.versions = (db.rewrite old new).versions)
      (hreviews : db'.reviews = db.reviews) :
      Effect db (.approve principal id input) db'
  | superseded {principal id input db'} (current superseded old new : VersionRow Value)
      (review : ReviewRow) (hcurrentKey : superseded.key = current.key)
      (hsuperseded : superseded.lifecycleStatus = .superseded)
      (hkey : new.key = old.key) (hstatus : new.lifecycleStatus = .approved)
      (hold : old ∈ db.versions) (hfrom : old.lifecycleStatus = .inReview)
      (hlatest : db.latestReview old.key = some review)
      (hdecision : review.decision = .recommendedForApproval)
      (hversions : db'.versions =
        ((db.rewrite current superseded).rewrite old new).versions)
      (hreviews : db'.reviews = db.reviews) :
      Effect db (.supersede principal id input) db'
  | archived {principal id now} (old new : VersionRow Value)
      (hkey : new.key = old.key) (hstatus : new.lifecycleStatus = .archived) :
      Effect db (.archive principal id now) (db.rewrite old new)

variable {host}
variable {db : Database Value} {out : Outcome Value}

omit [DecidableEq Value] in
theorem insertProcedure_ok {new : ProcedureRow} {db' : Database Value}
    (h : insertProcedure host db new = .ok db') :
    db'.versions = db.versions ∧ db'.reviews = db.reviews := by
  simp only [insertProcedure, then_ok, raiseUnless_ok] at h
  obtain ⟨_, _, h⟩ := h
  split at h
  · obtain rfl := return_ok.mp h
    exact ⟨rfl, rfl⟩
  · simp only [then_ok, raiseUnless_ok, return_ok] at h
    obtain ⟨_, _, _, _, rfl⟩ := h
    exact ⟨rfl, rfl⟩

omit [DecidableEq Value] in
theorem insertVersion_effect {principal : Actor} {input : DraftInput Value}
    {new : VersionRow Value} {db₀ db' : Database Value}
    (hsame : db₀.versions = db.versions ∧ db₀.reviews = db.reviews)
    (h : insertVersion host db₀ new = .ok db') :
    Effect host db (.createDraft principal input) db' := by
  obtain ⟨hstatus, hfresh, rfl⟩ := insertVersion_ok h
  rw [hsame.1] at hfresh
  exact .drafted new (fun row hrow hkey => hfresh row hrow (congrArg Prod.snd hkey)) hstatus
    (by rw [hsame.1]) hsame.2

omit [DecidableEq Value] in
theorem createDraft_effect {principal : Actor} {input : DraftInput Value}
    (h : createDraft host db principal input = .ok out) :
    Effect host db (.createDraft principal input) out.db := by
  simp only [createDraft, then_ok, return_ok] at h
  obtain ⟨_, _, _, _, _, _, withProcedure, hprocedure, _, _, _, _, db', hinsert, _, _, rfl⟩ := h
  exact insertVersion_effect (insertProcedure_ok hprocedure) hinsert

omit [DecidableEq Value] in
theorem existing_key {principal : Actor} {id : JsString} {record : StoredVersion Value}
    (h : existing db principal id = .ok record) :
    ∃ row, versionKey? principal id = some row.key ∧ ReadFrom db row record.toVersionRecord := by
  obtain ⟨row, tenantId, versionId, htenant, hid, hkey, hread⟩ := existing_ok h
  exact ⟨row, by simp [versionKey?, htenant, hid, hkey], hread⟩

/-- Writing a record back rewrites the row it was read from. -/
theorem updateRecord_readFrom {row : VersionRow Value} {record updated : VersionRecord Value}
    {db₀ : Database Value} (hread : ReadFrom db₀ row record)
    (h : updateRecord host db updated = .ok out) (hversions : db.versions = db₀.versions)
    (hkey : updated.key = record.key) :
    ∃ new, out.db = db.rewrite row new ∧ new.key = row.key ∧
      new.lifecycleStatus = updated.lifecycleStatus := by
  obtain ⟨old, hold, hdb⟩ := updateRecord_ok h
  have hfind := hread.find
  rw [hkey, hread.key, version?, hversions] at hold
  rw [version?] at hfind
  obtain rfl : row = old := Option.some.inj (hfind.symm.trans hold)
  exact ⟨row.assign updated, hdb, rfl, rfl⟩

theorem submitForReview_effect {principal : Actor} {id : JsString} {now : DateText}
    {record : StoredVersion Value} (hread : existing db principal id = .ok record)
    (h : submitForReview host db record principal now = .ok out) :
    Effect host db (.submitForReview principal id now) out.db := by
  obtain ⟨row, hversion, hrow⟩ := existing_key hread
  simp only [submitForReview, then_ok, throughStateMachine_ok] at h
  obtain ⟨updated, hsubmit, hupdate⟩ := h
  obtain ⟨hfrom, submitter, at', hupdated⟩ := submitWorkflowForReview_ok hsubmit
  have hkept : updated.key = record.key ∧ updated.lifecycleStatus = .inReview := by
    rw [hupdated]
    exact ⟨rfl, rfl⟩
  obtain ⟨new, hdb, hkey, hstatus⟩ := updateRecord_readFrom hrow hupdate rfl hkept.1
  rw [hdb]
  exact .submitted row new hversion hkey (hstatus.trans hkept.2) hrow.mem (hrow.status ▸ hfrom)

theorem recordReview_effect {principal : Actor} {id : JsString} {input : ReviewInput}
    {record : StoredVersion Value} (hread : existing db principal id = .ok record)
    (h : recordReview host db record principal input = .ok out) :
    Effect host db (.recordReview principal id input) out.db := by
  obtain ⟨row, hversion, hrow⟩ := existing_key hread
  simp only [recordReview, castUuid, castTime, then_ok, throughStateMachine_ok, orRefuse_ok] at h
  obtain ⟨updated, hmachine, reviewId, hid, reviewer, _, decision, hdecision, createdAt, hnow, db₁,
    hinsert, hupdate⟩ := h
  obtain ⟨hfrom, review, -, -, hsame, -, -, hupdated⟩ := recordWorkflowReview_ok _ hmachine
  obtain rfl : decision = review.decision := Option.some.inj (hdecision.symm.trans hsame)
  generalize hstored : ReviewRow.mk reviewId record.tenantId record.workflowVersionId reviewer
    review.decision input.notes createdAt = stored at hinsert
  have hdb₁ := insertReview_ok hinsert
  have hkept : updated.key = record.key ∧ updated.lifecycleStatus =
      if review.decision = .changesRequested then .draft else .inReview := by
    rw [hupdated]
    cases hd : review.decision with
    | changesRequested => simp [VersionRecord.reviewed, hd, VersionRecord.key]
    | recommendedForApproval => simp [VersionRecord.reviewed, hd, VersionRecord.key, hfrom]
  obtain ⟨new, hdb, hkey, hstatus⟩ :=
    updateRecord_readFrom hrow hupdate (by rw [hdb₁]) hkept.1
  rw [hdb, hdb₁]
  rw [hkept.2] at hstatus
  subst hstored
  exact .reviewed record updated row new _ hread hmachine hrow.key hversion hdecision hid hnow
    hrow.key hkey hstatus hrow.mem (hrow.status ▸ hfrom)

omit [DecidableEq Value] in
/-- The review an approval of a record goes by is the latest stored review. -/
theorem latestReview_of_approval {row : VersionRow Value} {record updated : VersionRecord Value}
    {principal : Actor} {input : ApprovalInput} (hrow : ReadFrom db row record)
    (h : approveWorkflowVersion host.toHost record principal input = .ok updated) :
    updated.key = record.key ∧ updated.lifecycleStatus = .approved ∧
      row.lifecycleStatus = .inReview ∧
      ∃ review, db.latestReview row.key = some review ∧
        review.decision = .recommendedForApproval := by
  obtain ⟨hfrom, review, approval, hreview, hdecision, -, -, -, -, -, rfl⟩ :=
    approveWorkflowVersion_ok _ h
  rw [hrow.latestReview, Option.map_eq_some_iff] at hreview
  obtain ⟨stored, hstored, rfl⟩ := hreview
  exact ⟨rfl, rfl, hrow.status ▸ hfrom, stored, hstored, hdecision⟩

theorem approve_effect {principal : Actor} {id : JsString} {input : ApprovalInput}
    {record : StoredVersion Value} (hread : existing db principal id = .ok record)
    (h : approve host db record principal input = .ok out) :
    Effect host db (.approve principal id input) out.db := by
  obtain ⟨row, -, hrow⟩ := existing_key hread
  simp only [approve, then_ok, throughStateMachine_ok] at h
  obtain ⟨updated, hmachine, _, _, _, _, _, _, db₁, hinsert, hupdate⟩ := h
  obtain ⟨hkept, happroved, hfrom, review, hlatest, hdecision⟩ :=
    latestReview_of_approval hrow hmachine
  have hdb₁ := insertApproval_ok hinsert
  obtain ⟨new, hdb, hkey, hstatus⟩ :=
    updateRecord_readFrom hrow hupdate (by rw [hdb₁]) hkept
  rw [hdb, hdb₁]
  exact .approved row new review hkey (hstatus.trans happroved) hrow.mem hfrom hlatest hdecision
    rfl rfl

theorem supersede_effect {principal : Actor} {id : JsString} {input : SupersessionApprovalInput}
    {record : StoredVersion Value} (hread : existing db principal id = .ok record)
    (h : supersede host db record principal input = .ok out) :
    Effect host db (.supersede principal id input) out.db := by
  obtain ⟨current, -, hcurrent⟩ := existing_key hread
  simp only [supersede, then_ok, throughStateMachine_ok, orRefuse_ok, return_ok] at h
  obtain ⟨replacementId, _, replacement, hget, result, hmachine, first, hfirst, _, _, _, _, _, _,
    db₂, hinsert, second, hsecond, rfl⟩ := h
  obtain ⟨row, -, hrow⟩ := get_readFrom hget
  obtain ⟨-, -, happrove, hsupersede⟩ := approveReplacementAndSupersede_ok _ hmachine
  obtain ⟨-, _, -, -, hsuperseded⟩ := supersedeWorkflowVersion_ok hsupersede
  obtain ⟨hkept, happroved, hfrom, review, hlatest, hdecision⟩ :=
    latestReview_of_approval hrow happrove
  obtain ⟨superseded, hfirstDb, hsupersededKey, hsupersededStatus⟩ :=
    updateRecord_readFrom hcurrent hfirst rfl (by rw [hsuperseded]; rfl)
  obtain ⟨old, hold, hsecondDb⟩ := updateRecord_ok hsecond
  have hkey : old.key = row.key :=
    (version?_some hold).2.trans (hkept.trans hrow.key)
  have hdb₂ := insertApproval_ok hinsert
  have hversions : second.db.versions =
      ((db.rewrite current superseded).rewrite row (old.assign result.replacement)).versions := by
    rw [hsecondDb, hdb₂, hfirstDb]
    simp only [rewrite, hkey]
  exact .superseded current superseded row (old.assign result.replacement) review hsupersededKey
    (by rw [hsupersededStatus, hsuperseded]) hkey happroved hrow.mem hfrom hlatest hdecision
    hversions (by rw [hsecondDb, hdb₂, hfirstDb]; rfl)

theorem archive_effect {principal : Actor} {id : JsString} {now : DateText}
    {record : StoredVersion Value} (hread : existing db principal id = .ok record)
    (h : archive host db record principal now = .ok out) :
    Effect host db (.archive principal id now) out.db := by
  obtain ⟨row, -, hrow⟩ := existing_key hread
  simp only [archive, then_ok, throughStateMachine_ok] at h
  obtain ⟨updated, harchive, hupdate⟩ := h
  obtain ⟨-, archivedBy, at', hupdated⟩ := archiveWorkflowVersion_ok harchive
  have hkept : updated.key = record.key ∧ updated.lifecycleStatus = .archived := by
    rw [hupdated]
    exact ⟨rfl, rfl⟩
  obtain ⟨new, hdb, hkey, hstatus⟩ := updateRecord_readFrom hrow hupdate rfl hkept.1
  rw [hdb]
  exact .archived row new hkey (hstatus.trans hkept.2)

theorem transaction_effect {command : Command Value}
    (h : transaction host db command = .ok out) : Effect host db command out.db := by
  cases command with
  | createDraft principal input => exact createDraft_effect h
  | submitForReview principal id now =>
      obtain ⟨record, hread, h⟩ := then_ok.mp h
      exact submitForReview_effect hread h
  | recordReview principal id input =>
      obtain ⟨record, hread, h⟩ := then_ok.mp h
      exact recordReview_effect hread h
  | approve principal id input =>
      obtain ⟨record, hread, h⟩ := then_ok.mp h
      exact approve_effect hread h
  | supersede principal id input =>
      obtain ⟨record, hread, h⟩ := then_ok.mp h
      exact supersede_effect hread h
  | archive principal id now =>
      obtain ⟨record, hread, h⟩ := then_ok.mp h
      exact archive_effect hread h

/-! ## The invariant -/

/-- What the latest stored review of a version says about its rounds. -/
structure RowTraced (latest : Option ReviewRow) (history : List Event)
    (row : VersionRow Value) : Prop where
  draft : row.lifecycleStatus = .draft →
    ∀ review, latest = some review → review.decision = .changesRequested
  submitted : row.lifecycleStatus = .inReview → .submitted row.key ∈ history
  endorsed : row.lifecycleStatus = .inReview →
    ∀ review, latest = some review → review.decision = .recommendedForApproval →
      Endorses history row.key

structure Traced (ledger : Ledger Value) : Prop where
  known : ∀ review ∈ ledger.db.reviews, ∃ row ∈ ledger.db.versions, row.key = review.version
  rows : ∀ row ∈ ledger.db.versions,
    RowTraced (ledger.db.latestReview row.key) ledger.history row

omit [DecidableEq Value] in
theorem RowTraced.events_other {latest : Option ReviewRow} {events history : List Event}
    {row : VersionRow Value} (h : RowTraced latest history row)
    (hother : ∀ event ∈ events, event.version ≠ row.key) :
    RowTraced latest (events ++ history) row := by
  induction events with
  | nil => exact h
  | cons event events ih =>
      obtain ⟨hevent, hevents⟩ := List.forall_mem_cons.mp hother
      obtain ⟨hdraft, hsubmitted, hendorsed⟩ := ih hevents
      exact ⟨hdraft, fun hstatus => List.mem_cons_of_mem _ (hsubmitted hstatus),
        fun hstatus review hreview hdecision =>
          (hendorsed hstatus review hreview hdecision).cons_other hevent⟩

omit [DecidableEq Value] in
/-- A version past review carries no obligation. -/
theorem rowTraced_of_status {latest : Option ReviewRow} {history : List Event}
    {row : VersionRow Value}
    (hstatus : row.lifecycleStatus ≠ .draft ∧ row.lifecycleStatus ≠ .inReview) :
    RowTraced latest history row :=
  ⟨fun h => absurd h hstatus.1, fun h => absurd h hstatus.2, fun h => absurd h hstatus.2⟩

omit [DecidableEq Value] in
theorem latestReview_addReview_other {review : ReviewRow} {key : VersionKey}
    (hother : review.version ≠ key) :
    (db.addReview review).latestReview key = db.latestReview key := by
  simp [latestReview, reviewsOf, addReview, hother]

omit [DecidableEq Value] in
theorem latestReview_rewrite {old new : VersionRow Value} :
    (db.rewrite old new).latestReview = db.latestReview := rfl

omit [DecidableEq Value] in
/-- The latest review of a version that no stored review names. -/
theorem latestReview_eq_none {key : VersionKey}
    (h : ∀ review ∈ db.reviews, review.version ≠ key) : db.latestReview key = none := by
  rw [latestReview, Table.greatest_eq_none, reviewsOf, List.filter_eq_nil_iff]
  simpa using h

omit [DecidableEq Value] in
theorem latestReview_congr {db' : Database Value} (h : db'.reviews = db.reviews) :
    db'.latestReview = db.latestReview := by
  funext key
  simp only [latestReview, reviewsOf, h]

omit [DecidableEq Value] in
theorem keys_rewrite {old new : VersionRow Value} (hkey : new.key = old.key) :
    (db.rewrite old new).versions.map VersionRow.key = db.versions.map VersionRow.key :=
  Table.map_updateWhere fun _ _ hrow => hkey.trans hrow.symm

omit [DecidableEq Value] in
theorem keys_subset_rewrite {old new : VersionRow Value} (hkey : new.key = old.key) :
    ∀ key ∈ db.versions.map VersionRow.key,
      key ∈ (db.rewrite old new).versions.map VersionRow.key := by
  intro key hmem
  rwa [keys_rewrite hkey]

omit [DecidableEq Value] in
/-- A rewrite keeps the rows traced when the new row is. -/
theorem rows_rewrite {old new : VersionRow Value} {latest : VersionKey → Option ReviewRow}
    {history : List Event} (hkey : new.key = old.key)
    (hrows : ∀ row ∈ db.versions, row.key ≠ new.key →
      RowTraced (latest row.key) history row)
    (hnew : RowTraced (latest new.key) history new) :
    ∀ row ∈ (db.rewrite old new).versions, RowTraced (latest row.key) history row := by
  intro row hrow
  rcases mem_rewrite hkey hrow with rfl | ⟨hmem, hne⟩
  · exact hnew
  · exact hrows row hmem hne

variable {ledger : Ledger Value} {history : List Event}

omit [DecidableEq Value] in
/-- Every stored review belongs to a stored version, as long as no key goes. -/
theorem known_of_keys {db' : Database Value}
    (h : ∀ review ∈ db.reviews, ∃ row ∈ db.versions, row.key = review.version)
    (hkeys : ∀ key ∈ db.versions.map VersionRow.key, key ∈ db'.versions.map VersionRow.key)
    (hreviews : ∀ review ∈ db'.reviews, review ∈ db.reviews ∨
      ∃ row ∈ db.versions, row.key = review.version) :
    ∀ review ∈ db'.reviews, ∃ row ∈ db'.versions, row.key = review.version := by
  intro review hreview
  have hold : ∃ row ∈ db.versions, row.key = review.version :=
    (hreviews review hreview).elim (h review) id
  exact List.mem_map.mp (hkeys _ (List.mem_map.mpr hold))

omit [DecidableEq Value] in
theorem traced_drafted {new : VersionRow Value} {db' : Database Value} (h : Traced ledger)
    (hfresh : ∀ row ∈ ledger.db.versions, row.key ≠ new.key)
    (hstatus : new.lifecycleStatus = .draft)
    (hversions : db'.versions = ledger.db.versions ++ [new])
    (hreviews : db'.reviews = ledger.db.reviews) :
    Traced { db := db', history := ledger.history } := by
  refine ⟨known_of_keys h.known (fun _ hkey => by simp [hversions, List.mem_map.mp hkey]) fun _ hr => .inl (hreviews ▸ hr), ?_⟩
  intro row hrow
  rw [latestReview_congr hreviews]
  rcases List.mem_append.mp (hversions ▸ hrow) with hold | hnew
  · exact h.rows row hold
  · obtain rfl := List.mem_singleton.mp hnew
    have hnone : ledger.db.latestReview row.key = none := latestReview_eq_none fun review hr => by
      obtain ⟨owner, howner, hkey⟩ := h.known review hr
      exact hkey ▸ hfresh owner howner
    exact ⟨by simp [hnone], by simp [hstatus], by simp [hstatus]⟩

omit [DecidableEq Value] in
theorem traced_submitted {old new : VersionRow Value} (h : Traced ledger)
    (hkey : new.key = old.key) (hstatus : new.lifecycleStatus = .inReview)
    (hold : old ∈ ledger.db.versions) (hfrom : old.lifecycleStatus = .draft) :
    Traced {
      db := ledger.db.rewrite old new
      history := [.submitted old.key] ++ ledger.history } := by
  refine ⟨known_of_keys h.known (keys_subset_rewrite hkey) fun _ hr => .inl hr, ?_⟩
  refine rows_rewrite hkey (fun row hrow hne => ?_) ?_
  · refine (h.rows row hrow).events_other fun event hevent => ?_
    obtain rfl := List.mem_singleton.mp hevent
    exact fun heq => hne (heq.symm.trans hkey.symm)
  · refine ⟨by simp [hstatus], fun _ => by simp [hkey], fun _ review hlatest hdecision => ?_⟩
    -- The version was a draft, so its latest review requested changes.
    rw [hkey] at hlatest
    simp [(h.rows old hold).draft hfrom review hlatest] at hdecision

omit [DecidableEq Value] in
/-- A review that keeps the order keeps the trace. -/
theorem traced_reviewed {old new : VersionRow Value} {review : ReviewRow} (h : Traced ledger)
    (hreview : review.version = old.key) (hkey : new.key = old.key)
    (hstatus : new.lifecycleStatus =
      if review.decision = .changesRequested then .draft else .inReview)
    (hold : old ∈ ledger.db.versions) (hfrom : old.lifecycleStatus = .inReview)
    (horder : review.decision = .changesRequested →
      ∀ earlier ∈ ledger.db.reviews, earlier.version = old.key →
        earlier.decision = .recommendedForApproval →
        reviewRank earlier < reviewRank review ∨
          ∃ other ∈ ledger.db.reviews, other.version = old.key ∧
            other.decision = .changesRequested ∧ reviewRank earlier < reviewRank other) :
    Traced {
      db := (ledger.db.addReview review).rewrite old new
      history := [.reviewed old.key review.decision] ++ ledger.history } := by
  refine ⟨known_of_keys h.known (keys_subset_rewrite hkey) fun other hother => ?_, ?_⟩
  · rcases List.mem_append.mp hother with hstored | hnew
    · exact .inl hstored
    · exact .inr ⟨old, hold, by rw [List.mem_singleton.mp hnew, hreview]⟩
  refine rows_rewrite hkey (fun row hrow hne => ?_) ?_
  · have hother : review.version ≠ row.key := fun heq =>
      hne (heq.symm.trans (hreview.trans hkey.symm))
    rw [latestReview_rewrite, latestReview_addReview_other hother]
    refine (h.rows row hrow).events_other fun event hevent => ?_
    obtain rfl := List.mem_singleton.mp hevent
    exact fun heq => hne (heq.symm.trans hkey.symm)
  · cases hdecision : review.decision with
    | recommendedForApproval =>
        rw [if_neg (by simp [hdecision])] at hstatus
        have hsubmitted := (h.rows old hold).submitted hfrom
        refine ⟨by simp [hstatus], fun _ => ?_, fun _ _ _ _ => ?_⟩
        · rw [hkey]
          exact List.mem_cons_of_mem _ hsubmitted
        · rw [hkey]
          exact endorses_recommendation hsubmitted
    | changesRequested =>
        rw [if_pos hdecision] at hstatus
        refine ⟨fun _ latest hlatest => ?_, by simp [hstatus], by simp [hstatus]⟩
        obtain ⟨hmem, hversion, hgreatest⟩ := latestReview_spec hlatest
        rw [hkey] at hversion hgreatest
        by_contra hne
        have hrecommended : latest.decision = .recommendedForApproval := by
          cases hd : latest.decision with
          | changesRequested => exact absurd hd hne
          | recommendedForApproval => rfl
        -- The latest review would be a stored recommendation that is outranked.
        have hstored : latest ∈ ledger.db.reviews := by
          rcases List.mem_append.mp hmem with hstored | hnew
          · exact hstored
          · rw [List.mem_singleton.mp hnew, hdecision] at hrecommended
            cases hrecommended
        rcases horder hdecision latest hstored hversion hrecommended with hlt | ⟨other, ho, hof, -, hlt⟩
        · exact absurd (hgreatest review (by simp [rewrite, addReview]) hreview) (not_le.mpr hlt)
        · exact absurd (hgreatest other (by simp [rewrite, addReview, ho]) hof) (not_le.mpr hlt)

omit [DecidableEq Value] in
/-- A version that leaves review for good keeps the trace. -/
theorem traced_rewrite {old new : VersionRow Value} {db' : Database Value} (h : Traced ledger)
    (hkey : new.key = old.key)
    (hstatus : new.lifecycleStatus ≠ .draft ∧ new.lifecycleStatus ≠ .inReview)
    (hversions : db'.versions = (ledger.db.rewrite old new).versions)
    (hreviews : db'.reviews = ledger.db.reviews) :
    Traced { db := db', history := ledger.history } := by
  refine ⟨known_of_keys h.known ?_ fun _ hr => .inl (hreviews ▸ hr), ?_⟩
  · rw [hversions]
    exact keys_subset_rewrite hkey
  · intro row hrow
    rw [latestReview_congr hreviews]
    exact rows_rewrite hkey (fun row hrow _ => h.rows row hrow) (rowTraced_of_status hstatus)
      row (hversions ▸ hrow)

/-! ## Runs -/

variable {command : Command Value}

/-- A step is refused, or is one committed transaction. -/
theorem step_cases (ledger : Ledger Value) (command : Command Value) :
    ledger.step host command = ledger ∨
      ∃ db', Effect host ledger.db command db' ∧
        ledger.step host command = { db := db', history := command.events ++ ledger.history } := by
  rcases settle_cases ledger (do
    let out ← transaction host ledger.db command
    pure { db := out.db, history := command.events ++ ledger.history }) with hsame | hok
  · exact .inl hsame
  · simp only [then_ok, return_ok] at hok
    obtain ⟨out, hout, hledger⟩ := hok
    exact .inr ⟨out.db, transaction_effect hout, hledger.symm⟩

omit [DecidableEq Value] in
theorem traced_opening (tenants : List Uuid) (principals : List (Uuid × Uuid)) :
    Traced (Ledger.opening tenants principals : Ledger Value) :=
  ⟨by simp [Ledger.opening], by simp [Ledger.opening]⟩

/-- **Step lemma.**  A step that keeps the order keeps the ledger traced. -/
theorem traced_step (h : Traced ledger) (horder : InOrder host ledger command) :
    Traced (ledger.step host command) := by
  rcases step_cases ledger command with hsame | ⟨db', heffect, hstep⟩
  · rwa [hsame]
  rw [hstep]
  cases heffect with
  | drafted new hfresh hstatus hversions hreviews =>
      exact traced_drafted h hfresh hstatus hversions hreviews
  | submitted old new hversion hkey hstatus hold hfrom =>
      simp only [Command.events, hversion, Option.toList_some, List.map_cons, List.map_nil]
      exact traced_submitted h hkey hstatus hold hfrom
  | reviewed record updated old new review hread hmachine hrecord hversion hdecision hid hnow
      hreview hkey hstatus hold hfrom =>
      simp only [Command.events, hversion, hdecision]
      refine traced_reviewed h hreview hkey hstatus hold hfrom fun hchanges => ?_
      have hafter := horder record updated review.id review.createdAt hread hmachine
        (hchanges ▸ hdecision) hid hnow
      rwa [hrecord] at hafter
  | approved old new review hkey hstatus hold hfrom hlatest hdecision hversions hreviews =>
      exact traced_rewrite h hkey (by simp [hstatus]) hversions hreviews
  | superseded current superseded old new review hcurrentKey hsuperseded hkey hstatus hold hfrom
      hlatest hdecision hversions hreviews =>
      have hfirst : Traced {
          db := ledger.db.rewrite current superseded, history := ledger.history } :=
        traced_rewrite h hcurrentKey (by simp [hsuperseded]) rfl rfl
      have hsecond := traced_rewrite hfirst hkey (by simp [hstatus]) hversions hreviews
      exact hsecond
  | archived old new hkey hstatus =>
      exact traced_rewrite h hkey (by simp [hstatus]) rfl rfl

omit [DecidableEq Value] in
/-- Rewriting a version to another status than `approved` approves nothing. -/
theorem approved_rewrite {old new row : VersionRow Value} (hkey : new.key = old.key)
    (hnew : new.lifecycleStatus ≠ .approved) (hrow : row ∈ (db.rewrite old new).versions)
    (hstatus : row.lifecycleStatus = .approved) : row ∈ db.versions := by
  rcases mem_rewrite hkey hrow with rfl | ⟨hmem, -⟩
  · exact absurd hstatus hnew
  · exact hmem

theorem approvesEndorsed_step (h : Traced ledger) : ApprovesEndorsed host ledger command := by
  intro row hrow hstatus
  have hbefore : row ∈ ledger.db.versions →
      (∃ old ∈ ledger.db.versions, old.key = row.key ∧ old.lifecycleStatus = .approved) ∨
        Endorses ledger.history row.key := fun hmem => .inl ⟨row, hmem, rfl, hstatus⟩
  rcases step_cases ledger command with hsame | ⟨db', heffect, hstep⟩
  · exact hbefore (hsame ▸ hrow)
  rw [hstep] at hrow
  cases heffect with
  | drafted new hfresh hdraft hversions hreviews =>
      rcases List.mem_append.mp (hversions ▸ hrow) with hmem | hnew
      · exact hbefore hmem
      · rw [List.mem_singleton.mp hnew, hdraft] at hstatus
        cases hstatus
  | submitted old new hversion hkey hnew hold hfrom =>
      exact hbefore (approved_rewrite hkey (by simp [hnew]) hrow hstatus)
  | reviewed record updated old new review hread hmachine hrecord hversion hdecision hid hnow
      hreview hkey hnew hold hfrom =>
      have hne : new.lifecycleStatus ≠ .approved := by
        rw [hnew]
        split <;> simp
      have hkept : row ∈ (ledger.db.addReview review).versions :=
        approved_rewrite hkey hne hrow hstatus
      exact hbefore hkept
  | approved old new review hkey hnew hold hfrom hlatest hdecision hversions hreviews =>
      rcases mem_rewrite hkey (hversions ▸ hrow) with rfl | ⟨hmem, -⟩
      · exact .inr (hkey ▸ (h.rows old hold).endorsed hfrom review hlatest hdecision)
      · exact hbefore hmem
  | superseded current superseded old new review hcurrentKey hsuperseded hkey hnew hold hfrom
      hlatest hdecision hversions hreviews =>
      rcases mem_rewrite hkey (hversions ▸ hrow) with rfl | ⟨hmem, -⟩
      · exact .inr (hkey ▸ (h.rows old hold).endorsed hfrom review hlatest hdecision)
      · exact hbefore (approved_rewrite hcurrentKey (by simp [hsuperseded]) hmem hstatus)
  | archived old new hkey hnew =>
      exact hbefore (approved_rewrite hkey (by simp [hnew]) hrow hstatus)

/-- **Every approval has its review.**  In every run in which the reviews that
request changes keep the order, a version only enters `approved` when its
newest submission was recommended and not sent back since. -/
theorem approvals_endorsed (host : SqlHost Value) (tenants : List Uuid)
    (principals : List (Uuid × Uuid)) (commands : List (Command Value))
    (horder : EachStep (Ledger.step host) (InOrder host) (.opening tenants principals) commands) :
    EachStep (Ledger.step host) (ApprovesEndorsed host) (.opening tenants principals) commands :=
  eachStep_of_invariant (fun _ _ h hgood => traced_step h hgood)
    (fun _ _ h _ => approvesEndorsed_step h) (traced_opening tenants principals) horder

/-! ## A recommendation that outlives its round -/

def sampleSqlHost : SqlHost Unit where
  toHost := emptyObjectHost
  charLength text := text.length
  hasControl _ := false
  octetLength _ := 2

/-- The value of `sampleUuid d`. -/
def sampleId (d : Nat) : Uuid := 0x40008000000000000000 + d

def sampleLedger : Ledger Unit :=
  .opening [sampleId 1] [(sampleId 4, sampleId 1), (sampleId 5, sampleId 1), (sampleId 7, sampleId 1)]

def sampleDraft : Command Unit :=
  .createDraft (samplePrincipal 4 .procedureAuthor) {
    procedureId := sampleUuid 3, workflowVersionId := sampleUuid 2, tenantId := sampleUuid 1
    procedureKey := js "licencia", generationSource := "ai", evidenceBundleId := none
    workflowDefinition := (), title := js "Licencia", jurisdiction := js "Guatemala"
    now := some 0 }

def sampleSubmission (now : Time) : Command Unit :=
  .submitForReview (samplePrincipal 4 .procedureAuthor) (sampleUuid 2) (some now)

def sampleReview (id : Nat) (decision : String) (now : Time) : Command Unit :=
  .recordReview (samplePrincipal 5 .procedureReviewer) (sampleUuid 2) {
    reviewId := sampleUuid id, decision, notes := js "notas", now := some now }

def sampleApproval (now : Time) : Command Unit :=
  .approve (samplePrincipal 7 .procedureApprover) (sampleUuid 2) {
    approvalId := sampleUuid 8, notes := js "notas", now := some now }

/-- Recommended and sent back within one millisecond, the review that sends it
back with the greater identifier, then submitted, recommended and approved. -/
theorem approvals_endorsed_sample :
    EachStep (Ledger.step sampleSqlHost) (ApprovesEndorsed sampleSqlHost) sampleLedger
      [sampleDraft, sampleSubmission 1, sampleReview 6 "recommended_for_approval" 2,
        sampleReview 9 "changes_requested" 2, sampleSubmission 3,
        sampleReview 5 "recommended_for_approval" 4, sampleApproval 5] := by
  refine approvals_endorsed sampleSqlHost _ _ _
    ⟨trivial, trivial, ?_, ?_, trivial, ?_, trivial, trivial⟩
  · intro _ _ _ _ _ _ hdecision
    cases hdecision
  · intro _ _ reviewId createdAt _ _ _ hid hnow earlier hearlier _ _
    have hstored : reviewRank earlier ∈ [toLex ((2 : Time), sampleId 6)] :=
      List.mem_map_of_mem hearlier
    obtain rfl : sampleId 9 = reviewId := Option.some.inj hid
    obtain rfl : (2 : Time) = createdAt := Option.some.inj hnow
    rw [List.mem_singleton.mp hstored]
    exact .inl (by decide)
  · intro _ _ _ _ _ _ hdecision
    cases hdecision

/-- Recommended and sent back within one millisecond, the review that sends it
back with the smaller identifier, then submitted again. -/
def resubmitted : List (Command Unit) :=
  [sampleDraft, sampleSubmission 1, sampleReview 9 "recommended_for_approval" 2,
    sampleReview 6 "changes_requested" 2, sampleSubmission 3]

/-- The second submission is approved although nobody reviewed it. -/
theorem approval_without_review :
    ¬ EachStep (Ledger.step sampleSqlHost) (ApprovesEndorsed sampleSqlHost) sampleLedger
      (resubmitted ++ [sampleApproval 4]) := by
  intro hlaw
  have hlast := (eachStep_append.mp hlaw).2.1
  generalize hledger : run (Ledger.step sampleSqlHost) sampleLedger resubmitted = ledger at hlast
  have hbefore : ledger.db.versions.map (fun row => (row.key, row.lifecycleStatus)) =
      [((sampleId 1, sampleId 2), .inReview)] := by
    rw [← hledger]
    rfl
  have hhistory : ledger.history.head? = some (.submitted (sampleId 1, sampleId 2)) := by
    rw [← hledger]
    rfl
  have hafter : (ledger.step sampleSqlHost (sampleApproval 4)).db.versions.map
      (fun row => (row.key, row.lifecycleStatus)) =
      [((sampleId 1, sampleId 2), .approved)] := by
    rw [← hledger]
    rfl
  obtain ⟨old, hold, hinReview⟩ := List.map_eq_singleton_iff.mp hbefore
  obtain ⟨row, hrow, happroved⟩ := List.map_eq_singleton_iff.mp hafter
  obtain ⟨history, hhead⟩ := List.head?_eq_some_iff.mp hhistory
  rw [Prod.mk.injEq] at hinReview happroved
  rcases hlast row (by simp [hrow]) happroved.2 with ⟨before, hmem, -, hstatus⟩ | hendorsed
  · rw [hold, List.mem_singleton] at hmem
    rw [hmem, hinReview.2] at hstatus
    cases hstatus
  · rw [hhead, happroved.1] at hendorsed
    exact not_endorses_submitted _ _ hendorsed

end Workflow
