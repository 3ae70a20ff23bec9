import MuniRag.Workflow.OneApproved
import MuniRag.Workflow.Succession

/-!
# The supersession graph of the repositories

Both repositories move the graph of `Graph.Move`.  On the tables every move is
one of these, because a new version has a key of its own.  In memory a draft
takes the place of whatever is stored under its key, so there the law holds
exactly as long as no draft takes the place of a version that another one points
to.
-/

namespace Workflow

open Results Runs Graph

variable {Value : Type}

def VersionRecord.node (record : VersionRecord Value) : Node where
  procedureId := record.procedureId
  status := record.lifecycleStatus
  approved := record.approval.isSome
  successor := record.supersededByWorkflowVersionId

/-! ## In memory -/

namespace InMemory

variable {host : Host Value} {repository after : InMemory Value} {call : Call Value}

def graph (repository : InMemory Value) : Graph :=
  fun key => (repository.get key).map (·.node)

/-- A draft has no approval. -/
theorem fresh_approval {principal : Actor} {input : DraftInput Value} {record : StoredVersion Value}
    (h : (repository.createDraft host principal input).2 = .ok record) :
    record.node.approved = false := by
  revert h
  rw [createDraft]
  split
  · next drafted hmachine =>
      intro h
      obtain rfl := Except.ok.inj h
      obtain ⟨initial, hinitial⟩ := draft_ok hmachine
      obtain ⟨_, _, _, _, happroval, _⟩ := initializeWorkflowVersion_ok host hinitial
      simp [VersionRecord.node, happroval]
  · intro h
    cases h

theorem graph_save (record : StoredVersion Value) :
    (repository.save record).graph = repository.graph.put record.key record.node := by
  funext key
  by_cases hkey : key = record.key
  · subst hkey
    rw [put_self, graph, get_save, if_pos rfl]
    rfl
  · rw [put_other hkey, graph, get_save, if_neg hkey]
    rfl

theorem graph_get {key : VersionKey} {record : StoredVersion Value}
    (h : repository.get key = some record) : repository.graph key = some record.node := by
  rw [graph, h]
  rfl

/-- **The condition.**  A draft that is accepted does not take the key of a
version that another points to. -/
def DraftsApart (host : Host Value) (repository : InMemory Value) : Call Value → Prop
  | .createDraft principal input =>
      ∀ record, (repository.createDraft host principal input).2 = .ok record →
        ∀ v, ¬ repository.graph.Points v record.key
  | _ => True

/-- A record written back under its key, by what changed of it. -/
theorem move_save {key : VersionKey} {stored : StoredVersion Value}
    {updated : VersionRecord Value} {procedureKey : JsString} (hkept : Kept repository)
    (hget : repository.get key = some stored) (hsame : SameVersion stored.toVersionRecord updated)
    (hsuccessor : updated.supersededByWorkflowVersionId = stored.supersededByWorkflowVersionId)
    (happroved : stored.approval ≠ none → updated.approval ≠ none)
    (hstatus : updated.lifecycleStatus = .archived ∨ stored.lifecycleStatus = .draft ∨
      stored.lifecycleStatus = .inReview) :
    repository.graph.Move (repository.save { updated with procedureKey }).graph := by
  have hkey : updated.key = key := hsame.1.trans (hkept key stored hget).1
  rw [graph_save]
  have hput : repository.graph.Move (repository.graph.put key updated.node) := by
    refine .change key stored.node updated.node (graph_get hget) hsame.2 hsuccessor ?_ hstatus
    intro hold
    have hsome : stored.approval ≠ none := by
      intro hnone
      simp [VersionRecord.node, hnone] at hold
    exact Option.isSome_iff_ne_none.mpr (happroved hsome)
  rw [← hkey] at hput
  exact hput

/-- A supersession, written back record by record. -/
theorem move_supersession {key replacementKey : VersionKey} {current replacement : StoredVersion Value}
    {principal : Actor} {input : SupersessionApprovalInput} {result : SupersessionResult Value}
    {first second : JsString} (hkept : Kept repository) (hcurrent : repository.get key = some current)
    (hreplacement : repository.get replacementKey = some replacement)
    (htenant : replacementKey.1 = current.tenantId)
    (hmachine : approveReplacementAndSupersede host current.toVersionRecord
      replacement.toVersionRecord principal input = .ok result) :
    repository.graph.Move ((repository.save
      { result.replacement with procedureKey := first }).save
        { result.superseded with procedureKey := second }).graph := by
  obtain ⟨hprocedure, hid, happrove, hsupersede⟩ := approveReplacementAndSupersede_ok host hmachine
  obtain ⟨hfrom, successor, _, hsuccessor, hsuperseded⟩ := supersedeWorkflowVersion_ok hsupersede
  obtain ⟨hreview, _, _, _, _, _, _, _, _, _, happroved⟩ := approveWorkflowVersion_ok host happrove
  obtain ⟨hcurrentKey, _⟩ := hkept key current hcurrent
  obtain ⟨hreplacementKey, hgoverned⟩ := hkept replacementKey replacement hreplacement
  obtain rfl : replacement.workflowVersionId = successor :=
    Except.ok.inj (hid.symm.trans hsuccessor)
  have hne : replacementKey ≠ key := by
    rintro rfl
    obtain rfl := Option.some.inj (hcurrent.symm.trans hreplacement)
    rw [hreview] at hfrom
    cases hfrom
  have hfirstKey : result.replacement.key = replacementKey := by
    rw [happroved]
    exact hreplacementKey
  have hsecondKey : result.superseded.key = key := by
    rw [hsuperseded]
    exact hcurrentKey
  have hsuccessorId : replacement.workflowVersionId = replacementKey.2 :=
    congrArg Prod.snd hreplacementKey
  have hfresh : replacement.node.approved = false := by
    have hnone : replacement.approval = none := (hgoverned.inReview hreview).2.2
    simp [VersionRecord.node, hnone]
  rw [graph_save, graph_save]
  have hmove : repository.graph.Move
      ((repository.graph.put replacementKey result.replacement.node).put key
        result.superseded.node) := by
    refine .supersede key replacementKey current.node result.superseded.node replacement.node
      result.replacement.node (graph_get hcurrent) (graph_get hreplacement) ?_ hne hfrom hreview
      hfresh hprocedure.symm ?_ ?_
    · exact htenant.trans (congrArg Prod.fst hcurrentKey)
    · rw [hsuperseded, ← hsuccessorId]
      rfl
    · rw [happroved]
      rfl
  rw [← hfirstKey, ← hsecondKey] at hmove
  exact hmove

/-- Every call but `createDraft`. -/
theorem move_change (hkept : Kept repository) (hchange : Change host repository call after)
    (hdraft : ∀ principal input, call ≠ .createDraft principal input) :
    repository.graph.Move after.graph := by
  cases hchange with
  | refused call procedureIds => exact .stay
  | @drafted principal input record procedureIds procedureId hmachine =>
      exact absurd rfl (hdraft principal input)
  | @submitted key principal now stored updated hget hmachine =>
      obtain ⟨hfrom, _, _, rfl⟩ := submitWorkflowForReview_ok hmachine
      refine move_save hkept hget ⟨rfl, rfl⟩ rfl (fun happroval => ?_) (.inr (.inl hfrom))
      exact absurd ((hkept key stored hget).2.draft hfrom).2.2 happroval
  | @reviewed key principal input stored updated hget hmachine =>
      obtain ⟨hfrom, review, _, _, _, _, _, hupdated⟩ := recordWorkflowReview_ok host hmachine
      have hop : (Operation.review principal input).apply host stored.toVersionRecord =
        .ok updated := hmachine
      refine move_save hkept hget (sameVersion_apply hop) ?_ (fun happroval => ?_)
        (.inr (.inr hfrom))
      · rw [hupdated]
        cases hdecision : review.decision <;> simp [VersionRecord.reviewed, hdecision]
      · exact absurd ((hkept key stored hget).2.inReview hfrom).2.2 happroval
  | @approved key principal input stored updated hget hmachine =>
      obtain ⟨hfrom, _, _, _, _, _, _, _, _, _, rfl⟩ := approveWorkflowVersion_ok host hmachine
      exact move_save hkept hget ⟨rfl, rfl⟩ rfl (fun _ => by simp) (.inr (.inr hfrom))
  | @superseded key principal input stored replacement result hget hreplacement hmachine =>
      obtain ⟨id, hstored⟩ := get_lookup hreplacement
      exact move_supersession hkept hget hstored rfl hmachine
  | @archived key principal now stored updated hget hmachine =>
      obtain ⟨_, _, _, rfl⟩ := archiveWorkflowVersion_ok hmachine
      exact move_save hkept hget ⟨rfl, rfl⟩ rfl (fun happroval => happroval) (.inl rfl)

theorem move_createDraft {principal : Actor} {input : DraftInput Value}
    (hgood : DraftsApart host repository (.createDraft principal input)) :
    repository.graph.Move (repository.createDraft host principal input).1.graph := by
  rw [DraftsApart] at hgood
  revert hgood
  rw [createDraft]
  split
  · next record hmachine =>
      intro hgood
      obtain ⟨initial, hinitial⟩ := draft_ok hmachine
      obtain ⟨_, _, _, _, _, hsuccessor⟩ := initializeWorkflowVersion_ok host hinitial
      rw [graph_save]
      exact .draft record.key record.node hsuccessor (hgood record rfl)
  · exact fun _ => .stay

theorem move_step (hkept : Kept repository) (hgood : DraftsApart host repository call) :
    repository.graph.Move (repository.step host call).graph := by
  cases call with
  | createDraft principal input => exact move_createDraft hgood
  | submitForReview | recordReview | approve | supersede | archive =>
      exact move_change hkept (step_change host repository _) fun _ _ => nofun

/-- A draft in the place of a version that another points to is no successor. -/
theorem not_lawful_step (hsettled : repository.graph.Settled)
    (hbad : ¬ DraftsApart host repository call) : ¬ (repository.step host call).graph.Lawful := by
  intro hlaw
  cases call with
  | createDraft principal input =>
      apply hbad
      intro record haccepted v hpoints
      have hstep : (repository.createDraft host principal input).1.graph =
          repository.graph.put record.key record.node := by
        revert haccepted
        rw [createDraft]
        split
        · next drafted hmachine =>
            intro haccepted
            obtain rfl := Except.ok.inj haccepted
            rw [graph_save]
            rfl
        · intro haccepted
          cases haccepted
      obtain ⟨node, hnode⟩ := points_stored hpoints
      obtain ⟨hne, _⟩ := hsettled.lawful.target v record.key node hnode hpoints
      have hafter : (repository.graph.put record.key record.node).Points v record.key := by
        rw [points_put, if_neg hne.symm]
        exact hpoints
      rw [step, hstep] at hlaw
      obtain ⟨_, found, hfound, _, happroved⟩ :=
        hlaw.target v record.key node (by rw [put_other hne.symm, hnode]) hafter
      rw [put_self] at hfound
      obtain rfl := Option.some.inj hfound
      rw [fresh_approval haccepted] at happroved
      cases happroved
  | submitForReview | recordReview | approve | supersede | archive => exact hbad trivial

/-- A supersession that throws leaves the repository as it was. -/
def SupersedesWhole (host : Host Value) (repository : InMemory Value) : Call Value → Prop
  | .supersede key principal input =>
      ∀ record error, repository.get key = some record →
        repository.supersede host record principal input = .error error →
        repository.step host (.supersede key principal input) = repository
  | _ => True

theorem supersedesWhole (host : Host Value) (repository : InMemory Value) (call : Call Value) :
    SupersedesWhole host repository call := by
  cases call with
  | supersede key principal input =>
      intro record error hget hthrow
      rw [step, withStored, hget]
      simp only [hthrow, settle_error]
  | createDraft | submitForReview | recordReview | approve | archive => trivial

end InMemory

/-! ## On the tables -/

def VersionRow.node (row : VersionRow Value) (approved : Bool) : Node where
  procedureId := row.procedureId
  status := row.lifecycleStatus
  approved := approved
  successor := row.supersededByWorkflowVersionId

namespace Database

open InMemory (SameVersion sameVersion_apply)

variable {db db' : Database Value} {key : VersionKey} {row old new : VersionRow Value}

def graph (db : Database Value) : Graph :=
  fun key => (db.version? key).map (·.node (db.approvalOf key).isSome)

/-- The graph only depends on two of the tables. -/
theorem graph_congr (hversions : db'.versions = db.versions)
    (happrovals : db'.approvals = db.approvals) : db'.graph = db.graph := by
  funext key
  simp only [graph, version?, approvalOf, hversions, happrovals]

theorem graph_get {stored : StoredVersion Value} (h : get db key = some stored) :
    ∃ row, db.version? key = some row ∧ stored.key = key ∧ row.procedureId = stored.procedureId ∧
      db.graph key = some stored.node := by
  obtain ⟨row, procedureKey, hrow, rfl⟩ := get_some h
  obtain ⟨_, hkey⟩ := version?_some hrow
  refine ⟨row, hrow, hkey, rfl, ?_⟩
  subst hkey
  simp [graph, hrow, VersionRow.node, VersionRecord.node, mapRow]

theorem graph_rewrite (hold : db.version? old.key = some old) (hkey : new.key = old.key) :
    (db.rewrite old new).graph =
      db.graph.put old.key (new.node (db.approvalOf old.key).isSome) := by
  funext key
  have hfind : (db.rewrite old new).version? key =
      if key = old.key then (db.version? old.key).map fun _ => new else db.version? key :=
    Table.find?_replace hkey
  by_cases hsame : key = old.key
  · subst hsame
    rw [put_self, graph, hfind, if_pos rfl, hold]
    rfl
  · rw [put_other hsame, graph, hfind, if_neg hsame]
    rfl

theorem graph_addApproval {approval : ApprovalRow} (hversion : db.version? approval.version = some row)
    (hfresh : ∀ other ∈ db.approvals, other.version ≠ approval.version) :
    ({ db with approvals := db.approvals ++ [approval] } : Database Value).graph =
      db.graph.put approval.version (row.node true) := by
  have hnone : db.approvalOf approval.version = none := by
    simpa [approvalOf] using hfresh
  funext key
  by_cases hkey : key = approval.version
  · subst hkey
    rw [put_self]
    rw [approvalOf] at hnone
    rw [version?] at hversion
    simp [graph, version?, hversion, approvalOf, List.find?_append, hnone]
  · rw [put_other hkey]
    have hother : ¬ approval.version = key := fun h => hkey h.symm
    simp [graph, version?, approvalOf, List.find?_append, hother]

variable [DecidableEq Value] {host : SqlHost Value} {out : Outcome Value}
variable {stored : StoredVersion Value} {updated : VersionRecord Value}

theorem graph_update (hrow : db.version? updated.key = some row)
    (h : updateRecord host db updated = .ok out) :
    out.db.graph = db.graph.put updated.key {
      procedureId := row.procedureId, status := updated.lifecycleStatus
      approved := (db.approvalOf updated.key).isSome
      successor := updated.supersededByWorkflowVersionId } := by
  obtain ⟨old, hold, hdb⟩ := updateRecord_ok h
  obtain rfl := Option.some.inj (hrow.symm.trans hold)
  obtain ⟨_, hkey⟩ := version?_some hrow
  rw [hdb, graph_rewrite (hkey ▸ hrow) (row.assign_key updated), hkey]
  rfl

/-- A record written back in one statement, by what changed of it. -/
theorem move_update (hget : get db key = some stored) (hsame : SameVersion stored.toVersionRecord updated)
    (hsuccessor : updated.supersededByWorkflowVersionId = stored.supersededByWorkflowVersionId)
    (hstatus : updated.lifecycleStatus = .archived ∨ stored.lifecycleStatus = .draft ∨
      stored.lifecycleStatus = .inReview)
    (hversions : db'.versions = db.versions) (happrovals : db'.approvals = db.approvals)
    (h : updateRecord host db' updated = .ok out) : db.graph.Move out.db.graph := by
  obtain ⟨row, hrow, hkey, hprocedure, hnode⟩ := graph_get hget
  have hupdated : updated.key = key := hsame.1.trans hkey
  have hrow' : db'.version? updated.key = some row := by
    rw [hupdated, version?, hversions]
    exact hrow
  have happroval : stored.node.approved = (db'.approvalOf updated.key).isSome := by
    rw [hupdated, approvalOf, happrovals]
    have hread := hnode
    rw [graph, hrow] at hread
    rw [← Option.some.inj hread]
    rfl
  rw [graph_update hrow' h, graph_congr hversions happrovals, hupdated]
  refine .change key stored.node _ hnode hprocedure hsuccessor (fun hold => ?_) hstatus
  rw [← hupdated, ← happroval]
  exact hold

/-- The approval of a version in review, with its two statements. -/
theorem graph_approve {approval : ApprovalRow} (hrow : db.version? updated.key = some row)
    (hinsert : insertApproval host db approval = .ok db')
    (hversion : approval.version = updated.key)
    (hupdate : updateRecord host db' updated = .ok out) :
    (∀ node, db.graph updated.key = some node → node.approved = false) ∧
      out.db.graph = db.graph.put updated.key {
        procedureId := row.procedureId, status := updated.lifecycleStatus, approved := true
        successor := updated.supersededByWorkflowVersionId } := by
  have hdb' := insertApproval_ok hinsert
  have hfresh : ∀ other ∈ db.approvals, other.version ≠ approval.version := by
    simp only [insertApproval, then_ok, raiseUnless_ok, return_ok] at hinsert
    obtain ⟨_, _, _, _, _, _, _, hfresh, _, _, _⟩ := hinsert
    exact hfresh
  have hnone : db.approvalOf updated.key = none := by
    rw [← hversion]
    simpa [approvalOf] using hfresh
  refine ⟨fun node hnode => ?_, ?_⟩
  · rw [graph, hrow, hnone] at hnode
    rw [← Option.some.inj hnode]
    rfl
  · have hsome : (db'.approvalOf updated.key).isSome = true := by
      rw [hdb', approvalOf, List.find?_append]
      rw [approvalOf] at hnone
      simp [hnone, hversion]
    have hrow' : db'.version? updated.key = some row := by
      rw [hdb']
      exact hrow
    rw [graph_update hrow' hupdate, hsome, hdb', graph_addApproval (hversion ▸ hrow) hfresh, hversion]
    exact Function.update_idem ..

end Database

/-! ## One transaction -/

section Transactions

open Database InMemory

variable [DecidableEq Value] {host : SqlHost Value}
variable {db : Database Value} {out : Outcome Value} {key : VersionKey}
variable {record : StoredVersion Value} {principal : Actor}

omit [DecidableEq Value] in
theorem move_insertVersion {new : VersionRow Value} {db₀ db' : Database Value}
    (hsettled : db.graph.Settled) (hsame : db₀.graph = db.graph)
    (h : insertVersion host db₀ new = .ok db') : db.graph.Move db'.graph := by
  obtain ⟨_, hfresh, rfl⟩ := insertVersion_ok h
  have hsuccessor : new.supersededByWorkflowVersionId = none := by
    simp only [insertVersion, enforceInsert, then_ok, raiseUnless_ok] at h
    obtain ⟨_, ⟨_, _, _, _, hnone, _⟩, _⟩ := h
    exact hnone
  have hmissing : db₀.version? new.key = none := by
    rw [version?, List.find?_eq_none]
    intro row hrow hkey
    exact hfresh row hrow (congrArg Prod.snd (of_decide_eq_true hkey))
  have hput : ({ db₀ with versions := db₀.versions ++ [new] } : Database Value).graph =
      db₀.graph.put new.key (new.node (db₀.approvalOf new.key).isSome) := by
    funext key
    by_cases hkey : key = new.key
    · subst hkey
      rw [put_self]
      rw [version?] at hmissing
      simp [Database.graph, version?, List.find?_append, hmissing]
      rfl
    · rw [put_other hkey]
      have hother : ¬ new.key = key := fun h => hkey h.symm
      simp [Database.graph, version?, List.find?_append, hother]
      rfl
  rw [hput, hsame]
  refine .draft new.key _ hsuccessor fun v hpoints => ?_
  -- What is pointed to is stored, and the key is not.
  obtain ⟨node, hnode⟩ := points_stored hpoints
  obtain ⟨_, found, hfound, _⟩ := hsettled.lawful.target v new.key node hnode hpoints
  rw [← hsame, Database.graph, hmissing] at hfound
  cases hfound

omit [DecidableEq Value] in
theorem insertProcedure_graph {new : ProcedureRow} {db' : Database Value}
    (h : insertProcedure host db new = .ok db') : db'.graph = db.graph := by
  simp only [insertProcedure, then_ok, raiseUnless_ok] at h
  obtain ⟨_, _, h⟩ := h
  split at h
  · obtain rfl := return_ok.mp h
    rfl
  · simp only [then_ok, raiseUnless_ok, return_ok] at h
    obtain ⟨_, _, _, _, rfl⟩ := h
    rfl

omit [DecidableEq Value] in
theorem move_draftTransaction {input : DraftInput Value} (hsettled : db.graph.Settled)
    (h : createDraft host db principal input = .ok out) : db.graph.Move out.db.graph := by
  simp only [createDraft, then_ok, return_ok] at h
  obtain ⟨_, _, _, _, _, _, withProcedure, hprocedure, _, _, _, _, db', hinsert, _, _, rfl⟩ := h
  exact move_insertVersion hsettled (insertProcedure_graph hprocedure) hinsert

theorem move_approveTransaction {input : ApprovalInput} (hget : get db key = some record)
    (h : approve host db record principal input = .ok out) : db.graph.Move out.db.graph := by
  simp only [approve, then_ok, throughStateMachine_ok] at h
  obtain ⟨updated, hmachine, _, _, _, _, _, _, db', hinsert, hupdate⟩ := h
  obtain ⟨hfrom, _, _, _, _, _, _, _, _, _, hupdated⟩ := approveWorkflowVersion_ok _ hmachine
  obtain ⟨row, hrow, hkey, hprocedure, hnode⟩ := Database.graph_get hget
  have hsame : updated.key = key := by
    rw [hupdated]
    exact hkey
  have hversion : updated.key = record.key := hsame.trans hkey.symm
  obtain ⟨_, hgraph⟩ := graph_approve (hsame ▸ hrow) hinsert hversion.symm hupdate
  rw [hgraph, hsame]
  refine .change key record.node _ hnode hprocedure ?_ (fun _ => rfl) (.inr (.inr hfrom))
  rw [hupdated]
  rfl

theorem move_supersedeTransaction {input : SupersessionApprovalInput}
    (hget : get db key = some record)
    (h : supersede host db record principal input = .ok out) : db.graph.Move out.db.graph := by
  simp only [supersede, then_ok, throughStateMachine_ok, orRefuse_ok, return_ok] at h
  obtain ⟨replacementId, _, replacement, hreplacement, result, hmachine, first, hfirst, _, _, _, _,
    _, _, db', hinsert, second, hsecond, rfl⟩ := h
  obtain ⟨hprocedure, hid, happrove, hsupersede⟩ := approveReplacementAndSupersede_ok _ hmachine
  obtain ⟨hfrom, successor, _, hsuccessor, hsuperseded⟩ := supersedeWorkflowVersion_ok hsupersede
  obtain ⟨hreview, _, _, _, _, _, _, _, _, _, happroved⟩ := approveWorkflowVersion_ok _ happrove
  obtain rfl : replacement.workflowVersionId = successor :=
    Except.ok.inj (hid.symm.trans hsuccessor)
  obtain ⟨current, hcurrent, hcurrentKey, hcurrentProcedure, hcurrentNode⟩ :=
    Database.graph_get hget
  obtain ⟨old, hold, holdKey, holdProcedure, holdNode⟩ := Database.graph_get hreplacement
  have hne : replacement.key ≠ key := by
    intro hsame
    rw [holdKey] at hsame
    rw [hsame, hget] at hreplacement
    obtain rfl := Option.some.inj hreplacement
    rw [hreview] at hfrom
    cases hfrom
  have hfirstKey : result.superseded.key = key := by
    rw [hsuperseded]
    exact hcurrentKey
  have hsecondKey : result.replacement.key = replacement.key := by
    rw [happroved]
    rfl
  have hmiddle := graph_update (hfirstKey ▸ hcurrent) hfirst
  -- The rewrite of the current version leaves the replacement where it was.
  have hkept : first.db.version? replacement.key = some old := by
    obtain ⟨found, hfound, hdb⟩ := updateRecord_ok hfirst
    have hfoundKey : found.key = key := (version?_some hfound).2.trans hfirstKey
    rw [hdb, version?, Database.rewrite]
    rw [Table.find?_replace (found.assign_key _), if_neg (by rwa [hfoundKey]), ← version?, holdKey]
    exact hold
  obtain ⟨hfresh, hgraph⟩ :=
    graph_approve (hsecondKey ▸ hkept) hinsert hsecondKey.symm hsecond
  rw [hsecondKey] at hgraph hfresh
  rw [hfirstKey] at hmiddle
  rw [hgraph, hmiddle]
  have hunapproved : replacement.node.approved = false := by
    refine hfresh replacement.node ?_
    rw [hmiddle, put_other hne, holdKey]
    exact holdNode
  have happroval : (db.approvalOf key).isSome = record.node.approved := by
    have hread := hcurrentNode
    rw [Database.graph, hcurrent] at hread
    exact congrArg Node.approved (Option.some.inj hread)
  have hswap : ∀ superseded new : Node, (db.graph.put key superseded).put replacement.key new =
      (db.graph.put replacement.key new).put key superseded :=
    fun _ _ => Function.update_comm hne.symm ..
  rw [hswap]
  refine .supersede key replacement.key record.node _ replacement.node _ hcurrentNode
    (holdKey ▸ holdNode) ?_ hne hfrom hreview hunapproved hprocedure.symm ?_ ?_
  · rw [← hcurrentKey, holdKey]
    rfl
  · rw [hsuperseded, happroval, hcurrentProcedure]
    rfl
  · rw [happroved, holdProcedure]
    rfl

omit [DecidableEq Value] in
theorem existing_get {id : JsString} (h : existing db principal id = .ok record) :
    ∃ key, get db key = some record := by
  simp only [existing, then_ok, orRefuse_ok] at h
  obtain ⟨tenantId, _, versionId, _, hget⟩ := h
  exact ⟨(tenantId, versionId), hget⟩

/-- A version in draft or in review has no approval to lose, so the tables need
no invariant for this but the one of the graph. -/
theorem move_transaction {command : Command Value} (hsettled : db.graph.Settled)
    (h : transaction host db command = .ok out) : db.graph.Move out.db.graph := by
  cases command with
  | createDraft principal input => exact move_draftTransaction hsettled h
  | submitForReview principal id now =>
      obtain ⟨record, hread, h⟩ := then_ok.mp h
      obtain ⟨key, hget⟩ := existing_get hread
      simp only [submitForReview, then_ok, throughStateMachine_ok] at h
      obtain ⟨updated, hmachine, hupdate⟩ := h
      obtain ⟨hfrom, _, _, hupdated⟩ := submitWorkflowForReview_ok hmachine
      refine move_update hget ?_ ?_ (.inr (.inl hfrom)) rfl rfl hupdate
      · rw [hupdated]
        exact ⟨rfl, rfl⟩
      · rw [hupdated]
  | recordReview principal id input =>
      obtain ⟨record, hread, h⟩ := then_ok.mp h
      obtain ⟨key, hget⟩ := existing_get hread
      simp only [recordReview, then_ok, throughStateMachine_ok] at h
      obtain ⟨updated, hmachine, _, _, _, _, _, _, _, _, db', hinsert, hupdate⟩ := h
      have hdb' := insertReview_ok hinsert
      have hop : (Operation.review principal input).apply host.toHost record.toVersionRecord =
        .ok updated := hmachine
      obtain ⟨hfrom, review, _, _, _, _, _, hupdated⟩ := recordWorkflowReview_ok _ hmachine
      refine move_update hget (sameVersion_apply hop) ?_ (.inr (.inr hfrom)) (by rw [hdb'])
        (by rw [hdb']) hupdate
      rw [hupdated]
      cases hdecision : review.decision <;> simp [VersionRecord.reviewed, hdecision]
  | approve principal id input =>
      obtain ⟨record, hread, h⟩ := then_ok.mp h
      obtain ⟨key, hget⟩ := existing_get hread
      exact move_approveTransaction hget h
  | supersede principal id input =>
      obtain ⟨record, hread, h⟩ := then_ok.mp h
      obtain ⟨key, hget⟩ := existing_get hread
      exact move_supersedeTransaction hget h
  | archive principal id now =>
      obtain ⟨record, hread, h⟩ := then_ok.mp h
      obtain ⟨key, hget⟩ := existing_get hread
      simp only [archive, then_ok, throughStateMachine_ok] at h
      obtain ⟨updated, hmachine, hupdate⟩ := h
      obtain ⟨_, _, _, hupdated⟩ := archiveWorkflowVersion_ok hmachine
      refine move_update hget ?_ ?_ (.inl ?_) rfl rfl hupdate
      · rw [hupdated]
        exact ⟨rfl, rfl⟩
      · rw [hupdated]
      · rw [hupdated]

variable (host) in
/-- What a transaction may do: draw an edge only to a version it approves, and
nothing at all when it throws. -/
def KeepsSuccession (ledger : Ledger Value) (command : Command Value) : Prop :=
  ledger.db.graph.DrawsApproved (ledger.step host command).db.graph ∧
    ∀ error, transaction host ledger.db command = .error error → ledger.step host command = ledger

theorem ledger_step (ledger : Ledger Value) (command : Command Value)
    (h : ledger.db.graph.Settled) :
    (ledger.step host command).db.graph.Settled ∧ KeepsSuccession host ledger command := by
  rw [KeepsSuccession, Ledger.step]
  cases hanswer : transaction host ledger.db command with
  | error error =>
      refine ⟨h, ?_, fun _ _ => rfl⟩
      exact fun v w hnot hvw => absurd hvw hnot
  | ok out =>
      obtain ⟨hsettled, hdraws⟩ := h.move (move_transaction h hanswer)
      exact ⟨hsettled, hdraws, nofun⟩

end Transactions

/-! ## The law of every run -/

namespace InMemory

/-- What a call may do. -/
def KeepsSuccession (host : Host Value) (repository : InMemory Value) (call : Call Value) : Prop :=
  repository.graph.DrawsApproved (repository.step host call).graph ∧
    SupersedesWhole host repository call

variable {host : Host Value} {repository : InMemory Value} {call : Call Value}

theorem settled_step (hkept : Kept repository) (h : repository.graph.Settled)
    (hgood : DraftsApart host repository call) :
    (repository.step host call).graph.Settled ∧ KeepsSuccession host repository call := by
  obtain ⟨hsettled, hdraws⟩ := h.move (move_step hkept hgood)
  exact ⟨hsettled, hdraws, supersedesWhole host repository call⟩

end InMemory

/-- **Supersession graphs.**  In memory the graph is lawful in every state of a
run, and every call of it lawful, exactly when no accepted draft takes the place
of a version that another points to.  On the tables this holds of every run. -/
theorem succession_iff [DecidableEq Value] (host : Host Value)
    (calls : List (InMemory.Call Value)) (sqlHost : SqlHost Value) (tenants : List Uuid)
    (principals : List (Uuid × Uuid)) (commands : List (Command Value)) :
    (Throughout (InMemory.step host) (·.graph.Lawful) InMemory.opening calls ∧
        EachStep (InMemory.step host) (InMemory.KeepsSuccession host) InMemory.opening calls ↔
      EachStep (InMemory.step host) (InMemory.DraftsApart host) InMemory.opening calls) ∧
    Throughout (Ledger.step sqlHost) (·.db.graph.Lawful) (Ledger.opening tenants principals)
        commands ∧
      EachStep (Ledger.step sqlHost) (KeepsSuccession sqlHost)
        (Ledger.opening tenants principals) commands := by
  have hempty : Settled fun _ => none := by
    have hnot : ∀ v w, ¬ Points (fun _ => none) v w := fun _ _ hvw => nomatch hvw.2
    refine ⟨⟨fun v w _ _ hvw => absurd hvw (hnot v w), fun u _ w huw => absurd huw (hnot u w), ?_⟩,
      fun v w _ _ hvw => absurd hvw (hnot v w), fun v w _ hvw => absurd hvw (hnot v w)⟩
    intro x hx
    obtain ⟨y, hxy, _⟩ := Relation.TransGen.head'_iff.mp hx
    exact hnot x y hxy
  refine ⟨?_, ?_⟩
  · have hopening : InMemory.Kept (InMemory.opening : InMemory Value) ∧
        (InMemory.opening : InMemory Value).graph.Settled :=
      ⟨fun _ _ hget => (nomatch hget), hempty⟩
    have hkeep : ∀ (repository : InMemory Value) call,
        repository.Kept ∧ repository.graph.Settled → repository.DraftsApart host call →
          (repository.step host call).Kept ∧ (repository.step host call).graph.Settled :=
      fun repository call h hgood =>
        ⟨InMemory.kept_change h.1 (InMemory.step_change host repository call),
          (InMemory.settled_step h.1 h.2 hgood).1⟩
    have hlawful := throughout_iff_eachStep (P := (·.graph.Lawful)) hkeep (fun _ h => h.2.lawful)
      (fun _ _ h hbad => InMemory.not_lawful_step h.2 hbad) hopening calls
    refine ⟨fun h => hlawful.mp h.1, fun hgood => ⟨hlawful.mpr hgood, ?_⟩⟩
    exact eachStep_of_invariant hkeep
      (fun _ _ h hgood => (InMemory.settled_step h.1 h.2 hgood).2) hopening hgood
  · have hkeep : ∀ (ledger : Ledger Value) command,
        ledger.db.graph.Settled → (ledger.step sqlHost command).db.graph.Settled :=
      fun ledger command h => (ledger_step ledger command h).1
    have hopening : (Ledger.opening tenants principals : Ledger Value).db.graph.Settled := hempty
    exact laws_of_invariant hkeep (fun _ h => h.lawful)
      (fun ledger command h => (ledger_step ledger command h).2) hopening commands

/-! ## A successor that is drafted again -/

/-- Version 9 supersedes version 2, and a new draft takes its place. -/
def sampleDraftedAgain : List (InMemory.Call Unit) :=
  let draft (d : Nat) : InMemory.Call Unit :=
    .createDraft (samplePrincipal 4 .procedureAuthor) {
      procedureId := sampleUuid 3, workflowVersionId := sampleUuid d, tenantId := sampleUuid 1
      procedureKey := js "licencia", generationSource := "ai", evidenceBundleId := none
      workflowDefinition := (), title := js "Licencia", jurisdiction := js "Guatemala"
      now := some 0 }
  let review (d : Nat) : List (InMemory.Call Unit) :=
    [draft d,
      .submitForReview (sampleId 1, sampleId d) (samplePrincipal 4 .procedureAuthor) (some 1),
      .recordReview (sampleId 1, sampleId d) (samplePrincipal 5 .procedureReviewer)
        { reviewId := sampleUuid 6, decision := "recommended_for_approval", notes := js "bien"
          now := some 2 }]
  review 2 ++
    [.approve (sampleId 1, sampleId 2) (samplePrincipal 7 .procedureApprover)
      { approvalId := sampleUuid 8, notes := js "bien", now := some 3 }] ++
    review 9 ++
    [.supersede (sampleId 1, sampleId 2) (samplePrincipal 7 .procedureApprover)
      { approvalId := sampleUuid 8, replacementWorkflowVersionId := sampleUuid 9
        notes := js "bien", now := some 4 },
      draft 9]

theorem successor_drafted_again :
    ¬ Throughout (InMemory.step emptyObjectHost) (·.graph.Lawful) InMemory.opening
      sampleDraftedAgain := by
  intro hlaw
  have hread : (((run (InMemory.step emptyObjectHost) InMemory.opening sampleDraftedAgain).graph
        (sampleId 1, sampleId 2)).any fun node => node.successor = some (sampleId 9)) = true ∧
      (((run (InMemory.step emptyObjectHost) InMemory.opening sampleDraftedAgain).graph
        (sampleId 1, sampleId 9)).any fun node => node.approved = false) = true := by
    decide +kernel
  obtain ⟨superseded, hsuperseded, hsuccessor⟩ := (Option.any_eq_true _ _).mp hread.1
  obtain ⟨drafted, hdrafted, hunapproved⟩ := (Option.any_eq_true _ _).mp hread.2
  have hpoints := of_decide_eq_true hsuccessor
  obtain ⟨_, next, hnext, _, happroved⟩ := (throughout_end hlaw).target (sampleId 1, sampleId 2)
    (sampleId 1, sampleId 9) superseded hsuperseded ⟨rfl, by rw [successor, hsuperseded]; exact hpoints⟩
  obtain rfl := Option.some.inj (hdrafted.symm.trans hnext)
  rw [of_decide_eq_true hunapproved] at happroved
  cases happroved

end Workflow
