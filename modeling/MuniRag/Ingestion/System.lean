import MuniRag.Ingestion.Acceptance
import MuniRag.Ingestion.Jobs
import MuniRag.Lib.Runs

/-!
# The ingestion runtime as one system

The calls of the acceptance repository and of the job service, and what the
catalogue does to documents, as the commands of one step function.  Any number
of inspectors, workers and clients is an arbitrary list of commands: each call
is one transaction, whose label carries its arguments, the server clock, the
rows that `SKIP LOCKED` passes over and the identifiers drawn.  `leaseNext`
commits its two halves together, so it is a run of two commands
(`leaseNext_run`) and a crash of a worker is a command that never comes.

`Effect` says once what a call that returns has read and written.
-/

namespace Ingestion

open Results Table

/-- The columns of a new document version; its extraction is queued. -/
structure VersionInput where
  id : Uuid
  tenantId : Uuid
  documentId : Uuid
  versionLabel : JsString
  contentSha256 : JsString
  deriving DecidableEq, Repr

def VersionInput.row (input : VersionInput) : VersionRow where
  id := input.id
  tenantId := input.tenantId
  documentId := input.documentId
  versionLabel := input.versionLabel
  contentSha256 := input.contentSha256
  extractionStatus := .queued
  extractionMethod := none
  extractedAt := none

/-- A document is registered, retitled, activated or archived. -/
def Tables.catalogue (tables : Tables) (document : DocumentRow) : Tables :=
  { tables with
    documents := tables.documents.filter (fun row => row.id ≠ document.id) ++ [document] }

def registerVersion (tables : Tables) (input : VersionInput) : Except Refusal Tables := do
  raiseUnless (∃ document ∈ tables.documents,
      document.id = input.documentId ∧ document.tenantId = input.tenantId)
    "document_versions_document_tenant_fk"
  raiseUnless (∀ version ∈ tables.versions, version.id ≠ input.id) "document_versions_pkey"
  raiseUnless (∀ version ∈ tables.versions, ¬ (version.tenantId = input.tenantId ∧
      version.contentSha256 = input.contentSha256))
    "document_versions_tenant_content_sha256_key"
  pure { tables with versions := tables.versions ++ [input.row] }

inductive Command
  | catalogue (document : DocumentRow)
  | registerVersion (input : VersionInput)
  | beginInspection (input : BeginInput) (objectId : Uuid) (now : Time)
  | completeInspection (inspection : Inspection) (outcome : InspectionOutcome) (scanId : Uuid)
      (now : Time)
  | enqueue (input : EnqueueInput) (jobId : Uuid) (now : Time)
  | exhaustExpired (tenantId : Uuid) (skipped : List Uuid) (now : Time)
  | claimNext (input : LeaseInput) (token : JsString) (skipped : List Uuid) (now : Time)
  | heartbeat (input : HeartbeatInput) (now : Time)
  | complete (input : CompleteInput) (now : Time)
  | fail (input : FailInput) (now : Time)

/-- What a call answers; the record of an inspection together with the
inspection it completes. -/
inductive Answer
  | done
  | inspecting (inspection : Inspection)
  | inspected (inspection : Inspection) (record : AcceptanceRecord)
  | enqueued (answer : EnqueueAnswer)
  | exhausted (jobs : List JobRow)
  | leased (lease : Option LeasedJob)
  | extended (job : JobRow)
  | completed (job : JobRow)
  | failed (job : JobRow)
  deriving DecidableEq, Repr

variable (platform : Platform)

def call (tables : Tables) : Command → Except Refusal (Tables × Answer)
  | .catalogue document => pure (tables.catalogue document, .done)
  | .registerVersion input => do
      let tables ← registerVersion tables input
      pure (tables, .done)
  | .beginInspection input objectId now => do
      let out ← beginInspection platform tables input objectId now
      pure (out.1, .inspecting out.2)
  | .completeInspection inspection outcome scanId now => do
      let out ← completeInspection platform tables inspection outcome scanId now
      pure (out.1, .inspected inspection out.2)
  | .enqueue input jobId now => do
      let out ← enqueue platform tables input jobId now
      pure (out.1, .enqueued out.2)
  | .exhaustExpired tenantId skipped now => do
      let out ← exhaustExpired tables tenantId skipped now
      pure (out.1, .exhausted out.2)
  | .claimNext input token skipped now => do
      let out ← claimNext platform tables input token skipped now
      pure (out.1, .leased out.2)
  | .heartbeat input now => do
      let out ← heartbeat platform tables input now
      pure (out.1, .extended out.2)
  | .complete input now => do
      let out ← complete platform tables input now
      pure (out.1, .completed out.2)
  | .fail input now => do
      let out ← fail platform tables input now
      pure (out.1, .failed out.2)

/-- The tables with everything the service has answered, the newest first. -/
structure Ledger where
  tables : Tables
  history : List Answer

def Ledger.opening : Ledger where
  tables := .empty
  history := []

/-- One call: what it answers is recorded, and a refusal leaves everything as
it was. -/
def Ledger.step (ledger : Ledger) (command : Command) : Ledger :=
  settle ledger (do
    let out ← call platform ledger.tables command
    pure { tables := out.1, history := out.2 :: ledger.history })

/-! ## What a call does -/

/-- **Effect of a call.**  What a call that returns found in the tables, what
it made of them and what it answered. -/
inductive Effect (tables : Tables) : Command → Tables → Answer → Prop
  | catalogued (document : DocumentRow) :
      Effect tables (.catalogue document) (tables.catalogue document) .done
  | registered (input : VersionInput) (hfresh : ∀ version ∈ tables.versions, version.id ≠ input.id) :
      Effect tables (.registerVersion input)
        { tables with versions := tables.versions ++ [input.row] } .done
  | begun {input objectId now inspection} (mediaType : JsString)
      (hfresh : ∀ row ∈ tables.objects, row.id ≠ objectId)
      (hunbound : ∀ row ∈ tables.objects,
        ¬ (row.tenantId = input.tenantId ∧ row.reference = input.object))
      (hid : inspection.artifactObjectId = objectId) :
      Effect tables (.beginInspection input objectId now)
        { tables with objects := tables.objects ++ [input.register mediaType objectId now] }
        (.inspecting inspection)
  | restarted {input objectId now inspection} (object : ObjectRow) (hobject : object ∈ tables.objects)
      (hreference : object.tenantId = input.tenantId ∧ object.reference = input.object)
      (hversion : object.documentVersionId = input.documentVersionId)
      (hid : inspection.artifactObjectId = object.id) :
      Effect tables (.beginInspection input objectId now)
        { tables with
          objects := updateWhere (·.id = object.id)
            (fun _ => object.restart input.principalId now) tables.objects }
        (.inspecting inspection)
  | inspected {inspection outcome scanId now record} (object : ObjectRow) (scan : ScanRow)
      (hobject : object ∈ tables.objects)
      (hkey : object.key = (inspection.tenantId, inspection.artifactObjectId))
      (hversion : (inspection.tenantId, inspection.documentVersionId) = object.version)
      (hrecord : record.status = if outcome.verdict = .clean then .accepted else .rejected)
      (hscanning : object.status = .scanning)
      (hgeneration : object.inspectionGeneration = inspection.inspectionGeneration)
      (hscan : scan.id = scanId ∧ scan.object = object.key ∧
        scan.inspectionGeneration = object.inspectionGeneration)
      (hunscanned : ∀ row ∈ tables.scans, row.id ≠ scanId ∧
        ¬ (row.object = object.key ∧ row.inspectionGeneration = object.inspectionGeneration))
      (hproof : outcome.verdict = .clean → (∃ proof ∈ tables.scans ++ [scan],
        (object.decide outcome scanId now).ProvenBy proof) ∧
          outcome.expiry.any (now < ·) = true) :
      Effect tables (.completeInspection inspection outcome scanId now)
        { tables with
          scans := tables.scans ++ [scan]
          objects := updateWhere (·.id = object.id) (fun _ => object.decide outcome scanId now)
            (makeRoom tables object outcome.verdict now).objects }
        (.inspected inspection record)
  | admitted {input jobId now} (identity : JobIdentity) (version : VersionRow × DocumentRow)
      (hidentity : buildIngestionJobIdentity platform input = .ok identity)
      (hversion : tables.activeVersion? (identity.tenantId, identity.documentVersionId) =
        some version)
      (hcontent : version.1.contentSha256 = identity.artifactSha256)
      (hadmits : tables.admits (identity.job input.pipelineConfig jobId now)) :
      Effect tables (.enqueue input jobId now)
        { tables with jobs := tables.jobs ++ [identity.job input.pipelineConfig jobId now] }
        (.enqueued (.new (identity.job input.pipelineConfig jobId now)))
  | resolved {input jobId now answer} (identity : JobIdentity) (version : VersionRow × DocumentRow)
      (hidentity : buildIngestionJobIdentity platform input = .ok identity)
      (hversion : tables.activeVersion? (identity.tenantId, identity.documentVersionId) =
        some version)
      (hcontent : version.1.contentSha256 = identity.artifactSha256)
      (hconflict : ¬ tables.admits (identity.job input.pipelineConfig jobId now))
      (hanswer : tables.resolveConflict identity = .ok answer) :
      Effect tables (.enqueue input jobId now) tables (.enqueued answer)
  | exhausted {tenantId skipped now} (versions : List VersionRow)
      (hfound : ∀ job ∈ tables.exhausted tenantId skipped now,
        ∃ version ∈ tables.versions, version.key = job.version)
      (hversions : versions = updateWhere
        (fun version => ∃ job ∈ tables.exhausted tenantId skipped now, job.version = version.key)
        (·.assign .failed now) tables.versions) :
      Effect tables (.exhaustExpired tenantId skipped now)
        { tables with
          jobs := updateWhere (· ∈ tables.exhausted tenantId skipped now) (·.exhaust now)
            tables.jobs
          versions }
        (.exhausted (tables.exhausted tenantId skipped now))
  | idle {input token skipped now} (hnone : tables.leasable input.tenantId skipped now = []) :
      Effect tables (.claimNext input token skipped now) tables (.leased none)
  | leased {input token skipped now} (job : JobRow) (binding : ObjectRow × ScanRow)
      (owner : Sha256) (duration : Int) (lease : LeasedJob)
      (hleasable : (job, binding) ∈ tables.leasable input.tenantId skipped now)
      (hfirst : ∀ other ∈ tables.leasable input.tenantId skipped now,
        job.leaseRank ≤ other.1.leaseRank)
      (hlease : lease.job = job.lease binding owner (platform.sha256 token)
        (now + seconds duration) now ∧ lease.leaseToken = token) :
      Effect tables (.claimNext input token skipped now) (tables.rewriteJob job lease.job)
        (.leased (some lease))
  | extended {input now} (job : JobRow) (duration : Int)
      (hheld : tables.held? (input.tenantId, input.jobId) (platform.sha256 input.leaseToken) now =
        some job) :
      Effect tables (.heartbeat input now)
        (tables.rewriteJob job (job.beat (now + seconds duration) now))
        (.extended (job.beat (now + seconds duration) now))
  | completed {input now} (job : JobRow) (version : VersionRow × DocumentRow)
      (binding : ObjectRow × ScanRow) (vectors : List VectorRow)
      (hheld : tables.held? (input.tenantId, input.jobId) (platform.sha256 input.leaseToken) now =
        some job)
      (hversion : tables.activeVersion? job.version = some version)
      (hbinding : binding ∈ tables.acceptances job.version job.artifactSha256 now)
      (hbound : job.artifactObjectId = some binding.1.id ∧ job.artifactScanId = some binding.2.id)
      (hvectors : replaceDocumentVersion tables.vectors job
        (documentIdentity version.1 version.2) input.records = .ok vectors) :
      Effect tables (.complete input now)
        { tables.rewriteJob job (job.complete now) with
          versions := updateWhere (·.key = job.version) (·.assign .processed now) tables.versions
          vectors }
        (.completed (job.complete now))
  | failed {input now} (job : JobRow)
      (hshape : isCodeText input.errorCode = true ∧ isLeaseToken input.leaseToken = true)
      (hdelay : 0 ≤ input.delay job ∧ input.delay job ≤ 900)
      (hheld : tables.held? (input.tenantId, input.jobId) (platform.sha256 input.leaseToken) now =
        some job)
      (hversion : ∃ version ∈ tables.versions, version.key = job.version) :
      Effect tables (.fail input now)
        { tables.rewriteJob job (input.outcome job now) with
          versions := updateWhere (·.key = job.version)
            (·.assign (input.outcome job now).status now) tables.versions }
        (.failed (input.outcome job now))

variable {platform} {tables tables' : Tables} {answer : Answer}

theorem updateObject_ok {old new : ObjectRow} {now : Time}
    (h : updateObject tables old new now = .ok tables') :
    (new.status = .accepted → (∃ scan ∈ tables.scans, new.ProvenBy scan) ∧
      new.acceptedUntil.any (now < ·) = true) ∧
    (new.status = .accepted → ∀ row ∈ tables.objects, row.id ≠ new.id →
      ¬ (row.status = .accepted ∧ row.version = new.version)) ∧
    tables' = { tables with
      objects := updateWhere (·.id = old.id) (fun _ => new) tables.objects } := by
  simp only [updateObject, validateAcceptance, then_ok, raiseUnless_ok, return_ok] at h
  obtain ⟨_, ⟨_, _, hproof⟩, _, _, _, hunique, rfl⟩ := h
  exact ⟨hproof, hunique, rfl⟩

theorem beginInspection_effect {input : BeginInput} {objectId : Uuid} {now : Time}
    {inspection : Inspection}
    (h : beginInspection platform tables input objectId now = .ok (tables', inspection)) :
    Effect platform tables (.beginInspection input objectId now) tables'
      (.inspecting inspection) := by
  simp only [beginInspection, then_ok, orRefuse_ok, require_ok, return_ok] at h
  obtain ⟨_, _, version, _, _, _, registered, hregistered, hout⟩ := h
  obtain ⟨rfl, rfl⟩ := Prod.mk.inj hout
  rw [registerObject] at hregistered
  split at hregistered
  case h_1 hnone =>
      simp only [insertObject, then_ok, raiseUnless_ok, return_ok] at hregistered
      obtain ⟨_, ⟨_, _, _, hfresh, rfl⟩, rfl⟩ := hregistered
      refine .begun _ hfresh ?_ rfl
      intro row hrow hsame
      exact List.find?_eq_none.mp hnone row hrow (decide_eq_true hsame)
  case h_2 object hfound =>
      simp only [then_ok, require_ok, return_ok] at hregistered
      obtain ⟨_, ⟨hversion, _⟩, _, _, _, hupdate, rfl⟩ := hregistered
      obtain ⟨_, _, rfl⟩ := updateObject_ok hupdate
      have hreference := List.find?_some hfound
      exact .restarted object (List.mem_of_find?_eq_some hfound)
        (by simpa only [decide_eq_true_eq] using hreference) hversion rfl

theorem makeRoom_scanned (scans : List ScanRow) (object : ObjectRow) (verdict : Verdict)
    (now : Time) :
    makeRoom { tables with scans } object verdict now =
      { tables with scans, objects := (makeRoom tables object verdict now).objects } := by
  cases verdict <;> rfl

theorem completeInspection_effect {inspection : Inspection} {outcome : InspectionOutcome}
    {scanId : Uuid} {now : Time} {record : AcceptanceRecord}
    (h : completeInspection platform tables inspection outcome scanId now =
      .ok (tables', record)) :
    Effect platform tables (.completeInspection inspection outcome scanId now) tables'
      (.inspected inspection record) := by
  simp only [completeInspection, insertScan, then_ok, orRefuse_ok, require_ok, raiseUnless_ok,
    return_ok] at h
  obtain ⟨_, _, inspectedAt, _, object, hfound, _, ⟨hversion, _, hscanning, hgeneration⟩, _,
    ⟨_, _, _, hid, _, hdistinct, rfl⟩, _, hupdate, hout⟩ := h
  obtain ⟨rfl, rfl⟩ := Prod.mk.inj hout
  have hkey : object.key = (inspection.tenantId, inspection.artifactObjectId) := by
    simpa only [decide_eq_true_eq] using List.find?_some hfound
  rw [makeRoom_scanned] at hupdate
  obtain ⟨hproof, _, rfl⟩ := updateObject_ok hupdate
  have hidentity : (inspection.tenantId, inspection.documentVersionId) = object.version :=
    Prod.ext (congrArg Prod.fst hkey).symm hversion.symm
  refine .inspected object _ (List.mem_of_find?_eq_some hfound) hkey hidentity rfl hscanning
    hgeneration
    ⟨rfl, hkey.symm, hgeneration.symm⟩ ?_ ?_
  · intro row hrow
    refine ⟨hid row hrow, fun hsame => hdistinct row hrow ⟨?_, ?_⟩⟩
    · exact hsame.1.trans hkey
    · exact hsame.2.trans hgeneration
  · intro hclean
    have haccepted : (object.decide outcome scanId now).status = .accepted := if_pos hclean
    have hexpiry : (object.decide outcome scanId now).acceptedUntil = outcome.expiry :=
      if_pos hclean
    exact hexpiry ▸ hproof haccepted

theorem enqueue_effect {input : EnqueueInput} {jobId : Uuid} {now : Time} {out : EnqueueAnswer}
    (h : enqueue platform tables input jobId now = .ok (tables', out)) :
    Effect platform tables (.enqueue input jobId now) tables' (.enqueued out) := by
  simp only [enqueue, then_ok, orRefuse_ok, require_ok] at h
  obtain ⟨identity, hidentity, version, hversion, _, hcontent, hout⟩ := h
  rw [Tables.admitOrResolve] at hout
  split_ifs at hout with hadmits
  · obtain ⟨rfl, rfl⟩ := Prod.mk.inj (return_ok.mp hout)
    exact .admitted identity version hidentity hversion hcontent hadmits
  · simp only [then_ok, return_ok] at hout
    obtain ⟨answer, hanswer, hout⟩ := hout
    obtain ⟨rfl, rfl⟩ := Prod.mk.inj hout
    exact .resolved identity version hidentity hversion hcontent hadmits hanswer

/-- The versions of the exhausted jobs are failed, one after the other. -/
theorem failVersions_ok {now : Time} {jobs : List JobRow}
    (h : failVersions tables now jobs = .ok tables') :
    (∀ job ∈ jobs, ∃ version ∈ tables.versions, version.key = job.version) ∧
      tables' = { tables with
        versions := updateWhere (fun version => ∃ job ∈ jobs, job.version = version.key)
          (·.assign .failed now) tables.versions } := by
  induction jobs generalizing tables with
  | nil =>
      obtain rfl := return_ok.mp h
      simp [updateWhere]
  | cons job jobs ih =>
      simp only [failVersions, then_ok, updateDocumentVersion_ok] at h
      obtain ⟨_, ⟨⟨version, hversion, hkey⟩, rfl⟩, hrest⟩ := h
      obtain ⟨hfound, rfl⟩ := ih hrest
      refine ⟨List.forall_mem_cons.mpr ⟨⟨version, hversion, hkey⟩, fun other hother => ?_⟩, ?_⟩
      · obtain ⟨row, hrow, hother⟩ := hfound other hother
        rcases mem_updateWhere.mp hrow with ⟨old, hold, _, rfl⟩ | ⟨hold, _⟩
        · exact ⟨old, hold, hother⟩
        · exact ⟨row, hold, hother⟩
      · congr 1
        simp only [updateWhere, List.map_map]
        refine List.map_congr_left fun row _ => ?_
        by_cases hjob : row.key = job.version
        · simp [hjob, VersionRow.assign]
        · have hjob' : job.version ≠ row.key := Ne.symm hjob
          simp [hjob, hjob']

theorem exhaustExpired_effect {tenantId : Uuid} {skipped : List Uuid} {now : Time}
    {jobs : List JobRow} (h : exhaustExpired tables tenantId skipped now = .ok (tables', jobs)) :
    Effect platform tables (.exhaustExpired tenantId skipped now) tables' (.exhausted jobs) := by
  simp only [exhaustExpired, then_ok, return_ok] at h
  obtain ⟨_, hfailed, hout⟩ := h
  obtain ⟨rfl, rfl⟩ := Prod.mk.inj hout
  obtain ⟨hfound, rfl⟩ := failVersions_ok hfailed
  exact .exhausted _ hfound rfl

theorem claimNext_effect {input : LeaseInput} {token : JsString} {skipped : List Uuid} {now : Time}
    {lease : Option LeasedJob}
    (h : claimNext platform tables input token skipped now = .ok (tables', lease)) :
    Effect platform tables (.claimNext input token skipped now) tables' (.leased lease) := by
  simp only [claimNext, boundedLeaseSeconds, then_ok, require_ok, return_ok] at h
  obtain ⟨_, _, duration, _, _, _, hclaim⟩ := h
  cases hfirst : least (fun candidate => candidate.1.leaseRank)
      (tables.leasable input.tenantId skipped now) with
  | none =>
      rw [hfirst] at hclaim
      obtain ⟨rfl, rfl⟩ := Prod.mk.inj (return_ok.mp hclaim)
      exact .idle (least_eq_none.mp hfirst)
  | some candidate =>
      rw [hfirst] at hclaim
      obtain ⟨job, binding⟩ := candidate
      simp only [Tables.claim, Tables.handOut, then_ok, orRefuse_ok, require_ok, return_ok]
        at hclaim
      obtain ⟨handed, ⟨_, _, _, _, rfl⟩, hout⟩ := hclaim
      obtain ⟨rfl, rfl⟩ := Prod.mk.inj hout
      obtain ⟨hmem, hleast⟩ := least_spec hfirst
      exact .leased job binding _ duration ⟨_, token, _⟩ hmem hleast ⟨rfl, rfl⟩

theorem heartbeat_effect {input : HeartbeatInput} {now : Time} {job : JobRow}
    (h : heartbeat platform tables input now = .ok (tables', job)) :
    Effect platform tables (.heartbeat input now) tables' (.extended job) := by
  simp only [heartbeat, then_ok, orRefuse_ok, require_ok, return_ok] at h
  obtain ⟨_, _, duration, _, old, hheld, hout⟩ := h
  obtain ⟨rfl, rfl⟩ := Prod.mk.inj hout
  exact .extended old duration hheld

theorem complete_effect {input : CompleteInput} {now : Time} {job : JobRow}
    (h : complete platform tables input now = .ok (tables', job)) :
    Effect platform tables (.complete input now) tables' (.completed job) := by
  simp only [complete, lockLease, updateDocumentVersion_ok, then_ok, orRefuse_ok, require_ok,
    return_ok] at h
  obtain ⟨_, _, old, ⟨_, _, hheld⟩, _, _, _, ⟨hobject, hscan⟩, version, hversion, _, _, _,
    ⟨binding, hbinding, hbound⟩, vectors, hvectors, _, ⟨_, rfl⟩, hout⟩ := h
  obtain ⟨rfl, rfl⟩ := Prod.mk.inj hout
  refine .completed old version binding vectors hheld hversion hbinding ⟨?_, ?_⟩ hvectors
  · rw [← hobject, hbound.1]
  · rw [← hscan, hbound.2]

theorem fail_effect {input : FailInput} {now : Time} {job : JobRow}
    (h : fail platform tables input now = .ok (tables', job)) :
    Effect platform tables (.fail input now) tables' (.failed job) := by
  simp only [fail, lockLease, updateDocumentVersion_ok, then_ok, orRefuse_ok, require_ok,
    return_ok] at h
  obtain ⟨_, hcode, old, ⟨_, htoken, hheld⟩, _, hdelay, _, ⟨hversion, rfl⟩, hout⟩ := h
  obtain ⟨rfl, rfl⟩ := Prod.mk.inj hout
  exact .failed old ⟨hcode, htoken⟩ hdelay hheld hversion

/-- **Inversion of a call.**  A call that returns has its effect. -/
theorem call_effect {command : Command}
    (h : call platform tables command = .ok (tables', answer)) :
    Effect platform tables command tables' answer := by
  cases command with
  | catalogue document =>
      obtain ⟨rfl, rfl⟩ := Prod.mk.inj (return_ok.mp h)
      exact .catalogued document
  | registerVersion input =>
      simp only [call, registerVersion, then_ok, raiseUnless_ok, return_ok] at h
      obtain ⟨_, ⟨_, _, _, hfresh, _, _, rfl⟩, hout⟩ := h
      obtain ⟨rfl, rfl⟩ := Prod.mk.inj hout
      exact .registered input hfresh
  | beginInspection input objectId now =>
      simp only [call, then_ok, return_ok] at h
      obtain ⟨out, hcall, hout⟩ := h
      obtain ⟨rfl, rfl⟩ := Prod.mk.inj hout
      exact beginInspection_effect hcall
  | completeInspection inspection outcome scanId now =>
      simp only [call, then_ok, return_ok] at h
      obtain ⟨out, hcall, hout⟩ := h
      obtain ⟨rfl, rfl⟩ := Prod.mk.inj hout
      exact completeInspection_effect hcall
  | enqueue input jobId now =>
      simp only [call, then_ok, return_ok] at h
      obtain ⟨out, hcall, hout⟩ := h
      obtain ⟨rfl, rfl⟩ := Prod.mk.inj hout
      exact enqueue_effect hcall
  | exhaustExpired tenantId skipped now =>
      simp only [call, then_ok, return_ok] at h
      obtain ⟨out, hcall, hout⟩ := h
      obtain ⟨rfl, rfl⟩ := Prod.mk.inj hout
      exact exhaustExpired_effect hcall
  | claimNext input token skipped now =>
      simp only [call, then_ok, return_ok] at h
      obtain ⟨out, hcall, hout⟩ := h
      obtain ⟨rfl, rfl⟩ := Prod.mk.inj hout
      exact claimNext_effect hcall
  | heartbeat input now =>
      simp only [call, then_ok, return_ok] at h
      obtain ⟨out, hcall, hout⟩ := h
      obtain ⟨rfl, rfl⟩ := Prod.mk.inj hout
      exact heartbeat_effect hcall
  | complete input now =>
      simp only [call, then_ok, return_ok] at h
      obtain ⟨out, hcall, hout⟩ := h
      obtain ⟨rfl, rfl⟩ := Prod.mk.inj hout
      exact complete_effect hcall
  | fail input now =>
      simp only [call, then_ok, return_ok] at h
      obtain ⟨out, hcall, hout⟩ := h
      obtain ⟨rfl, rfl⟩ := Prod.mk.inj hout
      exact fail_effect hcall

/-- A step is refused and changes nothing, or it has an effect and records the
answer. -/
theorem Ledger.step_cases (platform : Platform) (ledger : Ledger) (command : Command) :
    ledger.step platform command = ledger ∨
      ∃ tables' answer, Effect platform ledger.tables command tables' answer ∧
        ledger.step platform command =
          { tables := tables', history := answer :: ledger.history } := by
  cases hcall : call platform ledger.tables command with
  | error refusal =>
      refine .inl ?_
      rw [Ledger.step, hcall]
      rfl
  | ok out =>
      refine .inr ⟨out.1, out.2, call_effect hcall, ?_⟩
      rw [Ledger.step, hcall]
      rfl

theorem Ledger.step_of_call {ledger : Ledger} {command : Command}
    (h : call platform ledger.tables command = .ok (tables', answer)) :
    ledger.step platform command = { tables := tables', history := answer :: ledger.history } := by
  rw [Ledger.step, h]
  rfl

/-- **Atomic lease.**  A `leaseNext` that returns leaves the tables that its
two halves leave one after the other. -/
theorem leaseNext_run {ledger : Ledger} {input : LeaseInput} {token : JsString}
    {exhaustSkipped skipped : List Uuid} {exhaustedAt now : Time} {lease : Option LeasedJob}
    (h : leaseNext platform ledger.tables input token exhaustSkipped skipped exhaustedAt now =
      .ok (tables', lease)) :
    (Runs.run (Ledger.step platform) ledger
      [.exhaustExpired input.tenantId exhaustSkipped exhaustedAt,
        .claimNext input token skipped now]).tables = tables' := by
  simp only [leaseNext, then_ok] at h
  obtain ⟨exhausted, hexhausted, hclaim⟩ := h
  have hfirst : call platform ledger.tables
      (.exhaustExpired input.tenantId exhaustSkipped exhaustedAt) =
        .ok (exhausted.1, .exhausted exhausted.2) := by
    simp only [call, then_ok, return_ok]
    exact ⟨exhausted, hexhausted, rfl⟩
  have hsecond : call platform exhausted.1 (.claimNext input token skipped now) =
      .ok (tables', .leased lease) := by
    simp only [call, then_ok, return_ok]
    exact ⟨(tables', lease), hclaim, rfl⟩
  simp only [Runs.run, Ledger.step_of_call hfirst]
  rw [Ledger.step_of_call hsecond]

/-! ## A sample world -/

/-- A digest function given by a table; the digest of any other text is the
text itself under a mark that no table entry has. -/
def digestFrom (table : List (JsString × Sha256)) (text : JsString) : Sha256 :=
  match table.find? (·.1 = text) with
  | some entry => entry.2
  | none => 0x78 :: text

/-- Such a function has no collisions when its table has none. -/
theorem digestFrom_injective {table : List (JsString × Sha256)}
    (hvalues : (table.map Prod.snd).Nodup) (hmark : ∀ entry ∈ table, entry.2.head? ≠ some 0x78) :
    Function.Injective (digestFrom table) := by
  intro a b hsame
  simp only [digestFrom] at hsame
  cases ha : table.find? (·.1 = a) with
  | none =>
      cases hb : table.find? (·.1 = b) with
      | none => simpa [ha, hb] using hsame
      | some entry =>
          rw [ha, hb] at hsame
          have hmarked : entry.2 = 0x78 :: a := hsame.symm
          exact absurd (by simp [hmarked]) (hmark entry (List.mem_of_find?_eq_some hb))
  | some entry =>
      have hentry : entry.1 = a := by simpa using List.find?_some ha
      cases hb : table.find? (·.1 = b) with
      | none =>
          rw [ha, hb] at hsame
          have hmarked : entry.2 = 0x78 :: b := hsame
          exact absurd (by simp [hmarked]) (hmark entry (List.mem_of_find?_eq_some ha))
      | some other =>
          have hother : other.1 = b := by simpa using List.find?_some hb
          rw [ha, hb] at hsame
          have heq : entry = other := List.inj_on_of_nodup_map hvalues
            (List.mem_of_find?_eq_some ha) (List.mem_of_find?_eq_some hb) hsame
          rw [← hentry, ← hother, heq]

/-- The UUID whose text is `sampleUuid d`. -/
def sampleId (d : Nat) : Uuid := 0x40008000000000000000 + d

def sampleArtifact : Sha256 :=
  js "b221d9dbb083a7f33428d7c2a3c3198ae925614d70210e28716ccaa7cd4ddb79"

def sampleConfig (extractorVersion : String) : PipelineConfig where
  contractVersion := js "v1"
  extractorName := js "pdf_text"
  extractorVersion := js extractorVersion
  chunkPlannerName := js "section_text_v1"
  maxChars := 1200
  overlapChars := 120
  embeddingProvider := js "local"
  embeddingModel := js "e5"
  embeddingDimension := 1536

/-- The SHA-256 digests of the texts of the sample runs. -/
def sampleDigests : List (JsString × Sha256) := [
  ((sampleConfig "1.0.0").canonicalText,
    js "74d1a34751c33f0ffdaf21981d4d4a660c94c555dceb12101f571897702b062e"),
  (workText (sampleId 1) (sampleId 3) sampleArtifact
      (js "74d1a34751c33f0ffdaf21981d4d4a660c94c555dceb12101f571897702b062e"),
    js "7b559109f072493713a2b84a8520f4e63b34ad41780418cb0c577858124a44c3"),
  (requestText (sampleId 2)
      (js "7b559109f072493713a2b84a8520f4e63b34ad41780418cb0c577858124a44c3") 3,
    js "251a31205c8f8f1f6acc1793f05cf2bf540c4cb6d6561e4042f3e18dbf350b85"),
  ((sampleConfig "2.0.0").canonicalText,
    js "df18522aeac5bbf252a4dfc5f7bbd3eb47cf7ca1fd270e96a19066bc3c6089f3"),
  (workText (sampleId 1) (sampleId 3) sampleArtifact
      (js "df18522aeac5bbf252a4dfc5f7bbd3eb47cf7ca1fd270e96a19066bc3c6089f3"),
    js "2f230c873212ce20177288406032d3d1f55249725504878b265069656116115e"),
  (requestText (sampleId 2)
      (js "2f230c873212ce20177288406032d3d1f55249725504878b265069656116115e") 3,
    js "9f216eb3123c99130edc4c87a465b7f1cad1671034219ea782e4fb4e22661318"),
  (js "clave-aaaa", js "2f9d5d2400da9e78a9bc58e5942273895d0c424420247013f1f2b75e04484919"),
  (js "clave-bbbb", js "b42bcf0ec05d8d7b02f302bd91c82ce818b3e61423f48cf16a526b50f86c0e3e"),
  (js "clave-cccc", js "8352b21bc97f523a2d88004d8cd4d97ebac0ae9f4755abb1ca55f8c164911ad4"),
  (js "worker-1", js "13029f9e83d15b3d437c2a7568fc1ca7990ecf3ff79bef6da08f13ff5ae12af8"),
  (js "aaaaaaaaaaaaaaaaaaaaaaaaaaaaaaaa",
    js "3ba3f5f43b92602683c19aee62a20342b084dd5971ddd33808d81a328879a547"),
  (js "bbbbbbbbbbbbbbbbbbbbbbbbbbbbbbbb",
    js "bdb339768bc5e4fecbe55a442056919b2b325907d49bcbf3bf8de13781996a83"),
  (js "cccccccccccccccccccccccccccccccc",
    js "cd93782b7fb95559de14f738b65988af85d41dc1565f7c7d1ed2d035665b519c")]

def samplePlatform : Platform where
  sha256 := digestFrom sampleDigests
  toLowerCase := List.map lowerUnit
  hasControl text := text.any isControl

theorem samplePlatform_injective : Function.Injective samplePlatform.sha256 :=
  digestFrom_injective (by decide) (by decide)

def sampleDocument : DocumentRow where
  id := sampleId 4
  tenantId := sampleId 1
  status := .active
  title := js "Manual"
  documentKey := some (js "manual")

def sampleVersion : VersionInput where
  id := sampleId 3
  tenantId := sampleId 1
  documentId := sampleId 4
  versionLabel := js "v1"
  contentSha256 := sampleArtifact

def sampleObject : ArtifactObjectReference where
  storeName := js "local"
  objectNamespace := js "corpus"
  objectKey := js "manual.pdf"
  objectVersion := js "1"

def sampleBegin : BeginInput where
  tenantId := sampleId 1
  principalId := sampleId 2
  documentVersionId := sampleId 3
  artifactSha256 := sampleArtifact
  originalFilename := js "manual.pdf"
  mediaType := js "application/pdf"
  object := sampleObject

/-- The inspection of the sample object under a generation. -/
def sampleInspection (generation : Nat) : Inspection where
  artifactObjectId := sampleId 5
  tenantId := sampleId 1
  principalId := sampleId 2
  documentVersionId := sampleId 3
  artifactSha256 := sampleArtifact
  originalFilename := js "manual.pdf"
  mediaType := js "application/pdf"
  object := sampleObject
  inspectionGeneration := generation

/-- A clean scan made at an instant, accepted for one hour. -/
def sampleClean (inspectedAt : Time) : InspectionOutcome where
  verdict := .clean
  contentSha256 := some sampleArtifact
  byteLength := some 4
  detectedMediaType := some (js "application/pdf")
  structuralSignature := some (js "pdf")
  inspectedAt := some inspectedAt
  scannerEngine := js "clamav"
  scannerEngineVersion := js "1.4"
  scannerDefinitionsVersion := some (js "27000")
  malwareSignature := none
  failureCode := none
  acceptedUntil := some (some (inspectedAt + 3600000))

def sampleEnqueue (extractorVersion key : String) : EnqueueInput where
  tenantId := sampleUuid 1
  principalId := sampleUuid 2
  documentVersionId := sampleUuid 3
  artifactSha256 := sampleArtifact
  idempotencyKey := js key
  pipelineConfig := sampleConfig extractorVersion
  maxAttempts := none

def sampleLease : LeaseInput where
  tenantId := sampleId 1
  workerId := js "worker-1"
  leaseDurationSeconds := none

def sampleToken (letter : Char) : JsString := js (String.ofList (List.replicate 32 letter))

def sampleRecord : VectorRecord where
  chunkId := js "manual:v1:1"
  documentKey := js "manual"
  documentVersion := js "v1"
  documentTitle := js "Manual"
  sourceFormat := js "pdf"
  sectionPath := []
  sectionType := js "page"
  pageStart := some 1
  pageEnd := some 1
  articleNumber := none
  citationLabel := some (js "p. 1")
  chunkOrdinal := 1
  text := js "hola"
  contentSha256 := sampleArtifact
  tokenEstimate := 1
  metadata := [0x7b, 0x7d]
  embeddingLiteral := js "[0]"
  embeddingLength := 1536
  embeddingFinite := true
  embeddingModel := js "e5"
  embeddingProvider := js "local"
  embeddingDimension := 1536
  isEmbedded := true
  hasFailure := false

def sampleComplete (jobId scanId : Uuid) (token : JsString) : CompleteInput where
  tenantId := sampleId 1
  jobId := jobId
  leaseToken := token
  artifactSha256 := sampleArtifact
  artifactObjectId := sampleId 5
  artifactScanId := scanId
  records := [sampleRecord]

def sampleFail (jobId : Uuid) (token : JsString) (retryable : Bool) : FailInput where
  tenantId := sampleId 1
  jobId := jobId
  leaseToken := token
  errorCode := js "extraction_failed"
  retryable := retryable
  retryDelaySeconds := none

/-- The sample version with its artifact accepted under its first scan. -/
def sampleAccepted : List Command := [
  .catalogue sampleDocument,
  .registerVersion sampleVersion,
  .beginInspection sampleBegin (sampleId 5) 1000,
  .completeInspection (sampleInspection 1) (sampleClean 1500) (sampleId 6) 2000]

end Ingestion
